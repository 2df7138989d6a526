import PromptFiles.Command.Run

/-!
# Workspaces

A workspace is all that the operations of the library share: the files, the environment,
the settings in force, the texts kept in memory and the options for loading many files.
An operation is a step from one workspace to the next, with a reply.
-/

namespace PromptFiles

structure Workspace where
  tree : FileTree
  environment : Environment := {}
  settings : Settings := {}
  memory : Memory := {}
  options : LoadOptions := {}

namespace Workspace

inductive Step where
  | write (path : String) (bytes : ByteArray)
  | makeDirectory (path : String)
  | makeLink (target path : String)
  | read (path : String)
  | load (root : Option String) (mode : Option Mode) (id : String)
  | collect (options : LoadOptions) (paths : List String)
  | loadAll (options : LoadOptions) (paths : List String)
  | discover (root pattern : String) (recursive : Bool)
  | save (path : String) (metadata : Metadata) (body : String)
  | saveText (path body : String)
  | keep (id text : String)
  | isKept (id : String)
  | recall (id : String)
  | parseKept (mode : Option Mode) (id : String)
  | parse (mode : Option Mode) (id text : String)
  | settings
  | setMode (mode : Mode)
  | setModeText (text : String)
  | skipMetadata
  | setWarning (warnOnIgnored : Bool)
  | resolve (mode : Option Mode)
  | configPath
  | configure (path : Option String) (inForce : Bool)
  | command (environment : Environment) (today : Calendar.Date) (arguments : List String)

inductive Reply where
  | done
  | text (text : String)
  | truth (b : Bool)
  | paths (paths : List String)
  | prompt (p : Prompt)
  | prompts (ps : List Prompt)
  | settings (s : Settings)
  | mode (m : Mode)
  | config (c : Config)
  | outcome (o : Command.Outcome)
  | invalidMode (text : String)
  | fault (f : FileTree.Fault)
  | promptError (e : PromptError)
  | configError (e : ConfigError)

namespace Reply

def ofParsed : Except PromptError Prompt → Reply
  | .ok p => prompt p
  | .error e => promptError e

def ofPaths : Except PromptError (List String) → Reply
  | .ok files => paths files
  | .error e => promptError e

def ofPrompts : Except PromptError (List Prompt) → Reply
  | .ok ps => prompts ps
  | .error e => promptError e

def ofSaved : Except PromptError Unit → Reply
  | .ok () => done
  | .error e => promptError e

def ofText : Except FileTree.Fault String → Reply
  | .ok s => text s
  | .error f => fault f

end Reply

def withTree (w : Workspace) : Except FileTree.Fault FileTree → Workspace × Reply
  | .ok tree => ({ w with tree }, .done)
  | .error f => (w, .fault f)

def below (w : Workspace) (path : String) (change : FileTree → Except FileTree.Fault FileTree) :
    Workspace × Reply :=
  match w.tree.makeParents path with
  | (tree, .ok ()) => { w with tree }.withTree (change tree)
  | (tree, .error (_, f)) => ({ w with tree }, .fault f)

def withSettings (w : Workspace) (settings : Settings) : Workspace × Reply :=
  ({ w with settings }, .settings settings)

def discovered (w : Workspace) (root pattern : String) (recursive : Bool) :
    Except PromptError (List String) :=
  match Glob.Pattern.parse pattern with
  | .ok p => PromptFiles.discover w.tree root p recursive
  | .error cause => .error (.invalidPattern pattern cause)

def withConfig (w : Workspace) (c : Config) : Workspace :=
  { w with settings := c.apply w.settings, options := c.loadOptions }

def step (w : Workspace) : Step → Workspace × Reply
  | .write path bytes => w.below path (·.writeBytes path bytes)
  | .makeDirectory path =>
    match w.tree.makeDirectories path with
    | (tree, .ok ()) => ({ w with tree }, .done)
    | (tree, .error f) => ({ w with tree }, .fault f)
  | .makeLink target path => w.below path (·.makeLink target path)
  | .read path => (w, .ofText (w.tree.readText path))
  | .load root mode id => (w, .ofParsed (parseSource w.settings (w.tree.source root) mode id))
  | .collect options paths => (w, .ofPaths (PromptFiles.collect w.tree options paths))
  | .loadAll options paths => (w, .ofPrompts (loadPrompts w.settings w.tree options paths))
  | .discover root pattern recursive => (w, .ofPaths (w.discovered root pattern recursive))
  | .save path metadata body =>
    let (tree, saved) := PromptFiles.save w.tree path metadata body
    ({ w with tree }, .ofSaved saved)
  | .saveText path body =>
    let (tree, saved) := PromptFiles.saveText w.tree path body
    ({ w with tree }, .ofSaved saved)
  | .keep id text => ({ w with memory := w.memory.insert id text }, .done)
  | .isKept id => (w, .truth (w.memory.source.holds id))
  | .recall id => (w, .ofText (w.memory.source.read id))
  | .parseKept mode id => (w, .ofParsed (parseSource w.settings w.memory.source mode id))
  | .parse mode id text => (w, .ofParsed (parseText w.settings mode id text))
  | .settings => (w, .settings w.settings)
  | .setMode mode => w.withSettings (w.settings.withMode mode)
  | .setModeText text =>
    match w.settings.withModeText? text with
    | some settings => w.withSettings settings
    | none => (w, .invalidMode text)
  | .skipMetadata => w.withSettings (w.settings.withMode .ignore)
  | .setWarning warnOnIgnored => w.withSettings (w.settings.withWarning warnOnIgnored)
  | .resolve mode => (w, .mode (w.settings.resolve mode))
  | .configPath => (w, .text (Config.defaultPath w.environment))
  | .configure path inForce =>
    match Config.load w.tree w.environment path with
    | .ok c => (if inForce then w.withConfig c else w, .config c)
    | .error e => (w, .configError e)
  | .command environment today arguments =>
    let outcome := Command.run w.tree environment today arguments
    ({ w with tree := outcome.tree }, .outcome outcome)

def run (w : Workspace) : List Step → Workspace × List Reply
  | [] => (w, [])
  | s :: rest =>
    let (w, reply) := w.step s
    let (w, replies) := w.run rest
    (w, reply :: replies)

end Workspace

end PromptFiles
