import PromptFiles.Workspace.Step

/-!
# What a workspace logs

The events of a step, in order. A command has a log of its own.
-/

namespace PromptFiles.Workspace

def savedEvents (path : String) : Except PromptError Unit → List Log.Event
  | .ok () => [.savedPrompt path]
  | .error _ => []

def configEvents (w : Workspace) (path : Option String) (inForce : Bool) : List Log.Event :=
  let place := Config.defaultPath w.environment
  let searched := if path.isNone && !w.tree.exists? place then [.noConfig place] else []
  match Config.load w.tree w.environment path with
  | .ok c => searched ++ if inForce then c.metadata.mode.toList.map .changedMode else []
  | .error _ => searched

def loadedEvents (w : Workspace) (options : LoadOptions) (paths : List String) : List Log.Event :=
  match PromptFiles.collect w.tree options paths with
  | .error _ => []
  | .ok files =>
    filesEvents w.settings w.tree options.mode files ++
      match loadPrompts w.settings w.tree options paths with
      | .ok ps => [.loadedPrompts ps.length]
      | .error _ => []

def events (w : Workspace) : Step → List Log.Event
  | .load root mode id => sourceEvents w.settings (w.tree.source root) mode id
  | .loadAll options paths => w.loadedEvents options paths
  | .save path metadata body =>
    savedEvents path (PromptFiles.save w.tree path metadata body).2
  | .saveText path body => savedEvents path (PromptFiles.saveText w.tree path body).2
  | .parseKept mode id => sourceEvents w.settings w.memory.source mode id
  | .parse mode id text =>
    parseEvents w.settings (w.settings.resolve mode) (namedSource id) text
  | .setMode mode => [.changedMode mode]
  | .setModeText text => (Mode.parse? text).toList.map .changedMode
  | .skipMetadata => [.changedMode .ignore]
  | .configure path inForce => w.configEvents path inForce
  | _ => []

def warnings (w : Workspace) (s : Step) : List String :=
  ((w.events s).filter (·.level == .warn)).map (·.message)

end PromptFiles.Workspace
