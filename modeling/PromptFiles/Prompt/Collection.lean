import PromptFiles.Glob.Pattern
import PromptFiles.Prompt.Source

/-!
# Collecting and loading prompt files

A path that is a directory contributes the files below it that match the pattern, in the
order of their paths; any other path contributes itself. Directories further down are
entered on request, links in them never; one that cannot be opened is an error. More files
than the limit are an error too. Both come before any file is read.
-/

namespace PromptFiles

structure LoadOptions where
  recursive : Bool := false
  glob : String := "*.txt"
  mode : Option Mode := none
  maxFiles : Option Nat := some 1000
deriving DecidableEq, Repr

/-- What a pattern looks at: the name of a file, or its path below the directory. -/
def Glob.Pattern.acceptsNames (p : Pattern) (names : List String) : Bool :=
  if p.isRelative then p.accepts ("/".intercalate names)
  else p.accepts (names.getLastD "")

def FileTree.Entry.isFile : FileTree.Entry → Bool
  | .file _ => true
  | _ => false

def listed (root : String) (pattern : Glob.Pattern)
    (walked : List (List String × FileTree.Entry)) : List String :=
  let found := walked.filter fun (names, entry) => entry.isFile && pattern.acceptsNames names
  ((found.map Prod.fst).map (Path.below root)).mergeSort fun a b => !Path.less b a

/-- How deep a walk goes. No path is long enough to open a directory that is deeper. -/
def walkDepth (recursive : Bool) : Nat :=
  if recursive then UInt64.size - 1 else 1

/-- The files below a directory that match, unless the walk fails on a directory. Directories that
it does not go into need not be open to it. -/
def discover (t : FileTree) (root : String) (pattern : Glob.Pattern) (recursive : Bool) :
    Except PromptError (List String) :=
  match t.resolve true root with
  | .error fault => .error (.walk root root fault)
  | .ok (.missing _ _) => .error (.walk root root .notFound)
  | .ok (.existing _ .directory) => do
    let walked ← (t.walkBelow root [] (walkDepth recursive)).mapM
      (Except.mapError fun (path, fault) => .walk root path fault)
    return listed root pattern walked
  | .ok (.existing _ _) => .ok []

def collectOne (t : FileTree) (pattern : Glob.Pattern) (recursive : Bool) (path : String) :
    Except PromptError (List String) :=
  if t.isDirectory path then discover t path pattern recursive else .ok [path]

/-- Collect after the files found so far, checking the limit after each path. -/
def collectAfter (t : FileTree) (pattern : Glob.Pattern) (opts : LoadOptions)
    (found : List String) : List String → Except PromptError (List String)
  | [] => .ok found
  | path :: rest => do
    let found := found ++ (← collectOne t pattern opts.recursive path)
    match opts.maxFiles with
    | some limit =>
      if limit < found.length then .error (.tooManyFiles limit)
      else collectAfter t pattern opts found rest
    | none => collectAfter t pattern opts found rest

def collect (t : FileTree) (opts : LoadOptions) (paths : List String) :
    Except PromptError (List String) :=
  match Glob.Pattern.parse opts.glob with
  | .error cause => .error (.invalidPattern opts.glob cause)
  | .ok pattern => collectAfter t pattern opts [] paths

def loadPrompts (settings : Settings) (t : FileTree) (opts : LoadOptions) (paths : List String) :
    Except PromptError (List Prompt) := do
  let files ← collect t opts paths
  files.mapM (loadPrompt settings t opts.mode)

/-- What is logged while files are parsed, up to the first that fails. -/
def filesEvents (settings : Settings) (t : FileTree) (mode : Option Mode) :
    List String → List Log.Event
  | [] => []
  | path :: rest =>
    sourceEvents settings (t.source none) mode path ++
      match loadPrompt settings t mode path with
      | .ok _ => filesEvents settings t mode rest
      | .error _ => []

end PromptFiles
