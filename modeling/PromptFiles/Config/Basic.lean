import PromptFiles.Config.Expand
import PromptFiles.FileTree.Access
import PromptFiles.Log
import PromptFiles.Prompt.Collection
import PromptFiles.Release
import PromptFiles.Toml.Reader

/-!
# Configuration

A configuration is a TOML file of version 1 with three tables, each of which may be left
out, as may its keys; other keys are passed over, but their numbers have to be readable.
A table may also be written as an array of its values in order, and a date or a time
stands for one without any keys. The file is the one that is asked for, or else the one
at the default place, which need not be there.
-/

namespace PromptFiles

namespace Config

structure MetadataPart where
  mode : Option Mode := none
  warnOnIgnored : Bool := true
deriving DecidableEq, Repr

structure LoadingPart where
  glob : String := "*.txt"
  recursive : Bool := false
  /-- No limit if it is zero. -/
  maxFiles : Nat := 1000
deriving DecidableEq, Repr

structure LoggingPart where
  level : String := "info"
  fileLevel : Option String := none
  file : Option String := none
deriving DecidableEq, Repr

structure File where
  version : Nat := 1
  metadata : MetadataPart := {}
  loading : LoadingPart := {}
  logging : LoggingPart := {}
deriving DecidableEq, Repr

open Toml (Node)

def member? (node : Node) (key : String) (index : Nat) : Option Node :=
  match node.entries? with
  | some entries => Node.Entries.find? key entries
  | none => node.items?.bind (·[index]?)

/-- A table in which what is passed over can be read, or what may stand in its place. -/
def isRecord (keys : List String) : Node → Bool
  | .datetime _ => true
  | node =>
    match node.entries? with
    | some entries => entries.all fun (key, n) => key ∈ keys || n.isReadable
    | none => node.items?.isSome

def optional (node : Node) (key : String) (index : Nat) (decode : Node → Option α) (default : α) :
    Option α :=
  match member? node key index with
  | some member => decode member
  | none => some default

def string? : Node → Option String
  | .string s => some s
  | _ => none

def boolean? : Node → Option Bool
  | .boolean b => some b
  | _ => none

def natural? (limit : Nat) : Node → Option Nat
  | .integer i => if 0 ≤ i && i < limit then some i.toNat else none
  | _ => none

/-- The name of a mode, or a table with the name as its one key and nothing under it. -/
def mode? : Node → Option Mode
  | .string s => Mode.ofName? s
  | node =>
    match node.entries? with
    | some [(name, inner)] =>
      if inner.entries?.any (·.isEmpty) || inner.items?.any (·.isEmpty) then Mode.ofName? name
      else none
    | _ => none

def metadata? (node : Node) : Option MetadataPart :=
  if isRecord ["mode", "warn_on_ignored"] node then do
    let mode ← optional node "mode" 0 (fun n => (mode? n).map some) none
    let warnOnIgnored ← optional node "warn_on_ignored" 1 boolean? true
    return { mode, warnOnIgnored }
  else none

def loading? (node : Node) : Option LoadingPart :=
  if isRecord ["glob", "recursive", "max_files"] node then do
    let glob ← optional node "glob" 0 string? "*.txt"
    let recursive ← optional node "recursive" 1 boolean? false
    let maxFiles ← optional node "max_files" 2 (natural? (Nat.pow 2 64)) 1000
    return { glob, recursive, maxFiles }
  else none

def logging? (node : Node) : Option LoggingPart :=
  if isRecord ["level", "file_level", "file"] node then do
    let level ← optional node "level" 0 string? "info"
    let fileLevel ← optional node "file_level" 1 (fun n => (string? n).map some) none
    let file ← optional node "file" 2 (fun n => (string? n).map some) none
    return { level, fileLevel, file }
  else none

def ofEntries? (entries : Node.Entries) : Option File :=
  let node := Node.braces entries
  if isRecord ["version", "metadata", "loading", "logging"] node then do
    let version ← (member? node "version" 0).bind (natural? (Nat.pow 2 32))
    let metadata ← optional node "metadata" 1 metadata? {}
    let loading ← optional node "loading" 2 loading? {}
    let logging ← optional node "logging" 3 logging? {}
    return { version, metadata, loading, logging }
  else none

def parse? (text : String) : Option File :=
  (Toml.Reader.entries? text).bind ofEntries?

end Config

structure Config where
  source : Option String
  metadata : Config.MetadataPart
  loading : Config.LoadingPart
  logging : Config.LoggingPart
deriving DecidableEq, Repr

inductive ConfigError where
  | notFound (path : String)
  | unreadable (path : String) (cause : FileTree.Fault)
  | invalidToml (path : String)
  | badVersion (version : Nat)
  | noHome (path : String)
deriving DecidableEq, Repr

def ConfigError.message : ConfigError → String
  | notFound path => "config file not found at " ++ path
  | unreadable path cause => "failed to read config file " ++ path ++ ": " ++ cause.message
  | invalidToml path => "failed to parse TOML in " ++ path ++ ": " ++ FrontMatter.tomlAccount
  | badVersion version =>
    "version " ++ Number.numeral version ++ " is unsupported (expected 1)"
  | noHome path => "home directory not available to expand '" ++ path ++ "'"

namespace Config

def defaultPath (env : Environment) : String :=
  let base := match env.get? "XDG_CONFIG_HOME" with
    | some directory => directory
    | none => Path.join ((env.home?).getD "~") ".config"
  Path.join (Path.join base programName) "config.toml"

def ofFile (env : Environment) (source : Option String) (f : File) : Except ConfigError Config :=
  if f.version ≠ 1 then .error (.badVersion f.version)
  else
    match f.logging.file with
    | none => .ok ⟨source, f.metadata, f.loading, f.logging⟩
    | some path =>
      match env.expand? path with
      | some file => .ok ⟨source, f.metadata, f.loading, { f.logging with file := some file }⟩
      | none => .error (.noHome path)

def load (t : FileTree) (env : Environment) (path : Option String) : Except ConfigError Config :=
  let place := path.getD (defaultPath env)
  if !t.exists? place then
    if path.isSome then .error (.notFound place) else ofFile env none {}
  else
    match t.readText place with
    | .error cause => .error (.unreadable place cause)
    | .ok text =>
      match parse? text with
      | none => .error (.invalidToml place)
      | some f => ofFile env (some place) f

def apply (c : Config) (settings : Settings) : Settings where
  mode := c.metadata.mode.getD settings.mode
  warnOnIgnored := c.metadata.warnOnIgnored

def maxFiles (c : Config) : Option Nat :=
  if c.loading.maxFiles = 0 then none else some c.loading.maxFiles

def loadOptions (c : Config) : LoadOptions where
  recursive := c.loading.recursive
  glob := c.loading.glob
  mode := none
  maxFiles := c.maxFiles

end Config

end PromptFiles
