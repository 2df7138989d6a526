import PromptFiles.Command.Run
import Std.Time

/-!
# The program

Reads the files that a command may look at into a tree, runs the command on the tree, and
writes back the files and directories that the command has made or changed.
-/

namespace PromptFiles.Main

def pathText (path : List String) : String :=
  "/" ++ "/".intercalate path

partial def readBelow (t : FileTree) (location : List String) : IO FileTree := do
  let mut t := t
  for item in ← (← IO.FS.realPath (pathText location)).readDir do
    let child := location ++ [item.fileName]
    match (← item.path.symlinkMetadata).type with
    | .dir => t ← readBelow (t.put child .directory) child
    | .file => t := t.put child (.file (← IO.FS.readBinFile item.path))
    | _ => pure ()
  return t

partial def readAlong (t : FileTree) (location : List String) : List String → IO FileTree
  | [] => if t.lookup location = some .directory then readBelow t location else return t
  | piece :: rest =>
    if piece = "" || piece = "." then readAlong t location rest
    else if piece = ".." then readAlong t location.dropLast rest
    else do
      let child := location ++ [piece]
      let path := (← IO.currentDir) / pathText child
      match ← path.symlinkMetadata.toBaseIO with
      | .error _ => return t
      | .ok { type := .dir, .. } => readAlong (t.put child .directory) child rest
      | .ok { type := .file, .. } => return t.put child (.file (← IO.FS.readBinFile path))
      | .ok _ =>
        match ← (IO.FS.realPath path).toBaseIO with
        | .error _ => return t
        | .ok target =>
          readAlong (t.put child (.link target.toString)) [] (Path.pieces target.toString ++ rest)

def readPath (t : FileTree) (path : String) : IO FileTree :=
  readAlong t (FileTree.origin t.current path) (Path.pieces path)

def workingTree : IO FileTree := do
  return .empty ((Path.pieces (← IO.currentDir).toString).filter (· != ""))

def environment : IO Environment := do
  let listing := String.fromUTF8? (← IO.FS.readBinFile "/proc/self/environ")
  let cuts := (Text.split '\x00' (listing.getD "").toList).map fun cs =>
    (String.ofList (cs.takeWhile (· != '=')), String.ofList ((cs.dropWhile (· != '=')).drop 1))
  return cuts.foldl (fun env (name, value) => env.set name value) {}

def today : IO (Option Calendar.Date) := do
  let date ← Std.Time.PlainDate.now
  return Calendar.Date.ofParts? date.year date.month.toNat date.day.toNat

def readFor (env : Environment) (arguments : List String) : IO FileTree := do
  let t ← workingTree
  match Command.Invocation.parse arguments with
  | .error _ => return t
  | .ok invocation =>
    let t ← readPath t (invocation.config.getD (Config.defaultPath env))
    let log := match Config.load t env invocation.config with
      | .ok config => config.logging.file.toList
      | .error _ => []
    (log ++ invocation.action.paths).foldlM readPath t

/-- Write what is in the second tree and not the same in the first, directories first. -/
def writeBack (before after : FileTree) : IO Unit := do
  let changed := after.entries.filter fun (path, entry) => before.lookup path ≠ some entry
  for (path, entry) in changed do
    if entry = .directory then IO.FS.createDirAll (pathText path)
  for (path, entry) in changed do
    match entry with
    | .file bytes => IO.FS.writeBinFile (pathText path) bytes
    | _ => pure ()

end PromptFiles.Main

open PromptFiles in
def main (arguments : List String) : IO UInt32 := do
  let env ← Main.environment
  let some today ← Main.today | return 1
  let tree ← Main.readFor env arguments
  let outcome := Command.run tree env today arguments
  Main.writeBack tree outcome.tree
  (← IO.getStdout).putStr outcome.outputText
  (← IO.getStderr).putStr outcome.errorText
  return outcome.status.toUInt32
