import PromptFiles.FileTree.Basic

/-!
# Reading and changing a file tree

An operation that fails leaves the tree as it was, except that making a directory with
its parents keeps those that were made.
-/

namespace PromptFiles.FileTree

def exists? (t : FileTree) (path : String) : Bool :=
  (t.target? path).isSome

def isFile (t : FileTree) (path : String) : Bool :=
  match t.target? path with
  | some (.file _) => true
  | _ => false

def isDirectory (t : FileTree) (path : String) : Bool :=
  t.target? path = some .directory

def readBytes (t : FileTree) (path : String) : Except Fault ByteArray :=
  match t.resolve true path with
  | .error fault => .error fault
  | .ok (.existing _ (.file bytes)) => .ok bytes
  | .ok (.existing _ _) => .error .isDirectory
  | .ok (.missing _ _) => .error .notFound

def readText (t : FileTree) (path : String) : Except Fault String :=
  match t.readBytes path with
  | .error fault => .error fault
  | .ok bytes =>
    match String.fromUTF8? bytes with
    | some text => .ok text
    | none => .error .notText

def unslashed (path : String) : String :=
  String.ofList (path.toList.reverse.dropWhile (· == '/')).reverse

def saysDirectory (path : String) : Bool :=
  path.toList.getLast? = some '/' && unslashed path ≠ ""

/-- The canonical path of the file that opening a path for writing gives, made if it is not
there. -/
def writePlace (t : FileTree) (path : String) : Except Fault (List String) :=
  if saysDirectory path then
    match t.resolve true (unslashed path) with
    | .error fault => .error fault
    | .ok _ => .error .isDirectory
  else
    match t.resolve true path with
    | .error fault => .error fault
    | .ok (.existing place (.file _)) => .ok place
    | .ok (.existing _ _) => .error .isDirectory
    | .ok (.missing directory name) => .ok (directory ++ [name])

/-- Write a file, over the one that is there. A file that can be opened is assumed to be written
whole: nothing models a device that is full. -/
def writeBytes (t : FileTree) (path : String) (bytes : ByteArray) : Except Fault FileTree :=
  (t.writePlace path).map fun place => t.put place (.file bytes)

def writeText (t : FileTree) (path text : String) : Except Fault FileTree :=
  t.writeBytes path text.toUTF8

/-- Open a file to write at its end: it is made if it is not there. What is written there is not
kept. -/
def touch (t : FileTree) (path : String) : Except Fault FileTree :=
  (t.writePlace path).map fun place =>
    match t.lookup place with
    | some _ => t
    | none => t.put place (.file .empty)

def makeDirectory (t : FileTree) (path : String) : Except Fault FileTree :=
  match t.resolve false (if saysDirectory path then unslashed path else path) with
  | .error fault => .error fault
  | .ok (.existing _ _) => .error .alreadyExists
  | .ok (.missing directory name) => .ok (t.put (directory ++ [name]) .directory)

/-- Make the first of these paths a directory; the others are the paths above it, the nearest
first. -/
def makeAll (t : FileTree) : List String → FileTree × Except Fault Unit
  | [] => (t, .ok ())
  | path :: above =>
    if path = "" then (t, .ok ())
    else
      let given (t : FileTree) (fault : Fault) : FileTree × Except Fault Unit :=
        (t, if t.isDirectory path then .ok () else .error fault)
      match t.makeDirectory path with
      | .ok t => (t, .ok ())
      | .error .notFound =>
        match t.makeAll above with
        | (t, .error fault) => (t, .error fault)
        | (t, .ok ()) =>
          match t.makeDirectory path with
          | .ok t => (t, .ok ())
          | .error fault => given t fault
      | .error fault => given t fault

def makeDirectories (t : FileTree) (path : String) : FileTree × Except Fault Unit :=
  t.makeAll (Path.withAncestors path)

def makeLink (t : FileTree) (target path : String) : Except Fault FileTree :=
  match t.resolve false path with
  | .error fault => .error fault
  | .ok (.existing _ _) => .error .alreadyExists
  | .ok (.missing directory name) => .ok (t.put (directory ++ [name]) (.link target))

def makeParents (t : FileTree) (path : String) : FileTree × Except (String × Fault) Unit :=
  match Path.parent? path with
  | none => (t, .ok ())
  | some parent =>
    match t.makeDirectories parent with
    | (t, .ok ()) => (t, .ok ())
    | (t, .error fault) => (t, .error (parent, fault))

/-- The canonical path of a directory that is opened to list what is in it. -/
def openDirectory (t : FileTree) (path : String) : Except Fault (List String) :=
  match t.resolve true path with
  | .error fault => .error fault
  | .ok (.existing place .directory) => .ok place
  | .ok (.existing _ _) => .error .notDirectory
  | .ok (.missing _ _) => .error .notFound

def children (t : FileTree) (place : List String) : List (String × Entry) :=
  t.entries.filterMap fun (path, entry) =>
    if path.dropLast = place then path.getLast?.map fun name => (name, entry) else none

/-- What a walk through a directory and those below it comes across, no deeper than it may go: the
names that lead to each entry, a directory before what is in it, or the path of a directory that
cannot be opened. Links are not followed. -/
def walkBelow (t : FileTree) (root : String) (above : List String) :
    Nat → List (Except (String × Fault) (List String × Entry))
  | 0 => []
  | depth + 1 =>
    let path := Path.below root above
    match t.openDirectory path with
    | .error fault => [.error (path, fault)]
    | .ok place => (t.children place).flatMap fun (name, entry) =>
      let names := above ++ [name]
      .ok (names, entry) ::
        if entry = .directory then t.walkBelow root names depth else []

end PromptFiles.FileTree
