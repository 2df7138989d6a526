import PromptFiles.FileTree.Fault
import PromptFiles.Path

/-!
# File trees

A tree is a map from canonical paths, lists of names from the root, to files,
directories and symbolic links; the root is always a directory. A path given as a text
is followed piece by piece from the root or the working directory: links are replaced by
their targets, at most `linkLimit` of them, two dots go up, and whatever has something
after it must be a directory.
-/

namespace PromptFiles

/-- Files are compared in the same way whatever libraries are there besides. -/
instance FileTree.decideBytes : DecidableEq ByteArray := ByteArray.decEq

inductive FileTree.Entry where
  | file (bytes : ByteArray)
  | directory
  | link (target : String)
deriving DecidableEq

structure FileTree where
  /-- The canonical path of the working directory. -/
  current : List String
  entries : List (List String × FileTree.Entry)
  distinct : (entries.map Prod.fst).Nodup

namespace FileTree

def lookup (t : FileTree) (path : List String) : Option Entry :=
  if path = [] then some .directory
  else (t.entries.find? (·.1 == path)).map Prod.snd

def put (t : FileTree) (path : List String) (entry : Entry) : FileTree where
  current := t.current
  entries := (path, entry) :: t.entries.filter (·.1 != path)
  distinct := by
    have h : ((t.entries.filter (·.1 != path)).map Prod.fst).Sublist (t.entries.map Prod.fst) :=
      List.filter_sublist.map _
    simp only [List.map_cons, List.nodup_cons]
    exact ⟨by simp, h.nodup t.distinct⟩

/-- A tree with nothing but the directories on the way to the working directory. -/
def empty (current : List String) : FileTree :=
  let ways := (List.range current.length).map fun depth => current.take (depth + 1)
  ways.foldl (·.put · .directory) { current, entries := [], distinct := by simp }

theorem lookup_put (t : FileTree) (path other : List String) (entry : Entry) (h : path ≠ []) :
    (t.put path entry).lookup other = if other = path then some entry else t.lookup other := by
  by_cases ho : other = path
  · subst ho
    simp [lookup, put, h]
  · have hne : (path == other) = false := by simpa using fun e => ho e.symm
    simp only [lookup, put, ho, if_false, List.find?_cons, hne]
    split
    · rfl
    · congr 1
      rw [List.find?_filter]
      congr 1
      funext p
      by_cases hp : p.1 = other
      · simp [hp, ho]
      · simp [hp]

/-- Where a path leads: to an entry, or to a name that a directory does not have. -/
inductive Place where
  | existing (path : List String) (entry : Entry)
  | missing (directory : List String) (name : String)
deriving DecidableEq

def linkLimit : Nat := 40

def nameLimit : Nat := 255

def pathLimit : Nat := 4095

/-- Where a path starts that is given at a location. -/
def origin (location : List String) (path : String) : List String :=
  if Path.isAbsolute path then [] else location

/-- Follow pieces from a location through at most `links` links. The last piece is not followed
as a link if the flag says so. -/
def walk (t : FileTree) (follow : Bool) (links : Nat) (location : List String) :
    List String → Except Fault Place
  | [] =>
    match t.lookup location with
    | some entry => .ok (.existing location entry)
    | none => .error .notFound
  | piece :: rest =>
    if t.lookup location ≠ some .directory then .error .notDirectory
    else if piece = "" || piece = "." then t.walk follow links location rest
    else if piece = ".." then t.walk follow links location.dropLast rest
    else if nameLimit < piece.utf8ByteSize then .error .nameTooLong
    else
      let child := location ++ [piece]
      match t.lookup child with
      | none => if rest = [] then .ok (.missing location piece) else .error .notFound
      | some (.link target) =>
        if rest = [] && !follow then .ok (.existing child (.link target))
        else
          match links with
          | 0 => .error .tooManyLinks
          | links + 1 =>
            t.walk follow links (origin location target) (Path.pieces target ++ rest)
      | some _ => t.walk follow links child rest
termination_by pieces => (links, pieces.length)

/-- Where a text leads, from the working directory. -/
def resolve (t : FileTree) (follow : Bool) (path : String) : Except Fault Place :=
  if path.toList.contains '\x00' then .error .nulInPath
  else if path = "" then .error .notFound
  else if pathLimit < path.utf8ByteSize then .error .nameTooLong
  else t.walk follow linkLimit (origin t.current path) (Path.pieces path)

def target? (t : FileTree) (path : String) : Option Entry :=
  match t.resolve true path with
  | .ok (.existing _ entry) => some entry
  | _ => none

end FileTree

end PromptFiles
