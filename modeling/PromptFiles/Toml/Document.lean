import PromptFiles.Toml.Node

/-!
# Building a document

A document is a list of entries followed by sections, each a table or an element of an
array of tables. Only a table that a header below it has named may still be defined by a
header of its own, and it then moves to the end of its parent. A dotted key extends that
kind and those that dotted keys have made, and puts its value only into one of the
latter. Arrays and tables in brackets and braces are closed.
-/

namespace PromptFiles.Toml

namespace Node

def updateLast (f : Entries → Option Entries) : List Entries → Option (List Entries)
  | [] => none
  | [last] => (f last).map ([·])
  | element :: rest => (updateLast f rest).map (element :: ·)

/-- Apply `f` to the table that a header's path leads to. Tables on the way that are not there
come about by implication; of an array of tables the last element is meant. -/
def updateAt (f : Entries → Option Entries) : List String → Entries → Option Entries
  | [], es => f es
  | key :: path, es =>
    match es.find? key with
    | none => (updateAt f path []).map fun t => es ++ [(key, table .implied t)]
    | some (table origin t) =>
      (updateAt f path t).map fun t => es.replace key (table origin t)
    | some (tables elements) =>
      (updateLast (updateAt f path) elements).map fun ts => es.replace key (tables ts)
    | some _ => none

def addEntry (node : Node) : List String → Entries → Option Entries
  | [], _ => none
  | [key], es => if (es.find? key).isSome then none else some (es ++ [(key, node)])
  | key :: path, es =>
    match es.find? key with
    | none => (addEntry node path []).map fun t => es ++ [(key, table .dotted t)]
    | some (table .dotted t) =>
      (addEntry node path t).map fun t => es.replace key (table .dotted t)
    | some (table .implied t) =>
      if path.length = 1 then none
      else (addEntry node path t).map fun t => es.replace key (table .implied t)
    | some (tables elements) =>
      if path.length = 1 then none
      else (updateLast (addEntry node path) elements).map fun ts => es.replace key (tables ts)
    | some _ => none

def addEntries (entries : List (List String × Node)) (es : Entries) : Option Entries :=
  entries.foldlM (fun es (path, node) => addEntry node path es) es

def defineTable (key : String) (entries : List (List String × Node)) (es : Entries) :
    Option Entries :=
  match es.find? key with
  | none => (addEntries entries []).map fun t => es ++ [(key, table .header t)]
  | some (table .implied t) =>
    (addEntries entries t).map fun t => es.erase key ++ [(key, table .header t)]
  | some _ => none

def appendTable (key : String) (entries : List (List String × Node)) (es : Entries) :
    Option Entries :=
  match es.find? key with
  | none => (addEntries entries []).map fun t => es ++ [(key, tables [t])]
  | some (tables elements) =>
    (addEntries entries []).map fun t => es.replace key (tables (elements ++ [t]))
  | some _ => none

end Node

structure Section where
  isElement : Bool
  path : List String
  entries : List (List String × Node)

structure Document where
  entries : List (List String × Node)
  sections : List Section

namespace Section

def place (s : Section) (es : Node.Entries) : Option Node.Entries :=
  match s.path.reverse with
  | [] => none
  | key :: parents =>
    let add := if s.isElement then Node.appendTable else Node.defineTable
    Node.updateAt (add key s.entries) parents.reverse es

end Section

namespace Document

def toEntries? (d : Document) : Option Node.Entries := do
  let root ← Node.addEntries d.entries []
  d.sections.foldlM (fun es s => s.place es) root

end Document

end PromptFiles.Toml
