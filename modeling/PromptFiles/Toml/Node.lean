import PromptFiles.Toml.Value

/-!
# Nodes of a document

A document is read into nodes before it becomes data. A node keeps what the rules for
headers and dotted keys need to know: whether a table was written in braces, named by
the header of a table below it, defined by its own header, or made by a dotted key.
Integers may be larger here than a value can hold, and a number that cannot be read does
no harm as long as nothing asks for it.
-/

namespace PromptFiles.Toml

/-- How a table outside braces came about. -/
inductive Origin where
  | implied
  | header
  | dotted
deriving DecidableEq, Repr

inductive Node where
  | string (s : String)
  | integer (i : Int)
  | float (x : Number.Binary64)
  | boolean (b : Bool)
  | datetime (d : Datetime)
  | badNumber
  | array (items : List Node)
  | braces (entries : List (String × Node))
  | table (origin : Origin) (entries : List (String × Node))
  | tables (elements : List (List (String × Node)))

namespace Node

abbrev Entries := List (String × Node)

namespace Entries

def find? (key : String) : Entries → Option Node
  | [] => none
  | (k, n) :: rest => if key = k then some n else find? key rest

def replace (key : String) (node : Node) : Entries → Entries
  | [] => []
  | (k, n) :: rest => if key = k then (k, node) :: rest else (k, n) :: replace key node rest

def erase (key : String) : Entries → Entries
  | [] => []
  | (k, n) :: rest => if key = k then rest else (k, n) :: erase key rest

end Entries

def entries? : Node → Option Entries
  | braces entries | table _ entries => some entries
  | _ => none

def items? : Node → Option (List Node)
  | array items => some items
  | tables elements => some (elements.map (table .header))
  | _ => none

mutual

/-- Whether every number in a node can be read. -/
def isReadable : Node → Bool
  | badNumber => false
  | array items => itemsReadable items
  | braces entries | table _ entries => tableReadable entries
  | tables elements => elementsReadable elements
  | _ => true

def itemsReadable : List Node → Bool
  | [] => true
  | node :: rest => isReadable node && itemsReadable rest

def tableReadable : List (String × Node) → Bool
  | [] => true
  | (_, node) :: rest => isReadable node && tableReadable rest

def elementsReadable : List (List (String × Node)) → Bool
  | [] => true
  | entries :: rest => tableReadable entries && elementsReadable rest

end

def datetimeKey : String := "$__toml_private_datetime"

def datetimeOf? : Node → Option Datetime
  | string s => Datetime.ofChars? s.toList
  | _ => none

mutual

/-- The value of a node, none if it holds a number that cannot be read or an integer beyond
64 bits. -/
def toValue? : Node → Option Value
  | string s => some (.string s)
  | integer i =>
    if -(Nat.pow 2 63 : Int) ≤ i && i < (Nat.pow 2 63 : Int) then some (.integer (Int64.ofInt i)) else none
  | float x => some (.float x)
  | boolean b => some (.boolean b)
  | datetime d => some (.datetime d)
  | badNumber => none
  | array items => (toItems? items).map .array
  | braces entries | table _ entries => tableValue? entries
  | tables elements => (toElements? elements).map .array

def toItems? : List Node → Option (List Value)
  | [] => some []
  | node :: rest => do
    let v ← toValue? node
    let vs ← toItems? rest
    return v :: vs

/-- The value of a table. One that is marked as a date or a time is no more than that. -/
def tableValue? : List (String × Node) → Option Value
  | [] => some (.table [])
  | (key, node) :: rest =>
    if key = datetimeKey then (datetimeOf? node).map .datetime
    else do
      let v ← toValue? node
      let t ← toTable? rest
      return .table ((key, v) :: t)

def toTable? : List (String × Node) → Option Table
  | [] => some []
  | (key, node) :: rest => do
    let v ← toValue? node
    let t ← toTable? rest
    return (key, v) :: t

def toElements? : List (List (String × Node)) → Option (List Value)
  | [] => some []
  | entries :: rest => do
    let v ← tableValue? entries
    let vs ← toElements? rest
    return v :: vs

end

end Node

end PromptFiles.Toml
