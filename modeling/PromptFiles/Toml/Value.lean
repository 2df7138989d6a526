import PromptFiles.Number.Binary64
import PromptFiles.Toml.Datetime

/-!
# TOML values

A table keeps its keys in the order in which they first came. Two values are the
same when they hold the same data: the order of the keys does not count, a number
that is no number equals nothing, and zero has no sign.
-/

namespace PromptFiles.Toml

inductive Value where
  | string (s : String)
  | integer (i : Int64)
  | float (x : Number.Binary64)
  | boolean (b : Bool)
  | datetime (d : Datetime)
  | array (items : List Value)
  | table (entries : List (String × Value))

/-- Keys and values in order, each key once. -/
abbrev Table := List (String × Value)

namespace Table

def find? (key : String) : Table → Option Value
  | [] => none
  | (k, v) :: rest => if key = k then some v else find? key rest

def contains (key : String) (t : Table) : Bool :=
  (t.find? key).isSome

def keys (t : Table) : List String :=
  t.map Prod.fst

/-- A key that is there keeps its place and takes the new value. -/
def insert (key : String) (value : Value) : Table → Table
  | [] => [(key, value)]
  | (k, v) :: rest => if key = k then (k, value) :: rest else (k, v) :: insert key value rest

def ofList (entries : List (String × Value)) : Table :=
  entries.foldl (fun t (k, v) => t.insert k v) []

end Table

/-- Equality of numbers rather than of their representations. -/
def sameFloat : Number.Binary64 → Number.Binary64 → Bool
  | .nan, _ | _, .nan => false
  | .finite s m, .finite s' m' => m == m' && (s == s' || m.mantissa == 0)
  | x, y => x == y

namespace Value

mutual

def same : Value → Value → Bool
  | string s, string s' => s == s'
  | integer i, integer i' => i == i'
  | float x, float x' => sameFloat x x'
  | boolean b, boolean b' => b == b'
  | datetime d, datetime d' => d == d'
  | array items, array items' => sameItems items items'
  | table entries, table entries' =>
    entries.length == entries'.length && sameEntries entries entries'
  | _, _ => false

def sameItems : List Value → List Value → Bool
  | [], [] => true
  | v :: vs, v' :: vs' => same v v' && sameItems vs vs'
  | _, _ => false

def sameEntries : List (String × Value) → Table → Bool
  | [], _ => true
  | (k, v) :: rest, t =>
    (match t.find? k with
     | some v' => same v v'
     | none => false) && sameEntries rest t

end

end Value

/-- The same keys with the same values, in any order. -/
def Table.same (t t' : Table) : Bool :=
  (Value.table t).same (.table t')

end PromptFiles.Toml
