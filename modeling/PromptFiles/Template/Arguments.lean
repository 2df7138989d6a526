import PromptFiles.Names
import PromptFiles.Template.Value

/-!
# Arguments and their bindings

Arguments are values by position and values by name. A position binds the numeral of
its index and wins over a name that reads the same; if the template has a field
without a name, the first position binds that too.
-/

namespace PromptFiles.Template

structure Arguments where
  positional : List Value := []
  named : List (String × Value) := []
deriving DecidableEq

namespace Arguments

def push (args : Arguments) (value : Value) : Arguments :=
  { args with positional := args.positional ++ [value] }

def insert (args : Arguments) (name : String) (value : Value) : Arguments :=
  { args with named := NameMap.insert name value args.named }

def isEmpty (args : Arguments) : Bool :=
  args.positional.isEmpty && args.named.isEmpty

def ofLists (positional : List Value) (named : List (String × Value)) : Arguments :=
  named.foldl (fun args (name, value) => args.insert name value) { positional }

def bindFrom (start : Nat) : List Value → List (String × Value) → List (String × Value)
  | [], map => map
  | value :: rest, map =>
    bindFrom (start + 1) rest (NameMap.insert (Number.numeral start) value map)

/-- The value that each name stands for in a template with these placeholders. -/
def bindings (args : Arguments) (placeholders : List String) : List (String × Value) :=
  let map := bindFrom 0 args.positional args.named
  match args.positional with
  | first :: _ => if "" ∈ placeholders then NameMap.insert "" first map else map
  | [] => map

end Arguments

end PromptFiles.Template
