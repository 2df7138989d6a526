import PromptFiles.Number.Literal
import PromptFiles.Settings
import PromptFiles.Template.Value

/-!
# Values on the command line

The value of an option has a kind, which says what is accepted. The values that a prompt
is filled with are numbers where they read as numbers: an integer of 64 bits, or a
decimal with a point in it.
-/

namespace PromptFiles.Command

/-- The value that an argument stands for in a template. -/
def inferred (argument : String) : Template.Value :=
  match Number.int64? argument with
  | some i => .integer i
  | none =>
    if argument.toList.contains '.' then
      match Number.Literal.ofText? argument with
      | some x => .float x.toBinary64
      | none => .text argument
    else .text argument

/-- A name and a value with an equals sign between them. The name loses the white space
around it, and something has to be left; the value may hold further equals signs. -/
def binding? (argument : String) : Option (String × String) :=
  match argument.toList.dropWhile (· != '=') with
  | [] => none
  | _ :: value =>
    let name := Text.trim (argument.toList.takeWhile (· != '='))
    if name = [] then none else some (String.ofList name, String.ofList value)

/-- A count of at most 64 bits, with or without a plus sign. -/
def count? (argument : String) : Option Nat :=
  let numeral := match argument.toList with
    | '+' :: rest => rest
    | cs => cs
  if Number.isNumeral numeral && Number.ofDigits numeral < Nat.pow 2 64 then
    some (Number.ofDigits numeral)
  else none

inductive ValueKind where
  | text
  | path
  | mode
  | count
  | binding
deriving DecidableEq, Repr

def ValueKind.accepts (kind : ValueKind) (argument : String) : Bool :=
  match kind with
  | text => true
  | path => argument ≠ ""
  | mode => (Mode.parse? argument).isSome
  | count => (count? argument).isSome
  | binding => (binding? argument).isSome

end PromptFiles.Command
