import PromptFiles.Template.Value

/-!
# Formats of fields

A format is an optional flag `0`, an optional width, an optional point with a
precision, and an optional letter: `d` for integers, `f` for a fixed number of
decimals, `s` for text. Width and precision are runs of digits that denote at most
`Spec.maxNumber`. Anything else is no format, and the value is written as it is.
-/

namespace PromptFiles.Template

inductive SpecKind where
  | plain
  | integer
  | fixed
  | text
deriving DecidableEq, Repr

structure Spec where
  zeroPad : Bool
  width : Option Nat
  precision : Option Nat
  kind : SpecKind
deriving DecidableEq, Repr

namespace Spec

def maxNumber : Nat := 1024

def defaultPrecision : Nat := 6

/-- The run of digits at the start, none if there is no digit; fails above `maxNumber`. -/
def takeNumber? (cs : List Char) : Option (Option Nat × List Char) :=
  match cs.takeWhile Number.isDigit with
  | [] => some (none, cs)
  | run =>
    if Number.ofDigits run ≤ maxNumber then
      some (some (Number.ofDigits run), cs.dropWhile Number.isDigit)
    else none

def takePrecision? : List Char → Option (Option Nat × List Char)
  | '.' :: cs =>
    match takeNumber? cs with
    | some (some n, rest) => some (some n, rest)
    | _ => none
  | cs => some (none, cs)

def kind? : List Char → Option SpecKind
  | [] => some .plain
  | ['d'] => some .integer
  | ['f'] => some .fixed
  | ['s'] => some .text
  | _ => none

def ofChars? (cs : List Char) : Option Spec := do
  let (zeroPad, cs) := match cs with
    | '0' :: rest => (true, rest)
    | _ => (false, cs)
  let (width, cs) ← takeNumber? cs
  let (precision, cs) ← takePrecision? cs
  let kind ← kind? cs
  return { zeroPad, width, precision, kind }

def parse? (format : String) : Option Spec :=
  ofChars? format.toList

/-- The value before it is padded. A letter that does not fit the value is ignored. -/
def body (spec : Spec) (value : Value) : String :=
  let places := spec.precision.getD defaultPrecision
  match spec.kind, value with
  | .fixed, .integer i => (Number.Binary64.ofInt i.toInt).toFixed places
  | .fixed, .float x => x.toFixed places
  | _, value => value.render

/-- Text is filled up on the right, numbers on the left: with spaces, or with zeros after
the sign. -/
def pad (spec : Spec) (numeric : Bool) (body : List Char) : List Char :=
  let fill := spec.width.getD 0 - body.length
  if numeric && spec.zeroPad then
    match body with
    | '-' :: rest => '-' :: List.replicate fill '0' ++ rest
    | _ => List.replicate fill '0' ++ body
  else if numeric then List.replicate fill ' ' ++ body
  else body ++ List.replicate fill ' '

def apply (spec : Spec) (value : Value) : String :=
  String.ofList (spec.pad (value.isNumeric && spec.kind != .text) (spec.body value).toList)

end Spec

/-- The text of a value in a field. -/
def Value.renderAs (value : Value) (format : Option String) : String :=
  match format.bind Spec.parse? with
  | some spec => spec.apply value
  | none => value.render

end PromptFiles.Template
