import PromptFiles.Number.Numeral
import PromptFiles.Number.Binary64
import PromptFiles.Toml.Node

/-!
# Unquoted values

An unquoted value ends at white space and at the signs that structure a document.
Underscores stand only between two digits, and a decimal integer has no zero before
other digits. What has the form of a number is read even if it is none, as one too large
for its type; to ask for its value then fails. A date and a time may have one space
between them.
-/

namespace PromptFiles.Toml

open Number (isDigit ofDigits isNumeral)

namespace Scalar

def isAtomChar (c : Char) : Bool :=
  c ∉ [' ', '\t', '\r', '\n', '"', '\'', '#', ',', '=', '[', ']', '{', '}']

def grouped? (isDigit : Char → Bool) : List Char → Option (List Char)
  | [] => none
  | [c] => if isDigit c then some [c] else none
  | c :: '_' :: rest => if isDigit c then (grouped? isDigit rest).map (c :: ·) else none
  | c :: rest => if isDigit c then (grouped? isDigit rest).map (c :: ·) else none

def sign : List Char → Bool × List Char
  | '-' :: cs => (true, cs)
  | '+' :: cs => (false, cs)
  | cs => (false, cs)

def inRange (i : Int) : Bool :=
  -(Nat.pow 2 127 : Int) ≤ i && i < (Nat.pow 2 128 : Int)

def decimal? (cs : List Char) : Option Nat :=
  match grouped? isDigit cs with
  | some ['0'] => some 0
  | some ('0' :: _) => none
  | some run => some (ofDigits run)
  | none => none

def hexValue (c : Char) : Nat :=
  if isDigit c then c.toNat - '0'.toNat else c.toLower.toNat - 'a'.toNat + 10

def isHex (c : Char) : Bool :=
  isDigit c || ('a' ≤ c && c ≤ 'f') || ('A' ≤ c && c ≤ 'F')

def inBase (base : Nat) (run : List Char) : Nat :=
  run.foldl (fun n c => base * n + hexValue c) 0

def integer? (cs : List Char) : Option Int :=
  match cs with
  | '0' :: 'x' :: rest => (grouped? isHex rest).map fun run => inBase 16 run
  | '0' :: 'o' :: rest =>
    (grouped? (fun c => '0' ≤ c && c ≤ '7') rest).map fun run => inBase 8 run
  | '0' :: 'b' :: rest =>
    (grouped? (fun c => c == '0' || c == '1') rest).map fun run => inBase 2 run
  | _ =>
    let (negative, rest) := sign cs
    (decimal? rest).map fun n => if negative then -(n : Int) else n

def exponent? (cs : List Char) : Option Int :=
  let (negative, rest) := sign cs
  (grouped? isDigit rest).map fun run => if negative then -(ofDigits run : Int) else ofDigits run

def isExponentMark (c : Char) : Bool :=
  c == 'e' || c == 'E'

def rounded? (cs : List Char) : Option Number.Binary64 := do
  let (negative, cs) := sign cs
  let mantissa := cs.takeWhile (!isExponentMark ·)
  let exponent ← match cs.dropWhile (!isExponentMark ·) with
    | [] => if '.' ∈ mantissa then some 0 else none
    | _ :: rest => exponent? rest
  let whole ← decimal? (mantissa.takeWhile (· != '.'))
  let part ← match mantissa.dropWhile (· != '.') with
    | [] => some []
    | _ :: rest => grouped? isDigit rest
  return Number.Binary64.ofDecimal negative (whole * Nat.pow 10 part.length + ofDigits part)
    (exponent - part.length)

def float? (cs : List Char) : Option Node :=
  match sign cs with
  | (negative, ['i', 'n', 'f']) => some (.float (.infinite negative))
  | (_, ['n', 'a', 'n']) => some (.float .nan)
  | _ =>
    (rounded? cs).map fun
      | .finite s m => .float (.finite s m)
      | _ => .badNumber

def isGrouped : List Char → Bool
  | '_' :: _ | [_, '_'] => false
  | c :: '_' :: d :: rest => isHex c && isHex d && isGrouped (d :: rest)
  | _ :: rest => isGrouped rest
  | [] => true

/-- The outline of an integer without its digits: a base with nothing after it, or a group of
decimal digits and then groups of which only the ends are looked at. -/
def isOutline (cs : List Char) : Bool :=
  let digits := (sign cs).2
  match digits.dropWhile isDigit with
  | '_' :: rest =>
    isGrouped digits && digits.head? != some '0' && rest.all fun c => c != '.' && !isExponentMark c
  | _ => cs ∈ [['0', 'x'], ['0', 'o'], ['0', 'b']]

def ofAtom? (atom : List Char) : Option Node :=
  if atom = "true".toList then some (.boolean true)
  else if atom = "false".toList then some (.boolean false)
  else
    match integer? atom with
    | some i => some (if inRange i then .integer i else .badNumber)
    | none =>
      match Datetime.ofChars? atom with
      | some d => some (.datetime d)
      | none =>
        match float? atom with
        | some n => some n
        | none => if isOutline atom then some .badNumber else none

/-- The run of an unquoted value. A space after a date continues it if a digit follows. -/
def atom (cs : List Char) : List Char × List Char :=
  let run := cs.takeWhile isAtomChar
  match cs.dropWhile isAtomChar with
  | ' ' :: c :: rest =>
    if isDigit c && (Datetime.day? run).any (·.2 = []) then
      (run ++ ' ' :: (c :: rest).takeWhile isAtomChar, (c :: rest).dropWhile isAtomChar)
    else (run, ' ' :: c :: rest)
  | rest => (run, rest)

def node? (cs : List Char) : Option (Node × List Char) :=
  let (run, rest) := atom cs
  (ofAtom? run).map fun n => (n, rest)

end Scalar

end PromptFiles.Toml
