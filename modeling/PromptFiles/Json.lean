import PromptFiles.Names
import PromptFiles.Number.Decimal

/-!
# JSON texts

An object keeps its members in the order of their names. Numbers are written with the
fewest digits that read back: with a point between `10 ^ -5` and `10 ^ 16`, else with
an exponent that has a sign; what is not finite is `null`. Texts escape quotes,
backslashes and control characters and nothing else.
-/

namespace PromptFiles

inductive Json where
  | null
  | boolean (b : Bool)
  | integer (i : Int)
  | float (x : Number.Binary64)
  | string (s : String)
  | array (items : List Json)
  | object (members : List (String × Json))

namespace Json

def ofMembers (members : List (String × Json)) : Json :=
  object (members.foldl (fun map (name, value) => NameMap.insert name value map) [])

def ofOption (s : Option String) : Json :=
  match s with
  | some s => string s
  | none => null

def lowerHex (n : Nat) : Char :=
  if n < 10 then Char.ofNat ('0'.toNat + n) else Char.ofNat ('a'.toNat + (n - 10))

def escaped (c : Char) : List Char :=
  match c with
  | '"' => ['\\', '"']
  | '\\' => ['\\', '\\']
  | '\x08' => ['\\', 'b']
  | '\t' => ['\\', 't']
  | '\n' => ['\\', 'n']
  | '\x0c' => ['\\', 'f']
  | '\r' => ['\\', 'r']
  | c =>
    if c < ' ' then ['\\', 'u', '0', '0', lowerHex (c.toNat / 16), lowerHex (c.toNat % 16)]
    else [c]

def stringChars (s : String) : List Char :=
  '"' :: s.toList.flatMap escaped ++ ['"']

def scientific (d : Number.Decimal) : List Char :=
  let ds := Number.digits d.significand
  let e : Int := d.exponent + (ds.length - 1 : Nat)
  let mantissa := match ds with
    | first :: [] => [first]
    | first :: rest => first :: '.' :: rest
    | [] => []
  mantissa ++ 'e' :: (if e < 0 then '-' else '+') :: Number.digits e.natAbs

def magnitudeChars (m : Number.Magnitude) : List Char :=
  let d := m.shortest .even
  let top : Int := d.exponent + (Number.digits d.significand).length
  if m.mantissa = 0 || (-4 ≤ top && top ≤ 16) then
    match d.positional with
    | (whole, []) => whole ++ ['.', '0']
    | (whole, part) => whole ++ '.' :: part
  else scientific d

def floatChars : Number.Binary64 → List Char
  | .finite negative m => (if negative then ['-'] else []) ++ magnitudeChars m
  | _ => "null".toList

mutual

def compact : Json → List Char
  | null => "null".toList
  | boolean b => if b then "true".toList else "false".toList
  | integer i => (Number.numeral i).toList
  | float x => floatChars x
  | string s => stringChars s
  | array items => '[' :: [','].intercalate (compactItems items) ++ [']']
  | object members => '{' :: [','].intercalate (compactMembers members) ++ ['}']

def compactItems : List Json → List (List Char)
  | [] => []
  | v :: rest => compact v :: compactItems rest

def compactMembers : List (String × Json) → List (List Char)
  | [] => []
  | (name, v) :: rest => (stringChars name ++ ':' :: compact v) :: compactMembers rest

end

def newline (level : Nat) : List Char :=
  '\n' :: List.replicate (2 * level) ' '

def block (level : Nat) (start finish : Char) (texts : List (List Char)) : List Char :=
  if texts = [] then [start, finish]
  else
    start :: newline (level + 1) ++ (',' :: newline (level + 1)).intercalate texts ++
      newline level ++ [finish]

mutual

def pretty (level : Nat) : Json → List Char
  | array items => block level '[' ']' (prettyItems (level + 1) items)
  | object members => block level '{' '}' (prettyMembers (level + 1) members)
  | v => compact v

def prettyItems (level : Nat) : List Json → List (List Char)
  | [] => []
  | v :: rest => pretty level v :: prettyItems level rest

def prettyMembers (level : Nat) : List (String × Json) → List (List Char)
  | [] => []
  | (name, v) :: rest =>
    (stringChars name ++ ':' :: ' ' :: pretty level v) :: prettyMembers level rest

end

def compactText (j : Json) : String :=
  String.ofList j.compact

def prettyText (j : Json) : String :=
  String.ofList (j.pretty 0)

end Json

end PromptFiles
