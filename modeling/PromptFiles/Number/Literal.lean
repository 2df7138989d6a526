import PromptFiles.Number.Numeral
import PromptFiles.Number.Binary64

/-!
# Number literals

A literal is an optional sign and either one of the words `inf`, `infinity` and `nan`
in any case, or digits with an optional point among them or at either end and an
optional exponent. It denotes the number nearest to its exact value.
-/

namespace PromptFiles.Number

inductive Literal where
  | nan
  | infinite (negative : Bool)
  | decimal (negative : Bool) (significand : Nat) (exponent : Int)
deriving DecidableEq, Repr

namespace Literal

def exponent? : List Char → Option Int
  | '-' :: cs => if isNumeral cs then some (-(ofDigits cs : Int)) else none
  | '+' :: cs => if isNumeral cs then some (ofDigits cs) else none
  | cs => if isNumeral cs then some (ofDigits cs) else none

def unsigned? (negative : Bool) (cs : List Char) : Option Literal :=
  match String.ofList (cs.map Char.toLower) with
  | "nan" => some .nan
  | "inf" | "infinity" => some (.infinite negative)
  | _ =>
    let whole := cs.takeWhile isDigit
    let afterWhole := cs.dropWhile isDigit
    let (part, rest) :=
      match afterWhole with
      | '.' :: r => (r.takeWhile isDigit, r.dropWhile isDigit)
      | r => ([], r)
    if whole ++ part = [] then none
    else
      let scaled (e : Int) := decimal negative (ofDigits (whole ++ part)) (e - part.length)
      match rest with
      | [] => some (scaled 0)
      | c :: r => if c == 'e' || c == 'E' then (exponent? r).map scaled else none

def ofText? (s : String) : Option Literal :=
  match s.toList with
  | '-' :: cs => unsigned? true cs
  | '+' :: cs => unsigned? false cs
  | cs => unsigned? false cs

def toBinary64 : Literal → Binary64
  | nan => .nan
  | infinite negative => .infinite negative
  | decimal negative n e => .ofDecimal negative n e

def throughBinary32 : Literal → Binary64
  | nan => .nan
  | infinite negative => .infinite negative
  | decimal negative n e => .ofDecimal32 negative n e

end Literal

end PromptFiles.Number
