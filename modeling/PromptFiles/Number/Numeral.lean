/-!
# Decimal numerals

Written numerals have no leading zeros and no plus sign. Reading takes any run of
the digits `0` to `9` as the number it denotes, leading zeros included.
-/

namespace PromptFiles.Number

def isDigit (c : Char) : Bool :=
  '0' ≤ c && c ≤ '9'

def digits (n : Nat) : List Char :=
  Nat.toDigits 10 n

def ofDigits (cs : List Char) : Nat :=
  Nat.ofDigitChars 10 cs 0

theorem ofDigits_digits (n : Nat) : ofDigits (digits n) = n :=
  Nat.ofDigitChars_ten_toDigits

def numeral (i : Int) : String :=
  match i with
  | .ofNat n => String.ofList (digits n)
  | .negSucc n => String.ofList ('-' :: digits (n + 1))

def padded (width n : Nat) : List Char :=
  List.replicate (width - (digits n).length) '0' ++ digits n

def isNumeral (cs : List Char) : Bool :=
  cs ≠ [] && cs.all isDigit

def int64? (s : String) : Option Int64 :=
  match s.toList with
  | '-' :: rest =>
    if isNumeral rest && ofDigits rest ≤ Nat.pow 2 63 then some (Int64.ofInt (-(ofDigits rest : Int)))
    else none
  | '+' :: rest => unsigned? rest
  | rest => unsigned? rest
where
  unsigned? (cs : List Char) : Option Int64 :=
    if isNumeral cs && ofDigits cs < Nat.pow 2 63 then some (Int64.ofInt (ofDigits cs)) else none

end PromptFiles.Number
