/-!
# Binary floating-point numbers of 64 bits

A finite number is a sign and a magnitude `mantissa * 2 ^ exponent`. The bounds of
the magnitude make the pair unique, so equal numbers are equal values and zero keeps
its sign. Rounding is to the nearest magnitude, a tie going to the even mantissa; it
works on an exact fraction of natural numbers and says when the result is too large.
-/

namespace PromptFiles.Number

structure Magnitude where
  mantissa : Nat
  exponent : Int
  mantissa_lt : mantissa < Nat.pow 2 53
  exponent_ge : -1074 ≤ exponent
  exponent_le : exponent ≤ 971
  normal : Nat.pow 2 52 ≤ mantissa ∨ exponent = -1074
deriving DecidableEq, Repr

inductive Binary64 where
  | nan
  | infinite (negative : Bool)
  | finite (negative : Bool) (magnitude : Magnitude)
deriving DecidableEq, Repr

structure Fraction where
  num : Nat
  den : Nat
deriving DecidableEq, Repr

namespace Fraction

def scaled (n base : Nat) (e : Int) : Fraction :=
  match e with
  | .ofNat k => ⟨n * base.pow k, 1⟩
  | .negSucc k => ⟨n, base.pow (k + 1)⟩

def scale (x : Fraction) (base : Nat) (e : Int) : Fraction :=
  match e with
  | .ofNat k => ⟨x.num * base.pow k, x.den⟩
  | .negSucc k => ⟨x.num, x.den * base.pow (k + 1)⟩

/-- The nearest natural number, a tie going to the even one. -/
def nearest (x : Fraction) : Nat :=
  let q := x.num / x.den
  let r := x.num % x.den
  if 2 * r < x.den then q
  else if x.den < 2 * r then q + 1
  else if q % 2 = 0 then q
  else q + 1

/-- The exponent of the last of `bits` binary places, not below `least`: the fraction
divided by its power of two has at most `bits` binary digits before the point. -/
def lastPlace (x : Fraction) (bits : Nat) (least : Int) : Int :=
  let guess : Int := x.num.log2 - x.den.log2 - bits
  let y := x.scale 2 (-guess)
  max least (if y.num / y.den < Nat.pow 2 bits then guess else guess + 1)

/-- Mantissa and exponent of the nearest number with `bits` binary digits and exponents
not below `least`. A mantissa that rounds up to `2 ^ bits` is not carried. -/
def rounded (x : Fraction) (bits : Nat) (least : Int) : Nat × Int :=
  let e := x.lastPlace bits least
  ((x.scale 2 (-e)).nearest, e)

end Fraction

namespace Magnitude

def zero : Magnitude where
  mantissa := 0
  exponent := -1074
  mantissa_lt := by decide
  exponent_ge := by decide
  exponent_le := by decide
  normal := by decide

def ofParts? (m : Nat) (e : Int) : Option Magnitude :=
  if h : m < Nat.pow 2 53 ∧ -1074 ≤ e ∧ e ≤ 971 ∧ (Nat.pow 2 52 ≤ m ∨ e = -1074) then
    some ⟨m, e, h.1, h.2.1, h.2.2.1, h.2.2.2⟩
  else none

/-- The magnitude nearest to a fraction, none if it is beyond the largest one. -/
def ofFraction? (x : Fraction) : Option Magnitude :=
  if x.num = 0 then some zero
  else
    let (m, e) := x.rounded 53 (-1074)
    if m = Nat.pow 2 53 then ofParts? (Nat.pow 2 52) (e + 1) else ofParts? m e

def toFraction (x : Magnitude) : Fraction :=
  .scaled x.mantissa 2 x.exponent

end Magnitude

namespace Binary64

def ofFraction (negative : Bool) (x : Fraction) : Binary64 :=
  match Magnitude.ofFraction? x with
  | some m => .finite negative m
  | none => .infinite negative

def ofInt (i : Int) : Binary64 :=
  ofFraction (decide (i < 0)) ⟨i.natAbs, 1⟩

/-- The number nearest to `n * 10 ^ e`. Beyond 310 places before the point it is infinite and
below 400 after it is zero, so the powers stay small. -/
def ofDecimal (negative : Bool) (n : Nat) (e : Int) : Binary64 :=
  let top := ((Nat.toDigits 10 n).length : Int) + e
  if n = 0 || top < -400 then .finite negative .zero
  else if 310 < top then .infinite negative
  else ofFraction negative (.scaled n 10 e)

def ofDecimal32 (negative : Bool) (n : Nat) (e : Int) : Binary64 :=
  let top := ((Nat.toDigits 10 n).length : Int) + e
  if n = 0 || top < -400 then .finite negative .zero
  else if 310 < top then .infinite negative
  else
    let (m, q) := (Fraction.scaled n 10 e).rounded 24 (-149)
    if (if m = Nat.pow 2 24 then q + 1 else q) ≤ 104 then ofFraction negative (.scaled m 2 q)
    else .infinite negative

def isWhole : Binary64 → Bool
  | .finite _ m => m.toFraction.num % m.toFraction.den == 0
  | _ => false

end Binary64

end PromptFiles.Number
