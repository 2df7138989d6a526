import PromptFiles.Number.Numeral
import PromptFiles.Number.Binary64

/-!
# Decimal texts of binary numbers

The shortest decimal of a magnitude has the fewest digits that still read back as
the same number, and is the nearest of those. Candidates are the two neighbours of
the value on the grid of multiples of a power of ten, from the power of its leading
digit downwards. A decimal with a fixed number of places is the exact binary value
rounded, a tie going to the even digit.
-/

namespace PromptFiles.Number

/-- Where a candidate goes that lies halfway between two decimals of one length. -/
inductive Tie where
  | up
  | even
deriving DecidableEq, Repr

structure Decimal where
  significand : Nat
  exponent : Int
deriving DecidableEq, Repr

namespace Decimal

def positional (d : Decimal) : List Char × List Char :=
  match d.exponent with
  | .ofNat k => (digits (d.significand * Nat.pow 10 k), [])
  | .negSucc k =>
    let unit := Nat.pow 10 (k + 1)
    (digits (d.significand / unit), padded (k + 1) (d.significand % unit))

def stripped (d : Decimal) : Decimal :=
  let zeros := ((digits d.significand).reverse.takeWhile (· == '0')).length
  ⟨d.significand / Nat.pow 10 zeros, d.exponent + zeros⟩

end Decimal

namespace Magnitude

/-- The gap to the next smaller magnitude is half as wide as the one above. -/
def narrowBelow (x : Magnitude) : Bool :=
  x.mantissa == Nat.pow 2 52 && x.exponent != -1074

/-- Quarters of the last binary place, and `10 ^ k`, in a common unit. -/
def grid (x : Magnitude) (k : Int) : Nat × Nat :=
  let quarter := x.exponent - 2
  (Nat.pow 2 quarter.toNat * Nat.pow 10 (-k).toNat,
    Nat.pow 10 k.toNat * Nat.pow 2 (-quarter).toNat)

/-- Every real number that lies between the midpoints to the neighbours reads as the
magnitude; the midpoints do if its mantissa is even. The place `c` is counted in units. -/
def readsBack (x : Magnitude) (quarter c : Nat) : Bool :=
  let below := (4 * x.mantissa - (if x.narrowBelow then 1 else 2)) * quarter
  let above := (4 * x.mantissa + 2) * quarter
  if x.mantissa % 2 = 0 then below ≤ c && c ≤ above else below < c && c < above

def onGrid? (tie : Tie) (x : Magnitude) (k : Int) : Option Decimal :=
  let (quarter, unit) := x.grid k
  let value := 4 * x.mantissa * quarter
  let lower := value / unit
  let low := 0 < lower && x.readsBack quarter (lower * unit)
  let high := x.readsBack quarter ((lower + 1) * unit)
  let takesHigh : Bool :=
    if low && high then
      let below := value - lower * unit
      let above := (lower + 1) * unit - value
      if below = above then tie == .up || lower % 2 == 1 else above < below
    else high
  if takesHigh then some ⟨lower + 1, k⟩
  else if low then some ⟨lower, k⟩
  else none

/-- The power of ten of the leading digit. Every magnitude but zero is above `10 ^ -400`. -/
def leadingPower (x : Magnitude) : Int :=
  let y := x.toFraction.scale 10 400
  (digits (y.num / y.den)).length - 401

/-- All digits of the value, which a magnitude always has finitely many of. -/
def exactly (x : Magnitude) : Decimal :=
  ⟨x.mantissa * Nat.pow 2 x.exponent.toNat * Nat.pow 5 (-x.exponent).toNat, min x.exponent 0⟩

def shortest (tie : Tie) (x : Magnitude) : Decimal :=
  if x.mantissa = 0 then ⟨0, 0⟩
  else
    let top := x.leadingPower
    (((List.range 18).findSome? fun i => x.onGrid? tie (top - (i : Nat))).getD x.exactly).stripped

/-- The value rounded to a multiple of `10 ^ -places`, in such multiples. -/
def fixed (x : Magnitude) (places : Nat) : Nat :=
  (x.toFraction.scale 10 places).nearest

end Magnitude

def withPoint (n places : Nat) : List Char :=
  if places = 0 then digits n
  else digits (n / Nat.pow 10 places) ++ '.' :: padded places (n % Nat.pow 10 places)

namespace Binary64

private def signed (negative : Bool) (cs : List Char) : String :=
  String.ofList (if negative then '-' :: cs else cs)

/-- Shortest digits, never an exponent, and no point in a whole number. -/
def plain : Binary64 → String
  | .nan => "NaN"
  | .infinite negative => signed negative "inf".toList
  | .finite negative m =>
    match (m.shortest .up).positional with
    | (whole, []) => signed negative whole
    | (whole, part) => signed negative (whole ++ '.' :: part)

def toFixed (places : Nat) : Binary64 → String
  | .nan => "NaN"
  | .infinite negative => signed negative "inf".toList
  | .finite negative m => signed negative (withPoint (m.fixed places) places)

end Binary64

end PromptFiles.Number
