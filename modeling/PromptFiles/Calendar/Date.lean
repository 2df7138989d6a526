import PromptFiles.Number.Numeral

/-!
# Calendar dates

Dates of the proleptic Gregorian calendar, with a year zero and years before it. A
date is written with a year of at least four digits, which takes a sign outside the
years 0 to 9999.
-/

namespace PromptFiles.Calendar

def isLeap (year : Int) : Bool :=
  year % 4 == 0 && (year % 100 != 0 || year % 400 == 0)

def daysInMonth (year : Int) (month : Nat) : Nat :=
  match month with
  | 2 => if isLeap year then 29 else 28
  | 4 | 6 | 9 | 11 => 30
  | _ => 31

def yearInRange (year : Int) : Bool :=
  -262143 ≤ year && year ≤ 262142

structure Date where
  year : Int
  month : Nat
  day : Nat
  year_inRange : yearInRange year = true
  month_pos : 1 ≤ month
  month_le : month ≤ 12
  day_pos : 1 ≤ day
  day_le : day ≤ daysInMonth year month
deriving DecidableEq, Repr

namespace Date

def ofParts? (year : Int) (month day : Nat) : Option Date :=
  if h : yearInRange year = true ∧ 1 ≤ month ∧ month ≤ 12 ∧ 1 ≤ day ∧ day ≤ daysInMonth year month
  then some ⟨year, month, day, h.1, h.2.1, h.2.2.1, h.2.2.2.1, h.2.2.2.2⟩
  else none

def yearText (year : Int) : List Char :=
  if 0 ≤ year ∧ year ≤ 9999 then Number.padded 4 year.toNat
  else (if year < 0 then '-' else '+') :: Number.padded 4 year.natAbs

def chars (d : Date) : List Char :=
  yearText d.year ++ '-' :: Number.padded 2 d.month ++ '-' :: Number.padded 2 d.day

def text (d : Date) : String :=
  String.ofList d.chars

end Date

end PromptFiles.Calendar
