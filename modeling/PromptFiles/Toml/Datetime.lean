import PromptFiles.Calendar.Date

/-!
# TOML dates and times

A value is a date, a time, or both, and both may come with an offset from universal
time. Years have four digits. Seconds may be 60, and a fraction of a second is kept to
nine digits. Reading accepts a `T` in either case or a space between date and time;
seconds may be left out, and are then zero. Writing uses one form for each value.
-/

namespace PromptFiles.Toml

open Number (isDigit ofDigits padded)

/-- A date with a year of four digits. -/
structure Day where
  date : Calendar.Date
  year_nonneg : 0 ≤ date.year
  year_le : date.year ≤ 9999
deriving DecidableEq, Repr

structure Time where
  hour : Nat
  minute : Nat
  second : Nat
  nanosecond : Nat
  hour_le : hour ≤ 23
  minute_le : minute ≤ 59
  second_le : second ≤ 60
  nanosecond_lt : nanosecond < Nat.pow 10 9
deriving DecidableEq, Repr

inductive Offset where
  | utc
  | minutes (east : Int) (bound : -1440 < east ∧ east < 1440)
deriving DecidableEq, Repr

inductive Datetime where
  | stamp (day : Day) (time : Time) (offset : Option Offset)
  | date (day : Day)
  | time (time : Time)
deriving DecidableEq, Repr

namespace Day

def ofParts? (year month day : Nat) : Option Day :=
  match Calendar.Date.ofParts? year month day with
  | some date =>
    if h : 0 ≤ date.year ∧ date.year ≤ 9999 then some ⟨date, h.1, h.2⟩ else none
  | none => none

def chars (d : Day) : List Char :=
  d.date.chars

end Day

namespace Time

def ofParts? (hour minute second nanosecond : Nat) : Option Time :=
  if h : hour ≤ 23 ∧ minute ≤ 59 ∧ second ≤ 60 ∧ nanosecond < Nat.pow 10 9 then
    some ⟨hour, minute, second, nanosecond, h.1, h.2.1, h.2.2.1, h.2.2.2⟩
  else none

/-- A fraction without the zeros at its end. -/
def fraction (nanosecond : Nat) : List Char :=
  if nanosecond = 0 then []
  else '.' :: ((padded 9 nanosecond).reverse.dropWhile (· == '0')).reverse

def chars (t : Time) : List Char :=
  padded 2 t.hour ++ ':' :: padded 2 t.minute ++ ':' :: padded 2 t.second ++ fraction t.nanosecond

end Time

namespace Offset

def ofParts? (negative : Bool) (hour minute : Nat) : Option Offset :=
  let east : Int := (if negative then -1 else 1) * (hour * 60 + minute)
  if h : -1440 < east ∧ east < 1440 then some (minutes east h) else none

def chars : Offset → List Char
  | utc => ['Z']
  | minutes east _ =>
    (if east < 0 then '-' else '+') ::
      padded 2 (east.natAbs / 60) ++ ':' :: padded 2 (east.natAbs % 60)

end Offset

namespace Datetime

def chars : Datetime → List Char
  | stamp day t none => day.chars ++ 'T' :: t.chars
  | stamp day t (some o) => day.chars ++ 'T' :: t.chars ++ o.chars
  | date day => day.chars
  | time t => t.chars

def text (d : Datetime) : String :=
  String.ofList d.chars

/-- The calendar date, if there is one. An offset does not move it. -/
def date? : Datetime → Option Calendar.Date
  | stamp day _ _ | date day => some day.date
  | time _ => none

def two? : List Char → Option (Nat × List Char)
  | a :: b :: rest => if isDigit a && isDigit b then some (ofDigits [a, b], rest) else none
  | _ => none

def four? : List Char → Option (Nat × List Char)
  | a :: b :: c :: d :: rest =>
    if [a, b, c, d].all isDigit then some (ofDigits [a, b, c, d], rest) else none
  | _ => none

def char? (c : Char) : List Char → Option (List Char)
  | [] => none
  | d :: rest => if d = c then some rest else none

def day? (cs : List Char) : Option (Day × List Char) := do
  let (year, cs) ← four? cs
  let cs ← char? '-' cs
  let (month, cs) ← two? cs
  let cs ← char? '-' cs
  let (day, cs) ← two? cs
  let d ← Day.ofParts? year month day
  return (d, cs)

/-- Nanoseconds of a fraction; digits past the ninth are dropped. -/
def nanoseconds (run : List Char) : Nat :=
  ofDigits ((run ++ List.replicate 9 '0').take 9)

def seconds? : List Char → Option (Nat × Nat × List Char)
  | ':' :: cs => do
    let (second, cs) ← two? cs
    match cs with
    | '.' :: cs =>
      let run := cs.takeWhile isDigit
      if run = [] then none else return (second, nanoseconds run, cs.dropWhile isDigit)
    | cs => return (second, 0, cs)
  | cs => some (0, 0, cs)

def time? (cs : List Char) : Option (Time × List Char) := do
  let (hour, cs) ← two? cs
  let cs ← char? ':' cs
  let (minute, cs) ← two? cs
  let (second, nanosecond, cs) ← seconds? cs
  let t ← Time.ofParts? hour minute second nanosecond
  return (t, cs)

def offset? : List Char → Option Offset
  | ['Z'] | ['z'] => some .utc
  | c :: cs => do
    let negative ← if c = '-' then some true else if c = '+' then some false else none
    let (hours, cs) ← two? cs
    let cs ← char? ':' cs
    let (minutes, cs) ← two? cs
    if cs = [] && hours ≤ 23 && minutes ≤ 59 then Offset.ofParts? negative hours minutes else none
  | [] => none

def afterDay? (day : Day) : List Char → Option Datetime
  | [] => some (date day)
  | c :: cs =>
    if c = 'T' || c = 't' || c = ' ' then do
      let (t, cs) ← time? cs
      if cs = [] then return stamp day t none
      let o ← offset? cs
      return stamp day t (some o)
    else none

def ofChars? (cs : List Char) : Option Datetime :=
  match day? cs with
  | some (day, rest) => afterDay? day rest
  | none =>
    match time? cs with
    | some (t, []) => some (time t)
    | _ => none

end Datetime

end PromptFiles.Toml
