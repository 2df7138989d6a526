import PromptFiles.Text.Blank
import PromptFiles.Calendar.Date

/-!
# Reading dates

Two shapes are read. In the plain one, year, month and day stand with a hyphen
between two; each may have white space before it, a signed year has any number of
digits and an unsigned one at most four. The other one is a time stamp with date,
time and offset, of which only the local date is kept.
-/

namespace PromptFiles.Calendar

/-- The digits at the start, at least one and no more than `most`, and the rest. -/
def takeDigits? (most : Nat) (cs : List Char) : Option (Nat × List Char) :=
  let run := (cs.take most).takeWhile Number.isDigit
  if run = [] then none else some (Number.ofDigits run, cs.drop run.length)

/-- Exactly two digits that denote at most `limit`. -/
def takePair? (limit : Nat) : List Char → Option (Nat × List Char)
  | a :: b :: rest =>
    let n := Number.ofDigits [a, b]
    if Number.isDigit a && Number.isDigit b && n ≤ limit then some (n, rest) else none
  | _ => none

def takeChar? (c : Char) : List Char → Option (List Char)
  | [] => none
  | d :: rest => if d = c then some rest else none

/-- A year with all its digits after a sign, with at most four without one. -/
def takeYear? : List Char → Option (Int × List Char)
  | '-' :: cs => (takeDigits? cs.length cs).map fun (n, rest) => (-(n : Int), rest)
  | '+' :: cs => (takeDigits? cs.length cs).map fun (n, rest) => ((n : Int), rest)
  | cs => (takeDigits? 4 cs).map fun (n, rest) => ((n : Int), rest)

def plainDate? (cs : List Char) : Option Date := do
  let (year, cs) ← takeYear? (Text.trimStart cs)
  let cs ← takeChar? '-' cs
  let (month, cs) ← takeDigits? 2 (Text.trimStart cs)
  let cs ← takeChar? '-' cs
  let (day, cs) ← takeDigits? 2 (Text.trimStart cs)
  if cs = [] then Date.ofParts? year month day else none

/-- A point with at least one digit, or nothing. -/
def skipFraction? : List Char → Option (List Char)
  | '.' :: cs =>
    if cs.takeWhile Number.isDigit = [] then none else some (cs.dropWhile Number.isDigit)
  | cs => some cs

def isMinus (c : Char) : Bool :=
  c == '-' || c == '\u2212'

def isOffset : List Char → Bool
  | [c] => c == 'Z' || c == 'z'
  | c :: cs =>
    (c == '+' || isMinus c) &&
      (do let (_, cs) ← takePair? 23 cs
          let cs ← takeChar? ':' cs
          let (_, cs) ← takePair? 59 cs
          if cs = [] then some () else none).isSome
  | [] => false

def takeFour? (cs : List Char) : Option (Nat × List Char) :=
  let run := cs.take 4
  if run.length = 4 && run.all Number.isDigit then some (Number.ofDigits run, cs.drop 4) else none

def stampDate? (cs : List Char) : Option Date := do
  let (year, cs) ← takeFour? cs
  let cs ← takeChar? '-' cs
  let (month, cs) ← takePair? 12 cs
  let cs ← takeChar? '-' cs
  let (day, cs) ← takePair? 31 cs
  let cs ← (takeChar? 'T' cs <|> takeChar? 't' cs <|> takeChar? ' ' cs)
  let (_, cs) ← takePair? 23 cs
  let cs ← takeChar? ':' cs
  let (_, cs) ← takePair? 59 cs
  let cs ← takeChar? ':' cs
  let (_, cs) ← takePair? 60 cs
  let cs ← skipFraction? cs
  if isOffset cs then Date.ofParts? year month day else none

/-- The date that a text names in either shape, with white space around it. -/
def dateOfText? (s : String) : Option Date :=
  let cs := Text.trim s.toList
  plainDate? cs <|> stampDate? cs

end PromptFiles.Calendar
