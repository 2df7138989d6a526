import Mathlib
import PromptFiles.Proofs.Number.Reading
import PromptFiles.Proofs.Template.Grammar
import PromptFiles.Template.Spec

/-!
# The grammar of formats

A `Layout` has the pieces that a format is written with; each of them may be absent. Every part of
the reader is compared with the piece it takes (`takeNumber?_eq_some_iff`,
`takePrecision?_eq_some_iff`, `kind?_eq_some_iff`), and the reader with the layout
(`ofChars?_eq_some_iff`). A zero in front of the width could be the flag or a digit: it is the
flag, and the width reads the same without it (`exists_flagged`), so `parse?_iff` does not ask for
more than the pieces.
-/

namespace PromptFiles.Template

def SpecKind.letter : SpecKind → List Char
  | plain => []
  | integer => ['d']
  | fixed => ['f']
  | text => ['s']

namespace Spec

structure Run where
  digits : List Char
  ne_nil : digits ≠ []
  isDigit : ∀ c ∈ digits, Number.isDigit c = true
  bounded : Number.ofDigits digits ≤ maxNumber

namespace Run

def number (run : Run) : Nat :=
  Number.ofDigits run.digits

def text : Option Run → List Char
  | none => []
  | some run => run.digits

def pointed : Option Run → List Char
  | none => []
  | some run => '.' :: run.digits

end Run

/-- The pieces of a format. -/
structure Layout where
  flag : Bool
  width : Option Run
  precision : Option Run
  kind : SpecKind

namespace Layout

def sized (l : Layout) : List Char :=
  Run.text l.width ++ (Run.pointed l.precision ++ l.kind.letter)

def text (l : Layout) : List Char :=
  if l.flag then '0' :: l.sized else l.sized

def spec (l : Layout) : Spec where
  zeroPad := l.flag
  width := l.width.map Run.number
  precision := l.precision.map Run.number
  kind := l.kind

end Layout

-- ---------------------------------------------------------------------------
-- Pieces
-- ---------------------------------------------------------------------------

def Stops (rest : List Char) : Prop :=
  ∀ c, rest.head? = some c → Number.isDigit c = false

theorem takeNumber?_text (run : Option Run) {rest : List Char} (h : Stops rest) :
    takeNumber? (Run.text run ++ rest) = some (run.map Run.number, rest) := by
  have hdigits : ∀ c ∈ Run.text run, Number.isDigit c = true := by
    cases run with
    | none => simp [Run.text]
    | some run => exact run.isDigit
  rw [takeNumber?, takeWhile_append_stop hdigits h, dropWhile_append_stop hdigits h]
  cases run with
  | none => rfl
  | some run =>
    obtain ⟨c, cs, hcs⟩ := List.exists_cons_of_ne_nil run.ne_nil
    have hbound := run.bounded
    simp only [Run.text, Option.map_some, Run.number, hcs] at hbound ⊢
    rw [if_pos hbound]

theorem takeNumber?_eq_some_iff : takeNumber? cs = some (n, rest) ↔
    ∃ run, cs = Run.text run ++ rest ∧ run.map Run.number = n ∧ Stops rest := by
  constructor
  · intro h
    have hjoin := List.takeWhile_append_dropWhile (p := Number.isDigit) (l := cs)
    have hstops : Stops (cs.dropWhile Number.isDigit) := fun c => head?_dropWhile_false
    unfold takeNumber? at h
    split at h
    · rename_i hnone
      cases h
      rw [hnone, List.nil_append] at hjoin
      exact ⟨none, rfl, rfl, hjoin ▸ hstops⟩
    · rename_i hne
      split at h
      · rename_i hbound
        cases h
        exact ⟨some ⟨_, hne, fun c => List.mem_takeWhile_imp, hbound⟩, hjoin.symm, rfl, hstops⟩
      · cases h
  · rintro ⟨run, rfl, rfl, hstops⟩
    exact takeNumber?_text run hstops

theorem takePrecision?_eq_some_iff : takePrecision? cs = some (n, rest) ↔
    ∃ run, cs = Run.pointed run ++ rest ∧ run.map Run.number = n ∧
      (run = none → rest.head? ≠ some '.') ∧ (run ≠ none → Stops rest) := by
  constructor
  · intro h
    unfold takePrecision? at h
    split at h
    · split at h
      · rename_i hnumber
        cases h
        obtain ⟨run, rfl, hrun, hstops⟩ := takeNumber?_eq_some_iff.mp hnumber
        cases run with
        | none => cases hrun
        | some run => exact ⟨some run, rfl, hrun, nofun, fun _ => hstops⟩
      · cases h
    · rename_i hpoint
      cases h
      refine ⟨none, rfl, rfl, fun _ hhead => ?_, fun hne => absurd rfl hne⟩
      obtain ⟨tail, rfl⟩ := List.head?_eq_some_iff.mp hhead
      exact hpoint tail rfl
  · rintro ⟨run, rfl, rfl, hnone, hsome⟩
    cases run with
    | none =>
      have hpoint : ∀ tail, rest ≠ '.' :: tail := fun tail he => hnone rfl (he ▸ rfl)
      rw [Run.pointed, List.nil_append, takePrecision?.eq_2 _ hpoint]
      rfl
    | some run =>
      have hnumber := takeNumber?_text (some run) (hsome nofun)
      simp only [Run.text, Option.map_some] at hnumber
      simp only [Run.pointed, List.cons_append, takePrecision?, hnumber, Option.map_some]

theorem kind?_eq_some_iff {k : SpecKind} : kind? cs = some k ↔ cs = k.letter := by
  constructor
  · intro h
    unfold kind? at h
    split at h <;> cases h <;> rfl
  · rintro rfl
    cases k <;> rfl

-- ---------------------------------------------------------------------------
-- The whole format
-- ---------------------------------------------------------------------------

def sized? (flag : Bool) (cs : List Char) : Option Spec := do
  let (width, cs) ← takeNumber? cs
  let (precision, cs) ← takePrecision? cs
  let kind ← kind? cs
  return { zeroPad := flag, width, precision, kind }

theorem ofChars?_flag (cs : List Char) : ofChars? ('0' :: cs) = sized? true cs := rfl

theorem ofChars?_plain (h : cs.head? ≠ some '0') : ofChars? cs = sized? false cs := by
  unfold ofChars?
  split
  rename_i hflag
  split at hflag
  · exact absurd rfl h
  · cases hflag
    rfl

theorem head?_letter {k : SpecKind} (h : k.letter.head? = some c) :
    Number.isDigit c = false ∧ c ≠ '.' := by
  cases k <;> cases h <;> decide

theorem stops_pointed (run : Option Run) (k : SpecKind) :
    Stops (Run.pointed run ++ k.letter) := by
  intro c hc
  cases run with
  | none => exact (head?_letter hc).1
  | some run =>
    cases hc
    rfl

theorem sized?_eq_some_iff : sized? flag cs = some spec ↔
    ∃ l : Layout, l.flag = flag ∧ l.sized = cs ∧ l.spec = spec := by
  simp only [sized?, Option.bind_eq_bind, Option.bind_eq_some_iff, Option.pure_def,
    Option.some.injEq, Prod.exists]
  constructor
  · rintro ⟨n, rest, hwidth, m, last, hprecision, kind, hkind, rfl⟩
    obtain ⟨width, rfl, rfl, -⟩ := takeNumber?_eq_some_iff.mp hwidth
    obtain ⟨precision, rfl, rfl, -⟩ := takePrecision?_eq_some_iff.mp hprecision
    obtain rfl := kind?_eq_some_iff.mp hkind
    exact ⟨⟨flag, width, precision, kind⟩, rfl, rfl, rfl⟩
  · rintro ⟨l, rfl, rfl, rfl⟩
    refine ⟨_, _, takeNumber?_text l.width (stops_pointed l.precision l.kind), _, _,
      takePrecision?_eq_some_iff.mpr ⟨l.precision, rfl, rfl, ?_, ?_⟩, _,
      kind?_eq_some_iff.mpr rfl, rfl⟩
    · intro _ hhead
      exact (head?_letter hhead).2 rfl
    · intro _ c hhead
      exact (head?_letter hhead).1

theorem ofChars?_eq_some_iff : ofChars? cs = some spec ↔
    ∃ l : Layout, l.text = cs ∧ (l.flag = true ↔ cs.head? = some '0') ∧ l.spec = spec := by
  by_cases hzero : cs.head? = some '0'
  · obtain ⟨rest, rfl⟩ := List.head?_eq_some_iff.mp hzero
    rw [ofChars?_flag, sized?_eq_some_iff]
    constructor
    · rintro ⟨l, hflag, rfl, hspec⟩
      exact ⟨l, by rw [Layout.text, if_pos hflag], by simp [hflag], hspec⟩
    · rintro ⟨l, htext, hflag, hspec⟩
      have hset : l.flag = true := hflag.mpr rfl
      rw [Layout.text, if_pos hset] at htext
      exact ⟨l, hset, (List.cons.inj htext).2, hspec⟩
  · rw [ofChars?_plain hzero, sized?_eq_some_iff]
    constructor
    · rintro ⟨l, hflag, rfl, hspec⟩
      exact ⟨l, by simp [Layout.text, hflag], by simp [hflag, hzero], hspec⟩
    · rintro ⟨l, htext, hflag, hspec⟩
      have hset : l.flag = false := by simpa [hzero] using hflag
      refine ⟨l, hset, ?_, hspec⟩
      simpa [Layout.text, hset] using htext

theorem Run.exists_tail (run : Run) (h : run.digits.head? = some '0') :
    ∃ shorter : Option Run, '0' :: Run.text shorter = run.digits := by
  obtain ⟨tail, htail⟩ := List.head?_eq_some_iff.mp h
  by_cases hnil : tail = []
  · exact ⟨none, by rw [htail, hnil]; rfl⟩
  · have hdigit : ∀ c ∈ tail, Number.isDigit c = true :=
      fun c hc => run.isDigit c (htail ▸ List.mem_cons_of_mem _ hc)
    have hbound : Number.ofDigits tail ≤ maxNumber := by
      have hle := run.bounded
      rwa [htail, Number.ofDigits_zero_cons] at hle
    exact ⟨some ⟨tail, hnil, hdigit, hbound⟩, htail.symm⟩

/-- Any pieces can be taken so that a zero at the start is the flag. -/
theorem exists_flagged (l : Layout) :
    ∃ l' : Layout, l'.text = l.text ∧ (l'.flag = true ↔ l.text.head? = some '0') := by
  cases hflag : l.flag with
  | true => exact ⟨l, rfl, by simp [Layout.text, hflag]⟩
  | false =>
    have htext : l.text = l.sized := by simp [Layout.text, hflag]
    rw [htext]
    by_cases hzero : l.sized.head? = some '0'
    · cases hwidth : l.width with
      | none =>
        -- Without a width there is no digit at the start.
        have hstop := stops_pointed l.precision l.kind '0'
        rw [Layout.sized, hwidth] at hzero
        exact absurd (hstop hzero) (by decide)
      | some run =>
        have hhead : run.digits.head? = some '0' := by
          rw [Layout.sized, hwidth, Run.text, List.head?_append_of_ne_nil _ run.ne_nil] at hzero
          exact hzero
        obtain ⟨shorter, hshorter⟩ := run.exists_tail hhead
        refine ⟨⟨true, shorter, l.precision, l.kind⟩, ?_, by simp [hzero]⟩
        simp only [Layout.text, Layout.sized, hwidth, Run.text, ← hshorter, if_true]
        rfl
    · exact ⟨l, htext, by simp [hflag, hzero]⟩

-- ---------------------------------------------------------------------------
-- Words
-- ---------------------------------------------------------------------------

/-- `takeNumber?` with numbers that are read into words of a limited size. -/
def takeWord? (limit : Nat) (cs : List Char) : Option (Option Nat × List Char) :=
  match cs.takeWhile Number.isDigit with
  | [] => some (none, cs)
  | run =>
    ((Number.readBelow? limit run).filter (· ≤ maxNumber)).map fun n =>
      (some n, cs.dropWhile Number.isDigit)

/-- No number that overflows a word passes for a smaller one. -/
theorem takeWord?_eq (h : maxNumber < limit) (cs : List Char) :
    takeWord? limit cs = takeNumber? cs := by
  unfold takeWord? takeNumber?
  cases cs.takeWhile Number.isDigit with
  | nil => rfl
  | cons c run =>
    simp only [Number.readBelow?_eq (Nat.zero_lt_of_lt h), Number.fit?]
    by_cases hbound : Number.ofDigits (c :: run) ≤ maxNumber
    · have hfits : Number.ofDigits (c :: run) < limit := by omega
      simp [hfits, hbound]
    · have hlarge : maxNumber < Number.ofDigits (c :: run) := by omega
      split <;> simp [hlarge]

-- ---------------------------------------------------------------------------
-- Formats
-- ---------------------------------------------------------------------------

/-- A text is a format if and only if it is written with the pieces of a layout: a flag, a width, a
point and a precision, a letter, all of which may be absent. What the format asks for is what the
pieces say, where a zero at the start is the flag. Width and precision are runs of any length that
denote a number in bounds, and in words of any size that holds the largest of these numbers they
are read no differently. -/
theorem parse?_iff (format : String) :
    ((parse? format).isSome = true ↔ ∃ l : Layout, l.text = format.toList) ∧
    (∀ spec, parse? format = some spec ↔ ∃ l : Layout, l.text = format.toList ∧
      (l.flag = true ↔ format.toList.head? = some '0') ∧ l.spec = spec) ∧
    ∀ limit, maxNumber < limit → ∀ cs, takeWord? limit cs = takeNumber? cs := by
  have hparse (spec : Spec) : parse? format = some spec ↔ ∃ l : Layout, l.text = format.toList ∧
      (l.flag = true ↔ format.toList.head? = some '0') ∧ l.spec = spec := ofChars?_eq_some_iff
  refine ⟨⟨fun h => ?_, ?_⟩, hparse, fun limit h => takeWord?_eq h⟩
  · obtain ⟨spec, hspec⟩ := Option.isSome_iff_exists.mp h
    obtain ⟨l, htext, -, -⟩ := (hparse spec).mp hspec
    exact ⟨l, htext⟩
  · rintro ⟨l, htext⟩
    obtain ⟨l', htext', hflag⟩ := exists_flagged l
    rw [htext] at htext' hflag
    exact Option.isSome_iff_exists.mpr ⟨l'.spec, (hparse _).mpr ⟨l', htext', hflag, rfl⟩⟩

theorem parse?_iff_zeros :
    let width : Run := ⟨['0', '1', '2'], by decide, List.all_eq_true.mp (by decide), by decide⟩
    let precision : Run :=
      ⟨['0', '2', '0'], by decide, List.all_eq_true.mp (by decide), by decide⟩
    Layout.text ⟨true, some width, some precision, .fixed⟩ = "0012.020f".toList ∧
      parse? "0012.020f" = some ⟨true, some 12, some 20, .fixed⟩ ∧
      maxNumber < 2 ^ 64 ∧ takeWord? (2 ^ 64) "18446744073709551617d".toList = none := by
  intro width precision
  obtain ⟨-, hparse, hwords⟩ := parse?_iff "0012.020f"
  have htext : Layout.text ⟨true, some width, some precision, .fixed⟩ = "0012.020f".toList := by
    decide
  have hlimit : maxNumber < 2 ^ 64 := by norm_num [maxNumber]
  refine ⟨htext, (hparse _).mpr ⟨_, htext, by simp, rfl⟩, hlimit, ?_⟩
  rw [hwords _ hlimit]
  cbv

/-- A zero alone is the flag, and a point needs digits. -/
example : ["0", "00", "7.", "d5"].map parse? =
    [some ⟨true, none, none, .plain⟩, some ⟨true, some 0, none, .plain⟩, none, none] := by
  decide

end Spec

end PromptFiles.Template
