import PromptFiles.Calendar.Reading
import PromptFiles.Proofs.Number.Digits
import PromptFiles.Proofs.Text.Lines

/-!
# Reading a written date

The text of a date is read as that date again, with a year of any size and either sign:
`dateOfText?_text`.
-/

namespace PromptFiles.Calendar

open Number (isDigit ofDigits padded)
open Text (isBlank)

theorem isBlank_of_isDigit {c : Char} (h : isDigit c = true) : isBlank c = false := by
  rw [Bool.eq_false_iff]
  intro hb
  simp only [isDigit, isBlank, Bool.or_eq_true, Bool.and_eq_true, decide_eq_true_eq,
    beq_iff_eq, Char.le_def, UInt32.le_iff_toNat_le, Char.ext_iff, ← UInt32.toNat_inj] at h hb
  simp at h hb
  omega

theorem takeDigits?_padded (h : (padded width n).length ≤ most)
    (hrest : ∀ c ∈ rest.head?, isDigit c = false) :
    takeDigits? most (padded width n ++ rest) = some (n, rest) := by
  have hstop : (rest.take (most - (padded width n).length)).takeWhile isDigit = [] := by
    cases hk : most - (padded width n).length with
    | zero => simp
    | succ k =>
      cases rest with
      | nil => rfl
      | cons c cs => simp [hrest c (by simp)]
  have hrun : ((padded width n ++ rest).take most).takeWhile isDigit = padded width n := by
    rw [List.take_append, List.take_of_length_le h,
      List.takeWhile_append_of_pos fun c hc => Number.isDigit_of_mem_padded hc, hstop,
      List.append_nil]
  rw [takeDigits?]
  simp only [hrun, Number.padded_ne_nil, ↓reduceIte, Number.ofDigits_padded]
  rw [List.drop_left]

theorem takeYear?_yearText (year : Int) (rest : List Char) :
    takeYear? (Date.yearText year ++ '-' :: rest) = some (year, '-' :: rest) := by
  have hdash : ∀ c ∈ ('-' :: rest).head?, isDigit c = false := by simp; decide
  unfold Date.yearText
  split
  · rename_i h
    have hlength : (padded 4 year.toNat).length ≤ 4 := by
      rw [Number.length_padded (by omega) (by decide)]
    have htake := takeDigits?_padded hlength hdash
    obtain ⟨c, cs, hcs⟩ := List.exists_cons_of_ne_nil (Number.padded_ne_nil 4 year.toNat)
    have hmem : c ∈ padded 4 year.toNat := by simp [hcs]
    have hc : isDigit c = true := Number.isDigit_of_mem_padded hmem
    rw [hcs, List.cons_append] at htake ⊢
    have hyear : (year.toNat : Int) = year := by omega
    rw [takeYear?, htake]
    · exact congrArg (fun y => some (y, '-' :: rest)) hyear
    · rintro _ ⟨rfl, -⟩; exact absurd hc (by decide)
    · rintro _ ⟨rfl, -⟩; exact absurd hc (by decide)
  · rename_i h
    have htake {most : Nat} (hmost : (padded 4 year.natAbs).length ≤ most) :=
      takeDigits?_padded hmost hdash
    split
    · have hyear : -(year.natAbs : Int) = year := by omega
      rw [List.cons_append, takeYear?, htake (by simp)]
      exact congrArg (fun y => some (y, '-' :: rest)) hyear
    · have hyear : (year.natAbs : Int) = year := by omega
      rw [List.cons_append, takeYear?, htake (by simp)]
      exact congrArg (fun y => some (y, '-' :: rest)) hyear

theorem daysInMonth_le (year : Int) (month : Nat) : daysInMonth year month ≤ 31 := by
  unfold daysInMonth
  split
  · split <;> decide
  all_goals decide

theorem ofParts?_self (d : Date) : Date.ofParts? d.year d.month d.day = some d := by
  rw [Date.ofParts?, dif_pos ⟨d.year_inRange, d.month_pos, d.month_le, d.day_pos, d.day_le⟩]

theorem takeDigits?_pair (h : n < 100) (hrest : ∀ c ∈ rest.head?, isDigit c = false) :
    takeDigits? 2 (Text.trimStart (padded 2 n ++ rest)) = some (n, rest) := by
  have hlength : (padded 2 n).length = 2 := Number.length_padded h (by decide)
  have hstart : Text.trimStart (padded 2 n ++ rest) = padded 2 n ++ rest := by
    obtain ⟨c, cs, hcs⟩ := List.exists_cons_of_ne_nil (Number.padded_ne_nil 2 n)
    have hc : c ∈ padded 2 n := by simp [hcs]
    refine Text.trimStart_eq_self ?_
    simpa [hcs] using isBlank_of_isDigit (Number.isDigit_of_mem_padded hc)
  rw [hstart, takeDigits?_padded (by omega) hrest]

theorem isBlank_date {d : Date} (h : c ∈ d.chars) : isBlank c = false := by
  have hdigit {width n : Nat} (hc : c ∈ padded width n) : isBlank c = false :=
    isBlank_of_isDigit (Number.isDigit_of_mem_padded hc)
  have hdash : isBlank '-' = false := by decide
  simp only [Date.chars, List.mem_append, List.mem_cons] at h
  rcases h with (h | rfl | h) | rfl | h
  · unfold Date.yearText at h
    split at h
    · exact hdigit h
    · rcases List.mem_cons.mp h with rfl | h
      · split <;> decide
      · exact hdigit h
  · exact hdash
  · exact hdigit h
  · exact hdash
  · exact hdigit h

theorem plainDate?_chars (d : Date) : plainDate? d.chars = some d := by
  have hmonth : d.month < 100 := by have := d.month_le; omega
  have hday : d.day < 100 := by have := d.day_le; have := daysInMonth_le d.year d.month; omega
  have hdash (rest : List Char) : ∀ c ∈ ('-' :: rest).head?, isDigit c = false := by simp; decide
  have hstart : Text.trimStart d.chars = d.chars :=
    Text.trimStart_eq_self fun c hc => isBlank_date (List.mem_of_mem_head? hc)
  have hlast : takeDigits? 2 (Text.trimStart (padded 2 d.day ++ [])) = some (d.day, []) :=
    takeDigits?_pair hday (by simp)
  rw [List.append_nil] at hlast
  rw [plainDate?, hstart, Date.chars, List.append_assoc, List.cons_append, takeYear?_yearText]
  simp [takeChar?, takeDigits?_pair hmonth (hdash _), hlast, ofParts?_self]

theorem dateOfText?_text (d : Date) : dateOfText? d.text = some d := by
  have htrim : Text.trim d.chars = d.chars :=
    Text.trim_eq_self (fun c hc => isBlank_date (List.mem_of_mem_head? hc))
      fun c hc => isBlank_date (List.mem_of_getLast? hc)
  rw [dateOfText?, Date.text, String.toList_ofList, htrim, plainDate?_chars]
  rfl

end PromptFiles.Calendar
