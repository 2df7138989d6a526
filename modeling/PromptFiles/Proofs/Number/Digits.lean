import Mathlib
import PromptFiles.Number.Decimal

/-!
# Digits of written numbers

Numerals hold digits only, `padded` fills them up to a width without changing the number
they denote, and a number written with a fixed count of decimals adds no more than a
point and a sign.
-/

namespace PromptFiles.Number

theorem isDigit_of_mem_digits (h : c ∈ digits n) : isDigit c = true :=
  Nat.isDigit_of_mem_toDigits (by decide) (by decide) h

theorem isDigit_of_mem_padded (h : c ∈ padded width n) : isDigit c = true := by
  rcases List.mem_append.mp h with h | h
  · rw [List.eq_of_mem_replicate h]; rfl
  · exact isDigit_of_mem_digits h

theorem ofDigits_padded (width n : Nat) : ofDigits (padded width n) = n := by
  rw [ofDigits, padded, Nat.ofDigitChars_append, Nat.ofDigitChars_replicate_zero, Nat.mul_zero]
  exact ofDigits_digits n

theorem length_padded (h : n < 10 ^ width) (hw : 0 < width) : (padded width n).length = width := by
  have hle : (digits n).length ≤ width := (Nat.length_toDigits_le_iff (by decide) hw).mpr h
  simp only [padded, List.length_append, List.length_replicate]
  omega

theorem padded_ne_nil (width n : Nat) : padded width n ≠ [] := by
  simp [padded, digits]

def isDecimalChar (c : Char) : Bool :=
  isDigit c || c ∈ ['-', '.', 'N', 'a', 'i', 'n', 'f']

theorem isDecimalChar_withPoint (h : c ∈ withPoint n places) : isDecimalChar c = true := by
  have digit {d : Char} (hd : isDigit d = true) : isDecimalChar d = true := by
    simp [isDecimalChar, hd]
  unfold withPoint at h
  split at h
  · exact digit (isDigit_of_mem_digits h)
  · rcases List.mem_append.mp h with h | h
    · exact digit (isDigit_of_mem_digits h)
    · rcases List.mem_cons.mp h with rfl | h
      · rfl
      · exact digit (isDigit_of_mem_padded h)

theorem isDecimalChar_signed {negative : Bool} {cs : List Char}
    (hcs : ∀ d ∈ cs, isDecimalChar d = true)
    (h : c ∈ (String.ofList (if negative then '-' :: cs else cs)).toList) :
    isDecimalChar c = true := by
  rw [String.toList_ofList] at h
  split at h
  · rcases List.mem_cons.mp h with rfl | h
    · rfl
    · exact hcs c h
  · exact hcs c h

theorem isDecimalChar_toFixed (x : Binary64) (h : c ∈ (x.toFixed places).toList) :
    isDecimalChar c = true := by
  cases x with
  | nan =>
    have hall : "NaN".toList.all isDecimalChar = true := by decide
    exact List.all_eq_true.mp hall c h
  | infinite negative =>
    have hall : "inf".toList.all isDecimalChar = true := by decide
    exact isDecimalChar_signed (List.all_eq_true.mp hall) h
  | finite negative m =>
    have hall : ∀ d ∈ withPoint (m.fixed places) places, isDecimalChar d = true :=
      fun d => isDecimalChar_withPoint
    exact isDecimalChar_signed hall h

end PromptFiles.Number
