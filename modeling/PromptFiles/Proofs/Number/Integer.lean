import Mathlib
import PromptFiles.Proofs.Number.Reading

/-!
# Integers of 64 bits in texts

`Spells` gives every way to write an integer down: digits with any number of zeros in front, and a
sign. An integer of 64 bits is read from exactly these texts (`int64?_eq_some_iff`), and one of
them is its numeral (`spells_numeral`).
-/

namespace PromptFiles.Number

inductive Spells : List Char → Int → Prop
  | digits : isNumeral cs = true → Spells cs (ofDigits cs)
  | plus : isNumeral cs = true → Spells ('+' :: cs) (ofDigits cs)
  | minus : isNumeral cs = true → Spells ('-' :: cs) (-(ofDigits cs : Int))

theorem toInt_ofInt_iff {n : Int} (hlow : -2 ^ 63 ≤ n) (hhigh : n < 2 ^ 63) {i : Int64} :
    Int64.ofInt n = i ↔ n = i.toInt := by
  constructor
  · rintro rfl
    exact (Int64.toInt_ofInt_of_le hlow hhigh).symm
  · rintro rfl
    exact Int64.ofInt_toInt i

theorem unsigned?_eq_some_iff {i : Int64} :
    int64?.unsigned? cs = some i ↔ isNumeral cs = true ∧ (ofDigits cs : Int) = i.toInt := by
  have hbound := i.toInt_lt
  have hpow : Nat.pow 2 63 = 9223372036854775808 := rfl
  unfold int64?.unsigned?
  split
  · rename_i hif
    simp only [Bool.and_eq_true, decide_eq_true_eq, hpow] at hif
    have hfits := toInt_ofInt_iff (n := ofDigits cs) (by omega) (by omega) (i := i)
    rw [Option.some_inj, hfits]
    exact ⟨fun h => ⟨hif.1, h⟩, And.right⟩
  · rename_i hif
    simp only [Bool.and_eq_true, decide_eq_true_eq, hpow, not_and] at hif
    refine ⟨nofun, fun ⟨hnumeral, hvalue⟩ => ?_⟩
    have := hif hnumeral
    omega

theorem not_isNumeral_cons (h : isDigit c = false) (cs : List Char) :
    isNumeral (c :: cs) = false := by
  simp [isNumeral, h]

theorem int64?_eq_some_iff {s : String} {i : Int64} :
    int64? s = some i ↔ Spells s.toList i.toInt := by
  have hlow := i.le_toInt
  have hpow : Nat.pow 2 63 = 9223372036854775808 := rfl
  have hminus (cs : List Char) : isNumeral ('-' :: cs) = false := not_isNumeral_cons (by decide) cs
  have hplus (cs : List Char) : isNumeral ('+' :: cs) = false := not_isNumeral_cons (by decide) cs
  unfold int64?
  constructor
  · intro h
    split at h
    · rename_i heq
      rw [heq]
      split at h
      · rename_i hif
        simp only [Bool.and_eq_true, decide_eq_true_eq, hpow] at hif
        rw [Option.some_inj, toInt_ofInt_iff (by omega) (by omega)] at h
        rw [← h]
        exact .minus hif.1
      · cases h
    · rename_i heq
      obtain ⟨hnumeral, hvalue⟩ := unsigned?_eq_some_iff.mp h
      rw [heq, ← hvalue]
      exact .plus hnumeral
    · obtain ⟨hnumeral, hvalue⟩ := unsigned?_eq_some_iff.mp h
      rw [← hvalue]
      exact .digits hnumeral
  · intro h
    generalize s.toList = cs at h
    generalize hj : i.toInt = j at h
    cases h with
    | digits hnumeral =>
      split
      · rw [hminus] at hnumeral
        cases hnumeral
      · rw [hplus] at hnumeral
        cases hnumeral
      · exact unsigned?_eq_some_iff.mpr ⟨hnumeral, hj.symm⟩
    | plus hnumeral => exact unsigned?_eq_some_iff.mpr ⟨hnumeral, hj.symm⟩
    | @minus cs hnumeral =>
      have hfits : ofDigits cs ≤ Nat.pow 2 63 := by omega
      simp only [hnumeral, hfits, decide_true, Bool.and_self, if_true, Option.some_inj]
      exact (toInt_ofInt_iff (by omega) (by omega)).mpr hj.symm

theorem ofDigits_zeros_append (n : Nat) (cs : List Char) :
    ofDigits (List.replicate n '0' ++ cs) = ofDigits cs := by
  rw [ofDigits, Nat.ofDigitChars_append, Nat.ofDigitChars_replicate_zero, Nat.mul_zero, ofDigits]

theorem isNumeral_zeros_append (n : Nat) (h : isNumeral cs = true) :
    isNumeral (List.replicate n '0' ++ cs) = true := by
  obtain ⟨hne, hdigits⟩ := isNumeral_iff.mp h
  refine isNumeral_iff.mpr ⟨by simp [hne], fun c hc => ?_⟩
  rcases List.mem_append.mp hc with hc | hc
  · rw [List.eq_of_mem_replicate hc]
    rfl
  · exact hdigits c hc

theorem toList_numeral (i : Int) : ∃ sign ds,
    (numeral i).toList = sign ++ ds ∧ isNumeral ds = true ∧
      (sign = [] ∧ i = ofDigits ds ∨ sign = ['-'] ∧ i = -(ofDigits ds : Int)) := by
  cases i with
  | ofNat n =>
    refine ⟨[], digits n, String.toList_ofList, isNumeral_digits n, .inl ⟨rfl, ?_⟩⟩
    rw [ofDigits_digits]
    rfl
  | negSucc n =>
    refine ⟨['-'], digits (n + 1), String.toList_ofList, isNumeral_digits _, .inr ⟨rfl, ?_⟩⟩
    rw [ofDigits_digits]
    rfl

theorem spells_zeros {sign ds : List Char} {i : Int} (hds : isNumeral ds = true)
    (hsign : sign = [] ∧ i = ofDigits ds ∨ sign = ['-'] ∧ i = -(ofDigits ds : Int)) (n : Nat) :
    Spells (sign ++ (List.replicate n '0' ++ ds)) i := by
  have hnumeral := isNumeral_zeros_append n hds
  have hvalue := ofDigits_zeros_append n ds
  rcases hsign with ⟨rfl, rfl⟩ | ⟨rfl, rfl⟩
  · rw [← hvalue]
    exact .digits hnumeral
  · rw [← hvalue]
    exact .minus hnumeral

theorem spells_numeral (i : Int) : Spells (numeral i).toList i := by
  obtain ⟨sign, ds, hlist, hds, hsign⟩ := toList_numeral i
  rw [hlist]
  exact spells_zeros hds hsign 0

theorem numeral_inj {i j : Int} : numeral i = numeral j ↔ i = j := by
  have hdigits {n m : Nat} (h : digits n = digits m) : n = m := by
    rw [← ofDigits_digits n, h, ofDigits_digits]
  have hminus (n : Nat) (cs : List Char) : digits n ≠ '-' :: cs := by
    intro h
    have hmem : '-' ∈ digits n := by rw [h]; exact List.mem_cons_self
    exact absurd (isDigit_of_mem_digits hmem) (by decide)
  refine ⟨fun h => ?_, fun h => h ▸ rfl⟩
  cases i with
  | ofNat n =>
    cases j with
    | ofNat m => rw [hdigits (String.ofList_injective h)]
    | negSucc m => exact absurd (String.ofList_injective h) (hminus n _)
  | negSucc n =>
    cases j with
    | ofNat m => exact absurd (String.ofList_injective h).symm (hminus m _)
    | negSucc m =>
      have hsucc := hdigits (List.cons.inj (String.ofList_injective h)).2
      rw [Nat.succ_inj.mp hsucc]

end PromptFiles.Number
