import Mathlib
import PromptFiles.Proofs.Number.Whole
import PromptFiles.Proofs.Template.Padded

/-!
# Integers with a fixed number of decimals

An integer with decimals goes through a binary number. `apply_fixed` says which one, what is
written for it, and for which integers nothing is lost on the way.
-/

namespace PromptFiles.Template.Spec

open Number (Magnitude IsShort zeroPlaces numeral)

theorem sign_numeral {i : Int} {n : ℕ} (h : i < 0 → n ≠ 0) (hzero : i = 0 → n = 0) :
    (numeral (i.sign * n)).toList =
      (if decide (i < 0) then ['-'] else []) ++ Number.digits n := by
  rcases lt_trichotomy i 0 with hneg | rfl | hpos
  · obtain ⟨k, rfl⟩ := Nat.exists_eq_succ_of_ne_zero (h hneg)
    have hsign : i.sign * (k.succ : Int) = Int.negSucc k := by
      rw [Int.sign_eq_neg_one_of_neg hneg, Int.negSucc_eq]
      push_cast
      ring
    rw [hsign, decide_eq_true hneg]
    exact String.toList_ofList
  · rw [hzero rfl]
    rfl
  · have hsign : i.sign * (n : Int) = Int.ofNat n := by
      rw [Int.sign_eq_one_of_pos hpos, one_mul]
      rfl
    rw [hsign, decide_eq_false (by omega)]
    exact String.toList_ofList

theorem whole_ne_zero {m : Magnitude} {k n : ℕ} (h : m.Covers k) (hn : m.value = n) (hk : k ≠ 0) :
    n ≠ 0 := by
  rintro rfl
  have hmantissa : m.mantissa = 0 := by
    have hpos : (2 : ℚ) ^ m.exponent ≠ 0 := by positivity
    simpa [Magnitude.value, hpos] using hn
  have he : m.exponent = -1074 := m.normal.resolve_left (by simp [hmantissa])
  have hvalue := h.value_of_neg (by omega)
  rw [hn] at hvalue
  exact hk (by exact_mod_cast hvalue.symm)

/-- An integer under the letter `f` is written as the whole number that is nearest to it among the
binary numbers of 64 bits, an even mantissa deciding where two are as near, with as many zeros
after the point as there are places. That is the integer itself if and only if it has at most 53
binary digits before the zeros at its end. -/
theorem apply_fixed {spec : Spec} (hkind : spec.kind = .fixed) (hwidth : spec.width = none)
    (i : Int64) :
    let places := spec.precision.getD defaultPrecision
    ∃ (m : Magnitude) (n : ℕ), m.value = n ∧
      (∀ m' ≠ m, |(i.toInt.natAbs : ℚ) - m.value| ≤ |(i.toInt.natAbs : ℚ) - m'.value| ∧
        (|(i.toInt.natAbs : ℚ) - m.value| = |(i.toInt.natAbs : ℚ) - m'.value| →
          m.mantissa % 2 = 0)) ∧
      (spec.apply (.integer i)).toList = (numeral (i.toInt.sign * n)).toList ++ zeroPlaces places ∧
      ((spec.apply (.integer i)).toList = (numeral i.toInt).toList ++ zeroPlaces places ↔
        IsShort i.toInt.natAbs) := by
  intro places
  obtain ⟨m, hint, hcovers⟩ := Number.Binary64.exists_ofInt i
  obtain ⟨n, hn⟩ := hcovers.exists_whole
  have hzero (h : i.toInt = 0) : n = 0 := by
    rw [h] at hcovers
    have hvalue := hcovers.value_of_isShort ⟨0, 0, by norm_num, rfl⟩
    exact_mod_cast hn.symm.trans hvalue
  have htext : (spec.apply (.integer i)).toList =
      (numeral (i.toInt.sign * n)).toList ++ zeroPlaces places := by
    have hbody : spec.body (.integer i) = (Number.Binary64.ofInt i.toInt).toFixed places := by
      unfold body
      rw [hkind]
    rw [← withoutWidth_eq hwidth, toList_apply_withoutWidth, hbody, hint,
      Number.Binary64.toFixed_whole hn, String.toList_ofList, ← List.append_assoc,
      sign_numeral (fun hneg => whole_ne_zero hcovers hn (by omega)) hzero]
  refine ⟨m, n, hn, fun m' hne => hcovers.nearest hne, htext, ?_⟩
  rw [htext, List.append_left_inj, String.toList_inj, Number.numeral_inj, ← hcovers.value_eq_iff,
    hn, Nat.cast_inj]
  constructor
  · intro h
    by_cases hi : i.toInt = 0
    · rw [hzero hi, hi]
      rfl
    · have habs := congrArg Int.natAbs h
      rwa [Int.natAbs_mul, Int.natAbs_sign_of_ne_zero hi, one_mul, Int.natAbs_natCast] at habs
  · rintro rfl
    exact Int.sign_mul_natAbs _

theorem apply_fixed_rounded :
    let spec : Spec := ⟨false, none, some 2, .fixed⟩
    parse? ".2f" = some spec ∧ spec.apply (.integer 9007199254740993) = "9007199254740992.00" ∧
      (spec.apply (.integer 9007199254740993)).toList ≠
        (numeral (Int64.toInt 9007199254740993)).toList ++ zeroPlaces 2 := by
  intro spec
  have htext : spec.apply (.integer 9007199254740993) = "9007199254740992.00" := by decide +kernel
  refine ⟨by decide, htext, ?_⟩
  rw [htext]
  decide +kernel

theorem apply_fixed_least :
    let spec : Spec := ⟨false, none, some 1, .fixed⟩
    parse? ".1f" = some spec ∧ spec.kind = .fixed ∧ spec.width = none ∧
      IsShort (2 ^ 63) ∧
      (spec.apply (.integer Int64.minValue)).toList = "-9223372036854775808.0".toList := by
  intro spec
  have hparse : parse? ".1f" = some spec := by decide
  have hshort : IsShort (2 ^ 63) := ⟨1, 63, by norm_num, by norm_num⟩
  obtain ⟨m, n, -, -, -, hexact⟩ := @apply_fixed spec rfl rfl Int64.minValue
  refine ⟨hparse, rfl, rfl, hshort, (hexact.mpr hshort).trans ?_⟩
  cbv

end PromptFiles.Template.Spec
