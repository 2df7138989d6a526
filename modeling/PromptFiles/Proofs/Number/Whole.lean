import Mathlib
import PromptFiles.Proofs.Number.Digits
import PromptFiles.Proofs.Number.Rounding

/-!
# Whole numbers in binary

A whole number is rounded to a whole number (`Covers.exists_whole`), and to itself if and only if
it has no more than 53 binary digits before the zeros at its end (`Covers.value_eq_iff`). With a
fixed number of decimals a whole number has only zeros there (`toFixed_whole`).
-/

namespace PromptFiles.Number

def IsShort (n : ℕ) : Prop :=
  ∃ k e, k < 2 ^ 53 ∧ n = k * 2 ^ e

namespace Magnitude

variable {m : Magnitude}

theorem Covers.mantissa_eq {k : ℕ} (h : m.Covers (k * 2 ^ m.exponent)) : m.mantissa = k := by
  obtain ⟨hlow, hhigh, -⟩ := covers_scaled.mp h
  have hreach := m.reach_le
  have hle : (m.mantissa : ℚ) < k + 1 := by linarith
  have hge : (k : ℚ) < m.mantissa + 1 := by linarith
  norm_cast at hle hge
  omega

theorem Covers.value_of_neg {n : ℕ} (h : m.Covers n) (he : m.exponent < 0) : m.value = n := by
  obtain ⟨k, hk⟩ : ∃ k : ℕ, m.exponent = -(k : ℤ) := ⟨m.exponent.natAbs, by omega⟩
  have hn : (n : ℚ) = (n * 2 ^ k : ℕ) * 2 ^ m.exponent := by
    rw [hk, zpow_neg, zpow_natCast]
    push_cast
    rw [mul_inv_cancel_right₀ (by positivity)]
  rw [hn] at h ⊢
  rw [value, h.mantissa_eq]

theorem value_of_nonneg (he : 0 ≤ m.exponent) :
    m.value = (m.mantissa * 2 ^ m.exponent.toNat : ℕ) := by
  obtain ⟨k, hk⟩ := Int.eq_ofNat_of_zero_le he
  rw [value, hk, Int.toNat_natCast, zpow_natCast]
  push_cast
  rfl

theorem Covers.exists_whole {n : ℕ} (h : m.Covers n) : ∃ k : ℕ, m.value = k := by
  by_cases he : m.exponent < 0
  · exact ⟨n, h.value_of_neg he⟩
  · exact ⟨_, value_of_nonneg (not_lt.mp he)⟩

theorem isShort_of_value {n : ℕ} (h : m.value = n) : IsShort n := by
  by_cases he : m.exponent < 0
  · have hone : (2 : ℚ) ^ m.exponent ≤ 1 := zpow_le_one_of_nonpos₀ (by norm_num) he.le
    have hle : (n : ℚ) ≤ m.mantissa := by
      rw [← h, value]
      exact mul_le_of_le_one_right (by positivity) hone
    have hlt : m.mantissa < 2 ^ 53 := m.mantissa_lt
    have : n ≤ m.mantissa := by exact_mod_cast hle
    exact ⟨n, 0, by omega, by simp⟩
  · rw [value_of_nonneg (not_lt.mp he)] at h
    exact ⟨m.mantissa, m.exponent.toNat, m.mantissa_lt, by exact_mod_cast h.symm⟩

theorem Covers.value_of_isShort {n : ℕ} (h : m.Covers n) (hn : IsShort n) : m.value = n := by
  by_cases he : m.exponent < 0
  · exact h.value_of_neg he
  obtain ⟨k, e, hk, rfl⟩ := hn
  obtain ⟨j, hj⟩ := Int.eq_ofNat_of_zero_le (not_lt.mp he)
  have hcast : ((k * 2 ^ e : ℕ) : ℚ) = k * 2 ^ (e : ℤ) := by
    push_cast
    rw [zpow_natCast]
  by_cases hle : j ≤ e
  · have hscaled : ((k * 2 ^ e : ℕ) : ℚ) = (k * 2 ^ (e - j) : ℕ) * 2 ^ m.exponent := by
      rw [hj, zpow_natCast, ← Nat.sub_add_cancel hle]
      push_cast
      rw [Nat.add_sub_cancel, pow_add, mul_assoc]
    rw [hscaled] at h ⊢
    rw [value, h.mantissa_eq]
  · -- In coarser places the number would be below everything that is rounded to the magnitude.
    have hunit : 2 * (2 : ℚ) ^ (e : ℤ) ≤ 2 ^ m.exponent := by
      rw [mul_comm, ← zpow_add_one₀ (by norm_num)]
      exact zpow_le_zpow_right₀ (by norm_num) (by omega)
    have hpos : (0 : ℚ) < 2 ^ m.exponent := by positivity
    have hsmall : (k : ℚ) ≤ 2 ^ 53 - 1 := by
      have hcast : (k : ℚ) + 1 ≤ 2 ^ 53 := by exact_mod_cast hk
      linarith
    have hlarge := le_mantissa_sub (m := m) (by omega)
    have hreach := m.reach_pos
    have hlt : ((k * 2 ^ e : ℕ) : ℚ) < m.low := by
      rw [hcast, low]
      calc (k : ℚ) * 2 ^ (e : ℤ) ≤ (2 ^ 52 - 1 / 2) * (2 * 2 ^ (e : ℤ)) := by
            rw [← mul_assoc]
            exact mul_le_mul_of_nonneg_right (by linarith) (by positivity)
        _ ≤ (2 ^ 52 - 1 / 2) * 2 ^ m.exponent :=
            mul_le_mul_of_nonneg_left hunit (by norm_num)
        _ < (m.mantissa - m.reach) * 2 ^ m.exponent :=
            mul_lt_mul_of_pos_right (by linarith) hpos
    exact absurd h.low_le (not_le.mpr hlt)

theorem Covers.value_eq_iff {n : ℕ} (h : m.Covers n) : m.value = n ↔ IsShort n :=
  ⟨isShort_of_value, h.value_of_isShort⟩

theorem fixed_whole {n : ℕ} (h : m.value = n) (places : ℕ) :
    m.fixed places = n * 10 ^ places := by
  have hden : 0 < (m.toFraction.scale 10 places).den :=
    Fraction.den_scale_pos (by norm_num) m.den_toFraction_pos _
  have hnearest := Fraction.isNearest_nearest hden
  have hvalue : (m.toFraction.scale 10 places).value = (n * 10 ^ places : ℕ) := by
    rw [Fraction.value_scale, value_toFraction, h]
    push_cast
    rfl
  rw [hvalue] at hnearest
  exact isNearest_natCast.mp hnearest

end Magnitude

def zeroPlaces (places : ℕ) : List Char :=
  if places = 0 then [] else '.' :: List.replicate places '0'

theorem padded_zero (h : places ≠ 0) : padded places 0 = List.replicate places '0' := by
  obtain ⟨k, rfl⟩ := Nat.exists_eq_succ_of_ne_zero h
  have hzero : digits 0 = ['0'] := Nat.toDigits_zero 10
  rw [padded, hzero, List.length_singleton, Nat.succ_sub_one, List.replicate_succ']

theorem withPoint_whole (n places : ℕ) :
    withPoint (n * 10 ^ places) places = digits n ++ zeroPlaces places := by
  unfold withPoint zeroPlaces
  split
  · rename_i h
    simp [h]
  · rename_i h
    have hpos : 0 < 10 ^ places := Nat.pow_pos (by norm_num)
    rw [show Nat.pow 10 places = 10 ^ places from rfl, Nat.mul_div_cancel n hpos,
      Nat.mul_mod_left, padded_zero h]

namespace Binary64

theorem toFixed_whole {m : Magnitude} {n : ℕ} (h : m.value = n) (negative : Bool) (places : ℕ) :
    (finite negative m).toFixed places =
      String.ofList ((if negative then ['-'] else []) ++ (digits n ++ zeroPlaces places)) := by
  have hfinite : (finite negative m).toFixed places = String.ofList (if negative
      then '-' :: withPoint (m.fixed places) places else withPoint (m.fixed places) places) := rfl
  rw [hfinite, Magnitude.fixed_whole h, withPoint_whole]
  cases negative <;> rfl

theorem exists_ofInt (i : Int64) :
    ∃ m, ofInt i.toInt = finite (decide (i.toInt < 0)) m ∧ m.Covers i.toInt.natAbs := by
  have hvalue : (Fraction.mk i.toInt.natAbs 1).value = i.toInt.natAbs := by simp [Fraction.value]
  cases h : Magnitude.ofFraction? ⟨i.toInt.natAbs, 1⟩ with
  | none =>
    -- No integer of 64 bits is too large.
    have hbound := Magnitude.le_of_ofFraction?_eq_none Nat.one_pos h
    have hsmall : (i.toInt.natAbs : ℚ) ≤ 2 ^ 63 := by
      have hlow := i.le_toInt
      have hhigh := i.toInt_lt
      have hnat : i.toInt.natAbs ≤ 2 ^ 63 := by omega
      exact_mod_cast hnat
    have hunit : (2 : ℚ) ^ (63 : ℤ) ≤ Magnitude.lastUnit :=
      zpow_le_zpow_right₀ (by norm_num) (by norm_num)
    have hlast := Magnitude.lastUnit_pos
    rw [hvalue, Magnitude.bound] at hbound
    norm_num at hunit
    linarith
  | some m =>
    refine ⟨m, by rw [ofInt, ofFraction, h], ?_⟩
    have hcovers := Magnitude.covers_of_ofFraction? Nat.one_pos h
    rwa [hvalue] at hcovers

end Binary64

end PromptFiles.Number
