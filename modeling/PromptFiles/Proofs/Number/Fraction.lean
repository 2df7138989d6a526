import Mathlib
import PromptFiles.Number.Binary64

/-!
# Fractions as rational numbers

`value` is the rational number of a fraction. Scaling multiplies it by a power (`value_scale`), the
natural number that is nearest is within a half of it and even on a tie (`isNearest_nearest`), and
the last place is where its binary digits begin (`lastPlace_spec`).
-/

namespace PromptFiles.Number

namespace Fraction

def value (x : Fraction) : ℚ :=
  x.num / x.den

theorem value_scaled (n base : ℕ) (e : ℤ) : (scaled n base e).value = n * (base : ℚ) ^ e := by
  cases e with
  | ofNat k => simp [scaled, value]
  | negSucc k => simp [scaled, value, zpow_negSucc, div_eq_mul_inv]

theorem value_scale (x : Fraction) (base : ℕ) (e : ℤ) :
    (x.scale base e).value = x.value * (base : ℚ) ^ e := by
  cases e with
  | ofNat k => simp [scale, value, div_mul_eq_mul_div]
  | negSucc k =>
    simp only [scale, value, zpow_negSucc, Nat.pow_eq, Nat.cast_mul, Nat.cast_pow]
    rw [div_mul_eq_div_div, div_eq_mul_inv _ ((base : ℚ) ^ (k + 1))]

section
variable {base : ℕ} (hbase : 0 < base)
include hbase

theorem den_scaled_pos (n : ℕ) (e : ℤ) : 0 < (scaled n base e).den := by
  cases e with
  | ofNat k => exact Nat.one_pos
  | negSucc k => exact Nat.pow_pos hbase

theorem den_scale_pos {x : Fraction} (hx : 0 < x.den) (e : ℤ) : 0 < (x.scale base e).den := by
  cases e with
  | ofNat k => exact hx
  | negSucc k => exact Nat.mul_pos hx (Nat.pow_pos hbase)

end

theorem value_eq_div_add {x : Fraction} (hx : 0 < x.den) :
    x.value = (x.num / x.den : ℕ) + (x.num % x.den : ℕ) / (x.den : ℚ) := by
  have hden : (x.den : ℚ) ≠ 0 := by positivity
  have hsplit : (x.num : ℚ) = x.den * (x.num / x.den : ℕ) + (x.num % x.den : ℕ) := by
    exact_mod_cast (Nat.div_add_mod x.num x.den).symm
  rw [value, hsplit]
  field_simp

theorem floor_lt_iff {x : Fraction} (hx : 0 < x.den) (n : ℕ) : x.num / x.den < n ↔ x.value < n := by
  have hden : (0 : ℚ) < x.den := by positivity
  rw [Nat.div_lt_iff_lt_mul hx, value, div_lt_iff₀ hden]
  exact_mod_cast Iff.rfl

end Fraction

/-- A natural number that is nearest to a rational number, and even if another one is as near. -/
structure IsNearest (n : ℕ) (q : ℚ) : Prop where
  low : n - 1 / 2 ≤ q
  high : q ≤ n + 1 / 2
  even : q = n - 1 / 2 ∨ q = n + 1 / 2 → n % 2 = 0

theorem isNearest_natCast {n m : ℕ} : IsNearest n (m : ℚ) ↔ n = m := by
  constructor
  · rintro ⟨hlow, hhigh, -⟩
    have hle : (n : ℚ) < m + 1 := by linarith
    have hge : (m : ℚ) < n + 1 := by linarith
    norm_cast at hle hge
    omega
  · rintro rfl
    exact ⟨by linarith, by linarith, by rintro (h | h) <;> linarith⟩

namespace Fraction

theorem isNearest_nearest {x : Fraction} (hx : 0 < x.den) : IsNearest x.nearest x.value := by
  have hden : (0 : ℚ) < x.den := by positivity
  have hlow : 2 * (x.num % x.den) < x.den ↔ ((x.num % x.den : ℕ) : ℚ) / x.den < 1 / 2 := by
    rw [div_lt_div_iff₀ hden (by norm_num)]
    norm_cast
    omega
  have hhigh : x.den < 2 * (x.num % x.den) ↔ 1 / 2 < ((x.num % x.den : ℕ) : ℚ) / x.den := by
    rw [div_lt_div_iff₀ (by norm_num) hden]
    norm_cast
    omega
  have hnonneg : 0 ≤ ((x.num % x.den : ℕ) : ℚ) / x.den := by positivity
  have hone : ((x.num % x.den : ℕ) : ℚ) / x.den < 1 := by
    rw [div_lt_one hden]
    exact_mod_cast Nat.mod_lt _ hx
  rw [value_eq_div_add hx]
  unfold nearest
  simp only [hlow, hhigh]
  generalize ((x.num % x.den : ℕ) : ℚ) / x.den = rest at hnonneg hone
  generalize x.num / x.den = q
  split
  · exact ⟨by linarith, by linarith, by rintro (h | h) <;> linarith⟩
  · split
    · exact ⟨by push_cast; linarith, by push_cast; linarith,
        by push_cast; rintro (h | h) <;> linarith⟩
    · have htie : rest = 1 / 2 := by linarith
      subst htie
      split
      · rename_i heven
        exact ⟨by linarith, by linarith, fun _ => heven⟩
      · exact ⟨by push_cast; linarith, by push_cast; linarith, fun _ => by omega⟩

theorem lastPlace_spec {x : Fraction} (hn : x.num ≠ 0) (hd : 0 < x.den) (bits : ℕ) (least : ℤ) :
    least ≤ x.lastPlace bits least ∧
      x.value < 2 ^ (x.lastPlace bits least + bits) ∧
      (least < x.lastPlace bits least → 2 ^ (x.lastPlace bits least + bits - 1) ≤ x.value) := by
  have hnum : (0 : ℚ) < x.num := by positivity
  have hden : (0 : ℚ) < x.den := by positivity
  have htwo : (2 : ℚ) ≠ 0 := by norm_num
  have hone : (1 : ℚ) < 2 := by norm_num
  have hnumlow : (2 : ℚ) ^ (x.num.log2 : ℤ) ≤ x.num := by
    exact_mod_cast Nat.log2_self_le hn
  have hnumhigh : (x.num : ℚ) < 2 ^ (x.num.log2 + 1 : ℤ) := by
    exact_mod_cast Nat.lt_log2_self
  have hdenlow : (2 : ℚ) ^ (x.den.log2 : ℤ) ≤ x.den := by
    exact_mod_cast Nat.log2_self_le hd.ne'
  have hdenhigh : (x.den : ℚ) < 2 ^ (x.den.log2 + 1 : ℤ) := by
    exact_mod_cast Nat.lt_log2_self
  have hlow : (2 : ℚ) ^ ((x.num.log2 : ℤ) - x.den.log2 - 1) ≤ x.value := by
    rw [value, le_div_iff₀ hden, show (x.num.log2 : ℤ) - x.den.log2 - 1 =
      x.num.log2 - (x.den.log2 + 1) by ring, zpow_sub₀ htwo, div_mul_eq_mul_div,
      div_le_iff₀ (by positivity)]
    exact mul_le_mul hnumlow hdenhigh.le hden.le hnum.le
  have hhigh : x.value < (2 : ℚ) ^ ((x.num.log2 : ℤ) - x.den.log2 + 1) := by
    rw [value, div_lt_iff₀ hden, show (x.num.log2 : ℤ) - x.den.log2 + 1 =
      x.num.log2 + 1 - x.den.log2 by ring, zpow_sub₀ htwo, div_mul_eq_mul_div,
      lt_div_iff₀ (by positivity)]
    exact mul_lt_mul hnumhigh hdenlow (by positivity) (by positivity)
  have htest (guess : ℤ) : (x.scale 2 (-guess)).num / (x.scale 2 (-guess)).den < Nat.pow 2 bits ↔
      x.value < 2 ^ (guess + bits) := by
    rw [floor_lt_iff (den_scale_pos (by norm_num) hd _), value_scale, Nat.cast_ofNat, zpow_neg,
      ← div_eq_mul_inv, div_lt_iff₀ (by positivity), zpow_add₀ htwo, mul_comm]
    simp
  unfold lastPlace
  simp only [htest]
  generalize hguess : (x.num.log2 : ℤ) - x.den.log2 - bits = guess
  rw [show (x.num.log2 : ℤ) - x.den.log2 - 1 = guess + bits - 1 by omega] at hlow
  rw [show (x.num.log2 : ℤ) - x.den.log2 + 1 = guess + 1 + bits by omega] at hhigh
  refine ⟨le_max_left _ _, ?_, ?_⟩
  · split
    · rename_i h
      exact h.trans_le (zpow_le_zpow_right₀ hone.le (by omega))
    · exact hhigh.trans_le (zpow_le_zpow_right₀ hone.le (by omega))
  · intro hleast
    split
    · rename_i h
      rw [if_pos h] at hleast
      rw [max_eq_right (by omega)]
      exact hlow
    · rename_i h
      rw [if_neg h] at hleast
      rw [max_eq_right (by omega)]
      refine le_trans (le_of_eq ?_) (not_lt.mp h)
      congr 1
      ring

end Fraction

end PromptFiles.Number
