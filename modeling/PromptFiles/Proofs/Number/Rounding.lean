import PromptFiles.Proofs.Number.Fraction
import PromptFiles.Number.Decimal

/-!
# Rounding to binary numbers

The fractions that are rounded to a magnitude are those between the midpoints to its two
neighbours, with the midpoints themselves if the mantissa is even: `ofFraction?_eq_some_iff`. No
fraction lies there for two magnitudes (`Covers.unique`), and one that lies there for none is as
large as the first power of two that is no magnitude any more (`le_of_ofFraction?_eq_none`).
Consequently no other magnitude is nearer (`Covers.nearest`).
-/

namespace PromptFiles.Number

namespace Magnitude

def value (m : Magnitude) : ℚ :=
  m.mantissa * 2 ^ m.exponent

theorem value_toFraction (m : Magnitude) : m.toFraction.value = m.value := by
  rw [toFraction, Fraction.value_scaled]
  rfl

theorem den_toFraction_pos (m : Magnitude) : 0 < m.toFraction.den :=
  Fraction.den_scaled_pos Nat.two_pos _ _

/-- How far below the mantissa its own fractions begin. -/
def reach (m : Magnitude) : ℚ :=
  if m.narrowBelow then 1 / 4 else 1 / 2

def low (m : Magnitude) : ℚ :=
  (m.mantissa - m.reach) * 2 ^ m.exponent

def high (m : Magnitude) : ℚ :=
  (m.mantissa + 1 / 2) * 2 ^ m.exponent

/-- Numbers that are rounded to the magnitude. -/
structure Covers (m : Magnitude) (q : ℚ) : Prop where
  low_le : m.low ≤ q
  le_high : q ≤ m.high
  even : q = m.low ∨ q = m.high → m.mantissa % 2 = 0

theorem ext {m m' : Magnitude} (hm : m.mantissa = m'.mantissa) (he : m.exponent = m'.exponent) :
    m = m' := by
  cases m
  cases m'
  simp_all

theorem mantissa_le (m : Magnitude) : (m.mantissa : ℚ) ≤ 2 ^ 53 - 1 := by
  have h : m.mantissa + 1 ≤ 2 ^ 53 := m.mantissa_lt
  have hcast : (m.mantissa : ℚ) + 1 ≤ 2 ^ 53 := by exact_mod_cast h
  linarith

theorem mantissa_of_le {m : Magnitude} (h : (2 : ℚ) ^ 53 - 1 / 2 ≤ m.mantissa + 1 / 2) :
    m.mantissa = 2 ^ 53 - 1 := by
  have hle : ((2 ^ 53 - 1 : ℕ) : ℚ) ≤ m.mantissa := by
    push_cast
    linarith
  have hlt : m.mantissa < 2 ^ 53 := m.mantissa_lt
  have := Nat.cast_le.mp hle
  omega

theorem reach_pos (m : Magnitude) : 0 < m.reach := by
  unfold reach
  split <;> norm_num

theorem reach_le (m : Magnitude) : m.reach ≤ 1 / 2 := by
  unfold reach
  split <;> norm_num

theorem narrowBelow_iff {m : Magnitude} :
    m.narrowBelow = true ↔ m.mantissa = 2 ^ 52 ∧ m.exponent ≠ -1074 := by
  simp [narrowBelow]

theorem normal_of_lt {m : Magnitude} (h : -1074 < m.exponent) : 2 ^ 52 ≤ m.mantissa :=
  m.normal.resolve_right h.ne'

theorem covers_scaled {m : Magnitude} {r : ℚ} : m.Covers (r * 2 ^ m.exponent) ↔
    m.mantissa - m.reach ≤ r ∧ r ≤ m.mantissa + 1 / 2 ∧
      (r = m.mantissa - m.reach ∨ r = m.mantissa + 1 / 2 → m.mantissa % 2 = 0) := by
  have hpos : (0 : ℚ) < 2 ^ m.exponent := by positivity
  have hcancel (a b : ℚ) : a * 2 ^ m.exponent = b * 2 ^ m.exponent ↔ a = b :=
    mul_left_inj' hpos.ne'
  constructor
  · rintro ⟨hlow, hhigh, heven⟩
    simp only [low, high, hcancel] at hlow hhigh heven
    exact ⟨(mul_le_mul_iff_of_pos_right hpos).mp hlow,
      (mul_le_mul_iff_of_pos_right hpos).mp hhigh, heven⟩
  · rintro ⟨hlow, hhigh, heven⟩
    refine ⟨(mul_le_mul_iff_of_pos_right hpos).mpr hlow,
      (mul_le_mul_iff_of_pos_right hpos).mpr hhigh, ?_⟩
    simpa only [low, high, hcancel] using heven

theorem low_lt_value (m : Magnitude) : m.low < m.value :=
  mul_lt_mul_of_pos_right (by linarith [m.reach_pos]) (by positivity)

theorem high_eq (m : Magnitude) : m.high = m.value + 2 ^ m.exponent / 2 := by
  rw [high, value]
  ring

theorem covers_of_lt {m : Magnitude} (hlow : m.low < q) (hhigh : q < m.high) : m.Covers q where
  low_le := hlow.le
  le_high := hhigh.le
  even := by rintro (h | h) <;> linarith

theorem covers_value (m : Magnitude) : m.Covers m.value := by
  have hpos : (0 : ℚ) < 2 ^ m.exponent := by positivity
  have hhigh := m.high_eq
  exact covers_of_lt m.low_lt_value (by linarith)

theorem ofParts?_eq_some_iff {n : ℕ} {e : ℤ} {m : Magnitude} :
    ofParts? n e = some m ↔ m.mantissa = n ∧ m.exponent = e := by
  unfold ofParts?
  constructor
  · intro h
    split at h
    · cases h
      exact ⟨rfl, rfl⟩
    · cases h
  · rintro ⟨rfl, rfl⟩
    rw [dif_pos ⟨m.mantissa_lt, m.exponent_ge, m.exponent_le, m.normal⟩]

/-- Rounding in terms of the fraction counted in last places. -/
theorem ofFraction?_eq {x : Fraction} (hn : x.num ≠ 0) (hd : 0 < x.den) :
    ∃ (n : ℕ) (e : ℤ) (r : ℚ), x.value = r * 2 ^ e ∧ IsNearest n r ∧ -1074 ≤ e ∧ r < 2 ^ 53 ∧
      (-1074 < e → 2 ^ 52 ≤ r) ∧
      ofFraction? x = if n = 2 ^ 53 then ofParts? (2 ^ 52) (e + 1) else ofParts? n e := by
  obtain ⟨hleast, hhigh, hlow⟩ := Fraction.lastPlace_spec hn hd 53 (-1074)
  have hnearest : IsNearest (x.rounded 53 (-1074)).1
      (x.value * 2 ^ (-x.lastPlace 53 (-1074))) := by
    have h := Fraction.isNearest_nearest
      (Fraction.den_scale_pos Nat.two_pos hd (-x.lastPlace 53 (-1074)))
    rwa [Fraction.value_scale] at h
  have hif : ofFraction? x = if (x.rounded 53 (-1074)).1 = 2 ^ 53
      then ofParts? (2 ^ 52) ((x.lastPlace 53 (-1074)) + 1)
      else ofParts? (x.rounded 53 (-1074)).1 (x.lastPlace 53 (-1074)) := by
    rw [ofFraction?, if_neg hn]
    rfl
  generalize x.lastPlace 53 (-1074) = e at *
  have hpos : (0 : ℚ) < 2 ^ e := by positivity
  refine ⟨_, e, x.value * 2 ^ (-e), ?_, hnearest, hleast, ?_, fun hlt => ?_, hif⟩
  · rw [zpow_neg, inv_mul_cancel_right₀ hpos.ne']
  · rw [zpow_neg, ← div_eq_mul_inv, div_lt_iff₀ hpos]
    rw [zpow_add₀ (by norm_num), mul_comm] at hhigh
    exact_mod_cast hhigh
  · rw [zpow_neg, ← div_eq_mul_inv, le_div_iff₀ hpos]
    have h := hlow hlt
    rw [show e + (53 : ℕ) - 1 = 52 + e by push_cast; ring, zpow_add₀ (by norm_num)] at h
    exact_mod_cast h

theorem value_zero : zero.value = 0 := by
  simp [value, zero]

theorem narrow_spec {m : Magnitude} (h : m.narrowBelow = true) :
    m.reach = 1 / 4 ∧ (m.mantissa : ℚ) = 2 ^ 52 ∧ m.mantissa % 2 = 0 := by
  obtain ⟨hm, -⟩ := narrowBelow_iff.mp h
  exact ⟨if_pos h, by rw [hm]; norm_num, by rw [hm]; norm_num⟩

theorem covers_of_ofFraction? {x : Fraction} (hd : 0 < x.den) {m : Magnitude}
    (h : ofFraction? x = some m) : m.Covers x.value := by
  by_cases hn : x.num = 0
  · have hvalue : x.value = 0 := by simp [Fraction.value, hn]
    rw [ofFraction?, if_pos hn] at h
    cases h
    rw [hvalue, ← value_zero]
    exact zero.covers_value
  · obtain ⟨n, e, r, hvalue, ⟨hlow, hhigh, heven⟩, hleast, hlt, hnormal, heq⟩ :=
      ofFraction?_eq hn hd
    rw [heq] at h
    split at h
    · -- The mantissa is carried over to the next exponent.
      rename_i hcarry
      obtain ⟨hm, he⟩ := ofParts?_eq_some_iff.mp h
      obtain ⟨hreach, hmantissa, heven⟩ := narrow_spec (narrowBelow_iff.mpr ⟨hm, by omega⟩)
      have hhalf : x.value = r / 2 * 2 ^ m.exponent := by
        rw [hvalue, he, zpow_add_one₀ (by norm_num)]
        ring
      have hcast : (n : ℚ) = 2 ^ 53 := by rw [hcarry]; norm_num
      rw [hhalf, covers_scaled, hreach, hmantissa]
      exact ⟨by linarith, by linarith, fun _ => heven⟩
    · obtain ⟨rfl, rfl⟩ := ofParts?_eq_some_iff.mp h
      rw [hvalue, covers_scaled]
      by_cases hnarrow : m.narrowBelow = true
      · have he := (narrowBelow_iff.mp hnarrow).2
        have hr := hnormal (lt_of_le_of_ne hleast he.symm)
        obtain ⟨hreach, hmantissa, heven⟩ := narrow_spec hnarrow
        rw [hreach, hmantissa]
        exact ⟨by linarith, by linarith, fun _ => heven⟩
      · rw [reach, if_neg hnarrow]
        exact ⟨hlow, hhigh, heven⟩

def lastUnit : ℚ :=
  2 ^ (971 : ℤ)

theorem lastUnit_pos : 0 < lastUnit :=
  zpow_pos (by norm_num) _

theorem unit_le (m : Magnitude) : (2 : ℚ) ^ m.exponent ≤ lastUnit :=
  zpow_le_zpow_right₀ (by norm_num) m.exponent_le

def bound : ℚ :=
  (2 ^ 53 - 1 / 2) * lastUnit

theorem Covers.lt_bound {m : Magnitude} (h : m.Covers q) : q < bound := by
  have hmantissa := m.mantissa_le
  have hpos : (0 : ℚ) < 2 ^ m.exponent := by positivity
  have hlast := lastUnit_pos
  have hhigh : m.high ≤ bound :=
    mul_le_mul (by linarith) m.unit_le hpos.le (by norm_num)
  refine lt_of_le_of_ne (h.le_high.trans hhigh) ?_
  rintro rfl
  -- Only the largest magnitude comes near the bound, and its mantissa is odd.
  have heq : bound = m.high := le_antisymm h.le_high hhigh
  have hle : bound ≤ (m.mantissa + 1 / 2) * lastUnit := by
    rw [heq]
    exact mul_le_mul_of_nonneg_left m.unit_le (add_nonneg (Nat.cast_nonneg _) (by norm_num))
  have hlarge : (2 : ℚ) ^ 53 - 1 / 2 ≤ m.mantissa + 1 / 2 := le_of_mul_le_mul_right hle hlast
  have heven := h.even (.inr heq)
  rw [mantissa_of_le hlarge] at heven
  norm_num at heven

theorem le_of_ofFraction?_eq_none {x : Fraction} (hd : 0 < x.den) (h : ofFraction? x = none) :
    bound ≤ x.value := by
  by_cases hn : x.num = 0
  · rw [ofFraction?, if_pos hn] at h
    cases h
  · obtain ⟨n, e, r, hvalue, ⟨hlow, hhigh, -⟩, hleast, hlt, hnormal, heq⟩ := ofFraction?_eq hn hd
    rw [heq] at h
    rw [hvalue]
    split at h
    · rename_i hcarry
      have he : 971 ≤ e := by
        by_contra hsmall
        rw [ofParts?, dif_pos ⟨by norm_num, by omega, by omega, .inl (by norm_num)⟩] at h
        cases h
      have hunit : lastUnit ≤ 2 ^ e := zpow_le_zpow_right₀ (by norm_num) he
      have hcast : (n : ℚ) = 2 ^ 53 := by rw [hcarry]; norm_num
      exact mul_le_mul (by linarith) hunit lastUnit_pos.le (by linarith)
    · rename_i hcarry
      have hsmall : n < 2 ^ 53 := by
        have hle : (n : ℚ) < (2 ^ 53 + 1 : ℕ) := by
          push_cast
          linarith
        have := Nat.cast_lt.mp hle
        omega
      have hlarge : 2 ^ 52 ≤ n ∨ e = -1074 := by
        rcases hleast.lt_or_eq with hlt | heq
        · have hr := hnormal hlt
          have hge : ((2 ^ 52 : ℕ) : ℚ) < n + 1 := by
            push_cast
            linarith
          exact .inl (Nat.lt_succ_iff.mp (by exact_mod_cast hge))
        · exact .inr heq.symm
      have he : 972 ≤ e := by
        by_contra hbound
        rw [ofParts?, dif_pos ⟨hsmall, hleast, by omega, hlarge⟩] at h
        cases h
      have hunit : lastUnit * 2 ≤ 2 ^ e := by
        have h972 : lastUnit * 2 = 2 ^ (972 : ℤ) := (zpow_add_one₀ (by norm_num) 971).symm
        rw [h972]
        exact zpow_le_zpow_right₀ (by norm_num) he
      have hr := hnormal (by omega)
      have hlast := lastUnit_pos
      calc bound ≤ 2 ^ 52 * (lastUnit * 2) := by rw [bound]; linarith
        _ ≤ r * 2 ^ e := mul_le_mul hr hunit (by linarith) (by linarith)

-- ---------------------------------------------------------------------------
-- Neighbours
-- ---------------------------------------------------------------------------

def Below (m m' : Magnitude) : Prop :=
  m.exponent < m'.exponent ∨ m.exponent = m'.exponent ∧ m.mantissa < m'.mantissa

theorem below_trichotomy (m m' : Magnitude) : m.Below m' ∨ m = m' ∨ m'.Below m := by
  by_cases hm : m.mantissa = m'.mantissa ∧ m.exponent = m'.exponent
  · exact .inr (.inl (ext hm.1 hm.2))
  · unfold Below
    omega

theorem two_mul_unit_le {m m' : Magnitude} (h : m.exponent < m'.exponent) :
    2 * (2 : ℚ) ^ m.exponent ≤ 2 ^ m'.exponent := by
  rw [mul_comm, ← zpow_add_one₀ (by norm_num)]
  exact zpow_le_zpow_right₀ (by norm_num) h

theorem pow_le_mantissa {m : Magnitude} (h : -1074 < m.exponent) : (2 : ℚ) ^ 52 ≤ m.mantissa := by
  exact_mod_cast normal_of_lt h

theorem le_mantissa_sub {m : Magnitude} (h : -1074 < m.exponent) :
    (2 : ℚ) ^ 52 - 1 / 2 ≤ m.mantissa - 2 * m.reach := by
  by_cases hnarrow : m.narrowBelow = true
  · obtain ⟨hreach, hmantissa, -⟩ := narrow_spec hnarrow
    rw [hreach, hmantissa]
    norm_num
  · have hne : m.mantissa ≠ 2 ^ 52 := fun hm => hnarrow (narrowBelow_iff.mpr ⟨hm, h.ne'⟩)
    have hle : 2 ^ 52 + 1 ≤ m.mantissa := (normal_of_lt h).lt_of_ne hne.symm
    have hcast : (2 : ℚ) ^ 52 + 1 ≤ m.mantissa := by exact_mod_cast hle
    have hreach := m.reach_le
    linarith

section
variable {m m' : Magnitude} (h : m.Below m')
include h

theorem Below.succ_le : (m.mantissa + 1) * 2 ^ m.exponent ≤ m'.value := by
  have hpos : (0 : ℚ) < 2 ^ m.exponent := by positivity
  rcases h with he | ⟨he, hm⟩
  · have hlarge := pow_le_mantissa (m.exponent_ge.trans_lt he)
    have hsmall := m.mantissa_le
    calc (m.mantissa + 1) * (2 : ℚ) ^ m.exponent ≤ 2 ^ 52 * (2 * 2 ^ m.exponent) := by
          rw [← mul_assoc]
          exact mul_le_mul_of_nonneg_right (by linarith) hpos.le
      _ ≤ m'.mantissa * 2 ^ m'.exponent :=
          mul_le_mul hlarge (two_mul_unit_le he) (by positivity) (by positivity)
  · rw [value, ← he]
    refine mul_le_mul_of_nonneg_right ?_ hpos.le
    exact_mod_cast hm

theorem Below.le_pred : m.value ≤ (m'.mantissa - 2 * m'.reach) * 2 ^ m'.exponent := by
  have hpos : (0 : ℚ) < 2 ^ m.exponent := by positivity
  rcases h with he | ⟨he, hm⟩
  · have hlarge := le_mantissa_sub (m.exponent_ge.trans_lt he)
    have hsmall := m.mantissa_le
    calc m.mantissa * (2 : ℚ) ^ m.exponent ≤ (2 ^ 52 - 1 / 2) * (2 * 2 ^ m.exponent) := by
          rw [← mul_assoc]
          exact mul_le_mul_of_nonneg_right (by linarith) hpos.le
      _ ≤ (m'.mantissa - 2 * m'.reach) * 2 ^ m'.exponent :=
          mul_le_mul hlarge (two_mul_unit_le he) (by positivity) (by linarith)
  · have hreach := m'.reach_le
    have hcast : (m.mantissa : ℚ) + 1 ≤ m'.mantissa := by exact_mod_cast hm
    rw [value, ← he]
    exact mul_le_mul_of_nonneg_right (by linarith) hpos.le

/-- Each midpoint is halfway to the neighbour, so midpoints are in the order of the magnitudes. -/
theorem Below.high_le_low : m.high ≤ m'.low := by
  have hup := h.succ_le
  have hdown := h.le_pred
  rw [value] at hup hdown
  rw [high, low]
  linarith

theorem Below.odd (hmeet : m.high = m'.low) (heven : m.mantissa % 2 = 0) :
    m'.mantissa % 2 ≠ 0 := by
  have hup := h.succ_le
  have hdown := h.le_pred
  rw [value] at hup hdown
  rw [high, low] at hmeet
  have hpos : (0 : ℚ) < 2 ^ m.exponent := by positivity
  rcases h with he | ⟨he, hm⟩
  · exfalso
    have hlarge := pow_le_mantissa (m.exponent_ge.trans_lt he)
    have hunit := two_mul_unit_le he
    have hsmall := m.mantissa_le
    have hle : (2 : ℚ) ^ 52 * (2 * 2 ^ m.exponent) ≤ m'.mantissa * 2 ^ m'.exponent :=
      mul_le_mul hlarge hunit (by positivity) (by positivity)
    have hmantissa : (2 : ℚ) ^ 53 ≤ m.mantissa + 1 :=
      le_of_mul_le_mul_right (by linarith) hpos
    rw [mantissa_of_le (by linarith)] at heven
    norm_num at heven
  · rw [← he] at hup hdown hmeet
    have hnext := le_of_mul_le_mul_right (show (m'.mantissa : ℚ) * 2 ^ m.exponent ≤
      (m.mantissa + 1) * 2 ^ m.exponent by linarith) hpos
    have hle : m'.mantissa ≤ m.mantissa + 1 := by exact_mod_cast hnext
    omega

theorem Below.not_covers (hm : m.Covers q) : ¬m'.Covers q := by
  intro hm'
  have hle := h.high_le_low
  have hlow := hm'.low_le
  have hhigh := hm.le_high
  have heven := hm.even (.inr (by linarith))
  exact h.odd (by linarith) heven (hm'.even (.inl (by linarith)))

end

/-- No number is rounded to two magnitudes. -/
theorem Covers.unique {m m' : Magnitude} (h : m.Covers q) (h' : m'.Covers q) : m = m' := by
  rcases below_trichotomy m m' with hlt | heq | hgt
  · exact absurd h' (hlt.not_covers h)
  · exact heq
  · exact absurd h (hgt.not_covers h')

theorem ofFraction?_eq_some_iff {x : Fraction} (hd : 0 < x.den) {m : Magnitude} :
    ofFraction? x = some m ↔ m.Covers x.value := by
  refine ⟨covers_of_ofFraction? hd, fun h => ?_⟩
  cases heq : ofFraction? x with
  | none => exact absurd h.lt_bound (not_lt.mpr (le_of_ofFraction?_eq_none hd heq))
  | some m' => rw [h.unique (covers_of_ofFraction? hd heq)]

/-- No magnitude is nearer to a number than the one it is rounded to, and if another one is as near
then the mantissa is even. -/
theorem Covers.nearest {m m' : Magnitude} (h : m.Covers q) (hne : m' ≠ m) :
    |q - m.value| ≤ |q - m'.value| ∧
      (|q - m.value| = |q - m'.value| → m.mantissa % 2 = 0) := by
  obtain ⟨hlow, hhigh, heven⟩ := h
  have hpos : (0 : ℚ) < 2 ^ m.exponent := by positivity
  have hreach : 0 < m.reach * 2 ^ m.exponent := mul_pos m.reach_pos hpos
  rw [low] at hlow heven
  rw [high] at hhigh heven
  rcases below_trichotomy m m' with hlt | heq | hgt
  · have hnext := hlt.succ_le
    have hm : m.value = m.mantissa * 2 ^ m.exponent := rfl
    rw [abs_of_nonpos (show q - m'.value ≤ 0 by linarith)]
    refine ⟨abs_le.mpr ⟨by linarith, by linarith⟩, fun htie => heven ?_⟩
    rcases abs_cases (q - m.value) with ⟨habs, -⟩ | ⟨habs, -⟩
    · exact .inr (by linarith)
    · linarith
  · exact absurd heq.symm hne
  · have hnext := hgt.le_pred
    have hm : m.value = m.mantissa * 2 ^ m.exponent := rfl
    rw [abs_of_nonneg (show 0 ≤ q - m'.value by linarith)]
    refine ⟨abs_le.mpr ⟨by linarith, by linarith⟩, fun htie => heven ?_⟩
    rcases abs_cases (q - m.value) with ⟨habs, -⟩ | ⟨habs, -⟩
    · linarith
    · exact .inl (by linarith)

end Magnitude

end PromptFiles.Number
