import PromptFiles.Proofs.Number.Grid
import PromptFiles.Proofs.Number.Reading

/-!
# Shortest decimals

The grids are searched from the coarsest that has the leading digit of a magnitude to one that is
finer than the magnitudes themselves. What is found first is the decimal with the fewest digits
among those that read back, and the nearest of them (`isShortest_shortest`). There is only one such
decimal (`IsShortest.value_eq`), and it is written without zeros at its end (`eq_shortest`).
-/

namespace PromptFiles.Number

theorem lt_pow_length_digits (n : ℕ) : n < 10 ^ (digits n).length :=
  (Nat.length_toDigits_le_iff (by decide) Nat.length_toDigits_pos).mp le_rfl

theorem pow_length_digits_le (hn : n ≠ 0) : 10 ^ ((digits n).length - 1) ≤ n := by
  by_cases hlength : (digits n).length - 1 = 0
  · rw [hlength, pow_zero]
    omega
  · rw [← not_lt, ← Nat.length_toDigits_le_iff (by decide) (Nat.pos_of_ne_zero hlength)]
    have hlt : (digits n).length - 1 < (digits n).length := by omega
    exact not_le.mpr hlt

theorem length_digits_le (h : n < 10 ^ (k + 1)) : (digits n).length ≤ k + 1 :=
  (Nat.length_toDigits_le_iff (by decide) k.succ_pos).mpr h

-- ---------------------------------------------------------------------------
-- Zeros at the end
-- ---------------------------------------------------------------------------

def zeros (n : ℕ) : ℕ :=
  ((digits n).reverse.takeWhile (· == '0')).length

theorem digitChar_eq_zero_iff (h : d < 10) : Nat.digitChar d = '0' ↔ d = 0 := by
  rw [← Char.toNat_inj, Nat.toNat_digitChar_of_lt_ten h]
  show 48 + d = 48 ↔ d = 0
  omega

theorem zeros_of_mod_ne_zero (h : n % 10 ≠ 0) : zeros n = 0 := by
  have hchar : (Nat.digitChar (n % 10) == '0') = false := by
    rw [beq_eq_false_iff_ne]
    exact mt (digitChar_eq_zero_iff (Nat.mod_lt _ (by decide))).mp h
  rw [zeros, digits, Nat.toDigits_eq_if (by decide)]
  split
  · rename_i hlt
    rw [Nat.mod_eq_of_lt hlt] at hchar
    simp [hchar]
  · simp [hchar]

theorem zeros_of_mod_eq_zero (hn : n ≠ 0) (h : n % 10 = 0) : zeros n = zeros (n / 10) + 1 := by
  rw [zeros, digits, Nat.toDigits_eq_if (by decide), if_neg (by omega), h]
  simp [zeros, digits]

theorem zeros_spec (hn : n ≠ 0) : 10 ^ zeros n ∣ n ∧ n / 10 ^ zeros n % 10 ≠ 0 := by
  induction n using Nat.strongRecOn with
  | ind n ih =>
    by_cases h : n % 10 = 0
    · obtain ⟨hdvd, hmod⟩ := ih (n / 10) (by omega) (by omega)
      rw [zeros_of_mod_eq_zero hn h, pow_succ']
      refine ⟨?_, by rwa [← Nat.div_div_eq_div_mul]⟩
      have hten : n = 10 * (n / 10) := by omega
      rw [hten, Nat.mul_div_cancel_left _ (by decide)]
      exact Nat.mul_dvd_mul_left 10 hdvd
    · rw [zeros_of_mod_ne_zero h]
      simpa using h

namespace Decimal

/-- Without zeros at the end. -/
def IsReduced (d : Decimal) : Prop :=
  d.significand % 10 ≠ 0

theorem value_stripped {d : Decimal} (h : d.significand ≠ 0) : d.stripped.value = d.value := by
  have hmul := Nat.div_mul_cancel (zeros_spec h).1
  have hvalue : d.stripped.value = (d.significand / 10 ^ zeros d.significand : ℕ) *
      10 ^ (d.exponent + zeros d.significand) := rfl
  rw [hvalue, value, zpow_add₀ (by norm_num), zpow_natCast]
  conv_rhs => rw [← hmul]
  push_cast
  ring

theorem isReduced_stripped {d : Decimal} (h : d.significand ≠ 0) : d.stripped.IsReduced :=
  (zeros_spec h).2

theorem significand_stripped_le (d : Decimal) : d.stripped.significand ≤ d.significand :=
  Nat.div_le_self _ _

theorem IsReduced.le_exponent {d : Decimal} {n : ℕ} {k : ℤ} (h : d.IsReduced)
    (hvalue : d.value = n * 10 ^ k) : k ≤ d.exponent := by
  by_contra hlt
  obtain ⟨j, hj⟩ : ∃ j : ℕ, k = d.exponent + (j + 1 : ℕ) :=
    ⟨(k - d.exponent - 1).toNat, by omega⟩
  have hpos : (10 : ℚ) ^ d.exponent ≠ 0 := by positivity
  have hten : (d.significand : ℚ) = (n * 10 ^ j * 10 : ℕ) := by
    rw [value, hj, zpow_add₀ (by norm_num), zpow_natCast] at hvalue
    refine mul_right_cancel₀ hpos ?_
    rw [hvalue]
    push_cast
    ring
  have hmod : d.significand = n * 10 ^ j * 10 := by exact_mod_cast hten
  exact h (by omega)

theorem IsReduced.eq_of_value_eq {d d' : Decimal} (h : d.IsReduced) (h' : d'.IsReduced)
    (hvalue : d.value = d'.value) : d = d' := by
  have hexponent : d.exponent = d'.exponent :=
    le_antisymm (h'.le_exponent hvalue.symm) (h.le_exponent hvalue)
  have hpos : (10 : ℚ) ^ d'.exponent ≠ 0 := by positivity
  rw [value, value, hexponent] at hvalue
  have hsignificand : d.significand = d'.significand := by
    exact_mod_cast mul_right_cancel₀ hpos hvalue
  cases d
  cases d'
  simp_all

def size (d : Decimal) : ℕ :=
  (digits d.significand).length

theorem size_pos (d : Decimal) : 0 < d.size :=
  Nat.length_toDigits_pos

theorem lt_pow_of_size_le {d : Decimal} (h : d.size ≤ k) : d.significand < 10 ^ k :=
  (lt_pow_length_digits _).trans_le (Nat.pow_le_pow_right (by decide) h)

end Decimal

/-- The decimal of a magnitude: no other one that reads back has fewer digits, and with as many
digits no other one is nearer, nor as near and larger. -/
structure IsShortest (m : Magnitude) (d : Decimal) : Prop where
  covers : m.Covers d.value
  fewest : ∀ d' : Decimal, m.Covers d'.value → d.size ≤ d'.size
  nearest : ∀ d' : Decimal, m.Covers d'.value → d'.size = d.size →
    |m.value - d.value| ≤ |m.value - d'.value|
  larger : ∀ d' : Decimal, m.Covers d'.value → d'.size = d.size →
    |m.value - d.value| = |m.value - d'.value| → d'.value ≤ d.value

theorem IsShortest.value_eq (h : IsShortest m d) (h' : IsShortest m d') : d.value = d'.value := by
  have hsize : d.size = d'.size :=
    le_antisymm (h.fewest d' h'.covers) (h'.fewest d h.covers)
  have hnear : |m.value - d.value| = |m.value - d'.value| :=
    le_antisymm (h.nearest d' h'.covers hsize.symm) (h'.nearest d h.covers hsize)
  exact le_antisymm (h'.larger d h.covers hsize hnear.symm)
    (h.larger d' h'.covers hsize.symm hnear)

namespace Magnitude

variable {m : Magnitude}

-- ---------------------------------------------------------------------------
-- The leading digit
-- ---------------------------------------------------------------------------

theorem two_zpow_le_ten_zpow {e k : ℤ} (hk : 0 ≤ k) (h : e ≤ 3 * k) : (2 : ℚ) ^ e ≤ 10 ^ k :=
  calc (2 : ℚ) ^ e ≤ 2 ^ (3 * k) := zpow_le_zpow_right₀ (by norm_num) h
    _ = 8 ^ k := by rw [zpow_mul]; norm_num
    _ ≤ 10 ^ k := zpow_le_zpow_left₀ hk (by norm_num) (by norm_num)

theorem least_le (hm : m.mantissa ≠ 0) : (2 : ℚ) ^ (-1074 : ℤ) ≤ m.value := by
  have hone := one_le_mantissa hm
  calc (2 : ℚ) ^ (-1074 : ℤ) ≤ 2 ^ m.exponent :=
        zpow_le_zpow_right₀ (by norm_num) m.exponent_ge
    _ ≤ m.mantissa * 2 ^ m.exponent := le_mul_of_one_le_left (by positivity) hone

theorem leadingPower_spec (hm : m.mantissa ≠ 0) :
    10 ^ m.leadingPower ≤ m.value ∧ m.value < 10 ^ (m.leadingPower + 1) := by
  let y := m.toFraction.scale 10 400
  have hden : 0 < y.den := Fraction.den_scale_pos (by norm_num) m.den_toFraction_pos _
  have hvalue : y.value = m.value * 10 ^ (400 : ℤ) := by
    rw [Fraction.value_scale, value_toFraction]
    rfl
  have hfloor (n : ℕ) : y.num / y.den < n ↔ m.value * 10 ^ (400 : ℤ) < n := by
    rw [Fraction.floor_lt_iff hden, hvalue]
  have hone : y.num / y.den ≠ 0 := by
    have hleast := least_le hm
    have hpower : (1 : ℚ) ≤ 2 ^ (-1074 : ℤ) * 10 ^ (400 : ℤ) := by
      have hle : (2 : ℚ) ^ (1074 : ℤ) ≤ 10 ^ (400 : ℤ) :=
        two_zpow_le_ten_zpow (by norm_num) (by norm_num)
      rwa [zpow_neg, ← div_eq_inv_mul, one_le_div (by positivity)]
    rw [← Nat.one_le_iff_ne_zero, ← not_lt, hfloor, not_lt, Nat.cast_one]
    exact hpower.trans (mul_le_mul_of_nonneg_right hleast (by positivity))
  have hhigh := (hfloor _).mp (lt_pow_length_digits (y.num / y.den))
  have hlow := mt (hfloor _).mpr (not_lt.mpr (pow_length_digits_le hone))
  have hlength : 0 < (digits (y.num / y.den)).length := Nat.length_toDigits_pos
  have htop : m.leadingPower = ((digits (y.num / y.den)).length : ℤ) - 401 := rfl
  have hpos : (0 : ℚ) < 10 ^ (400 : ℤ) := by positivity
  rw [not_lt] at hlow
  rw [Nat.cast_pow, Nat.cast_ofNat] at hlow hhigh
  rw [htop]
  constructor
  · rw [← mul_le_mul_iff_of_pos_right hpos, ← zpow_add₀ (by norm_num)]
    refine le_trans (le_of_eq ?_) hlow
    rw [← zpow_natCast]
    congr 1
    omega
  · rw [← mul_lt_mul_iff_of_pos_right hpos, ← zpow_add₀ (by norm_num)]
    refine hhigh.trans_le (le_of_eq ?_)
    rw [← zpow_natCast]
    congr 1
    omega

-- ---------------------------------------------------------------------------
-- Other decimals
-- ---------------------------------------------------------------------------

section
variable {d : Decimal} {top : ℤ}

/-- A decimal with few digits lies on the grid that begins with that many places of the value, or
below all those that have a leading digit there. -/
theorem on_grid_or_lt {i : ℕ} (h : d.significand < 10 ^ (i + 1)) (top : ℤ) :
    (∃ n : ℕ, d.value = n * 10 ^ (top - i)) ∨ d.value < 10 ^ top := by
  by_cases hexponent : top - i ≤ d.exponent
  · obtain ⟨j, hj⟩ : ∃ j : ℕ, d.exponent = j + (top - i) :=
      ⟨(d.exponent - (top - i)).toNat, by omega⟩
    refine .inl ⟨d.significand * 10 ^ j, ?_⟩
    rw [Decimal.value, hj, zpow_add₀ (by norm_num), zpow_natCast]
    push_cast
    ring
  · right
    have hcast : (d.significand : ℚ) < 10 ^ (i + 1) := by exact_mod_cast h
    calc d.value < 10 ^ (i + 1) * 10 ^ d.exponent :=
          mul_lt_mul_of_pos_right hcast (by positivity)
      _ = 10 ^ ((i + 1 : ℕ) + d.exponent) := by rw [zpow_add₀ (by norm_num), zpow_natCast]
      _ ≤ 10 ^ top := zpow_le_zpow_right₀ (by norm_num) (by push_cast; omega)

theorem exists_on_grid {i : ℕ} (hlow : 10 ^ top ≤ m.value) (h : m.Covers d.value)
    (hd : d.significand < 10 ^ (i + 1)) :
    ∃ n : ℕ, m.Covers (n * 10 ^ (top - i)) ∧
      (d.value = n * 10 ^ (top - i) ∨ |m.value - n * 10 ^ (top - i)| < |m.value - d.value|) := by
  rcases on_grid_or_lt hd top with ⟨n, hn⟩ | hlt
  · exact ⟨n, hn ▸ h, .inl hn⟩
  · have hpower : ((10 ^ i : ℕ) : ℚ) * 10 ^ (top - i) = 10 ^ top := by
      push_cast
      rw [← zpow_natCast, ← zpow_add₀ (by norm_num)]
      congr 1
      omega
    refine ⟨10 ^ i, ?_, .inr ?_⟩
    · rw [hpower]
      exact h.between m.covers_value hlt.le hlow
    · rw [hpower, abs_of_nonneg (by linarith), abs_of_nonneg (by linarith)]
      linarith

end

-- ---------------------------------------------------------------------------
-- The search
-- ---------------------------------------------------------------------------

/-- Seventeen places after the leading digit are finer than the magnitudes. -/
theorem onGrid?_ne_none (hm : m.mantissa ≠ 0) (tie : Tie) :
    m.onGrid? tie (m.leadingPower - (17 : ℕ)) ≠ none := by
  intro h
  obtain ⟨hlow, -⟩ := leadingPower_spec hm
  obtain ⟨hle, hlt⟩ := m.steps_spec (m.leadingPower - (17 : ℕ))
  refine onGrid?_eq_none hm tie _ h (m.steps (m.leadingPower - (17 : ℕ)) + 1) ?_
  have hstep : 10 ^ (m.leadingPower - (17 : ℕ)) < (2 : ℚ) ^ m.exponent / 2 := by
    have hmantissa := m.mantissa_le
    have hpos : (0 : ℚ) < 2 ^ m.exponent := by positivity
    have hvalue : m.value ≤ (2 ^ 53 - 1) * 2 ^ m.exponent :=
      mul_le_mul_of_nonneg_right hmantissa hpos.le
    rw [zpow_sub₀ (by norm_num), zpow_natCast, div_lt_div_iff₀ (by norm_num) (by norm_num)]
    norm_num at hvalue ⊢
    linarith
  have hlowest := m.low_lt_value
  have hhigh := m.high_eq
  push_cast at hle hlt hstep ⊢
  exact covers_of_lt (by linarith) (by linarith)

theorem shortest_eq (hm : m.mantissa ≠ 0) (tie : Tie) : ∃ (i : ℕ) (d : Decimal),
    m.shortest tie = d.stripped ∧ m.onGrid? tie (m.leadingPower - i) = some d ∧
      ∀ j < i, m.onGrid? tie (m.leadingPower - j) = none := by
  cases hsearch : (List.range 18).findSome? fun i => m.onGrid? tie (m.leadingPower - (i : ℕ)) with
  | none =>
    have hnone := List.findSome?_eq_none_iff.mp hsearch 17 (by simp)
    exact absurd hnone (onGrid?_ne_none hm tie)
  | some d =>
    obtain ⟨before, i, after, hrange, hd, hbefore⟩ := List.findSome?_eq_some_iff.mp hsearch
    rw [List.range_eq_range', List.range'_eq_append_iff] at hrange
    obtain ⟨n, -, rfl, hcons⟩ := hrange
    obtain ⟨hi, -⟩ := List.range'_eq_cons_iff.mp hcons.symm
    obtain rfl : n = i := by omega
    refine ⟨n, d, ?_, hd, fun j hj => hbefore j ?_⟩
    · rw [shortest, if_neg hm]
      simp only [hsearch, Option.getD_some]
    · simpa [List.mem_range'_1] using hj

/-- What is found has as many digits as its grid has places, at most, and others have as many at
least. -/
theorem isShortest_found (hm : m.mantissa ≠ 0) {d : Decimal} {i : ℕ}
    (hd : m.onGrid? .up (m.leadingPower - i) = some d)
    (hbefore : ∀ j < i, m.onGrid? .up (m.leadingPower - j) = none) :
    d.significand ≠ 0 ∧ IsShortest m d.stripped := by
  obtain ⟨hlow, hhigh⟩ := leadingPower_spec hm
  obtain ⟨hexponent, hcovers, hle, hnearest, hup⟩ := onGrid?_eq_some hm .up _ hd
  have hzero : d.significand ≠ 0 := by
    intro hzero
    have hpos := hcovers.pos hm
    rw [Decimal.value, hzero, Nat.cast_zero, zero_mul] at hpos
    exact hpos.false
  have hvalue := Decimal.value_stripped hzero
  have hsmall : d.significand ≤ 10 ^ (i + 1) := by
    have hpos : (0 : ℚ) < 10 ^ (m.leadingPower - i) := by positivity
    have hplaces : (10 : ℚ) ^ (m.leadingPower + 1) =
        10 ^ (i + 1) * 10 ^ (m.leadingPower - i) := by
      rw [← zpow_natCast, ← zpow_add₀ (by norm_num)]
      congr 1
      push_cast
      ring
    have hlt : (d.significand : ℚ) < (10 ^ (i + 1) + 1 : ℕ) := by
      refine lt_of_mul_lt_mul_right ?_ hpos.le
      rw [Decimal.value, hexponent] at hle
      push_cast
      linarith
    exact Nat.lt_succ_iff.mp (by exact_mod_cast hlt)
  have hsize : d.stripped.size ≤ i + 1 := by
    refine length_digits_le (lt_of_le_of_ne (d.significand_stripped_le.trans hsmall) fun heq => ?_)
    have hreduced := Decimal.isReduced_stripped hzero
    rw [Decimal.IsReduced, heq, Nat.pow_succ, Nat.mul_mod_left] at hreduced
    exact hreduced rfl
  have hfewest (d' : Decimal) (h : m.Covers d'.value) : i + 1 ≤ d'.size := by
    by_contra hlt
    have hpos := d'.size_pos
    obtain ⟨j, rfl⟩ : ∃ j, i = j + 1 := ⟨i - 1, by omega⟩
    have hsmall := Decimal.lt_pow_of_size_le (show d'.size ≤ j + 1 by omega)
    obtain ⟨n, hn, -⟩ := exists_on_grid hlow h hsmall
    exact onGrid?_eq_none hm .up _ (hbefore j (by omega)) n hn
  have hothers (d' : Decimal) (h : m.Covers d'.value) (hequal : d'.size = d.stripped.size) :
      ∃ n : ℕ, m.Covers (n * 10 ^ (m.leadingPower - i)) ∧
        (d'.value = n * 10 ^ (m.leadingPower - i) ∨
          |m.value - n * 10 ^ (m.leadingPower - i)| < |m.value - d'.value|) :=
    exists_on_grid hlow h (Decimal.lt_pow_of_size_le (by omega))
  refine ⟨hzero, by rwa [hvalue], fun d' h => hsize.trans (hfewest d' h), fun d' h hequal => ?_,
    fun d' h hequal hnear => ?_⟩
  · obtain ⟨n, hn, heq | hlt⟩ := hothers d' h hequal
    · rw [hvalue, heq]
      exact hnearest n hn
    · rw [hvalue]
      exact (hnearest n hn).trans hlt.le
  · rw [hvalue] at hnear ⊢
    obtain ⟨n, hn, heq | hlt⟩ := hothers d' h hequal
    · rw [heq] at hnear ⊢
      exact hup rfl n hn hnear
    · have hle := hnearest n hn
      linarith

theorem isShortest_shortest (m : Magnitude) : IsShortest m (m.shortest .up) := by
  by_cases hm : m.mantissa = 0
  · have hvalue : m.value = 0 := by simp [value, hm]
    have hshortest : m.shortest .up = ⟨0, 0⟩ := if_pos hm
    have hzero : Decimal.value ⟨0, 0⟩ = 0 := by simp [Decimal.value]
    rw [hshortest]
    refine ⟨?_, fun d' _ => d'.size_pos, fun d' _ _ => ?_, fun d' _ _ heq => ?_⟩
    · rw [hzero, ← hvalue]
      exact m.covers_value
    · rw [hzero, hvalue, sub_zero, abs_zero]
      exact abs_nonneg _
    · rw [hzero, hvalue, sub_zero, abs_zero, zero_sub, abs_neg] at heq
      rw [hzero]
      exact (abs_eq_zero.mp heq.symm).le
  · obtain ⟨i, d, hshortest, hd, hbefore⟩ := shortest_eq hm .up
    rw [hshortest]
    exact (isShortest_found hm hd hbefore).2

theorem isReduced_shortest (hm : m.mantissa ≠ 0) : (m.shortest .up).IsReduced := by
  obtain ⟨i, d, hshortest, hd, hbefore⟩ := shortest_eq hm .up
  rw [hshortest]
  exact Decimal.isReduced_stripped (isShortest_found hm hd hbefore).1

theorem isReduced_or_eq_zero (m : Magnitude) :
    (m.shortest .up).IsReduced ∨ m.shortest .up = ⟨0, 0⟩ := by
  by_cases hm : m.mantissa = 0
  · exact .inr (if_pos hm)
  · exact .inl (isReduced_shortest hm)

/-- The shortest decimal is the only one without zeros at its end. -/
theorem eq_shortest {d : Decimal} (h : IsShortest m d) (hreduced : d.IsReduced) :
    d = m.shortest .up := by
  have hvalue := h.value_eq m.isShortest_shortest
  refine hreduced.eq_of_value_eq (isReduced_shortest fun hm => hreduced ?_) hvalue
  have hshortest : m.shortest .up = ⟨0, 0⟩ := if_pos hm
  have hpos : (10 : ℚ) ^ d.exponent ≠ 0 := by positivity
  rw [hshortest] at hvalue
  have hzero : d.significand = 0 := by simpa [Decimal.value, hpos] using hvalue
  rw [hzero]

end Magnitude

end PromptFiles.Number
