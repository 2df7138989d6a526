import PromptFiles.Proofs.Number.Rounding

/-!
# Multiples of a power of ten

The multiples of a power of ten are a grid, and the two of them around a magnitude are tried as its
decimals. If neither reads back then none of the grid does (`onGrid?_eq_none`), since there are no
gaps in what reads back. Otherwise the nearest one is found (`onGrid?_eq_some`).
-/

namespace PromptFiles.Number

def Decimal.value (d : Decimal) : ℚ :=
  d.significand * 10 ^ d.exponent

namespace Magnitude

variable {m : Magnitude}

theorem Covers.between (ha : m.Covers a) (hb : m.Covers b) (hlow : a ≤ q) (hhigh : q ≤ b) :
    m.Covers q where
  low_le := ha.low_le.trans hlow
  le_high := hhigh.trans hb.le_high
  even := by
    rintro (rfl | rfl)
    · exact ha.even (.inl (le_antisymm hlow ha.low_le))
    · exact hb.even (.inr (le_antisymm hb.le_high hhigh))

theorem one_le_mantissa (hm : m.mantissa ≠ 0) : (1 : ℚ) ≤ m.mantissa := by
  exact_mod_cast Nat.one_le_iff_ne_zero.mpr hm

theorem Covers.pos (h : m.Covers q) (hm : m.mantissa ≠ 0) : 0 < q := by
  have hmantissa := one_le_mantissa hm
  have hreach := m.reach_le
  exact (mul_pos (by linarith) (zpow_pos (by norm_num) _)).trans_le h.low_le

-- ---------------------------------------------------------------------------
-- Common units
-- ---------------------------------------------------------------------------

theorem pow_toNat {b : ℚ} (hb : b ≠ 0) (e : ℤ) : b ^ e.toNat = b ^ e * b ^ (-e).toNat := by
  cases e with
  | ofNat n => simp
  | negSucc n => simp [zpow_negSucc, hb]

/-- How many units make one. -/
def units (m : Magnitude) (k : ℤ) : ℚ :=
  10 ^ (-k).toNat * 2 ^ (-(m.exponent - 2)).toNat

theorem units_pos (m : Magnitude) (k : ℤ) : 0 < m.units k := by
  unfold units
  positivity

theorem grid_fst (m : Magnitude) (k : ℤ) :
    4 * ((m.grid k).1 : ℚ) = 2 ^ m.exponent * m.units k := by
  have htwo := pow_toNat (b := 2) (by norm_num) (m.exponent - 2)
  have hfour : (2 : ℚ) ^ m.exponent = 4 * 2 ^ (m.exponent - 2) := by
    rw [zpow_sub₀ (by norm_num)]
    norm_num
    ring
  simp only [grid, units, Nat.pow_eq, Nat.cast_mul, Nat.cast_pow, Nat.cast_ofNat]
  rw [htwo, hfour]
  ring

theorem grid_snd (m : Magnitude) (k : ℤ) : ((m.grid k).2 : ℚ) = 10 ^ k * m.units k := by
  simp only [grid, units, Nat.pow_eq, Nat.cast_mul, Nat.cast_pow, Nat.cast_ofNat]
  rw [pow_toNat (by norm_num) k]
  ring

section
variable {k : ℤ} {a b : ℕ} {x y : ℚ} (ha : a = x * m.units k) (hb : b = y * m.units k)
include ha hb

theorem units_le_iff : a ≤ b ↔ x ≤ y := by
  rw [← mul_le_mul_iff_of_pos_right (m.units_pos k), ← ha, ← hb, Nat.cast_le]

theorem units_lt_iff : a < b ↔ x < y := by
  rw [← mul_lt_mul_iff_of_pos_right (m.units_pos k), ← ha, ← hb, Nat.cast_lt]

end

theorem readsBack_iff {c : ℕ} (hm : m.mantissa ≠ 0) (hc : c = q * m.units k) :
    m.readsBack (m.grid k).1 c = true ↔ m.Covers q := by
  have hquarter := m.grid_fst k
  have hbelow : (((4 * m.mantissa - if m.narrowBelow then 1 else 2) * (m.grid k).1 : ℕ) : ℚ) =
      m.low * m.units k := by
    have hle : (if m.narrowBelow then 1 else 2) ≤ 4 * m.mantissa := by split <;> omega
    have hreach : ((if m.narrowBelow then 1 else 2 : ℕ) : ℚ) = 4 * m.reach := by
      unfold reach
      split <;> norm_num
    rw [Nat.cast_mul, Nat.cast_sub hle, hreach, low]
    push_cast
    linear_combination (m.mantissa - m.reach) * hquarter
  have habove : (((4 * m.mantissa + 2) * (m.grid k).1 : ℕ) : ℚ) = m.high * m.units k := by
    rw [high]
    push_cast
    linear_combination (m.mantissa + 1 / 2) * hquarter
  unfold readsBack
  simp only
  split
  · rename_i heven
    rw [Bool.and_eq_true, decide_eq_true_eq, decide_eq_true_eq, units_le_iff hbelow hc,
      units_le_iff hc habove]
    exact ⟨fun h => ⟨h.1, h.2, fun _ => heven⟩, fun h => ⟨h.low_le, h.le_high⟩⟩
  · rename_i hodd
    rw [Bool.and_eq_true, decide_eq_true_eq, decide_eq_true_eq, units_lt_iff hbelow hc,
      units_lt_iff hc habove]
    constructor
    · rintro ⟨hlow, hhigh⟩
      exact ⟨hlow.le, hhigh.le, by rintro (rfl | rfl) <;> simp at *⟩
    · intro h
      exact ⟨lt_of_le_of_ne h.low_le fun heq => hodd (h.even (.inl heq.symm)),
        lt_of_le_of_ne h.le_high fun heq => hodd (h.even (.inr heq))⟩

-- ---------------------------------------------------------------------------
-- Candidates
-- ---------------------------------------------------------------------------

def steps (m : Magnitude) (k : ℤ) : ℕ :=
  4 * m.mantissa * (m.grid k).1 / (m.grid k).2

theorem value_units (m : Magnitude) (k : ℤ) :
    ((4 * m.mantissa * (m.grid k).1 : ℕ) : ℚ) = m.value * m.units k := by
  rw [value]
  push_cast
  linear_combination m.mantissa * m.grid_fst k

theorem steps_spec (m : Magnitude) (k : ℤ) :
    m.steps k * 10 ^ k ≤ m.value ∧ m.value < (m.steps k + 1) * 10 ^ k := by
  have hvalue := m.value_units k
  have hsnd := m.grid_snd k
  have hunit : 0 < (m.grid k).2 := by
    have hpos : (0 : ℚ) < 10 ^ k * m.units k := mul_pos (by positivity) (m.units_pos k)
    rw [← hsnd] at hpos
    exact_mod_cast hpos
  constructor
  · refine (units_le_iff (m := m) (k := k) ?_ hvalue).mp (Nat.div_mul_le_self _ (m.grid k).2)
    rw [Nat.cast_mul, hsnd, steps]
    ring
  · refine (units_lt_iff (m := m) (k := k) hvalue ?_).mp (Nat.lt_mul_div_succ _ hunit)
    rw [Nat.cast_mul, hsnd, steps]
    push_cast
    ring

/-- The nearest multiple of a power of ten that reads back. -/
structure IsNearestOn (tie : Tie) (m : Magnitude) (k : ℤ) (d : Decimal) : Prop where
  exponent : d.exponent = k
  covers : m.Covers d.value
  le : d.value ≤ m.value + 10 ^ k
  nearest : ∀ n : ℕ, m.Covers (n * 10 ^ k) → |m.value - d.value| ≤ |m.value - n * 10 ^ k|
  up : tie = .up → ∀ n : ℕ, m.Covers (n * 10 ^ k) →
    |m.value - d.value| = |m.value - n * 10 ^ k| → n * 10 ^ k ≤ d.value

section
variable {k : ℤ}

/-- A step of the grid is one of the two around the value or further away. -/
theorem on_grid (m : Magnitude) (k : ℤ) (n : ℕ) :
    (n : ℚ) * 10 ^ k ≤ m.steps k * 10 ^ k ∨ (m.steps k + 1) * 10 ^ k ≤ (n : ℚ) * 10 ^ k := by
  have hpos : (0 : ℚ) ≤ 10 ^ k := by positivity
  rcases Nat.lt_or_ge (m.steps k) n with hlt | hle
  · refine .inr (mul_le_mul_of_nonneg_right ?_ hpos)
    exact_mod_cast hlt
  · refine .inl (mul_le_mul_of_nonneg_right ?_ hpos)
    exact_mod_cast hle

theorem covers_steps {n : ℕ} (h : m.Covers (n * 10 ^ k))
    (hle : (n : ℚ) * 10 ^ k ≤ m.steps k * 10 ^ k) : m.Covers (m.steps k * 10 ^ k) :=
  h.between m.covers_value hle (m.steps_spec k).1

theorem covers_steps_succ {n : ℕ} (h : m.Covers (n * 10 ^ k))
    (hle : (m.steps k + 1) * 10 ^ k ≤ (n : ℚ) * 10 ^ k) : m.Covers ((m.steps k + 1) * 10 ^ k) :=
  m.covers_value.between h (m.steps_spec k).2.le hle

theorem isNearestOn_steps (hlow : m.Covers (m.steps k * 10 ^ k))
    (hbelow : m.Covers ((m.steps k + 1) * 10 ^ k) →
      m.value - m.steps k * 10 ^ k ≤ (m.steps k + 1) * 10 ^ k - m.value ∧
        (tie = .up → m.value - m.steps k * 10 ^ k < (m.steps k + 1) * 10 ^ k - m.value)) :
    IsNearestOn tie m k ⟨m.steps k, k⟩ := by
  obtain ⟨hle, hlt⟩ := m.steps_spec k
  have hpos : (0 : ℚ) < 10 ^ k := by positivity
  have hvalue : Decimal.value ⟨m.steps k, k⟩ = m.steps k * 10 ^ k := rfl
  refine ⟨rfl, hlow, by linarith, fun n hn => ?_, fun htie n hn heq => ?_⟩
  · rw [hvalue, abs_of_nonneg (by linarith)]
    rcases on_grid m k n with hdown | hup
    · rw [abs_of_nonneg (by linarith)]
      linarith
    · have hnear := (hbelow (covers_steps_succ hn hup)).1
      rw [abs_of_nonpos (by linarith)]
      linarith
  · rw [hvalue] at heq ⊢
    rcases on_grid m k n with hdown | hup
    · exact hdown
    · have hnear := (hbelow (covers_steps_succ hn hup)).2 htie
      rw [abs_of_nonneg (by linarith), abs_of_nonpos (by linarith)] at heq
      linarith

theorem isNearestOn_steps_succ (hhigh : m.Covers ((m.steps k + 1) * 10 ^ k))
    (habove : m.Covers (m.steps k * 10 ^ k) →
      (m.steps k + 1) * 10 ^ k - m.value ≤ m.value - m.steps k * 10 ^ k) :
    IsNearestOn tie m k ⟨m.steps k + 1, k⟩ := by
  obtain ⟨hle, hlt⟩ := m.steps_spec k
  have hvalue : Decimal.value ⟨m.steps k + 1, k⟩ = (m.steps k + 1) * 10 ^ k := by
    rw [Decimal.value]
    push_cast
    rfl
  refine ⟨rfl, by rwa [hvalue], by linarith, fun n hn => ?_, fun _ n hn heq => ?_⟩
  · rw [hvalue, abs_of_nonpos (by linarith)]
    rcases on_grid m k n with hdown | hup
    · have hnear := habove (covers_steps hn hdown)
      rw [abs_of_nonneg (by linarith)]
      linarith
    · rw [abs_of_nonpos (by linarith)]
      linarith
  · rw [hvalue] at heq ⊢
    rcases on_grid m k n with hdown | hup
    · linarith
    · rw [abs_of_nonpos (by linarith), abs_of_nonpos (by linarith)] at heq
      linarith

end

def takesHigh (tie : Tie) (lower below above : ℕ) (low high : Bool) : Bool :=
  if low && high then
    if below = above then tie == .up || lower % 2 == 1 else above < below
  else high

section
variable {tie : Tie} {lower below above : ℕ} {low high : Bool}

theorem takesHigh_true (h : takesHigh tie lower below above low high = true) :
    high = true ∧ (low = true → above ≤ below) := by
  unfold takesHigh at h
  split at h
  · rename_i hboth
    refine ⟨(Bool.and_eq_true_iff.mp hboth).2, fun _ => ?_⟩
    split at h
    · omega
    · exact (of_decide_eq_true h).le
  · rename_i hboth
    exact ⟨h, fun hlow => absurd (Bool.and_eq_true_iff.mpr ⟨hlow, h⟩) hboth⟩

theorem takesHigh_false (h : takesHigh tie lower below above low high = false)
    (hhigh : high = true) : low = true ∧ below ≤ above ∧ (tie = .up → below < above) := by
  unfold takesHigh at h
  split at h
  · rename_i hboth
    refine ⟨(Bool.and_eq_true_iff.mp hboth).1, ?_⟩
    split at h
    · refine ⟨by omega, ?_⟩
      rintro rfl
      cases h
    · have hle := of_decide_eq_false h
      omega
  · rw [hhigh] at h
    cases h

end

section
variable (hm : m.mantissa ≠ 0) (tie : Tie) (k : ℤ)
include hm

/-- The choice between the two candidates in terms of their values. -/
theorem onGrid?_eq : ∃ (low high : Bool) (below above : ℕ),
    (low = true ↔ m.Covers (m.steps k * 10 ^ k)) ∧
      (high = true ↔ m.Covers ((m.steps k + 1) * 10 ^ k)) ∧
      (below : ℚ) = (m.value - m.steps k * 10 ^ k) * m.units k ∧
      (above : ℚ) = ((m.steps k + 1) * 10 ^ k - m.value) * m.units k ∧
      m.onGrid? tie k =
        (if takesHigh tie (m.steps k) below above low high then some ⟨m.steps k + 1, k⟩
        else if low then some ⟨m.steps k, k⟩ else none) := by
  obtain ⟨hle, hlt⟩ := m.steps_spec k
  have hvalue := m.value_units k
  have hlower : ((m.steps k * (m.grid k).2 : ℕ) : ℚ) = m.steps k * 10 ^ k * m.units k := by
    rw [Nat.cast_mul, grid_snd, mul_assoc]
  have hupper : (((m.steps k + 1) * (m.grid k).2 : ℕ) : ℚ) =
      (m.steps k + 1) * 10 ^ k * m.units k := by
    rw [Nat.cast_mul, grid_snd, mul_assoc]
    push_cast
    rfl
  refine ⟨0 < m.steps k && m.readsBack (m.grid k).1 (m.steps k * (m.grid k).2),
    m.readsBack (m.grid k).1 ((m.steps k + 1) * (m.grid k).2),
    4 * m.mantissa * (m.grid k).1 - m.steps k * (m.grid k).2,
    (m.steps k + 1) * (m.grid k).2 - 4 * m.mantissa * (m.grid k).1, ?_, ?_, ?_, ?_, rfl⟩
  · rw [Bool.and_eq_true, decide_eq_true_eq, readsBack_iff hm hlower, and_iff_right_iff_imp]
    intro h
    have hpos := h.pos hm
    refine Nat.pos_of_ne_zero fun hzero => ?_
    rw [hzero, Nat.cast_zero, zero_mul] at hpos
    exact hpos.false
  · exact readsBack_iff hm hupper
  · rw [Nat.cast_sub ((units_le_iff hlower hvalue).mpr hle), hvalue, hlower, sub_mul]
  · rw [Nat.cast_sub ((units_le_iff hvalue hupper).mpr hlt.le), hvalue, hupper, sub_mul]

theorem onGrid?_eq_none (h : m.onGrid? tie k = none) (n : ℕ) : ¬m.Covers (n * 10 ^ k) := by
  obtain ⟨low, high, below, above, hlow, hhigh, -, -, heq⟩ := onGrid?_eq hm tie k
  rw [heq] at h
  split at h
  · cases h
  · rename_i htakes
    split at h
    · cases h
    · rename_i hnot
      intro hn
      rcases on_grid m k n with hdown | hup
      · exact hnot (hlow.mpr (covers_steps hn hdown))
      · have hneither := takesHigh_false (Bool.eq_false_of_not_eq_true htakes)
        exact hnot (hneither (hhigh.mpr (covers_steps_succ hn hup))).1

theorem onGrid?_eq_some (h : m.onGrid? tie k = some d) : IsNearestOn tie m k d := by
  obtain ⟨low, high, below, above, hlow, hhigh, hbelow, habove, heq⟩ := onGrid?_eq hm tie k
  rw [heq] at h
  split at h
  · rename_i htakes
    cases h
    obtain ⟨hif, hle⟩ := takesHigh_true htakes
    refine isNearestOn_steps_succ (hhigh.mp hif) fun hcovers => ?_
    exact (units_le_iff habove hbelow).mp (hle (hlow.mpr hcovers))
  · rename_i htakes
    split at h
    · rename_i hif
      cases h
      refine isNearestOn_steps (hlow.mp hif) fun hcovers => ?_
      obtain ⟨-, hle, hlt⟩ :=
        takesHigh_false (Bool.eq_false_of_not_eq_true htakes) (hhigh.mpr hcovers)
      exact ⟨(units_le_iff hbelow habove).mp hle,
        fun htie => (units_lt_iff hbelow habove).mp (hlt htie)⟩
    · cases h

end

end Magnitude

end PromptFiles.Number
