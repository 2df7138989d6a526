import Mathlib
import PromptFiles.Proofs.Number.Digits

/-!
# Numbers that digits denote

A number has one numeral, which has no sign and no leading zeros: `index?` reads numerals and
nothing else (`index?_eq_some_iff`). Any run of digits can be read one digit after the other into
words of a limited size, and the number is found exactly if it fits (`readBelow?_eq`), since what
was read so far is never larger than the whole.
-/

namespace PromptFiles.Number

theorem ofDigits_zero_cons (cs : List Char) : ofDigits ('0' :: cs) = ofDigits cs := by
  rw [ofDigits, Nat.ofDigitChars_cons]
  rfl

theorem ofDigits_concat (cs : List Char) (c : Char) :
    ofDigits (cs ++ [c]) = 10 * ofDigits cs + (c.toNat - '0'.toNat) := by
  rw [ofDigits, Nat.ofDigitChars_append, Nat.ofDigitChars_cons, Nat.ofDigitChars_nil]
  rfl

-- ---------------------------------------------------------------------------
-- Numerals
-- ---------------------------------------------------------------------------

def index? (cs : List Char) : Option Nat :=
  if isNumeral cs ∧ (cs = ['0'] ∨ cs.head? ≠ some '0') then some (ofDigits cs) else none

theorem isNumeral_iff {cs : List Char} :
    isNumeral cs = true ↔ cs ≠ [] ∧ ∀ c ∈ cs, isDigit c = true := by
  simp [isNumeral]

theorem isNumeral_digits (n : Nat) : isNumeral (digits n) = true :=
  isNumeral_iff.mpr ⟨Nat.toDigits_ne_nil, fun _ => isDigit_of_mem_digits⟩

theorem digits_zero : digits 0 = ['0'] := by
  rw [digits, Nat.toDigits_zero]

theorem exists_digitChar (h : isDigit c = true) :
    ∃ d < 10, c = Nat.digitChar d ∧ c.toNat - '0'.toNat = d := by
  have hrange : 48 ≤ c.toNat ∧ c.toNat ≤ 57 := by
    simpa [isDigit, Char.le_def, UInt32.le_iff_toNat_le] using h
  have hsmall : c.toNat - 48 < 10 := by omega
  refine ⟨c.toNat - 48, hsmall, Char.toNat_inj.mp ?_, rfl⟩
  rw [Nat.toNat_digitChar_of_lt_ten hsmall]
  omega

theorem digits_digit (h : isDigit c = true) : digits (c.toNat - '0'.toNat) = [c] := by
  obtain ⟨d, hd, rfl, hvalue⟩ := exists_digitChar h
  rw [hvalue, digits, Nat.toDigits_of_lt_base hd]

theorem digits_concat (hn : 0 < n) (h : isDigit c = true) :
    digits (10 * n + (c.toNat - '0'.toNat)) = digits n ++ [c] := by
  obtain ⟨d, hd, -, hvalue⟩ := exists_digitChar h
  rw [← digits_digit h, hvalue]
  exact (Nat.toDigits_append_toDigits (by decide) hn hd).symm

/-- Only the numeral of zero starts with a zero. By the recursion that writes the last digit last. -/
theorem head?_digits (hn : n ≠ 0) : (digits n).head? ≠ some '0' := by
  induction n using Nat.strongRecOn with
  | ind n ih =>
    rw [digits, Nat.toDigits_eq_if (by decide)]
    split
    · simpa using hn
    · have hlt : n / 10 < n := by omega
      have hne : n / 10 ≠ 0 := by omega
      rw [List.head?_append_of_ne_nil _ Nat.toDigits_ne_nil]
      exact ih (n / 10) hlt hne

theorem digits_ofDigits {cs : List Char} (hne : cs ≠ []) (hd : ∀ c ∈ cs, isDigit c = true)
    (hz : cs = ['0'] ∨ cs.head? ≠ some '0') : digits (ofDigits cs) = cs := by
  induction cs using List.reverseRecOn with
  | nil => exact absurd rfl hne
  | append_singleton cs c ih =>
    have hc : isDigit c = true := hd c (by simp)
    rw [ofDigits_concat]
    cases cs with
    | nil => simpa [ofDigits] using digits_digit hc
    | cons b bs =>
      have hb : (b :: bs).head? ≠ some '0' := by
        rcases hz with hz | hz
        · simp at hz
        · simpa using hz
      have hprefix : digits (ofDigits (b :: bs)) = b :: bs :=
        ih (by simp) (fun d hm => hd d (List.mem_append_left _ hm)) (.inr hb)
      have hpos : 0 < ofDigits (b :: bs) := by
        refine Nat.pos_of_ne_zero fun hzero => hb ?_
        rw [← hprefix, hzero, digits_zero]
        rfl
      rw [digits_concat hpos hc, hprefix]

theorem index?_eq_some_iff : index? cs = some n ↔ digits n = cs := by
  rw [index?]
  constructor
  · intro h
    split at h
    · rename_i hcs
      cases h
      obtain ⟨hne, hd⟩ := isNumeral_iff.mp hcs.1
      exact digits_ofDigits hne hd hcs.2
    · cases h
  · rintro rfl
    have hhead : digits n = ['0'] ∨ (digits n).head? ≠ some '0' := by
      by_cases hn : n = 0
      · exact .inl (hn ▸ digits_zero)
      · exact .inr (head?_digits hn)
    rw [if_pos ⟨isNumeral_digits n, hhead⟩, ofDigits_digits]

/-- Neither leading zeros nor a sign nor a blank. -/
example : ["7", "0", "00", "+0", " 0", ""].map (index? ·.toList) =
    [some 7, some 0, none, none, none, none] := by
  decide

-- ---------------------------------------------------------------------------
-- Words
-- ---------------------------------------------------------------------------

def fit? (limit n : Nat) : Option Nat :=
  if n < limit then some n else none

/-- Read one digit more. The number so far is multiplied first and then added to, and both
results have to fit. -/
def step? (limit n : Nat) (c : Char) : Option Nat := do
  let tens ← fit? limit (10 * n)
  fit? limit (tens + (c.toNat - '0'.toNat))

def readBelow? (limit : Nat) (cs : List Char) : Option Nat :=
  cs.foldlM (step? limit) 0

theorem step?_eq (limit n : Nat) (c : Char) :
    step? limit n c = fit? limit (10 * n + (c.toNat - '0'.toNat)) := by
  unfold step? fit?
  by_cases htens : 10 * n < limit
  · simp [htens]
  · have hsum : ¬10 * n + (c.toNat - '0'.toNat) < limit := by omega
    rw [if_neg htens, if_neg hsum]
    rfl

theorem le_ofDigitChars (cs : List Char) (n : Nat) : n ≤ Nat.ofDigitChars 10 cs n := by
  rw [Nat.ofDigitChars_eq_ofDigitChars_zero]
  have hpow : n ≤ 10 ^ cs.length * n := Nat.le_mul_of_pos_left n (Nat.pow_pos (by decide))
  omega

theorem readBelow?_eq (h : 0 < limit) (cs : List Char) :
    readBelow? limit cs = fit? limit (ofDigits cs) := by
  -- After any number of digits that still fits.
  have hrun (n : Nat) (hn : n < limit) :
      cs.foldlM (step? limit) n = fit? limit (Nat.ofDigitChars 10 cs n) := by
    induction cs generalizing n with
    | nil => simp [fit?, hn]
    | cons c cs ih =>
      rw [List.foldlM_cons, step?_eq, Nat.ofDigitChars_cons]
      by_cases hfits : 10 * n + (c.toNat - '0'.toNat) < limit
      · rw [fit?, if_pos hfits]
        exact ih _ hfits
      · have hle := le_ofDigitChars cs (10 * n + (c.toNat - '0'.toNat))
        rw [fit?, if_neg hfits, fit?, if_neg (by omega)]
        rfl
  exact hrun 0 h

end PromptFiles.Number
