import PromptFiles.Number.Literal
import PromptFiles.Proofs.Number.Shortest

/-!
# Decimals in texts

Digits with a point among them are read as the number nearest to the decimal they denote, also
where the reader does not round at all because the decimal is far out of range (`ofDecimal_eq`).
The text of a number is read back as the same number (`ofText?_plain`), and a decimal is the text
of the number it is read as if and only if it is the shortest one (`plain_eq_iff`).
-/

namespace PromptFiles.Number

-- ---------------------------------------------------------------------------
-- Digits before and after a point
-- ---------------------------------------------------------------------------

theorem ofDigits_append (cs ds : List Char) :
    ofDigits (cs ++ ds) = 10 ^ ds.length * ofDigits cs + ofDigits ds := by
  rw [ofDigits, Nat.ofDigitChars_append, Nat.ofDigitChars_eq_ofDigitChars_zero]
  rfl

theorem ofDigits_lt {cs : List Char} (h : ∀ c ∈ cs, isDigit c = true) :
    ofDigits cs < 10 ^ cs.length := by
  induction cs using List.reverseRecOn with
  | nil => exact Nat.one_pos
  | append_singleton cs c ih =>
    obtain ⟨d, hd, -, hvalue⟩ := exists_digitChar (h c (by simp))
    have hlt := ih fun b hb => h b (List.mem_append_left _ hb)
    rw [ofDigits_concat, hvalue, List.length_append, List.length_singleton, Nat.pow_succ]
    omega

theorem isNumeral_append (h : isNumeral cs = true) (hds : ∀ d ∈ ds, isDigit d = true) :
    isNumeral (cs ++ ds) = true := by
  obtain ⟨hne, hcs⟩ := isNumeral_iff.mp h
  exact isNumeral_iff.mpr ⟨by simp [hne], List.forall_mem_append.mpr ⟨hcs, hds⟩⟩

theorem padded_succ (h : (digits n).length ≤ width) :
    padded (width + 1) n = '0' :: padded width n := by
  rw [padded, padded, Nat.succ_sub h, List.replicate_succ, List.cons_append]

theorem padded_ofDigits {cs : List Char} (h : isNumeral cs = true) :
    padded cs.length (ofDigits cs) = cs := by
  induction cs with
  | nil => cases h
  | cons c cs ih =>
    obtain ⟨hne, hdigits⟩ := isNumeral_iff.mp h
    by_cases hzero : c = '0' ∧ cs ≠ []
    · obtain ⟨rfl, hcs⟩ := hzero
      have hrest := List.forall_mem_of_forall_mem_cons hdigits
      have hlength : (digits (ofDigits cs)).length ≤ cs.length :=
        (Nat.length_toDigits_le_iff (by decide) (List.length_pos_of_ne_nil hcs)).mpr
          (ofDigits_lt hrest)
      rw [ofDigits_zero_cons, List.length_cons, padded_succ hlength,
        ih (isNumeral_iff.mpr ⟨hcs, hrest⟩)]
    · have hhead : c :: cs = ['0'] ∨ (c :: cs).head? ≠ some '0' := by
        by_cases hc : c = '0'
        · have hcs : cs = [] := by
            by_contra hcs
            exact hzero ⟨hc, hcs⟩
          exact .inl (by rw [hc, hcs])
        · exact .inr (by simpa using hc)
      rw [padded, digits_ofDigits hne hdigits hhead, Nat.sub_self]
      rfl

-- ---------------------------------------------------------------------------
-- Literals
-- ---------------------------------------------------------------------------

def pointed (whole part : List Char) : List Char :=
  if part = [] then whole else whole ++ '.' :: part

namespace Literal

theorem toLower_ne (h : isDigit c = true) : c.toLower ≠ 'n' ∧ c.toLower ≠ 'i' := by
  obtain ⟨d, hd, rfl, -⟩ := exists_digitChar h
  have hall : ∀ d < 10, (Nat.digitChar d).toLower ≠ 'n' ∧ (Nat.digitChar d).toLower ≠ 'i' := by
    decide
  exact hall d hd

theorem lower_ne {cs : List Char} (hhead : cs.head? = some c) (h : isDigit c = true) :
    ∀ word ∈ ["nan", "inf", "infinity"], String.ofList (cs.map Char.toLower) ≠ word := by
  obtain ⟨rest, rfl⟩ := List.head?_eq_some_iff.mp hhead
  have hne := toLower_ne h
  intro word hword heq
  have hlist := congrArg String.toList heq
  rw [String.toList_ofList, List.map_cons] at hlist
  simp only [List.mem_cons, List.not_mem_nil, or_false] at hword
  rcases hword with rfl | rfl | rfl
  · exact hne.1 (List.cons.inj hlist).1
  · exact hne.2 (List.cons.inj hlist).1
  · exact hne.2 (List.cons.inj hlist).1

section
variable (hwhole : isNumeral whole = true)
include hwhole

theorem head?_pointed (part : List Char) :
    ∃ c, (pointed whole part).head? = some c ∧ isDigit c = true := by
  obtain ⟨hne, hdigits⟩ := isNumeral_iff.mp hwhole
  obtain ⟨c, cs, rfl⟩ := List.exists_cons_of_ne_nil hne
  refine ⟨c, ?_, hdigits c List.mem_cons_self⟩
  unfold pointed
  split <;> rfl

theorem unsigned?_pointed (hpart : ∀ c ∈ part, isDigit c = true) (negative : Bool) :
    unsigned? negative (pointed whole part) =
      some (.decimal negative (ofDigits (whole ++ part)) (-part.length)) := by
  obtain ⟨hne, hdigits⟩ := isNumeral_iff.mp hwhole
  obtain ⟨c, hhead, hc⟩ := head?_pointed hwhole part
  have hword := lower_ne hhead hc
  have htake : (pointed whole part).takeWhile isDigit = whole := by
    unfold pointed
    split
    · exact List.takeWhile_eq_self_iff.mpr hdigits
    · rw [List.takeWhile_append_of_pos hdigits, List.takeWhile_cons_of_neg (by decide),
        List.append_nil]
  have hdrop : (pointed whole part).dropWhile isDigit = if part = [] then [] else '.' :: part := by
    unfold pointed
    split
    · exact List.dropWhile_eq_nil_iff.mpr hdigits
    · rw [List.dropWhile_append_of_pos hdigits, List.dropWhile_cons_of_neg (by decide)]
  unfold unsigned?
  split
  · exact absurd ‹_› (hword _ (by simp))
  · exact absurd ‹_› (hword _ (by simp))
  · exact absurd ‹_› (hword _ (by simp))
  · simp only [htake, hdrop]
    by_cases h : part = []
    · simp [h, hne]
    · simp [h, hne, List.takeWhile_eq_self_iff.mpr hpart, List.dropWhile_eq_nil_iff.mpr hpart]

theorem ofText?_pointed (hpart : ∀ c ∈ part, isDigit c = true) {negative : Bool} {s : String}
    (hs : s.toList = (if negative then ['-'] else []) ++ pointed whole part) :
    ofText? s = some (.decimal negative (ofDigits (whole ++ part)) (-part.length)) := by
  obtain ⟨c, hhead, hc⟩ := head?_pointed hwhole part
  rw [← unsigned?_pointed hwhole hpart negative, ofText?, hs]
  cases negative with
  | true => rfl
  | false =>
    obtain ⟨rest, hrest⟩ := List.head?_eq_some_iff.mp hhead
    simp only [Bool.false_eq_true, if_false, List.nil_append, hrest]
    split
    · rename_i heq
      rw [(List.cons.inj heq).1] at hc
      cases hc
    · rename_i heq
      rw [(List.cons.inj heq).1] at hc
      cases hc
    · rfl

end

theorem unsigned?_eq_decimal {cs : List Char} (hpoint : '.' ∈ cs)
    (h : unsigned? negative cs = some l) : ∃ n e, l = .decimal negative n e := by
  have hword : ∀ word ∈ ["nan", "inf", "infinity"],
      String.ofList (cs.map Char.toLower) ≠ word := by
    intro word hword heq
    have hall : ∀ word ∈ ["nan", "inf", "infinity"], '.' ∉ word.toList := by decide
    have hnone := hall word hword
    rw [← heq, String.toList_ofList] at hnone
    exact hnone (List.mem_map.mpr ⟨'.', hpoint, by decide⟩)
  unfold unsigned? at h
  split at h
  · exact absurd ‹_› (hword _ (by simp))
  · exact absurd ‹_› (hword _ (by simp))
  · exact absurd ‹_› (hword _ (by simp))
  · -- With or without a point among the digits.
    simp only at h
    split at h
    all_goals
      split at h
      · cases h
      · split at h
        · cases h
          exact ⟨_, _, rfl⟩
        · split at h
          · obtain ⟨e, -, rfl⟩ := Option.map_eq_some_iff.mp h
            exact ⟨_, _, rfl⟩
          · cases h

theorem ofText?_eq_decimal {s : String} (hpoint : '.' ∈ s.toList) (h : ofText? s = some l) :
    ∃ negative n e, l = .decimal negative n e := by
  unfold ofText? at h
  split at h
  · rename_i heq
    rw [heq] at hpoint
    exact ⟨true, unsigned?_eq_decimal (by simpa using hpoint) h⟩
  · rename_i heq
    rw [heq] at hpoint
    exact ⟨false, unsigned?_eq_decimal (by simpa using hpoint) h⟩
  · exact ⟨false, unsigned?_eq_decimal hpoint h⟩

end Literal

-- ---------------------------------------------------------------------------
-- Rounding
-- ---------------------------------------------------------------------------

namespace Magnitude

theorem covers_tiny (hnonneg : 0 ≤ q) (h : q < 2 ^ (-1075 : ℤ)) : zero.Covers q := by
  have hlow := zero.low_lt_value
  have hhigh := zero.high_eq
  have hvalue := value_zero
  have hhalf : (2 : ℚ) ^ zero.exponent / 2 = 2 ^ (-1075 : ℤ) := by
    rw [show (-1075 : ℤ) = -1074 - 1 by norm_num, zpow_sub_one₀ (by norm_num), div_eq_mul_inv]
    rfl
  exact covers_of_lt (by linarith) (by linarith)

theorem bound_le : bound ≤ 10 ^ (310 : ℤ) := by
  have hle : (2 : ℚ) ^ (1024 : ℤ) ≤ 10 ^ (310 : ℤ) := by
    have hnat : 2 ^ 1024 ≤ 10 ^ 310 := by decide +kernel
    exact_mod_cast hnat
  have hlast : (2 : ℚ) ^ (1024 : ℤ) = 2 ^ 53 * lastUnit := by
    rw [lastUnit, ← zpow_natCast, ← zpow_add₀ (by norm_num)]
    norm_num
  calc bound ≤ 2 ^ 53 * lastUnit :=
        mul_le_mul_of_nonneg_right (by norm_num) lastUnit_pos.le
    _ = 2 ^ (1024 : ℤ) := hlast.symm
    _ ≤ 10 ^ (310 : ℤ) := hle

end Magnitude

namespace Binary64

theorem ofFraction_eq_finite {x : Fraction} (hd : 0 < x.den) {m : Magnitude} (h : m.Covers x.value)
    (negative : Bool) : ofFraction negative x = .finite negative m := by
  rw [ofFraction, (Magnitude.ofFraction?_eq_some_iff hd).mpr h]

theorem ofFraction_eq_infinite {x : Fraction} (hd : 0 < x.den) (h : Magnitude.bound ≤ x.value)
    (negative : Bool) : ofFraction negative x = .infinite negative := by
  rw [ofFraction]
  split
  · rename_i m hm
    exact absurd (Magnitude.covers_of_ofFraction? hd hm).lt_bound (not_lt.mpr h)
  · rfl

theorem ofDecimal_eq (negative : Bool) (n : ℕ) (e : ℤ) :
    ofDecimal negative n e = ofFraction negative (.scaled n 10 e) := by
  have hden : 0 < (Fraction.scaled n 10 e).den := Fraction.den_scaled_pos (by norm_num) n e
  have hvalue := Fraction.value_scaled n 10 e
  have hpos : (0 : ℚ) < 10 ^ e := by positivity
  have hone : (1 : ℚ) ≤ 10 := by norm_num
  push_cast at hvalue
  unfold ofDecimal
  simp only
  split
  · rename_i htiny
    rw [Bool.or_eq_true, decide_eq_true_eq, decide_eq_true_eq] at htiny
    refine (ofFraction_eq_finite hden ?_ negative).symm
    rw [hvalue]
    refine Magnitude.covers_tiny (by positivity) ?_
    rcases htiny with rfl | htop
    · rw [Nat.cast_zero, zero_mul]
      positivity
    · have hdigits : (n : ℚ) < 10 ^ ((digits n).length : ℤ) := by
        exact_mod_cast lt_pow_length_digits n
      calc (n : ℚ) * 10 ^ e < 10 ^ ((digits n).length : ℤ) * 10 ^ e :=
            mul_lt_mul_of_pos_right hdigits hpos
        _ = 10 ^ (((digits n).length : ℤ) + e) := (zpow_add₀ (by norm_num) _ _).symm
        _ ≤ 10 ^ (-400 : ℤ) := zpow_le_zpow_right₀ hone htop.le
        _ ≤ 2 ^ (-1075 : ℤ) := by
            rw [zpow_neg, zpow_neg]
            exact inv_anti₀ (by positivity)
              (Magnitude.two_zpow_le_ten_zpow (by norm_num) (by norm_num))
  · rename_i hlarge
    rw [Bool.or_eq_true, decide_eq_true_eq, decide_eq_true_eq, not_or] at hlarge
    split
    · rename_i htop
      refine (ofFraction_eq_infinite hden ?_ negative).symm
      rw [hvalue]
      have hdigits : (10 : ℚ) ^ (((digits n).length - 1 : ℕ) : ℤ) ≤ n := by
        exact_mod_cast pow_length_digits_le hlarge.1
      have hlength : 0 < (digits n).length := Nat.length_toDigits_pos
      have htop : (310 : ℤ) < (digits n).length + e := htop
      calc Magnitude.bound ≤ 10 ^ (310 : ℤ) := Magnitude.bound_le
        _ ≤ 10 ^ ((((digits n).length - 1 : ℕ) : ℤ) + e) := zpow_le_zpow_right₀ hone (by omega)
        _ = 10 ^ (((digits n).length - 1 : ℕ) : ℤ) * 10 ^ e := zpow_add₀ (by norm_num) _ _
        _ ≤ n * 10 ^ e := mul_le_mul_of_nonneg_right hdigits hpos.le
    · rfl

theorem ofDecimal_cases (negative : Bool) (n : ℕ) (e : ℤ) :
    (∃ m : Magnitude, m.Covers (n * 10 ^ e) ∧ ofDecimal negative n e = .finite negative m) ∨
      Magnitude.bound ≤ n * 10 ^ e ∧ ofDecimal negative n e = .infinite negative := by
  have hden : 0 < (Fraction.scaled n 10 e).den := Fraction.den_scaled_pos (by norm_num) n e
  have hvalue : (Fraction.scaled n 10 e).value = n * 10 ^ e := Fraction.value_scaled n 10 e
  rw [← hvalue, ofDecimal_eq, ofFraction]
  cases h : Magnitude.ofFraction? (.scaled n 10 e) with
  | some m => exact .inl ⟨m, Magnitude.covers_of_ofFraction? hden h, rfl⟩
  | none => exact .inr ⟨Magnitude.le_of_ofFraction?_eq_none hden h, rfl⟩

theorem ofDecimal_eq_finite {n : ℕ} {e : ℤ} {m : Magnitude} (h : m.Covers (n * 10 ^ e))
    (negative : Bool) : ofDecimal negative n e = .finite negative m := by
  rcases ofDecimal_cases negative n e with ⟨m', hm', heq⟩ | ⟨hlarge, -⟩
  · rw [heq, h.unique hm']
  · exact absurd h.lt_bound (not_lt.mpr hlarge)

end Binary64

-- ---------------------------------------------------------------------------
-- Texts of decimals
-- ---------------------------------------------------------------------------

theorem ofDigits_mod_ten {cs : List Char} (hcs : isNumeral cs = true) :
    ofDigits cs % 10 = 0 ↔ cs.getLast? = some '0' := by
  obtain ⟨hne, hdigits⟩ := isNumeral_iff.mp hcs
  obtain ⟨init, c, rfl⟩ := (List.eq_nil_or_concat' cs).resolve_left hne
  obtain ⟨d, hd, rfl, hvalue⟩ := exists_digitChar (hdigits c (by simp))
  rw [ofDigits_concat, hvalue, List.getLast?_concat, Option.some_inj, digitChar_eq_zero_iff hd]
  omega

namespace Decimal

/-- How a decimal is written. -/
def text (d : Decimal) : List Char :=
  pointed d.positional.1 d.positional.2

structure Denotes (d : Decimal) (whole part : List Char) : Prop where
  numeral : isNumeral whole = true
  digits : ∀ c ∈ part, isDigit c = true
  value_eq : ofDigits (whole ++ part) * 10 ^ (-part.length : ℤ) = d.value

theorem positional_negSucc (n k : ℕ) : positional ⟨n, Int.negSucc k⟩ =
    (digits (n / 10 ^ (k + 1)), padded (k + 1) (n % 10 ^ (k + 1))) :=
  rfl

/-- Cut before its last digits, a number is still denoted by all of them. -/
theorem ofDigits_cut (n k : ℕ) : (padded (k + 1) (n % 10 ^ (k + 1))).length = k + 1 ∧
    ofDigits (digits (n / 10 ^ (k + 1)) ++ padded (k + 1) (n % 10 ^ (k + 1))) = n := by
  have hlength : (padded (k + 1) (n % 10 ^ (k + 1))).length = k + 1 :=
    length_padded (Nat.mod_lt n (Nat.pow_pos (by decide))) k.succ_pos
  refine ⟨hlength, ?_⟩
  rw [ofDigits_append, hlength, ofDigits_digits, ofDigits_padded, Nat.div_add_mod]

theorem denotes_positional (d : Decimal) : d.Denotes d.positional.1 d.positional.2 := by
  obtain ⟨n, e⟩ := d
  cases e with
  | ofNat k =>
    have hpositional : positional ⟨n, Int.ofNat k⟩ = (digits (n * 10 ^ k), []) := rfl
    rw [hpositional]
    refine ⟨isNumeral_digits _, by simp, ?_⟩
    rw [List.append_nil, ofDigits_digits, value]
    simp
  | negSucc k =>
    obtain ⟨hlength, hvalue⟩ := ofDigits_cut n k
    rw [positional_negSucc]
    refine ⟨isNumeral_digits _, fun c => isDigit_of_mem_padded, ?_⟩
    rw [hvalue, hlength, value]
    rfl

theorem text_pointed (whole : ℕ) (hpart : isNumeral part = true) :
    text ⟨ofDigits (digits whole ++ part), -part.length⟩ = pointed (digits whole) part := by
  obtain ⟨hne, hdigits⟩ := isNumeral_iff.mp hpart
  obtain ⟨k, hk⟩ := Nat.exists_eq_succ_of_ne_zero (List.length_pos_of_ne_nil hne).ne'
  have hexponent : (-part.length : ℤ) = Int.negSucc k := by rw [hk]; rfl
  have hlt := ofDigits_lt hdigits
  have hpow : 0 < 10 ^ part.length := Nat.pow_pos (by decide)
  rw [text, hexponent, positional_negSucc, ofDigits_append, ofDigits_digits, ← Nat.succ_eq_add_one,
    ← hk, Nat.mul_add_div hpow, Nat.div_eq_of_lt hlt, Nat.add_zero, Nat.mul_add_mod,
    Nat.mod_eq_of_lt hlt, padded_ofDigits hpart]

end Decimal

namespace Binary64

theorem toList_plain (negative : Bool) (m : Magnitude) : (finite negative m).plain.toList =
    (if negative then ['-'] else []) ++ (m.shortest .up).text := by
  rw [plain, Decimal.text]
  rcases (m.shortest .up).positional with ⟨whole, _ | ⟨c, part⟩⟩ <;> cases negative <;>
    exact String.toList_ofList

theorem ofText?_plain (x : Binary64) :
    (Literal.ofText? x.plain).map Literal.toBinary64 = some x := by
  cases x with
  | nan => decide
  | infinite negative => cases negative <;> decide
  | finite negative m =>
    obtain ⟨hwhole, hpart, hvalue⟩ := (m.shortest .up).denotes_positional
    have hcovers := m.isShortest_shortest.covers
    rw [← hvalue] at hcovers
    rw [Literal.ofText?_pointed hwhole hpart (toList_plain negative m)]
    exact congrArg some (ofDecimal_eq_finite hcovers negative)

end Binary64

-- ---------------------------------------------------------------------------
-- Decimals that stay as they are
-- ---------------------------------------------------------------------------

theorem point_not_mem_digits (n : ℕ) : '.' ∉ digits n :=
  fun h => absurd (isDigit_of_mem_digits h) (by decide)

theorem Decimal.exists_pointed {d : Decimal} (hreduced : d.IsReduced) (h : '.' ∈ d.text) :
    ∃ whole part, isNumeral part = true ∧ part.getLast? ≠ some '0' ∧
      d.text = digits whole ++ '.' :: part ∧
      d = ⟨ofDigits (digits whole ++ part), -part.length⟩ := by
  obtain ⟨n, e⟩ := d
  cases e with
  | ofNat k => exact absurd h (point_not_mem_digits (n * 10 ^ k))
  | negSucc k =>
    let whole := n / 10 ^ (k + 1)
    let part := padded (k + 1) (n % 10 ^ (k + 1))
    obtain ⟨hlength, hvalue⟩ : part.length = k + 1 ∧ ofDigits (digits whole ++ part) = n :=
      ofDigits_cut n k
    have hne : part ≠ [] := padded_ne_nil _ _
    have hdigits : ∀ c ∈ part, isDigit c = true := fun c => isDigit_of_mem_padded
    refine ⟨whole, part, isNumeral_iff.mpr ⟨hne, hdigits⟩, fun hlast => hreduced ?_, if_neg hne, ?_⟩
    · rw [← List.getLast?_append_of_ne_nil (digits whole) hne,
        ← ofDigits_mod_ten (isNumeral_append (isNumeral_digits whole) hdigits), hvalue] at hlast
      exact hlast
    · rw [hvalue, hlength]
      rfl

/-- The shortest decimal of a number, with as many digits after its point as it needs. -/
structure IsShortestText (cs : List Char) (negative : Bool) (whole : ℕ) (part : List Char)
    (m : Magnitude) : Prop where
  shape : cs = (if negative then ['-'] else []) ++ (digits whole ++ '.' :: part)
  numeral : isNumeral part = true
  getLast_ne : part.getLast? ≠ some '0'
  shortest : IsShortest m ⟨ofDigits (digits whole ++ part), -part.length⟩

namespace Binary64

variable {s : String} {x : Binary64}

theorem exists_shortestText (h : '.' ∈ x.plain.toList) :
    ∃ negative whole part m, IsShortestText x.plain.toList negative whole part m := by
  cases x with
  | nan => exact absurd h (by decide)
  | infinite negative => cases negative <;> exact absurd h (by decide)
  | finite negative m =>
    have hzero : m.mantissa ≠ 0 := by
      intro hzero
      have hshortest : m.shortest .up = ⟨0, 0⟩ := if_pos hzero
      rw [toList_plain, hshortest] at h
      cases negative <;> exact absurd h (by decide)
    rw [toList_plain] at h ⊢
    have hpoint : '.' ∈ (m.shortest .up).text := by
      cases negative <;> simpa using h
    obtain ⟨whole, part, hpart, hlast, htext, hd⟩ :=
      Decimal.exists_pointed (Magnitude.isReduced_shortest hzero) hpoint
    exact ⟨negative, whole, part, m, congrArg _ htext, hpart, hlast, hd ▸ m.isShortest_shortest⟩

/-- A decimal is what is written for the number that it is read as, if and only if it is the
shortest one. -/
theorem plain_eq_iff (hread : (Literal.ofText? s).map Literal.toBinary64 = some x)
    (hpoint : '.' ∈ s.toList) :
    x.plain = s ↔ ∃ negative whole part m, IsShortestText s.toList negative whole part m := by
  constructor
  · rintro rfl
    exact exists_shortestText hpoint
  · rintro ⟨negative, whole, part, m, hshape, hpart, hlast, hshort⟩
    obtain ⟨hne, hdigits⟩ := isNumeral_iff.mp hpart
    have hpointed : pointed (digits whole) part = digits whole ++ '.' :: part := if_neg hne
    have hreduced : Decimal.IsReduced ⟨ofDigits (digits whole ++ part), -part.length⟩ := by
      intro hmod
      rw [ofDigits_mod_ten (isNumeral_append (isNumeral_digits whole) hdigits),
        List.getLast?_append_of_ne_nil _ hne] at hmod
      exact hlast hmod
    rw [← hpointed] at hshape
    rw [Literal.ofText?_pointed (isNumeral_digits whole) hdigits hshape, Option.map_some,
      Option.some_inj] at hread
    have hx : x = .finite negative m := by
      rw [← hread]
      exact ofDecimal_eq_finite hshort.covers negative
    rw [hx, ← String.toList_inj, toList_plain, ← Magnitude.eq_shortest hshort hreduced, hshape,
      Decimal.text_pointed whole hpart]

end Binary64

end PromptFiles.Number
