import Mathlib
import PromptFiles.Proofs.Number.Integer
import PromptFiles.Proofs.Template.SpecGrammar

/-!
# Values filled up to a width

`Padded` says where a value is filled up and with what: text on the right, numbers on the left, and
zeros behind the sign. A value is filled up to the width and never cut (`length_pad`), and a number
stays the number it is: an integer is read back from whatever a format made of it, unless the
format asks for decimals (`int64?_apply`).
-/

namespace PromptFiles.Template.Spec

def withoutWidth (spec : Spec) : Spec :=
  { spec with width := none }

theorem withoutWidth_eq {spec : Spec} (h : spec.width = none) : spec.withoutWidth = spec := by
  rw [withoutWidth, ← h]

inductive Padded (spec : Spec) (value : Value) : List Char → List Char → Prop
  | right (h : value.isNumeric = false ∨ spec.kind = .text) (cs : List Char) (n : Nat) :
    Padded spec value cs (cs ++ List.replicate n ' ')
  | left (hnumeric : value.isNumeric = true) (hkind : spec.kind ≠ .text)
    (hflag : spec.zeroPad = false) (cs : List Char) (n : Nat) :
    Padded spec value cs (List.replicate n ' ' ++ cs)
  | zeros (hnumeric : value.isNumeric = true) (hkind : spec.kind ≠ .text)
    (hflag : spec.zeroPad = true) {sign rest : List Char}
    (hsign : sign = ['-'] ∨ sign = [] ∧ rest.head? ≠ some '-') (n : Nat) :
    Padded spec value (sign ++ rest) (sign ++ (List.replicate n '0' ++ rest))

def unspaced (cs : List Char) : List Char :=
  (cs.dropWhile (· == ' ')).rdropWhile (· == ' ')

-- ---------------------------------------------------------------------------
-- Filling up
-- ---------------------------------------------------------------------------

theorem pad_withoutWidth (spec : Spec) (numeric : Bool) (body : List Char) :
    spec.withoutWidth.pad numeric body = body := by
  unfold pad
  simp only [withoutWidth, Option.getD_none, Nat.zero_sub, List.replicate_zero, List.nil_append,
    List.append_nil]
  split
  · split <;> rfl
  · split <;> rfl

theorem body_withoutWidth (spec : Spec) (value : Value) :
    spec.withoutWidth.body value = spec.body value :=
  rfl

theorem toList_apply (spec : Spec) (value : Value) : (spec.apply value).toList =
    spec.pad (value.isNumeric && spec.kind != .text) (spec.body value).toList :=
  String.toList_ofList

theorem toList_apply_withoutWidth (spec : Spec) (value : Value) :
    (spec.withoutWidth.apply value).toList = (spec.body value).toList := by
  rw [toList_apply, pad_withoutWidth, body_withoutWidth]

theorem length_pad (spec : Spec) (numeric : Bool) (body : List Char) :
    (spec.pad numeric body).length = max (spec.width.getD 0) body.length := by
  unfold pad
  split
  · split <;> simp only [List.length_append, List.length_cons, List.length_replicate] <;> omega
  · split <;> simp only [List.length_append, List.length_replicate] <;> omega

theorem padded_pad (spec : Spec) (value : Value) (body : List Char) :
    Padded spec value body (spec.pad (value.isNumeric && spec.kind != .text) body) := by
  unfold pad
  generalize spec.width.getD 0 - body.length = fill
  by_cases hright : value.isNumeric = false ∨ spec.kind = .text
  · have hnumeric : (value.isNumeric && spec.kind != .text) = false := by
      rcases hright with h | h <;> simp [h]
    rw [hnumeric]
    exact .right hright body fill
  · rw [not_or, Bool.not_eq_false] at hright
    obtain ⟨hvalue, hkind⟩ := hright
    have hnumeric : (value.isNumeric && spec.kind != .text) = true := by simp [hvalue, hkind]
    rw [hnumeric]
    cases hflag : spec.zeroPad with
    | false => exact .left hvalue hkind hflag body fill
    | true =>
      simp only [Bool.and_self, if_true]
      split
      · exact @Padded.zeros spec value hvalue hkind hflag ['-'] _ (.inl rfl) fill
      · rename_i hplain
        have hhead : body.head? ≠ some '-' := by
          intro hhead
          obtain ⟨rest, rfl⟩ := List.head?_eq_some_iff.mp hhead
          exact hplain rest rfl
        exact @Padded.zeros spec value hvalue hkind hflag [] _ (.inr ⟨rfl, hhead⟩) fill

theorem padded_apply (spec : Spec) (value : Value) :
    Padded spec value (spec.withoutWidth.apply value).toList (spec.apply value).toList := by
  rw [toList_apply_withoutWidth, toList_apply]
  exact padded_pad spec value _

theorem width_le_of_parse (h : parse? format = some spec) : spec.width.getD 0 ≤ maxNumber := by
  obtain ⟨l, -, -, rfl⟩ := ofChars?_eq_some_iff.mp h
  cases hwidth : l.width with
  | none => simp [Layout.spec, hwidth]
  | some run =>
    rw [Layout.spec, hwidth]
    exact run.bounded

-- ---------------------------------------------------------------------------
-- Reading integers back
-- ---------------------------------------------------------------------------

theorem dropWhile_spaces {cs : List Char} (h : ∀ c ∈ cs, c ≠ ' ') :
    cs.dropWhile (· == ' ') = cs := by
  cases cs with
  | nil => rfl
  | cons c cs =>
    have hc : (c == ' ') = false := by simpa using h c List.mem_cons_self
    rw [List.dropWhile_cons, hc]
    rfl

section
variable {cs : List Char} (h : ∀ c ∈ cs, c ≠ ' ')
include h

theorem unspaced_left (n : Nat) : unspaced (List.replicate n ' ' ++ cs) = cs := by
  have hspaces : ∀ c ∈ List.replicate n ' ', (c == ' ') = true := fun c hc => by
    simp [List.eq_of_mem_replicate hc]
  have hreverse : ∀ c ∈ cs.reverse, c ≠ ' ' := fun c hc => h c (List.mem_reverse.mp hc)
  rw [unspaced, List.dropWhile_append_of_pos hspaces, dropWhile_spaces h, List.rdropWhile,
    dropWhile_spaces hreverse, List.reverse_reverse]

theorem unspaced_right (hne : cs ≠ []) (n : Nat) : unspaced (cs ++ List.replicate n ' ') = cs := by
  have hspaces : ∀ c ∈ List.replicate n ' ', (c == ' ') = true := fun c hc => by
    simp [List.eq_of_mem_replicate hc]
  have hreverse : ∀ c ∈ cs.reverse, c ≠ ' ' := fun c hc => h c (List.mem_reverse.mp hc)
  have hsolid : ¬(cs.dropWhile (· == ' ')).isEmpty := by
    rw [dropWhile_spaces h]
    simpa using hne
  rw [unspaced, List.dropWhile_append, if_neg hsolid, dropWhile_spaces h, List.rdropWhile,
    List.reverse_append, List.reverse_replicate, List.dropWhile_append_of_pos hspaces,
    dropWhile_spaces hreverse, List.reverse_reverse]

end

theorem body_integer {spec : Spec} (h : spec.kind ≠ .fixed) (i : Int64) :
    spec.body (.integer i) = Number.numeral i.toInt := by
  unfold body
  split
  · contradiction
  · contradiction
  · rfl

theorem ne_space_of_spells {cs : List Char} {i : Int} (h : Number.Spells cs i) :
    cs ≠ [] ∧ ∀ c ∈ cs, c ≠ ' ' := by
  have hdigits {ds : List Char} (hds : Number.isNumeral ds = true) :
      ds ≠ [] ∧ ∀ c ∈ ds, c ≠ ' ' := by
    obtain ⟨hne, hall⟩ := Number.isNumeral_iff.mp hds
    refine ⟨hne, ?_⟩
    rintro c hc rfl
    exact absurd (hall _ hc) (by decide)
  cases h with
  | digits hds => exact hdigits hds
  | plus hds => exact ⟨by simp, List.forall_mem_cons.mpr ⟨by decide, (hdigits hds).2⟩⟩
  | minus hds => exact ⟨by simp, List.forall_mem_cons.mpr ⟨by decide, (hdigits hds).2⟩⟩

theorem sign_unique {sign ds sign' rest : List Char} (hds : Number.isNumeral ds = true)
    (h : sign = [] ∨ sign = ['-']) (h' : sign' = ['-'] ∨ sign' = [] ∧ rest.head? ≠ some '-')
    (heq : sign' ++ rest = sign ++ ds) : sign' = sign ∧ rest = ds := by
  obtain ⟨-, hdigits⟩ := Number.isNumeral_iff.mp hds
  rcases h with rfl | rfl <;> rcases h' with rfl | ⟨rfl, hhead⟩
  · have hmem : '-' ∈ ds := by rw [← List.nil_append ds, ← heq]; simp
    exact absurd (hdigits '-' hmem) (by decide)
  · exact ⟨rfl, heq⟩
  · exact ⟨rfl, List.append_cancel_left heq⟩
  · rw [List.nil_append] at heq
    exact absurd (heq ▸ rfl) hhead

theorem int64?_apply {spec : Spec} (h : spec.kind ≠ .fixed) (i : Int64) :
    Number.int64? (String.ofList (unspaced (spec.apply (.integer i)).toList)) = some i := by
  obtain ⟨sign, ds, hlist, hds, hsign⟩ := Number.toList_numeral i.toInt
  have hspells := Number.spells_zeros hds hsign
  have hbody : (spec.withoutWidth.apply (.integer i)).toList = sign ++ ds := by
    rw [toList_apply_withoutWidth, body_integer h, hlist]
  rw [Number.int64?_eq_some_iff, String.toList_ofList]
  have hplain : Number.Spells (sign ++ ds) i.toInt := hspells 0
  obtain ⟨hne, hsolid⟩ := ne_space_of_spells hplain
  have hpadded := padded_apply spec (.integer i)
  rw [hbody] at hpadded
  generalize hcs : sign ++ ds = cs at hpadded hplain hne hsolid
  generalize (spec.apply (.integer i)).toList = filled at hpadded ⊢
  cases hpadded with
  | right _ _ n => rwa [unspaced_right hsolid hne]
  | left _ _ _ _ n => rwa [unspaced_left hsolid]
  | @zeros _ _ _ sign' rest hsign' n =>
    obtain ⟨rfl, rfl⟩ := sign_unique hds (hsign.imp And.left And.left) hsign' hcs.symm
    -- No spaces were put in front, so there are none to be removed.
    have hzeros := unspaced_left (ne_space_of_spells (hspells n)).2 0
    rw [List.replicate_zero, List.nil_append] at hzeros
    rw [hzeros]
    exact hspells n

/-- A value is filled up to the width and no further: text, truth values and everything under the
letter `s` with spaces on the right, numbers with spaces on the left or with zeros behind the sign.
The text is never longer than the largest width or the text without a width. An integer stays the
integer it is, the least one included, unless the format asks for decimals. -/
theorem apply_padded (h : parse? format = some spec) :
    (∀ value, let body := (spec.withoutWidth.apply value).toList
      (spec.apply value).length = max (spec.width.getD 0) body.length ∧
      (spec.apply value).length ≤ max maxNumber body.length ∧
      Padded spec value body (spec.apply value).toList) ∧
    (spec.kind ≠ .fixed → ∀ i : Int64,
      Number.int64? (String.ofList (unspaced (spec.apply (.integer i)).toList)) = some i) := by
  refine ⟨fun value => ?_, fun hkind => int64?_apply hkind⟩
  have hlength : (spec.apply value).length =
      max (spec.width.getD 0) (spec.withoutWidth.apply value).toList.length := by
    rw [← String.length_toList, toList_apply, length_pad, toList_apply_withoutWidth]
  have hwidth := width_le_of_parse h
  exact ⟨hlength, by omega, padded_apply spec value⟩

theorem apply_padded_least :
    let spec : Spec := ⟨true, some 24, none, .integer⟩
    parse? "024d" = some spec ∧
      (spec.apply (.integer Int64.minValue)).length = 24 ∧
      spec.apply (.integer Int64.minValue) = "-00009223372036854775808" ∧
      Number.int64? (String.ofList (unspaced "-00009223372036854775808".toList)) =
        some Int64.minValue := by
  intro spec
  have hparse : parse? "024d" = some spec := by decide
  obtain ⟨hfilled, hread⟩ := apply_padded hparse
  have htext : spec.apply (.integer Int64.minValue) = "-00009223372036854775808" := by cbv
  refine ⟨hparse, ?_, htext, ?_⟩
  · rw [(hfilled _).1]
    cbv
  · rw [← htext]
    exact hread (by decide) Int64.minValue

end PromptFiles.Template.Spec
