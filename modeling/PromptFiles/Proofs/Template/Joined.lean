import Mathlib
import PromptFiles.Proofs.Template.Validated

/-!
# Joined templates

A template without an unmatched brace is read in the same way whatever is written after it, and
what is written after it is read as it would be alone, some bytes further on. So a run over both
is a run over the one and then over the other: `substitute_cut_append`, `fieldNames_cut_append`.
Only the field without a name looks at the template as a whole, and `find?_bindings` says how
far. `format_append` puts this together for both kinds of runs.
-/

namespace PromptFiles.Template

open NameMap (find? contains keys)

-- ---------------------------------------------------------------------------
-- A token and what follows it
-- ---------------------------------------------------------------------------

theorem fault?_eq_none_iff {t : Token} :
    t.fault? = none ↔ ∀ brace position, t ≠ .unmatched brace position := by
  cases t <;> simp [Token.fault?]

theorem Token.Fits.anywhere {t : Token} (h : t.Fits position rest) (hl : t.isLiteral = false)
    (hf : t.fault? = none) (start : Nat) (more : List Char) : t.Fits start more := by
  cases t with
  | literal text => cases hl
  | escaped brace => exact h
  | field name format => exact h
  | unmatched brace p => cases hf

section
variable {t : Token} (h : t.Fits position rest) (hf : t.fault? = none) (more : List Char)
include h hf

/-- A literal may grow into what follows it, but what is written for it does not change. -/
theorem substitute_source_append (bound : List (String × Value)) :
    substitute bound (cut position (t.source ++ more)) = (t.expand bound).bind fun text =>
      (substitute bound (cut (position + byteLength t.source) more)).map (text ++ ·) := by
  cases hl : t.isLiteral with
  | true =>
    cases t with
    | literal text => exact substitute_append h.2.1 more bound position
    | _ => cases hl
  | false => rw [cut_source (h.anywhere hl hf position more), substitute_cons]

theorem fieldNames_source_append :
    fieldNames (cut position (t.source ++ more)) =
      t.name?.toList ++ fieldNames (cut (position + byteLength t.source) more) := by
  cases hl : t.isLiteral with
  | true =>
    cases t with
    | literal text => exact fieldNames_append h.2.1 more position
    | _ => cases hl
  | false =>
    rw [cut_source (h.anywhere hl hf position more), fieldNames, List.filterMap_cons]
    cases t.name? <;> rfl

end

-- ---------------------------------------------------------------------------
-- Two texts
-- ---------------------------------------------------------------------------

theorem substitute_cut_append (bound : List (String × Value)) (position : Nat)
    (cs rest : List Char) (h : ∀ t ∈ cut position cs, t.fault? = none) :
    substitute bound (cut position (cs ++ rest)) =
      (substitute bound (cut position cs)).bind fun text =>
        (substitute bound (cut (position + byteLength cs) rest)).map (text ++ ·) := by
  induction position, cs using tokenInduction with
  | nil position =>
    rw [cut, substitute, List.nil_append, byteLength_nil, Nat.add_zero]
    cases substitute bound (cut position rest) <;> rfl
  | cons position t after hfits ih =>
    rw [cut_source hfits] at h
    have ht : t.fault? = none := h t List.mem_cons_self
    rw [List.append_assoc, substitute_source_append hfits ht, substitute_source_append hfits ht,
      ih fun u hu => h u (List.mem_cons_of_mem _ hu), byteLength_append, ← Nat.add_assoc]
    cases t.expand bound with
    | error e => rfl
    | ok text =>
      cases substitute bound (cut (position + byteLength t.source) after) with
      | error e => rfl
      | ok others =>
        cases substitute bound (cut (position + byteLength t.source + byteLength after) rest) <;>
          simp [Except.bind, Except.map]

theorem fieldNames_cut_append (position : Nat) (cs rest : List Char)
    (h : ∀ t ∈ cut position cs, t.fault? = none) :
    fieldNames (cut position (cs ++ rest)) =
      fieldNames (cut position cs) ++ fieldNames (cut (position + byteLength cs) rest) := by
  induction position, cs using tokenInduction with
  | nil position => simp [cut, fieldNames]
  | cons position t after hfits ih =>
    rw [cut_source hfits] at h
    have ht : t.fault? = none := h t List.mem_cons_self
    rw [List.append_assoc, fieldNames_source_append hfits ht, fieldNames_source_append hfits ht,
      ih fun u hu => h u (List.mem_cons_of_mem _ hu), byteLength_append, ← Nat.add_assoc,
      List.append_assoc]

-- ---------------------------------------------------------------------------
-- Positions
-- ---------------------------------------------------------------------------

def Token.moved (bytes : Nat) : Token → Token
  | unmatched brace position => unmatched brace (bytes + position)
  | t => t

def FormatError.moved (bytes : Nat) : FormatError → FormatError
  | unmatchedBrace brace position => unmatchedBrace brace (bytes + position)
  | e => e

@[simp] theorem Token.source_moved (bytes : Nat) (t : Token) : (t.moved bytes).source = t.source := by
  cases t <;> rfl

@[simp] theorem Token.name?_moved (bytes : Nat) (t : Token) : (t.moved bytes).name? = t.name? := by
  cases t <;> rfl

theorem Token.Fits.moved {t : Token} (h : t.Fits position rest) (bytes : Nat) :
    (t.moved bytes).Fits (bytes + position) rest := by
  cases t with
  | unmatched brace p => exact ⟨congrArg (bytes + ·) h.1, h.2⟩
  | _ => exact h

theorem cut_moved (bytes position : Nat) (cs : List Char) :
    cut (bytes + position) cs = (cut position cs).map (Token.moved bytes) := by
  induction position, cs using tokenInduction with
  | nil position => simp [cut]
  | cons position t rest hfits ih =>
    have hmoved := cut_source (hfits.moved bytes)
    rw [Token.source_moved, Nat.add_assoc, ih] at hmoved
    rw [hmoved, cut_source hfits, List.map_cons]

theorem expand_moved (bound : List (String × Value)) (bytes : Nat) (t : Token) :
    (t.moved bytes).expand bound = (t.expand bound).mapError (·.moved bytes) := by
  cases t with
  | field name format =>
    show (Token.field name format).expand bound = _
    rw [Token.expand]
    split <;> rfl
  | _ => rfl

theorem substitute_cut_moved (bound : List (String × Value)) (bytes : Nat) (cs : List Char) :
    substitute bound (cut bytes cs) =
      (substitute bound (cut 0 cs)).mapError (·.moved bytes) := by
  rw [← Nat.add_zero bytes, cut_moved, Nat.add_zero]
  induction cut 0 cs with
  | nil => rfl
  | cons t ts ih =>
    rw [List.map_cons, substitute_cons, substitute_cons, expand_moved, ih]
    cases t.expand bound with
    | error e => rfl
    | ok text => cases substitute bound ts <;> rfl

theorem fieldNames_cut_moved (bytes : Nat) (cs : List Char) :
    fieldNames (cut bytes cs) = fieldNames (cut 0 cs) := by
  rw [← Nat.add_zero bytes, cut_moved, fieldNames, List.filterMap_map]
  exact congrArg (List.filterMap · _) (funext (Token.name?_moved _))

theorem byteLength_toList (s : String) : byteLength s.toList = s.utf8ByteSize := by
  have hchars (cs : List Char) : byteLength cs = (String.ofList cs).utf8ByteSize := by
    induction cs with
    | nil => rfl
    | cons c cs ih =>
      rw [← List.singleton_append, String.ofList_append, String.utf8ByteSize_append, ← ih]
      simp [byteLength]
  rw [hchars, String.ofList_toList]

-- ---------------------------------------------------------------------------
-- Bindings
-- ---------------------------------------------------------------------------

/-- Only the empty name depends on the placeholders of the template, and only on whether it is
among them. -/
theorem find?_bindings (args : Arguments) {names others : List String}
    (h : name = "" → ("" ∈ names ↔ "" ∈ others)) :
    find? name (args.bindings names) = find? name (args.bindings others) := by
  unfold Arguments.bindings
  cases args.positional with
  | nil => rfl
  | cons first rest =>
    by_cases hname : name = ""
    · simp only [h hname]
    · have skip (placeholders : List String) (map : List (String × Value)) :
          find? name (if "" ∈ placeholders then NameMap.insert "" first map else map) =
            find? name map := by
        split
        · rw [NameMap.find?_insert, if_neg hname]
        · rfl
      simp only [skip]

theorem find?_bindings_subset (args : Arguments) {names others : List String}
    (hsub : names ⊆ others) (hname : name ∈ names) :
    find? name (args.bindings others) = find? name (args.bindings names) :=
  find?_bindings args fun he => iff_of_true (hsub (he ▸ hname)) (he ▸ hname)

theorem binds_subset {args : Arguments} {names others : List String} (hsub : names ⊆ others)
    (hname : name ∈ names) : args.Binds others name ↔ args.Binds names name := by
  rw [← Arguments.contains_bindings, ← Arguments.contains_bindings, contains, contains,
    find?_bindings_subset args hsub hname]

theorem substitute_bindings_subset (args : Arguments) {template : String} {names : List String}
    (hsub : placeholders template ⊆ names) :
    substitute (args.bindings names) (tokenize template) =
      substitute (args.bindings (placeholders template)) (tokenize template) :=
  substitute_congr_names fun name hname =>
    find?_bindings_subset args hsub (by rwa [placeholders_eq, Names.mem_ofList])

-- ---------------------------------------------------------------------------
-- Two templates
-- ---------------------------------------------------------------------------

/-- The names that a run fails for. -/
def missingNames : Except FormatError String → List String
  | .error (.missingVariables missing _) => missing
  | _ => []

theorem missingNames_format (template : String) (args : Arguments) :
    missingNames (format template args) = missing template args := by
  rw [format_eq]
  split
  · rename_i hm
    rw [hm]
    cases hrun : formatPartial template args with
    | ok text => rfl
    | error e =>
      obtain ⟨brace, position, rfl, -⟩ := exists_unmatched hrun
      rfl
  · rfl

section
variable {s : String} (hs : ∀ brace position, .unmatched brace position ∉ tokenize s) (t : String)
include hs

theorem fault?_eq_none_of_matched : ∀ u ∈ cut 0 s.toList, u.fault? = none :=
  fun _ hu => fault?_eq_none_iff.mpr fun brace position he => hs brace position (he ▸ hu)

theorem mem_placeholders_append (name : String) :
    name ∈ placeholders (s ++ t) ↔ name ∈ placeholders s ∨ name ∈ placeholders t := by
  simp only [placeholders_eq, Names.mem_ofList, tokenize, String.toList_append]
  rw [fieldNames_cut_append 0 _ _ (fault?_eq_none_of_matched hs), Nat.zero_add,
    fieldNames_cut_moved (byteLength s.toList), List.mem_append]

theorem placeholders_subset_append :
    placeholders s ⊆ placeholders (s ++ t) ∧ placeholders t ⊆ placeholders (s ++ t) :=
  ⟨fun name h => (mem_placeholders_append hs t name).mpr (.inl h),
    fun name h => (mem_placeholders_append hs t name).mpr (.inr h)⟩

theorem formatPartial_append (args : Arguments) :
    formatPartial (s ++ t) args = (formatPartial s args).bind fun head =>
      ((formatPartial t args).mapError (·.moved s.utf8ByteSize)).map (head ++ ·) := by
  obtain ⟨hleft, hright⟩ := placeholders_subset_append hs t
  have hrun := substitute_cut_append (args.bindings (placeholders (s ++ t))) 0 s.toList t.toList
    (fault?_eq_none_of_matched hs)
  rw [Nat.zero_add, byteLength_toList, substitute_cut_moved _ s.utf8ByteSize, ← tokenize,
    ← tokenize, ← String.toList_append, ← tokenize, substitute_bindings_subset args hleft,
    substitute_bindings_subset args hright] at hrun
  rw [formatPartial_eq, formatPartial_eq, formatPartial_eq, hrun]
  cases substitute (args.bindings (placeholders s)) (tokenize s) with
  | error e => rfl
  | ok head =>
    cases substitute (args.bindings (placeholders t)) (tokenize t) with
    | error e => rfl
    | ok tail => simp [Except.bind, Except.map, Except.mapError, String.ofList_append]

theorem mem_missing_append (args : Arguments) (name : String) :
    name ∈ missing (s ++ t) args ↔ name ∈ missing s args ∨ name ∈ missing t args := by
  obtain ⟨hleft, hright⟩ := placeholders_subset_append hs t
  simp only [mem_missing]
  constructor
  · rintro ⟨hname, hbound⟩
    rcases (mem_placeholders_append hs t name).mp hname with hname | hname
    · exact .inl ⟨hname, mt (binds_subset hleft hname).mpr hbound⟩
    · exact .inr ⟨hname, mt (binds_subset hright hname).mpr hbound⟩
  · rintro (⟨hname, hbound⟩ | ⟨hname, hbound⟩)
    · exact ⟨hleft hname, mt (binds_subset hleft hname).mp hbound⟩
    · exact ⟨hright hname, mt (binds_subset hright hname).mp hbound⟩

theorem exists_formatPartial (args : Arguments) : ∃ text, formatPartial s args = .ok text := by
  cases hrun : formatPartial s args with
  | ok text => exact ⟨text, rfl⟩
  | error e =>
    obtain ⟨brace, position, -, hmem⟩ := exists_unmatched hrun
    exact absurd hmem (hs brace position)

theorem format_append_of_filled {args : Arguments} (h : missingNames (format s args) = [])
    (h' : missingNames (format t args) = []) :
    format (s ++ t) args = (format s args).bind fun head =>
      ((format t args).mapError (·.moved s.utf8ByteSize)).map (head ++ ·) := by
  rw [missingNames_format] at h h'
  have hboth : missing (s ++ t) args = [] := by
    refine List.eq_nil_iff_forall_not_mem.mpr fun name hname => ?_
    rcases (mem_missing_append hs t args name).mp hname with hname | hname
    · simp [h] at hname
    · simp [h'] at hname
  rw [format_of_fills (missing_eq_nil_iff.mp hboth), format_of_fills (missing_eq_nil_iff.mp h),
    format_of_fills (missing_eq_nil_iff.mp h'), formatPartial_append hs]

end

/-- A template without an unmatched brace, before any other template. Both have the placeholders
of the two, and a run over both is the two runs, one after the other: in the output, in the first
unmatched brace, which can only be one of the second template, and in the names that a validated
run misses. -/
theorem format_append (s t : String) (args : Arguments)
    (hs : ∀ brace position, .unmatched brace position ∉ tokenize s) :
    (∀ name, name ∈ placeholders (s ++ t) ↔ name ∈ placeholders s ∨ name ∈ placeholders t) ∧
    (∃ head, formatPartial s args = .ok head ∧
      (∀ tail, formatPartial t args = .ok tail →
        formatPartial (s ++ t) args = .ok (head ++ tail)) ∧
      ∀ e, formatPartial t args = .error e → ∃ brace position,
        e = .unmatchedBrace brace position ∧ formatPartial (s ++ t) args =
          .error (.unmatchedBrace brace (s.utf8ByteSize + position))) ∧
    (∀ name, name ∈ missingNames (format (s ++ t) args) ↔
      name ∈ missingNames (format s args) ∨ name ∈ missingNames (format t args)) ∧
    (∀ head tail, format s args = .ok head → format t args = .ok tail →
      format (s ++ t) args = .ok (head ++ tail)) ∧
    ∀ head brace position, format s args = .ok head →
      format t args = .error (.unmatchedBrace brace position) →
      format (s ++ t) args = .error (.unmatchedBrace brace (s.utf8ByteSize + position)) := by
  refine ⟨mem_placeholders_append hs t, ?_, fun name => ?_, fun head tail h h' => ?_,
    fun head brace position h h' => ?_⟩
  · obtain ⟨head, hhead⟩ := exists_formatPartial hs args
    refine ⟨head, hhead, fun tail htail => ?_, fun e he => ?_⟩
    · rw [formatPartial_append hs, hhead, htail]
      rfl
    · obtain ⟨brace, position, rfl, -⟩ := exists_unmatched he
      exact ⟨brace, position, rfl, by rw [formatPartial_append hs, hhead, he]; rfl⟩
  · simp only [missingNames_format, mem_missing_append hs]
  · rw [format_append_of_filled hs t (by rw [h]; rfl) (by rw [h']; rfl), h, h']
    rfl
  · rw [format_append_of_filled hs t (by rw [h]; rfl) (by rw [h']; rfl), h, h']
    rfl

theorem format_append_seam :
    let s := "é\x7ba\x7d\x7d\x7d"
    let args := Arguments.ofLists [.text "x"] [("a", .text "\x7b")]
    (∀ brace position, .unmatched brace position ∉ tokenize s) ∧
      format (s ++ "\x7b\x7d") args = .ok ("é\x7b\x7d" ++ "x") ∧
      formatPartial (s ++ "\x7d\x7bb\x7d") args = .error (.unmatchedBrace '}' 7) ∧
      "b" ∈ missingNames (format (s ++ "\x7d\x7bb\x7d") args) := by
  intro s args
  have hs : ∀ brace position, .unmatched brace position ∉ tokenize s := by
    have htokens : tokenize s = [.literal "é", .field "a" none, .escaped '}'] := by cbv
    simp [htokens]
  obtain ⟨-, -, -, hboth, -⟩ := format_append s "\x7b\x7d" args hs
  obtain ⟨-, ⟨head, -, -, hfails⟩, hmissing, -, -⟩ := format_append s "\x7d\x7bb\x7d" args hs
  have hstray : formatPartial "\x7d\x7bb\x7d" args = .error (.unmatchedBrace '}' 0) := by cbv
  obtain ⟨brace, position, he, hrun⟩ := hfails _ hstray
  cases he
  refine ⟨hs, hboth _ _ (by cbv) (by cbv), hrun, (hmissing "b").mpr (.inr ?_)⟩
  have hlacks : format "\x7d\x7bb\x7d" args = .error (.missingVariables ["b"] ["0", "a"]) := by
    cbv
  rw [hlacks]
  decide

end PromptFiles.Template
