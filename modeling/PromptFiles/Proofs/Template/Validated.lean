import PromptFiles.Proofs.Template.Binding
import PromptFiles.Proofs.Template.Staged

/-!
# Validated and partial runs

Both kinds of runs substitute in the same way and stop at the same brace, whatever is bound
(`substitute_eq_error_iff`). A validated run only looks first whether every placeholder is
bound, and says which are not: `format_eq`. `format_agrees` puts the two together.
-/

namespace PromptFiles.Template

open NameMap (contains keys)

-- ---------------------------------------------------------------------------
-- Braces that stop a run
-- ---------------------------------------------------------------------------

def Token.fault? : Token → Option FormatError
  | unmatched brace position => some (.unmatchedBrace brace position)
  | _ => none

theorem expand_eq_error_iff {bound : List (String × Value)} {t : Token} :
    t.expand bound = .error e ↔ t.fault? = some e := by
  cases t with
  | field name format =>
    rw [Token.expand]
    split <;> simp [Token.fault?]
  | unmatched brace position => simp [Token.expand, Token.fault?]
  | _ => simp [Token.expand, Token.fault?]

theorem substitute_eq_error_iff {bound : List (String × Value)} {ts : List Token} :
    substitute bound ts = .error e ↔ ts.findSome? Token.fault? = some e := by
  induction ts with
  | nil => simp [substitute]
  | cons t ts ih =>
    rw [substitute_cons, List.findSome?_cons]
    cases ht : t.expand bound with
    | error other => simp [expand_eq_error_iff.mp ht, Except.bind]
    | ok text =>
      have hnone : t.fault? = none := by
        rw [Option.eq_none_iff_forall_ne_some]
        intro other hother
        rw [expand_eq_error_iff.mpr hother] at ht
        cases ht
      rw [hnone, ← ih]
      cases substitute bound ts <;> simp [Except.bind, Except.map]

theorem formatPartial_eq_error_iff :
    formatPartial template args = .error e ↔
      (tokenize template).findSome? Token.fault? = some e := by
  rw [formatPartial_eq, ← substitute_eq_error_iff]
  cases substitute (args.bindings (placeholders template)) (tokenize template) <;>
    simp [Except.map]

theorem fault?_eq_some_iff {t : Token} :
    t.fault? = some e ↔
      ∃ brace position, t = .unmatched brace position ∧ e = .unmatchedBrace brace position := by
  cases t <;> simp [Token.fault?, eq_comm]

theorem exists_unmatched (h : formatPartial template args = .error e) :
    ∃ brace position, e = .unmatchedBrace brace position ∧
      .unmatched brace position ∈ tokenize template := by
  obtain ⟨t, ht, hfault⟩ := List.exists_of_findSome?_eq_some (formatPartial_eq_error_iff.mp h)
  obtain ⟨brace, position, rfl, he⟩ := fault?_eq_some_iff.mp hfault
  exact ⟨brace, position, he, ht⟩

theorem exists_error (args : Arguments) (h : .unmatched brace position ∈ tokenize template) :
    ∃ e, formatPartial template args = .error e := by
  have hsome : ((tokenize template).findSome? Token.fault?).isSome = true :=
    List.findSome?_isSome_iff.mpr ⟨_, h, rfl⟩
  obtain ⟨e, he⟩ := Option.isSome_iff_exists.mp hsome
  exact ⟨e, formatPartial_eq_error_iff.mpr he⟩

-- ---------------------------------------------------------------------------
-- The two kinds of runs
-- ---------------------------------------------------------------------------

theorem format_of_fills (h : args.Fills template) :
    format template args = formatPartial template args := by
  rw [format_eq, if_pos (missing_eq_nil_iff.mpr h)]

theorem format_of_not_fills (h : ¬args.Fills template) :
    format template args = .error (.missingVariables (missing template args)
      (keys (args.bindings (placeholders template)))) := by
  rw [format_eq, if_neg (mt missing_eq_nil_iff.mp h)]

/-- A value for each missing name, and none is missing. -/
theorem fills_insertAll {args : Arguments} {named : List (String × Value)}
    (h : ∀ name ∈ missing template args, name ∈ keys named) :
    (args.insertAll named).Fills template := by
  intro name hname
  by_cases hbound : args.Binds (placeholders template) name
  · exact hbound.insertAll named
  · have hnamed : name ∈ keys named := h name (mem_missing.mpr ⟨hname, hbound⟩)
    exact .named (Arguments.mem_keys_insertAll.mpr (.inl hnamed))

/-- A validated run gives what a partial run gives if every placeholder has a value. Otherwise it
fails, whatever else is wrong with the template, and tells the names without a value from the
bound ones; with a value for each of them none is missing. A partial run misses no name and
fails exactly at an unmatched brace, at which every run fails that has all the names. -/
theorem format_agrees (template : String) (args : Arguments) (hargs : args.Ordered) :
    (∀ text, format template args = .ok text ↔
      args.Fills template ∧ formatPartial template args = .ok text) ∧
    (¬args.Fills template → ∃ missing provided,
      format template args = .error (.missingVariables missing provided) ∧
      missing.Pairwise (· < ·) ∧
      (∀ name, name ∈ missing ↔
        name ∈ placeholders template ∧ ¬args.Binds (placeholders template) name) ∧
      provided.Pairwise (· < ·) ∧
      (∀ name, name ∈ provided ↔ args.Binds (placeholders template) name) ∧
      missing.Disjoint provided ∧
      ∀ named, (∀ name ∈ missing, name ∈ keys named) → ∀ others bound,
        format template (args.insertAll named) ≠ .error (.missingVariables others bound)) ∧
    (∀ others bound, formatPartial template args ≠ .error (.missingVariables others bound)) ∧
    ((∃ e, formatPartial template args = .error e) ↔
      ∃ brace position, .unmatched brace position ∈ tokenize template) ∧
    (∀ e, formatPartial template args = .error e →
      (∃ brace position, e = .unmatchedBrace brace position) ∧
      ∀ full : Arguments, full.Fills template → format template full = .error e) := by
  have partial_ne (args : Arguments) (others bound : List String) :
      formatPartial template args ≠ .error (.missingVariables others bound) := by
    intro h
    obtain ⟨_, _, he, -⟩ := exists_unmatched h
    cases he
  refine ⟨fun text => ⟨fun h => ?_, ?_⟩, fun hfills => ?_, partial_ne args, ⟨?_, ?_⟩,
    fun e he => ⟨?_, fun full hfull => ?_⟩⟩
  · by_cases hfills : args.Fills template
    · exact ⟨hfills, format_of_fills hfills ▸ h⟩
    · rw [format_of_not_fills hfills] at h
      cases h
  · rintro ⟨hfills, h⟩
    rw [format_of_fills hfills, h]
  · refine ⟨_, _, format_of_not_fills hfills, sorted_missing template args, fun name => mem_missing,
      Arguments.sorted_bindings hargs _, fun name => Arguments.mem_keys_bindings,
      fun name hm hp => (mem_missing.mp hm).2 (Arguments.mem_keys_bindings.mp hp),
      fun named hnamed others bound => ?_⟩
    rw [format_of_fills (fills_insertAll hnamed)]
    exact partial_ne _ others bound
  · rintro ⟨e, he⟩
    obtain ⟨brace, position, -, hmem⟩ := exists_unmatched he
    exact ⟨brace, position, hmem⟩
  · rintro ⟨brace, position, hmem⟩
    exact exists_error args hmem
  · obtain ⟨brace, position, he, -⟩ := exists_unmatched he
    exact ⟨brace, position, he⟩
  · rw [format_of_fills hfull, formatPartial_eq_error_iff]
    exact formatPartial_eq_error_iff.mp he

theorem format_agrees_stray :
    let template := "\x7ba\x7d\x7b\x7d\x7b1\x7d \x7d"
    let args := Arguments.ofLists [.text "x"] [("b", .boolean true)]
    args.Ordered ∧ ∃ missing provided,
      format template args = .error (.missingVariables missing provided) ∧
      "1" ∈ missing ∧ "a" ∈ missing ∧ "" ∈ provided ∧ "0" ∈ provided ∧
      ∃ e, formatPartial template args = .error e := by
  intro template args
  have htokens : tokenize template = [.field "a" none, .field "" none, .field "1" none,
      .literal " ", .unmatched '}' 9] := by
    cbv
  have hlist : placeholders template = ["", "1", "a"] := by
    rw [placeholders, htokens]
    decide
  have unbound (name : String) (h : contains name (args.bindings ["", "1", "a"]) = false) :
      ¬args.Binds (placeholders template) name := by
    rw [hlist, ← Arguments.contains_bindings, h]
    decide
  have hone := unbound "1" (by decide)
  have ha := unbound "a" (by decide)
  have hargs : args.Ordered := Arguments.ordered_ofLists _ _
  obtain ⟨-, hmissing, -, hfails, -⟩ := format_agrees template args hargs
  obtain ⟨missing, provided, herror, -, hmem, -, hprovided, -, -⟩ :=
    hmissing fun hfills => ha (hfills "a" (by rw [hlist]; decide))
  refine ⟨hargs, missing, provided, herror, (hmem "1").mpr ⟨by rw [hlist]; decide, hone⟩,
    (hmem "a").mpr ⟨by rw [hlist]; decide, ha⟩,
    (hprovided "").mpr (.first (by decide) (by rw [hlist]; decide)),
    (hprovided "0").mpr (.positional (i := 0) (by decide)),
    hfails.mpr ⟨'}', 9, by rw [htokens]; decide⟩⟩

end PromptFiles.Template
