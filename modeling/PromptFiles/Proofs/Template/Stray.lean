import Mathlib
import PromptFiles.Proofs.Template.Joined

/-!
# Stray braces

A run stops at the first brace that neither escapes nor delimits anything, and reports it with the
number of bytes before it. `IsStray` says which brace that is, by the text on both sides of it and
without scanning: the text before it has no unmatched brace, and what follows neither doubles nor
closes it. What is reported is exactly the stray brace of the template (`substitute_error_iff`), of
which there is at most one, so a report does not depend on the arguments (`unmatchedBrace_iff`).
-/

namespace PromptFiles.Template

open NameMap (contains)

/-- Every brace escapes or delimits something. -/
def IsMatched (template : String) : Prop :=
  ∀ brace position, .unmatched brace position ∉ tokenize template

/-- A brace after `position` bytes is the first that is unmatched. -/
def IsStray (template : String) (brace : Char) (position : Nat) : Prop :=
  ∃ before after : String, template = before ++ brace.toString ++ after ∧
    before.utf8ByteSize = position ∧ IsMatched before ∧ IsUnmatched brace after.toList

theorem isMatched_iff_fault? {template : String} :
    IsMatched template ↔ ∀ t ∈ tokenize template, t.fault? = none := by
  constructor
  · intro h
    exact fault?_eq_none_of_matched h
  · intro h brace position hmem
    have hfault := h _ hmem
    simp [Token.fault?] at hfault

theorem isMatched_iff_formats {template : String} (args : Arguments) :
    IsMatched template ↔ ∃ text, formatPartial template args = .ok text := by
  constructor
  · intro h
    exact exists_formatPartial h args
  · rintro ⟨text, htext⟩ brace position hmem
    obtain ⟨e, he⟩ := exists_error args hmem
    rw [htext] at he
    cases he

/-- The first tokens of a reading are a reading of their own text, as long as none of them is
unmatched: an unmatched brace may be one only because of what follows. -/
theorem IsReading.init (h : IsReading start cs (ts ++ us)) (hf : ∀ t ∈ ts, t.fault? = none) :
    IsReading start (Token.sources ts) ts where
  sources := rfl
  literals text hm := h.literals text (List.mem_append_left _ hm)
  notAdjacent := h.notAdjacent.left_of_append
  escapes brace hm := h.escapes brace (List.mem_append_left _ hm)
  fields name format hm := h.fields name format (List.mem_append_left _ hm)
  unmatched before brace position after heq := by
    have hfault := hf (.unmatched brace position) (by simp [heq])
    simp [Token.fault?] at hfault

theorem isStray_of_first (h : (tokenize template).findSome? Token.fault? = some e) :
    ∃ brace position, e = .unmatchedBrace brace position ∧ IsStray template brace position := by
  obtain ⟨ts, t, us, htokens, hfault, hfirst⟩ := List.findSome?_eq_some_iff.mp h
  obtain ⟨brace, position, rfl, rfl⟩ := fault?_eq_some_iff.mp hfault
  have hreading := isReading_cut 0 template.toList
  rw [← tokenize, htokens] at hreading
  obtain ⟨hposition, hunmatched⟩ := hreading.unmatched ts brace position us rfl
  have hinit := (hreading.init hfirst).eq_cut
  refine ⟨brace, position, rfl, String.ofList (Token.sources ts), String.ofList (Token.sources us),
    ?_, ?_, ?_, by simpa using hunmatched⟩
  · refine String.toList_inj.mp ?_
    rw [← hreading.sources]
    simp [Token.source]
  · rw [← byteLength_toList, String.toList_ofList, hposition, Nat.zero_add]
  · rw [isMatched_iff_fault?, tokenize, String.toList_ofList, ← hinit]
    exact hfirst

theorem substitute_of_stray (bound : List (String × Value)) (h : IsStray template brace position) :
    substitute bound (tokenize template) = .error (.unmatchedBrace brace position) := by
  obtain ⟨before, after, rfl, rfl, hmatched, hunmatched⟩ := h
  have hfault := isMatched_iff_fault?.mp hmatched
  have hrun := substitute_cut_append bound 0 before.toList (brace :: after.toList) hfault
  rw [Nat.zero_add, byteLength_toList, cut_unmatched hunmatched] at hrun
  have htext : (before ++ brace.toString ++ after).toList =
      before.toList ++ brace :: after.toList := by simp
  rw [tokenize, htext, hrun]
  cases hbefore : substitute bound (cut 0 before.toList) with
  | ok text => rfl
  | error e =>
    obtain ⟨t, ht, hsome⟩ := List.exists_of_findSome?_eq_some (substitute_eq_error_iff.mp hbefore)
    rw [hfault t ht] at hsome
    cases hsome

theorem substitute_error_iff {bound : List (String × Value)} :
    substitute bound (tokenize template) = .error (.unmatchedBrace brace position) ↔
      IsStray template brace position := by
  constructor
  · intro h
    obtain ⟨_, _, he, hstray⟩ := isStray_of_first (substitute_eq_error_iff.mp h)
    cases he
    exact hstray
  · exact substitute_of_stray bound

theorem IsStray.unique (h : IsStray template brace position) (h' : IsStray template other place) :
    other = brace ∧ place = position := by
  have hrun := substitute_of_stray [] h
  rw [substitute_of_stray [] h'] at hrun
  cases hrun
  exact ⟨rfl, rfl⟩

theorem formatWith_unmatched_iff {names : List String} :
    formatWith template names args isPartial = .error (.unmatchedBrace brace position) ↔
      IsStray template brace position ∧
        (isPartial = false → ∀ name ∈ names, contains name (args.bindings names) = true) := by
  have hmap (run : Except FormatError (List Char)) :
      run.map String.ofList = .error (.unmatchedBrace brace position) ↔
        run = .error (.unmatchedBrace brace position) := by
    cases run <;> simp [Except.map]
  simp only [formatWith]
  split
  · rename_i hmissing
    obtain ⟨hvalidated, name, hname, hunbound⟩ : isPartial = false ∧
        ∃ name ∈ names, contains name (args.bindings names) = false := by
      simpa using hmissing
    simp only [Except.error.injEq, reduceCtorEq, false_iff]
    rintro ⟨-, hbound⟩
    have htrue := hbound hvalidated name hname
    rw [hunbound] at htrue
    cases htrue
  · rename_i hbound
    rw [hmap, substitute_error_iff]
    refine ⟨fun hstray => ⟨hstray, ?_⟩, And.left⟩
    simpa using hbound

/-- A run over a template, with any arguments and any set of names to look for, reports an unmatched
brace exactly if this brace is stray in the template; a validated run looks for missing names before
that. A template has at most one stray brace. The text before it is one that partial runs format. -/
theorem unmatchedBrace_iff (template : String) :
    (∀ names args isPartial brace position,
      formatWith template names args isPartial = .error (.unmatchedBrace brace position) ↔
        IsStray template brace position ∧
          (isPartial = false → ∀ name ∈ names, contains name (args.bindings names) = true)) ∧
    (∀ brace position other place, IsStray template brace position →
      IsStray template other place → other = brace ∧ place = position) ∧
    ∀ (before : String) (args : Arguments),
      IsMatched before ↔ ∃ text, formatPartial before args = .ok text :=
  ⟨fun _ _ _ _ _ => formatWith_unmatched_iff, fun _ _ _ _ => IsStray.unique,
    fun _ => isMatched_iff_formats⟩

theorem unmatchedBrace_iff_open :
    let template := "é\x7ba\x7d\x7b \x7b"
    IsStray template '{' 5 ∧ ¬IsStray template '{' 7 ∧
      formatPartial template {} = .error (.unmatchedBrace '{' 5) ∧
      formatPartial "é\x7ba\x7d" {} = .ok "é\x7ba\x7d" := by
  intro template
  obtain ⟨hreport, hunique, hformats⟩ := unmatchedBrace_iff template
  have htext : formatPartial "é\x7ba\x7d" {} = .ok "é\x7ba\x7d" := by cbv
  have hstray : IsStray template '{' 5 :=
    ⟨"é\x7ba\x7d", " \x7b", rfl, rfl, (hformats _ {}).mpr ⟨_, htext⟩, rfl, by simp, by simp⟩
  refine ⟨hstray, fun hother => ?_, (hreport _ {} true '{' 5).mpr ⟨hstray, by simp⟩, htext⟩
  have hsame := (hunique _ _ _ _ hstray hother).2
  contradiction

end PromptFiles.Template
