import Mathlib
import PromptFiles.Proofs.Number.Reading
import PromptFiles.Proofs.Template.Escaped
import PromptFiles.Proofs.Template.Stray

/-!
# Values of fields

Arguments are put together by additions, one value at a time and in any order. `value?` reads the
value of a name off the additions, without a map: a name that is a position has the value at this
position, and otherwise, or if there are not so many, the value that was last given to the name.
These are the bindings of the placeholders (`find?_bindings_addAll`), and a run sees no more of
its arguments than them, so two sets of arguments that agree on the placeholders of a template
cannot be told apart by it: `bindings_law`.
-/

namespace PromptFiles.Template

open NameMap (find? contains)

inductive Addition where
  | positional (value : Value)
  | named (name : String) (value : Value)

namespace Addition

def apply (args : Arguments) : Addition → Arguments
  | positional value => args.push value
  | named name value => args.insert name value

def positional? : Addition → Option Value
  | positional value => some value
  | named _ _ => none

def named? (name : String) : Addition → Option Value
  | positional _ => none
  | named other value => if name = other then some value else none

end Addition

/-- The position that a name stands for. Without a name it is the first. -/
def position? (name : String) : Option Nat :=
  if name = "" then some 0 else Number.index? name.toList

def value? (additions : List Addition) (name : String) : Option Value :=
  ((position? name).bind ((additions.filterMap Addition.positional?)[·]?)).or
    (additions.filterMap (Addition.named? name)).getLast?

-- ---------------------------------------------------------------------------
-- Additions
-- ---------------------------------------------------------------------------

theorem Addition.positional_apply (a : Addition) (args : Arguments) :
    (a.apply args).positional = args.positional ++ a.positional?.toList := by
  cases a <;> simp [apply, positional?, Arguments.push, Arguments.insert]

theorem Addition.find?_apply (a : Addition) (args : Arguments) (name : String) :
    find? name (a.apply args).named = (a.named? name).or (find? name args.named) := by
  cases a with
  | positional value => simp [apply, named?, Arguments.push]
  | named other value =>
    simp only [apply, named?, Arguments.insert, NameMap.find?_insert]
    split <;> simp

namespace Arguments

def addAll (args : Arguments) (additions : List Addition) : Arguments :=
  additions.foldl Addition.apply args

theorem addAll_cons (args : Arguments) (a : Addition) (rest : List Addition) :
    args.addAll (a :: rest) = (a.apply args).addAll rest := rfl

theorem positional_addAll (args : Arguments) (additions : List Addition) :
    (args.addAll additions).positional =
      args.positional ++ additions.filterMap Addition.positional? := by
  induction additions generalizing args with
  | nil => simp [addAll]
  | cons a rest ih =>
    rw [addAll_cons, ih, a.positional_apply, List.filterMap_cons, List.append_assoc]
    cases a.positional? <;> rfl

/-- The last value of a name counts, and before any is given the one that was there. -/
theorem find?_addAll (args : Arguments) (additions : List Addition) (name : String) :
    find? name (args.addAll additions).named =
      (additions.filterMap (Addition.named? name)).getLast?.or (find? name args.named) := by
  induction additions generalizing args with
  | nil => rfl
  | cons a rest ih =>
    rw [addAll_cons, ih, a.find?_apply, List.filterMap_cons]
    cases a.named? name with
    | none => rfl
    | some value =>
      rw [List.getLast?_cons]
      cases (rest.filterMap (Addition.named? name)).getLast? <;> rfl

-- ---------------------------------------------------------------------------
-- Bindings
-- ---------------------------------------------------------------------------

theorem eq_numeral_iff {n : Nat} :
    name = Number.numeral n ↔ Number.index? name.toList = some n := by
  rw [Number.index?_eq_some_iff]
  show name = String.ofList (Number.digits n) ↔ _
  constructor
  · rintro rfl
    simp
  · intro h
    rw [h, String.ofList_toList]

theorem find?_bindFrom (name : String) (start : Nat) (values : List Value)
    (map : List (String × Value)) :
    find? name (bindFrom start values map) =
      ((Number.index? name.toList).bind fun i =>
        if start ≤ i then values[i - start]? else none).or (find? name map) := by
  induction values generalizing start map with
  | nil => cases Number.index? name.toList <;> simp [bindFrom]
  | cons value rest ih =>
    rw [bindFrom, ih, NameMap.find?_insert]
    simp only [eq_numeral_iff]
    cases hindex : Number.index? name.toList with
    | none => simp
    | some i =>
      simp only [Option.bind_some, Option.some.injEq]
      rcases Nat.lt_trichotomy i start with hlt | rfl | hgt
      · simp [show ¬start + 1 ≤ i by omega, show ¬i = start by omega, show ¬start ≤ i by omega]
      · simp
      · obtain ⟨k, rfl⟩ : ∃ k, i = start + 1 + k := ⟨i - (start + 1), by omega⟩
        simp [show start + 1 + k - start = k + 1 by omega, show ¬start + 1 + k = start by omega,
          show start ≤ start + 1 + k by omega]

theorem find?_bindings_eq (args : Arguments) {names : List String} (h : name ∈ names) :
    find? name (args.bindings names) =
      ((position? name).bind (args.positional[·]?)).or (find? name args.named) := by
  unfold bindings position?
  cases hargs : args.positional with
  | nil => cases (if name = "" then some 0 else Number.index? name.toList) <;> simp [bindFrom]
  | cons first rest =>
    by_cases hname : name = ""
    · simp [hname ▸ h, hname]
    · have hfrom := find?_bindFrom name 0 (first :: rest) args.named
      simp only [Nat.zero_le, if_true, Nat.sub_zero] at hfrom
      simp only [hname, if_false]
      split
      · rw [NameMap.find?_insert, if_neg hname, hfrom]
      · exact hfrom

theorem find?_bindings_addAll (additions : List Addition) {names : List String}
    (h : name ∈ names) :
    find? name ((addAll {} additions).bindings names) = value? additions name := by
  rw [find?_bindings_eq _ h, positional_addAll, find?_addAll]
  simp [value?, find?]

end Arguments

-- ---------------------------------------------------------------------------
-- Runs
-- ---------------------------------------------------------------------------

def Token.filled (values : String → Option Value) : Token → List Char
  | field name format =>
    match values name with
    | some value => (value.renderAs format).toList
    | none => (field name format).source
  | t => t.halved

theorem expand_filled {values : String → Option Value} {bound : List (String × Value)} {t : Token}
    (hfault : t.fault? = none) (h : ∀ name ∈ t.name?, find? name bound = values name) :
    t.expand bound = .ok (t.filled values) := by
  cases t with
  | field name format =>
    rw [Token.expand, Token.filled, h name rfl]
    cases values name <;> rfl
  | unmatched brace position => cases hfault
  | _ => rfl

theorem substitute_filled {values : String → Option Value} {bound : List (String × Value)}
    {ts : List Token} (hfault : ∀ t ∈ ts, t.fault? = none)
    (h : ∀ t ∈ ts, ∀ name ∈ t.name?, find? name bound = values name) :
    substitute bound ts = .ok (ts.flatMap (Token.filled values)) := by
  induction ts with
  | nil => rfl
  | cons t ts ih =>
    have ht := expand_filled (hfault t (by simp)) (h t (by simp))
    have hts := ih (fun u hu => hfault u (by simp [hu])) (fun u hu => h u (by simp [hu]))
    rw [substitute_cons, ht, hts]
    rfl

theorem mem_placeholders_of_name? {t : Token} (ht : t ∈ tokenize template) (hname : name ∈ t.name?) :
    name ∈ placeholders template := by
  rw [placeholders, Names.mem_ofList, List.mem_filterMap]
  exact ⟨t, ht, hname⟩

section
variable {template : String} {additions : List Addition}

theorem formatPartial_addAll (h : IsMatched template) :
    formatPartial template (.addAll {} additions) =
      .ok (String.ofList ((tokenize template).flatMap (Token.filled (value? additions)))) := by
  rw [formatPartial_eq, substitute_filled (isMatched_iff_fault?.mp h) fun t ht name hname =>
    Arguments.find?_bindings_addAll additions (mem_placeholders_of_name? ht hname)]
  rfl

theorem formatPartial_addAll_iff : formatPartial template (.addAll {} additions) = .ok text ↔
    IsMatched template ∧
      text = String.ofList ((tokenize template).flatMap (Token.filled (value? additions))) := by
  constructor
  · intro h
    have hmatched := (isMatched_iff_formats _).mpr ⟨text, h⟩
    rw [formatPartial_addAll hmatched] at h
    exact ⟨hmatched, (Except.ok.inj h).symm⟩
  · rintro ⟨hmatched, rfl⟩
    exact formatPartial_addAll hmatched

theorem missing_addAll : missing template (.addAll {} additions) =
    (placeholders template).filter (value? additions · = none) := by
  refine List.filter_congr fun name hname => ?_
  rw [contains, Arguments.find?_bindings_addAll additions hname]
  cases value? additions name <;> simp

end

def SameBindings (template : String) (first second : Arguments) : Prop :=
  ∀ name ∈ placeholders template, find? name (first.bindings (placeholders template)) =
    find? name (second.bindings (placeholders template))

namespace SameBindings

variable {template : String} {first second : Arguments} (h : SameBindings template first second)
include h

theorem formatPartial_eq : formatPartial template first = formatPartial template second := by
  rw [Template.formatPartial_eq, Template.formatPartial_eq, substitute_congr_names]
  intro name hname
  exact h name (by rwa [placeholders_eq, Names.mem_ofList])

theorem missing_eq : missing template first = missing template second := by
  refine List.filter_congr fun name hname => ?_
  rw [contains, contains, h name hname]

theorem format_cases : format template first = format template second ∨
    ∃ names bound others, format template first = .error (.missingVariables names bound) ∧
      format template second = .error (.missingVariables names others) := by
  rw [format_eq, format_eq, h.missing_eq, h.formatPartial_eq]
  split
  · exact .inl rfl
  · exact .inr ⟨_, _, _, rfl, rfl⟩

end SameBindings

/-- Arguments put together by any additions give the placeholders of a template the values that
`value?` reads off the additions. These are what a run writes for the fields, copying the fields of
the other names, and the names without one are those that a validated run misses. Any two sets of
arguments that give the placeholders the same values give the same text, the same missing names
and the same unmatched brace, whatever else they hold. -/
theorem bindings_law (template : String) :
    (∀ additions, let args := Arguments.addAll {} additions
      (∀ name ∈ placeholders template,
        find? name (args.bindings (placeholders template)) = value? additions name) ∧
      (∀ text, formatPartial template args = .ok text ↔ IsMatched template ∧
        text = String.ofList ((tokenize template).flatMap (Token.filled (value? additions)))) ∧
      (∀ text, format template args = .ok text ↔
        (∀ name ∈ placeholders template, value? additions name ≠ none) ∧
          formatPartial template args = .ok text) ∧
      missingNames (format template args) =
        (placeholders template).filter (value? additions · = none)) ∧
    ∀ first second, SameBindings template first second →
      formatPartial template first = formatPartial template second ∧
      missingNames (format template first) = missingNames (format template second) ∧
      (∀ text, format template first = .ok text ↔ format template second = .ok text) ∧
      ∀ brace position, format template first = .error (.unmatchedBrace brace position) ↔
        format template second = .error (.unmatchedBrace brace position) := by
  refine ⟨fun additions => ⟨fun name => Arguments.find?_bindings_addAll additions,
    fun text => formatPartial_addAll_iff, fun text => ?_, ?_⟩, fun first second h =>
    ⟨h.formatPartial_eq, ?_, fun text => ?_, fun brace position => ?_⟩⟩
  · have hnone : missing template (.addAll {} additions) = [] ↔
        ∀ name ∈ placeholders template, value? additions name ≠ none := by
      simp [missing_addAll, List.filter_eq_nil_iff]
    rw [format_eq, ← hnone]
    split
    · rename_i hfilled
      simp [hfilled]
    · rename_i hmissing
      simp [hmissing]
  · rw [missingNames_format, missing_addAll]
  · rw [missingNames_format, missingNames_format, h.missing_eq]
  · rcases h.format_cases with hsame | ⟨_, _, _, hfirst, hsecond⟩
    · rw [hsame]
    · simp [hfirst, hsecond]
  · rcases h.format_cases with hsame | ⟨_, _, _, hfirst, hsecond⟩
    · rw [hsame]
    · simp [hfirst, hsecond]

theorem bindings_law_positions :
    let template := "\x7b0\x7d\x7b\x7d\x7b00\x7d"
    let args := Arguments.addAll {} [.named "0" (.text "a"), .positional (.text "b"),
      .named "" (.text "c"), .named "00" (.text "d"), .named "00" (.text "e")]
    SameBindings template args (args.insert "x" (.text "f")) ∧
      formatPartial template (args.insert "x" (.text "f")) = .ok "bbe" := by
  intro template args
  have htokens : tokenize template = [.field "0" none, .field "" none, .field "00" none] := by cbv
  have hlist : placeholders template = ["", "0", "00"] := by
    rw [placeholders, htokens]
    decide
  have hsame : SameBindings template args (args.insert "x" (.text "f")) := by
    rw [SameBindings, hlist]
    decide
  obtain ⟨hadded, hagree⟩ := bindings_law template
  obtain ⟨-, hpartial, -, -⟩ := hadded [.named "0" (.text "a"), .positional (.text "b"),
    .named "" (.text "c"), .named "00" (.text "d"), .named "00" (.text "e")]
  refine ⟨hsame, (hagree _ _ hsame).1 ▸ (hpartial _).mpr ⟨?_, ?_⟩⟩
  · simp [IsMatched, htokens]
  · rw [htokens]
    decide

end PromptFiles.Template
