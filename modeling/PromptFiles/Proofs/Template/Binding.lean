import PromptFiles.Proofs.Names
import PromptFiles.Template.Format

/-!
# Bound names

`Binds` says which names arguments give a value to, without building a map: the names of
named values, the numerals of positions, and the empty name if a template has a field
without one. `mem_keys_bindings`: these are the keys of the bindings that are built. A
validated run is a partial run unless a placeholder is without a value (`format_eq`).
-/

namespace PromptFiles.Template

open NameMap (contains keys)

namespace Arguments

variable {args : Arguments} {names : List String}

/-- The named values are a map: their names are in order, each once. -/
def Ordered (args : Arguments) : Prop :=
  (keys args.named).Pairwise (· < ·)

theorem Ordered.push (h : args.Ordered) (value : Value) : (args.push value).Ordered := h

theorem Ordered.insert (h : args.Ordered) (name : String) (value : Value) :
    (args.insert name value).Ordered := by
  rw [Ordered, Arguments.insert, NameMap.keys_insert]
  exact Names.sorted_insert h

def insertAll (args : Arguments) (named : List (String × Value)) : Arguments :=
  named.foldl (fun args (name, value) => args.insert name value) args

theorem Ordered.insertAll (h : args.Ordered) (named : List (String × Value)) :
    (args.insertAll named).Ordered := by
  induction named generalizing args with
  | nil => exact h
  | cons p rest ih => exact ih (h.insert p.1 p.2)

theorem ordered_ofLists (positional : List Value) (named : List (String × Value)) :
    (ofLists positional named).Ordered := by
  have hnone : Ordered { positional } := .nil
  exact hnone.insertAll named

theorem mem_keys_insertAll {named : List (String × Value)} :
    name ∈ keys (args.insertAll named).named ↔ name ∈ keys named ∨ name ∈ keys args.named := by
  induction named generalizing args with
  | nil => simp [insertAll, keys]
  | cons p rest ih =>
    obtain ⟨n, v⟩ := p
    show name ∈ keys ((args.insert n v).insertAll rest).named ↔ _
    rw [ih, Arguments.insert, NameMap.keys_insert, Names.mem_insert]
    simp only [keys, List.map_cons, List.mem_cons, or_assoc, or_left_comm]

theorem positional_insertAll (args : Arguments) (named : List (String × Value)) :
    (args.insertAll named).positional = args.positional := by
  induction named generalizing args with
  | nil => rfl
  | cons p rest ih => exact ih (args.insert p.1 p.2)

inductive Binds (args : Arguments) (names : List String) : String → Prop
  | named : name ∈ keys args.named → Binds args names name
  | positional : i < args.positional.length → Binds args names (Number.numeral i)
  | first : args.positional ≠ [] → "" ∈ names → Binds args names ""

theorem mem_keys_bindFrom {start : Nat} {values : List Value} {map : List (String × Value)} :
    name ∈ keys (bindFrom start values map) ↔
      (∃ i < values.length, name = Number.numeral (start + i : Nat)) ∨ name ∈ keys map := by
  induction values generalizing start map with
  | nil => simp [bindFrom]
  | cons value rest ih =>
    rw [bindFrom, ih, NameMap.keys_insert, Names.mem_insert]
    constructor
    · rintro (⟨i, hi, rfl⟩ | rfl | h)
      · exact .inl ⟨i + 1, by simpa using hi, by rw [Nat.add_assoc, Nat.add_comm 1 i]⟩
      · exact .inl ⟨0, by simp, by rw [Nat.add_zero]⟩
      · exact .inr h
    · rintro (⟨i, hi, rfl⟩ | h)
      · cases i with
        | zero => exact .inr (.inl (by rw [Nat.add_zero]))
        | succ i =>
          exact .inl ⟨i, by simpa using hi, by rw [Nat.add_assoc, Nat.add_comm 1 i]⟩
      · exact .inr (.inr h)

theorem sorted_bindFrom {map : List (String × Value)} (h : (keys map).Pairwise (· < ·))
    (start : Nat) (values : List Value) :
    (keys (bindFrom start values map)).Pairwise (· < ·) := by
  induction values generalizing start map with
  | nil => exact h
  | cons value rest ih =>
    exact ih (by rw [NameMap.keys_insert]; exact Names.sorted_insert h) (start + 1)

/-- The empty name is bound apart from the others. -/
theorem keys_bindings (args : Arguments) (names : List String) :
    keys (args.bindings names) =
      if args.positional ≠ [] ∧ "" ∈ names then
        Names.insert "" (keys (bindFrom 0 args.positional args.named))
      else keys (bindFrom 0 args.positional args.named) := by
  unfold bindings
  cases args.positional with
  | nil => simp
  | cons first rest =>
    by_cases hn : "" ∈ names
    · simp [hn, NameMap.keys_insert]
    · simp [hn]

theorem mem_keys_bindings : name ∈ keys (args.bindings names) ↔ args.Binds names name := by
  have hmem : name ∈ keys (args.bindings names) ↔ (args.positional ≠ [] ∧ "" ∈ names ∧ name = "") ∨
      (∃ i < args.positional.length, name = Number.numeral (0 + i : Nat)) ∨
      name ∈ keys args.named := by
    rw [keys_bindings, ← mem_keys_bindFrom]
    split
    · rename_i hempty
      rw [Names.mem_insert]
      simp [hempty]
    · rename_i hempty
      rw [← and_assoc, iff_or_self]
      exact fun h => absurd h.1 hempty
  rw [hmem]
  constructor
  · rintro (⟨hp, hn, rfl⟩ | ⟨i, hi, rfl⟩ | hn)
    · exact .first hp hn
    · rw [Nat.zero_add]
      exact .positional hi
    · exact .named hn
  · rintro (hn | @⟨i, hi⟩ | ⟨hp, hn⟩)
    · exact .inr (.inr hn)
    · exact .inr (.inl ⟨i, hi, by rw [Nat.zero_add]⟩)
    · exact .inl ⟨hp, hn, rfl⟩

theorem contains_bindings :
    contains name (args.bindings names) = true ↔ args.Binds names name :=
  NameMap.contains_iff.trans mem_keys_bindings

theorem sorted_bindings (h : args.Ordered) (names : List String) :
    (keys (args.bindings names)).Pairwise (· < ·) := by
  have hfrom := sorted_bindFrom h 0 args.positional
  rw [keys_bindings]
  split
  · exact Names.sorted_insert hfrom
  · exact hfrom

theorem Binds.insertAll (h : Binds args names name) (named : List (String × Value)) :
    (args.insertAll named).Binds names name := by
  cases h with
  | named hn => exact .named (mem_keys_insertAll.mpr (.inr hn))
  | positional hi => exact .positional (by rwa [positional_insertAll])
  | first hp hn => exact .first (by rwa [positional_insertAll]) hn

/-- Every placeholder of the template has a value. -/
def Fills (args : Arguments) (template : String) : Prop :=
  ∀ name ∈ placeholders template, args.Binds (placeholders template) name

end Arguments

-- ---------------------------------------------------------------------------
-- Runs
-- ---------------------------------------------------------------------------

theorem mem_placeholders {template : String} : name ∈ placeholders template ↔
    ∃ format, .field name format ∈ tokenize template := by
  rw [placeholders, Names.mem_ofList, List.mem_filterMap]
  constructor
  · rintro ⟨t, ht, hname⟩
    cases t with
    | field n format =>
      cases hname
      exact ⟨format, ht⟩
    | _ => cases hname
  · rintro ⟨format, ht⟩
    exact ⟨_, ht, rfl⟩

/-- The placeholders without a value. -/
def missing (template : String) (args : Arguments) : List String :=
  (placeholders template).filter (!contains · (args.bindings (placeholders template)))

theorem mem_missing : name ∈ missing template args ↔
    name ∈ placeholders template ∧ ¬args.Binds (placeholders template) name := by
  rw [missing, List.mem_filter, ← Arguments.contains_bindings, Bool.not_eq_true',
    Bool.not_eq_true]

theorem sorted_missing (template : String) (args : Arguments) :
    (missing template args).Pairwise (· < ·) :=
  (Names.sorted_ofList _).filter _

theorem missing_eq_nil_iff : missing template args = [] ↔ args.Fills template := by
  rw [List.eq_nil_iff_forall_not_mem]
  simp only [mem_missing, Arguments.Fills, not_and, not_not]

theorem formatPartial_eq (template : String) (args : Arguments) :
    formatPartial template args =
      (substitute (args.bindings (placeholders template)) (tokenize template)).map
        String.ofList := by
  simp [formatPartial, formatWith]

theorem format_eq (template : String) (args : Arguments) :
    format template args =
      if missing template args = [] then formatPartial template args
      else .error (.missingVariables (missing template args)
        (keys (args.bindings (placeholders template)))) := by
  have hrun : format template args =
      if !(missing template args).isEmpty then
        .error (.missingVariables (missing template args)
          (keys (args.bindings (placeholders template))))
      else (substitute (args.bindings (placeholders template)) (tokenize template)).map
        String.ofList := rfl
  rw [hrun, formatPartial_eq]
  by_cases hm : missing template args = []
  · rw [if_pos hm, if_neg (by simp [hm])]
  · rw [if_neg hm, if_pos (by simpa using hm)]

end PromptFiles.Template
