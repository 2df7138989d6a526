import Mathlib.Data.List.Perm.Subperm
import PromptFiles.Toml.Value

/-!
# Tables by key

A table with each key once is a map: what is found under a key does not depend on the
order. Tables that are the same have the same keys (`Table.keys_perm`), and stay the same
when both keep only some of them (`Table.same_filter`). Less is asked of a table that `Matches`:
the same keys, and the same texts.
-/

namespace PromptFiles.Toml

namespace Table

theorem mem_of_find? {t : Table} (h : t.find? key = some v) : (key, v) ∈ t := by
  induction t with
  | nil => cases h
  | cons e rest ih =>
    obtain ⟨k, w⟩ := e
    unfold find? at h
    split at h
    · rename_i hk
      cases h
      rw [hk]
      exact List.mem_cons_self
    · exact List.mem_cons_of_mem _ (ih h)

theorem mem_keys_of_find? {t : Table} (h : t.find? key = some v) : key ∈ t.keys :=
  List.mem_map_of_mem (mem_of_find? h)

theorem find?_eq_none {t : Table} : t.find? key = none ↔ key ∉ t.keys := by
  induction t with
  | nil => simp [find?, keys]
  | cons e rest ih =>
    obtain ⟨k, w⟩ := e
    unfold find?
    split <;> simp_all [keys]

theorem find?_of_mem {t : Table} (hn : t.keys.Nodup) (h : (key, v) ∈ t) : t.find? key = some v := by
  induction t with
  | nil => cases h
  | cons e rest ih =>
    obtain ⟨k, w⟩ := e
    have hn : k ∉ keys rest ∧ (keys rest).Nodup := List.nodup_cons.mp hn
    unfold find?
    rcases List.mem_cons.mp h with h | h
    · cases h
      exact if_pos rfl
    · have hne : key ≠ k := fun he => hn.1 (he ▸ List.mem_map_of_mem (f := Prod.fst) h)
      rw [if_neg hne, ih hn.2 h]

theorem find?_append (t t' : Table) (key : String) :
    find? key (t ++ t') = (t.find? key).or (t'.find? key) := by
  induction t with
  | nil => rfl
  | cons e rest ih =>
    obtain ⟨k, w⟩ := e
    rw [List.cons_append, find?, find?]
    split
    · rfl
    · exact ih

theorem keys_append (t t' : Table) : keys (t ++ t') = t.keys ++ t'.keys :=
  List.map_append

theorem contains_iff {t : Table} : t.contains key = true ↔ key ∈ t.keys := by
  have h : t.find? key = none ↔ key ∉ t.keys := find?_eq_none
  cases hf : t.find? key <;> simp_all [contains]

theorem find?_filter {t : Table} (p : String → Bool) (h : p key = true) :
    find? key (t.filter (p ·.1)) = t.find? key := by
  induction t with
  | nil => rfl
  | cons e rest ih =>
    obtain ⟨k, w⟩ := e
    by_cases hk : key = k
    · subst hk
      simp [find?, h]
    · cases hp : p k <;> simp [find?, hk, hp, ih]

theorem keys_filter (p : String → Bool) (t : Table) :
    keys (t.filter (p ·.1)) = t.keys.filter p := by
  simp only [keys, List.filter_map]
  rfl

-- ---------------------------------------------------------------------------
-- Equality
-- ---------------------------------------------------------------------------

theorem sameEntries_iff {es t : Table} : Value.sameEntries es t = true ↔
    ∀ e ∈ es, ∃ v, t.find? e.1 = some v ∧ e.2.same v = true := by
  induction es with
  | nil => simp [Value.sameEntries]
  | cons e rest ih =>
    obtain ⟨k, w⟩ := e
    rw [Value.sameEntries, Bool.and_eq_true, ih, List.forall_mem_cons]
    cases t.find? k <;> simp

theorem same_iff {t t' : Table} : t.same t' = true ↔
    t.length = t'.length ∧ ∀ e ∈ t, ∃ v, t'.find? e.1 = some v ∧ e.2.same v = true := by
  rw [same, Value.same, Bool.and_eq_true, sameEntries_iff, beq_iff_eq]

theorem keys_perm {t t' : Table} (hn : t.keys.Nodup) (h : t.same t' = true) :
    t.keys.Perm t'.keys := by
  obtain ⟨hlength, hfound⟩ := same_iff.mp h
  have hsubset : t.keys ⊆ t'.keys := by
    intro key hkey
    obtain ⟨e, he, rfl⟩ := List.mem_map.mp hkey
    obtain ⟨v, hv, -⟩ := hfound e he
    exact mem_keys_of_find? hv
  refine (List.subperm_of_subset hn hsubset).perm_of_length_le ?_
  simp [keys, hlength]

theorem same_filter {t t' : Table} (hn : t.keys.Nodup) (h : t.same t' = true)
    (p : String → Bool) : same (t.filter (p ·.1)) (t'.filter (p ·.1)) = true := by
  have hperm := (keys_perm hn h).filter p
  rw [← keys_filter, ← keys_filter] at hperm
  refine same_iff.mpr ⟨by simpa [keys] using hperm.length_eq, fun e he => ?_⟩
  obtain ⟨he, hp⟩ := List.mem_filter.mp he
  obtain ⟨v, hv, hs⟩ := (same_iff.mp h).2 e he
  exact ⟨v, (find?_filter p hp).trans hv, hs⟩

-- ---------------------------------------------------------------------------
-- Texts by key
-- ---------------------------------------------------------------------------

def text? (key : String) (t : Table) : Option String :=
  match t.find? key with
  | some (.string s) => some s
  | _ => none

theorem text?_eq_some {t : Table} : t.text? key = some s ↔ t.find? key = some (.string s) := by
  unfold text?
  split <;> simp_all

/-- The other table has the same keys, in any order, and where this one has a text it has the
same. -/
structure Matches (t t' : Table) : Prop where
  keys_perm : t.keys.Perm t'.keys
  text : ∀ key ∈ t.keys, (t.text? key).isSome → t'.text? key = t.text? key

instance (t t' : Table) : Decidable (t.Matches t') :=
  decidable_of_iff (t.keys.Perm t'.keys ∧
      ∀ key ∈ t.keys, (t.text? key).isSome → t'.text? key = t.text? key)
    ⟨fun ⟨hkeys, htext⟩ => ⟨hkeys, htext⟩, fun ⟨hkeys, htext⟩ => ⟨hkeys, htext⟩⟩

theorem Matches.of_same {t t' : Table} (hn : t.keys.Nodup) (h : t.same t' = true) :
    t.Matches t' := by
  refine ⟨Table.keys_perm hn h, fun key _ hsome => ?_⟩
  obtain ⟨s, hs⟩ := Option.isSome_iff_exists.mp hsome
  obtain ⟨v, hv, hsame⟩ := (same_iff.mp h).2 _ (mem_of_find? (text?_eq_some.mp hs))
  rw [hs, text?_eq_some]
  cases v <;> simp_all [Value.same]

theorem Matches.find?_string {t t' : Table} (h : t.Matches t')
    (hs : t.find? key = some (.string s)) : t'.find? key = some (.string s) := by
  have htext := text?_eq_some.mpr hs
  rw [← text?_eq_some, h.text key (mem_keys_of_find? hs) (by rw [htext]; rfl), htext]

theorem Matches.find?_none {t t' : Table} (h : t.Matches t') (hs : t.find? key = none) :
    t'.find? key = none := by
  rw [find?_eq_none] at hs ⊢
  exact fun hk => hs (h.keys_perm.mem_iff.mpr hk)

end Table

end PromptFiles.Toml
