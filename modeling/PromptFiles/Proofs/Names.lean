import Mathlib.Data.List.Sort
import PromptFiles.Names

/-!
# Sets of names in order

`ofList` sorts strictly and keeps the members, and a strictly sorted list is determined
by its members: sets of names are equal when they hold the same names. The keys of a map
are such a set.
-/

namespace PromptFiles

namespace Names

theorem mem_insert {name other : String} {names : List String} :
    other ∈ insert name names ↔ other = name ∨ other ∈ names := by
  induction names with
  | nil => simp [insert]
  | cons n rest ih =>
    simp only [insert]
    split
    · subst name; simp
    · split
      · simp
      · simp only [List.mem_cons, ih, or_left_comm]

theorem sorted_insert {name : String} {names : List String} (h : names.Pairwise (· < ·)) :
    (insert name names).Pairwise (· < ·) := by
  induction names with
  | nil => simp [insert]
  | cons n rest ih =>
    obtain ⟨hn, hrest⟩ := List.pairwise_cons.mp h
    simp only [insert]
    split
    · exact h
    · rename_i hne
      split
      · rename_i hlt
        refine List.pairwise_cons.mpr ⟨?_, h⟩
        intro m hm
        rcases List.mem_cons.mp hm with rfl | hm
        · exact hlt
        · exact String.lt_trans hlt (hn m hm)
      · rename_i hge
        refine List.pairwise_cons.mpr ⟨?_, ih hrest⟩
        intro m hm
        rcases mem_insert.mp hm with rfl | hm
        · exact Std.lt_of_le_of_ne (String.not_lt.mp hge) (Ne.symm hne)
        · exact hn m hm

theorem mem_ofList {name : String} {names : List String} : name ∈ ofList names ↔ name ∈ names := by
  induction names with
  | nil => rfl
  | cons n rest ih =>
    show name ∈ insert n (ofList rest) ↔ _
    rw [mem_insert, ih, List.mem_cons]

theorem sorted_ofList (names : List String) : (ofList names).Pairwise (· < ·) := by
  induction names with
  | nil => exact .nil
  | cons n rest ih => exact sorted_insert ih

theorem eq_of_mem_iff {ns ms : List String} (hn : ns.Pairwise (· < ·)) (hm : ms.Pairwise (· < ·))
    (h : ∀ name, name ∈ ns ↔ name ∈ ms) : ns = ms := by
  have : Std.Irrefl (α := String) (· < ·) := ⟨String.lt_irrefl⟩
  exact hn.eq_of_mem_iff hm h

theorem ofList_filter (p : String → Bool) (names : List String) :
    ofList (names.filter p) = (ofList names).filter p := by
  refine eq_of_mem_iff (sorted_ofList _) ((sorted_ofList _).filter p) fun name => ?_
  simp only [mem_ofList, List.mem_filter]

end Names

namespace NameMap

def keys (map : List (String × α)) : List String :=
  map.map Prod.fst

theorem contains_eq_false {name : String} {map : List (String × α)} :
    contains name map = false ↔ find? name map = none := by
  simp [contains]

theorem mem_of_find? {name : String} {value : α} {map : List (String × α)}
    (h : find? name map = some value) : (name, value) ∈ map := by
  induction map with
  | nil => simp [find?] at h
  | cons p rest ih =>
    obtain ⟨n, v⟩ := p
    simp only [find?] at h
    split at h
    · subst name; cases h; simp
    · exact List.mem_cons_of_mem _ (ih h)

theorem contains_iff {name : String} {map : List (String × α)} :
    contains name map = true ↔ name ∈ keys map := by
  induction map with
  | nil => simp [contains, find?, keys]
  | cons p rest ih =>
    obtain ⟨n, v⟩ := p
    rw [contains, find?]
    split
    · simp [keys, *]
    · rename_i hne
      rw [← contains, ih]
      simp [keys, hne]

theorem keys_insert (name : String) (value : α) (map : List (String × α)) :
    keys (insert name value map) = Names.insert name (keys map) := by
  induction map with
  | nil => rfl
  | cons p rest ih =>
    obtain ⟨n, v⟩ := p
    simp only [insert, keys, List.map_cons, Names.insert]
    split
    · rfl
    · split
      · rfl
      · exact congrArg (n :: ·) ih

end NameMap

end PromptFiles
