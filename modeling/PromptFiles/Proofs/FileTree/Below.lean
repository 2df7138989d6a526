import Mathlib.Data.List.Nodup
import PromptFiles.Proofs.FileTree.Walks

/-!
# Entries below a directory

An entry is below a directory if names lead to it through directories alone, never through a link.
A walk comes across each of them once, in any order.
-/

namespace PromptFiles.FileTree

/-- Names that lead from a directory to an entry below it, through directories alone. -/
inductive Below (t : FileTree) : List String → List String → Entry → Prop where
  | child : t.lookup place = some .directory → t.lookup (place ++ [name]) = some entry →
      Below t place [name] entry
  | deeper : t.lookup place = some .directory → Below t (place ++ [name]) names entry →
      Below t place (name :: names) entry

/-- The entries that a walk below a directory comes across, each once, in any order: all of them,
or only those in the directory itself. -/
structure IsWalk (t : FileTree) (place : List String) (recursive : Bool)
    (walked : List (List String × Entry)) : Prop where
  once : (walked.map Prod.fst).Nodup
  mem_iff : ∀ names entry, (names, entry) ∈ walked ↔
    t.Below place names entry ∧ (recursive = true ∨ names.length = 1)

variable {t t' : FileTree} {place names : List String} {entry : Entry}

-- ---------------------------------------------------------------------------
-- Entries
-- ---------------------------------------------------------------------------

theorem lookup_eq_some_iff (hplace : place ≠ []) :
    t.lookup place = some entry ↔ (place, entry) ∈ t.entries := by
  rw [lookup, if_neg hplace, Option.map_eq_some_iff]
  constructor
  · rintro ⟨⟨path, entry⟩, hfind, rfl⟩
    have hpath : path = place := by simpa using List.find?_some hfind
    exact hpath ▸ List.mem_of_find?_eq_some hfind
  · intro hmem
    obtain ⟨found, hfind⟩ : ∃ found, t.entries.find? (·.1 == place) = some found :=
      Option.isSome_iff_exists.mp (List.find?_isSome.mpr ⟨_, hmem, by simp⟩)
    have hpath : found.1 = place := by simpa using List.find?_some hfind
    have hsame : found = (place, entry) :=
      List.inj_on_of_nodup_map t.distinct (List.mem_of_find?_eq_some hfind) hmem hpath
    exact ⟨found, hfind, by rw [hsame]⟩

theorem lookup_perm (h : t.entries.Perm t'.entries) (place : List String) :
    t'.lookup place = t.lookup place := by
  by_cases hplace : place = []
  · rw [lookup, lookup, if_pos hplace, if_pos hplace]
  · refine Option.ext fun entry => ?_
    rw [lookup_eq_some_iff hplace, lookup_eq_some_iff hplace, h.mem_iff]

theorem resolve_perm (hcurrent : t'.current = t.current) (h : t.entries.Perm t'.entries)
    (follow : Bool) (path : String) : t'.resolve follow path = t.resolve follow path := by
  unfold resolve
  rw [hcurrent, walk_congr (lookup_perm h)]

theorem below_iff : t.Below place names entry ↔ names ≠ [] ∧
    (∀ depth < names.length, t.lookup (place ++ names.take depth) = some .directory) ∧
    t.lookup (place ++ names) = some entry := by
  constructor
  · intro h
    induction h with
    | child hat hentry =>
      refine ⟨by simp, fun depth hdepth => ?_, hentry⟩
      obtain rfl : depth = 0 := by simpa using hdepth
      simpa using hat
    | deeper hat _ ih =>
      obtain ⟨-, habove, hentry⟩ := ih
      refine ⟨by simp, fun depth hdepth => ?_, by simpa using hentry⟩
      cases depth with
      | zero => simpa using hat
      | succ depth => simpa using habove depth (by simpa using hdepth)
  · rintro ⟨hne, habove, hentry⟩
    induction names generalizing place with
    | nil => exact absurd rfl hne
    | cons name rest ih =>
      have hat : t.lookup place = some .directory := by simpa using habove 0 (by simp)
      cases rest with
      | nil => exact .child hat hentry
      | cons next others =>
        refine .deeper hat (ih (by simp) (fun depth hdepth => ?_) (by simpa using hentry))
        simpa using habove (depth + 1) (by simpa using hdepth)

theorem Below.lookup (h : t.Below place names entry) : t.lookup (place ++ names) = some entry :=
  (below_iff.mp h).2.2

theorem Below.lookup_place (h : t.Below place names entry) :
    t.lookup place = some .directory := by
  cases h <;> assumption

theorem Below.take {n : Nat} (h : t.Below place names entry) (hpos : 0 < n)
    (hn : n < names.length) : t.Below place (names.take n) .directory := by
  obtain ⟨-, habove, -⟩ := below_iff.mp h
  rw [below_iff, List.length_take]
  refine ⟨?_, fun depth hdepth => ?_, habove n hn⟩
  · intro hnil
    have hlength := congrArg List.length hnil
    rw [List.length_take, List.length_nil] at hlength
    omega
  · rw [List.take_take, Nat.min_eq_left (by omega)]
    exact habove depth (by omega)

theorem Below.congr (hlookup : ∀ place, t'.lookup place = t.lookup place) :
    t'.Below place names entry ↔ t.Below place names entry := by
  simp only [below_iff, hlookup]

theorem IsWalk.perm {walked : List (List String × Entry)} (h : t.entries.Perm t'.entries)
    (hwalk : t'.IsWalk place recursive walked) : t.IsWalk place recursive walked :=
  ⟨hwalk.once, fun names entry => by rw [hwalk.mem_iff, Below.congr (lookup_perm h)]⟩

theorem IsWalk.flat {walked : List (List String × Entry)} (h : t.IsWalk place true walked) :
    t.IsWalk place false (walked.filter (·.1.length = 1)) := by
  refine ⟨h.once.sublist (List.filter_sublist.map _), fun names entry => ?_⟩
  rw [List.mem_filter, h.mem_iff]
  simp

end PromptFiles.FileTree
