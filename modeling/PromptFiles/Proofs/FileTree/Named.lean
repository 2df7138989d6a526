import PromptFiles.Proofs.FileTree.Below
import PromptFiles.Proofs.FileTree.Closed
import PromptFiles.Proofs.FileTree.PathsBelow

/-!
# Trees whose entries have names

No name of an entry is empty, a dot or two dots, and none has a slash in it. That holds of the tree
one starts from (`named_empty`), and nothing that is done to a tree changes it.
-/

namespace PromptFiles.FileTree

variable {t t' : FileTree} {place names : List String}

def Named (t : FileTree) : Prop :=
  ∀ place entry, t.lookup place = some entry → ∀ name ∈ place, Path.IsEntryName name

theorem named_put (hnamed : t.Named) (hne : place ≠ [])
    (hplace : ∀ name ∈ place, Path.IsEntryName name) (new : Entry) : (t.put place new).Named := by
  intro other entry hother
  rw [lookup_put _ _ _ _ hne] at hother
  split at hother
  · rename_i hsame
    exact hsame ▸ hplace
  · exact hnamed other entry hother

theorem named_empty {current : List String} (hcurrent : ∀ name ∈ current, Path.IsEntryName name) :
    (empty current).Named := by
  intro place entry h name hname
  rw [lookup_empty] at h
  split at h
  · rename_i habove
    exact hcurrent name (habove.subset hname)
  · cases h

theorem isEntryName_of_missing {follow : Bool} {links : Nat} {location pieces : List String}
    (h : t.walk follow links location pieces = .ok (.missing directory name))
    (hpieces : ∀ piece ∈ pieces, '/' ∉ piece.toList) : Path.IsEntryName name := by
  fun_induction FileTree.walk t follow links location pieces with
  | case4 _ _ _ _ _ _ ih => exact ih h fun p hp => hpieces p (List.mem_cons_of_mem _ hp)
  | case5 _ _ _ _ _ ih => exact ih h fun p hp => hpieces p (List.mem_cons_of_mem _ hp)
  | case7 links location piece hat hpiece hup =>
    cases h
    rw [Bool.or_eq_true, decide_eq_true_iff, decide_eq_true_iff, not_or] at hpiece
    exact ⟨hpiece.1, hpiece.2, hup, hpieces _ List.mem_cons_self⟩
  | case11 location piece rest hat hpiece hup hlong child target hchild hlast links ih =>
    refine ih h fun p hp => ?_
    rcases List.mem_append.mp hp with hp | hp
    · exact Path.slash_not_mem_of_pieces hp
    · exact hpieces p (List.mem_cons_of_mem _ hp)
  | case12 _ _ _ _ _ _ _ _ _ _ _ _ ih =>
    exact ih h fun p hp => hpieces p (List.mem_cons_of_mem _ hp)
  | case1 | case2 | case3 | case6 | case8 | case9 | case10 => cases h

theorem preserved_named : Preserved Named := by
  intro t follow path r place hnamed h hr new
  obtain ⟨hwalk, -⟩ := walk_of_resolve h
  refine named_put hnamed (admits_of_walk hwalk hr).1 ?_ new
  cases r with
  | missing directory name =>
    cases hr
    have hdirectory := hnamed directory _ (lookup_of_missing hwalk).1
    have hname := isEntryName_of_missing hwalk fun piece => Path.slash_not_mem_of_pieces
    intro other hother
    rcases List.mem_append.mp hother with hother | hother
    · exact hdirectory other hother
    · exact List.mem_singleton.mp hother ▸ hname
  | existing other entry =>
    cases entry with
    | file bytes =>
      cases hr
      exact hnamed place _ (lookup_of_existing hwalk)
    | directory | link => cases hr

theorem Named.perm (hnamed : t.Named) (h : t.entries.Perm t'.entries) : t'.Named :=
  fun place entry hentry => hnamed place entry ((lookup_perm h place).symm.trans hentry)

theorem Below.isEntryName (hnamed : t.Named) (h : t.Below place names entry) :
    ∀ name ∈ names, Path.IsEntryName name :=
  fun name hname => hnamed _ _ h.lookup name (List.mem_append_right place hname)

end PromptFiles.FileTree
