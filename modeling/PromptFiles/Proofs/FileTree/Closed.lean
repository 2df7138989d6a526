import PromptFiles.Proofs.FileTree.Preserved

/-!
# Trees without loose entries

Everything in a tree is in a directory. That holds of the tree one starts from (`closed_empty`),
and nothing that is done to a tree changes it.
-/

namespace PromptFiles.FileTree

variable {t : FileTree}

def Closed (t : FileTree) : Prop :=
  ∀ place name, t.lookup (place ++ [name]) ≠ none → t.lookup place = some .directory

theorem closed_put (hclosed : t.Closed) (hat : t.lookup directory = some .directory)
    (hplace : t.Admits (directory ++ [name])) (new : Entry) :
    (t.put (directory ++ [name]) new).Closed := by
  intro place other hother
  rw [lookup_put _ _ _ _ hplace.1] at hother ⊢
  by_cases hsame : place ++ [other] = directory ++ [name]
  · obtain ⟨rfl, -⟩ := List.append_inj' hsame rfl
    rw [if_neg (by simp), hat]
  · rw [if_neg hsame] at hother
    have hdirectory := hclosed place other hother
    rw [if_neg, hdirectory]
    rintro rfl
    obtain ⟨bytes, hfile⟩ := hplace.2 _ hdirectory
    cases hfile

theorem lookup_empty (current place : List String) :
    (empty current).lookup place = if place <+: current then some .directory else none := by
  have hways (depth : Nat) (hdepth : depth ≤ current.length) :
      (((List.range depth).map fun d => current.take (d + 1)).foldl (·.put · .directory)
        (⟨current, [], by simp⟩ : FileTree)).lookup place =
          if place <+: current.take depth then some .directory else none := by
    induction depth with
    | zero => simp [lookup]
    | succ depth ih =>
      have htake : current.take (depth + 1) = current.take depth ++ [current[depth]] :=
        List.take_succ_eq_append_getElem hdepth
      have hne : current.take (depth + 1) ≠ [] := by
        rw [htake]
        exact List.append_ne_nil_of_right_ne_nil _ (List.cons_ne_nil _ _)
      have habove : place <+: current.take (depth + 1) ↔
          place = current.take (depth + 1) ∨ place <+: current.take depth := by
        rw [htake]
        exact List.prefix_concat_iff
      rw [List.range_succ, List.map_append, List.foldl_append, List.map_singleton,
        List.foldl_cons, List.foldl_nil, lookup_put _ _ _ _ hne, ih (Nat.le_of_succ_le hdepth)]
      by_cases hsame : place = current.take (depth + 1)
      · rw [if_pos hsame, if_pos (habove.mpr (.inl hsame))]
      · simp only [habove, hsame, if_false, false_or]
  have hall := hways current.length Nat.le.refl
  rwa [List.take_length] at hall

theorem closed_empty (current : List String) : (empty current).Closed := by
  intro place name h
  rw [lookup_empty] at h ⊢
  split at h
  · rename_i habove
    rw [if_pos ((List.prefix_append place [name]).trans habove)]
  · exact absurd rfl h

theorem preserved_closed : Preserved Closed := by
  intro t follow path r place hclosed h hr new
  obtain ⟨hwalk, -⟩ := walk_of_resolve h
  have hplace := admits_of_walk hwalk hr
  cases r with
  | missing directory name =>
    cases hr
    exact closed_put hclosed (lookup_of_missing hwalk).1 hplace new
  | existing other entry =>
    cases entry with
    | file bytes =>
      cases hr
      have hfile := lookup_of_existing hwalk
      obtain ⟨directory, name, rfl⟩ : ∃ directory name, place = directory ++ [name] :=
        ⟨_, _, (List.dropLast_concat_getLast hplace.1).symm⟩
      exact closed_put hclosed (hclosed directory name (by simp [hfile])) hplace new
    | directory | link => cases hr

end PromptFiles.FileTree
