import PromptFiles.Proofs.FileTree.Walks

/-!
# What changes to a tree preserve

Every change puts an entry where a path leads to a file or to nothing. What is kept by each such
step is kept by whatever is done to a tree, also where that stops with a fault.
-/

namespace PromptFiles.FileTree

variable {t t' : FileTree} {P : FileTree → Prop}

/-- Kept when anything is put where a path leads to a file or to nothing. -/
def Preserved (P : FileTree → Prop) : Prop :=
  ∀ {t : FileTree} {follow : Bool} {path : String} {r : Place} {place : List String},
    P t → t.resolve follow path = .ok r → r.file? = some place → ∀ new, P (t.put place new)

-- ---------------------------------------------------------------------------
-- Directories
-- ---------------------------------------------------------------------------

theorem makeDirectory_eq_ok {path : String} (h : t.makeDirectory path = .ok t') :
    ∃ directory name, t.resolve false (if saysDirectory path then unslashed path else path) =
        .ok (.missing directory name) ∧ t' = t.put (directory ++ [name]) .directory := by
  unfold makeDirectory at h
  split at h
  · cases h
  · cases h
  · cases h
    exact ⟨_, _, ‹_›, rfl⟩

/-- What holds of a tree and is kept by making a directory holds after any are made, also when
that stops with a fault. -/
theorem makeAll_invariant (hstep : ∀ {t t' path}, t.makeDirectory path = .ok t' → P t → P t')
    (h : P t) (paths : List String) : P (t.makeAll paths).1 := by
  induction paths generalizing t with
  | nil => exact h
  | cons path above ih =>
    unfold makeAll
    split
    · exact h
    · dsimp only
      split
      · exact hstep ‹_› h
      · have habove := ih h
        split
        · rename_i hmade
          rw [hmade] at habove
          exact habove
        · rename_i hmade
          rw [hmade] at habove
          split
          · exact hstep ‹_› habove
          · exact habove
      · exact h

theorem makeParents_invariant (hstep : ∀ {t t' path}, t.makeDirectory path = .ok t' → P t → P t')
    (h : P t) (path : String) : P (t.makeParents path).1 := by
  unfold makeParents
  split
  · exact h
  · rename_i parent _
    have hmade := makeAll_invariant hstep h (Path.withAncestors parent)
    unfold makeDirectories
    split
    · rename_i heq
      rw [heq] at hmade
      exact hmade
    · rename_i heq
      rw [heq] at hmade
      exact hmade

namespace Preserved

variable (hP : Preserved P) (h : P t)
include hP h

theorem makeDirectory {path : String} (hmade : t.makeDirectory path = .ok t') : P t' := by
  obtain ⟨directory, name, hresolve, rfl⟩ := makeDirectory_eq_ok hmade
  exact hP h hresolve rfl _

theorem makeAll (paths : List String) : P (t.makeAll paths).1 :=
  makeAll_invariant (fun hmade h => hP.makeDirectory h hmade) h paths

theorem makeParents {path : String} (hmade : t.makeParents path = (t', result)) : P t' := by
  have hall := makeParents_invariant (fun hmade h => hP.makeDirectory h hmade) h path
  rwa [hmade] at hall

-- ---------------------------------------------------------------------------
-- Files and links
-- ---------------------------------------------------------------------------

theorem put_writePlace {path : String} (hplace : t.writePlace path = .ok place) (new : Entry) :
    P (t.put place new) := by
  obtain ⟨r, hresolve, hr⟩ := writePlace_eq_ok hplace
  exact hP h hresolve hr new

theorem writeBytes {path : String} {bytes : ByteArray}
    (hwritten : t.writeBytes path bytes = .ok t') : P t' := by
  obtain ⟨place, hplace, rfl⟩ := writeBytes_eq_ok hwritten
  exact hP.put_writePlace h hplace _

theorem touch {path : String} (htouched : t.touch path = .ok t') : P t' := by
  unfold FileTree.touch at htouched
  cases hplace : t.writePlace path with
  | error fault =>
    rw [hplace] at htouched
    cases htouched
  | ok place =>
    rw [hplace] at htouched
    cases htouched
    dsimp only
    split
    · exact h
    · exact hP.put_writePlace h hplace _

theorem makeLink {target path : String} (hmade : t.makeLink target path = .ok t') : P t' := by
  unfold FileTree.makeLink at hmade
  split at hmade
  · cases hmade
  · cases hmade
  · cases hmade
    exact hP h ‹_› rfl _

end Preserved

end PromptFiles.FileTree
