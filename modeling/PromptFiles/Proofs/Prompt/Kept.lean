import PromptFiles.Proofs.FileTree.Grown
import PromptFiles.Proofs.Prompt.Saved

/-!
# What saving leaves alone

A save that fails may have made directories, and has changed nothing else: `save_error`. One that
succeeds has changed the file that its path leads to, and no other: `writePrompt_written`.
-/

namespace PromptFiles

open FrontMatter (serialize)

namespace FileTree

/-- The path leads to a file with this text, and everything else is as before, except that there
may be more directories. -/
structure Written (t t' : FileTree) (path text : String) : Prop where
  reads : t'.readText path = .ok text
  others : ∃ place, t'.resolve true path = .ok (.existing place (.file text.toUTF8)) ∧
    ∀ other ≠ place, t.KeptAt t' other

theorem keptAt_put {t t₁ : FileTree} {path : String} (hmade : t.makeParents path = (t₁, .ok ()))
    (hplace : t₁.writePlace path = .ok place) (hother : other ≠ place) (new : Entry) :
    t.KeptAt (t₁.put place new) other := by
  unfold KeptAt
  rw [lookup_put _ _ _ _ (admits_of_writePlace hplace).1, if_neg hother]
  exact (grown_of_makeParents hmade).lookup other

end FileTree

-- ---------------------------------------------------------------------------
-- Writing
-- ---------------------------------------------------------------------------

variable {t t' : FileTree} {path : String}

theorem writePrompt_error (h : writePrompt t path m body = (t', .error e)) : t.Grown t' := by
  unfold writePrompt at h
  split at h
  · rename_i hmade
    cases h
    exact FileTree.grown_of_makeParents hmade
  · rename_i hmade
    split at h
    · cases h
    · cases h
      exact FileTree.grown_of_makeParents hmade

theorem writePrompt_ok (h : writePrompt t path m body = (t', .ok ())) :
    ∃ t₁ place, t.makeParents path = (t₁, .ok ()) ∧ t₁.writePlace path = .ok place ∧
      t' = t₁.put place (.file (serialize m body).toUTF8) := by
  unfold writePrompt at h
  split at h
  · cases h
  · rename_i t₁ hmade
    split at h
    · cases h
      obtain ⟨place, hplace, rfl⟩ := FileTree.writeBytes_eq_ok ‹_›
      exact ⟨t₁, place, hmade, hplace, rfl⟩
    · cases h

theorem writePrompt_written (h : writePrompt t path m body = (t', .ok ())) :
    t.Written t' path (serialize m body) := by
  obtain ⟨t₁, place, hmade, hplace, rfl⟩ := writePrompt_ok h
  exact ⟨FileTree.readText_of_target (target?_writePrompt h), place,
    FileTree.resolve_put_writePlace hplace (by simp),
    fun other hother => FileTree.keptAt_put hmade hplace hother _⟩

-- ---------------------------------------------------------------------------
-- Saving
-- ---------------------------------------------------------------------------

theorem save_blank (hb : Text.allBlank body = true) (t : FileTree) (path : String) (m : Metadata) :
    save t path m body = (t, .error (.emptyContent path)) := by
  rw [save, Prompt.create, Prompt.ofParts?, dif_neg (by simp [hb])]

theorem save_eq_writePrompt (hb : Text.allBlank body = false) (t : FileTree) (path : String)
    (m : Metadata) : save t path m body = writePrompt t path m body := by
  rw [save, create_ok hb]
  rfl

theorem save_error (h : save t path m body = (t', .error e)) : t.Grown t' := by
  cases hb : Text.allBlank body with
  | true =>
    rw [save_blank hb] at h
    cases h
    exact .refl t
  | false =>
    rw [save_eq_writePrompt hb] at h
    exact writePrompt_error h

theorem save_ok (h : save t path m body = (t', .ok ())) :
    writePrompt t path m body = (t', .ok ()) := by
  rwa [save_eq_writePrompt (target?_save h).1] at h

end PromptFiles
