import PromptFiles.Proofs.FileTree.Walks

/-!
# Reading what was written

A path that a file was written to leads to that file, through the same directories and links as
before: `walk_put`. So the text is read back under the path it was written to
(`readText_writeText`), whether the file was there before or not.
-/

namespace PromptFiles.FileTree

variable {t : FileTree}

-- ---------------------------------------------------------------------------
-- Putting a file
-- ---------------------------------------------------------------------------

theorem lookup_put_self (h : t.Admits place) (entry : Entry) :
    (t.put place entry).lookup place = some entry := by
  rw [lookup_put _ _ _ _ h.1, if_pos rfl]

theorem lookup_put_of_not_file (h : t.Admits place) (new : Entry)
    (hother : t.lookup other = some entry) (he : ∀ old, entry ≠ .file old) :
    (t.put place new).lookup other = some entry := by
  have hne : other ≠ place := by
    rintro rfl
    obtain ⟨old, rfl⟩ := h.2 entry hother
    exact he old rfl
  rw [lookup_put _ _ _ _ h.1, if_neg hne, hother]

/-- Directories and links on the way stay, so the same pieces lead to what is put there. -/
theorem walk_put {follow : Bool} {links : Nat} {location pieces : List String} {r : Place}
    (hplace : t.Admits place) (hnew : ∀ target, new ≠ .link target)
    (h : t.walk follow links location pieces = .ok r) (hr : r.file? = some place) :
    (t.put place new).walk follow links location pieces = .ok (.existing place new) := by
  have hdirectory {other : List String} (hother : ¬t.lookup other ≠ some .directory) :
      (t.put place new).lookup other = some .directory :=
    lookup_put_of_not_file hplace new (Decidable.not_not.mp hother) (by simp)
  fun_induction FileTree.walk t follow links location pieces with
  | case1 links location entry hentry =>
    cases h
    cases entry with
    | file old =>
      cases hr
      rw [FileTree.walk, lookup_put_self hplace]
    | directory => cases hr
    | link target => cases hr
  | case4 _ _ _ _ hat hpiece ih =>
    rw [walk_skip (hdirectory hat) hpiece]
    exact ih h
  | case5 _ _ _ hat _ ih =>
    rw [walk_up (hdirectory hat)]
    exact ih h
  | case7 links location piece hat hpiece hup hlong =>
    cases h
    cases hr
    have hchild := lookup_put_self hplace new
    rw [walk_entry (hdirectory hat) ⟨hpiece, hup, hlong⟩ hchild hnew, FileTree.walk, hchild]
  | case9 =>
    cases h
    cases hr
  | case11 location piece rest hat hpiece hup hlong child target hchild hlast links ih =>
    have hkept : (t.put place new).lookup (location ++ [piece]) = some (.link target) :=
      lookup_put_of_not_file hplace new hchild (by simp)
    rw [walk_link (hdirectory hat) ⟨hpiece, hup, hlong⟩ hkept hlast]
    exact ih h
  | case12 links location piece rest hat hpiece hup hlong child entry hentry hchild ih =>
    -- A file on the way is the last of it, and may be the one that is written over.
    obtain ⟨other, hlookup, hother⟩ : ∃ other,
        (t.put place new).lookup child = some other ∧ ∀ target, other ≠ .link target := by
      rw [lookup_put _ _ _ _ hplace.1]
      by_cases hsame : child = place
      · exact ⟨new, if_pos hsame, hnew⟩
      · exact ⟨entry, (if_neg hsame).trans hchild, hentry⟩
    rw [walk_entry (hdirectory hat) ⟨hpiece, hup, hlong⟩ hlookup hother]
    exact ih h
  | case2 | case3 | case6 | case8 | case10 => cases h

-- ---------------------------------------------------------------------------
-- Texts
-- ---------------------------------------------------------------------------

theorem resolve_put_writePlace {path : String} (h : t.writePlace path = .ok place)
    (hnew : ∀ target, new ≠ .link target) :
    (t.put place new).resolve true path = .ok (.existing place new) := by
  obtain ⟨r, hr, hfile⟩ := writePlace_eq_ok h
  obtain ⟨hwalk, hresolve⟩ := walk_of_resolve hr
  rw [hresolve]
  exact walk_put (admits_of_writePlace h) hnew hwalk hfile

theorem target?_writeText {path text : String} (h : t.writeText path text = .ok t') :
    t'.target? path = some (.file text.toUTF8) := by
  obtain ⟨place, hplace, rfl⟩ := writeBytes_eq_ok h
  rw [target?, resolve_put_writePlace hplace (by simp)]

theorem isFile_iff {path : String} :
    t.isFile path = true ↔ ∃ bytes, t.target? path = some (.file bytes) := by
  unfold isFile
  split
  · rename_i bytes h
    exact iff_of_true rfl ⟨bytes, h⟩
  · rename_i hnot
    exact iff_of_false Bool.false_ne_true fun ⟨bytes, h⟩ => hnot bytes h

theorem readText_of_target {path text : String} (h : t.target? path = some (.file text.toUTF8)) :
    t.readText path = .ok text := by
  have hbytes : t.readBytes path = .ok text.toUTF8 := by
    unfold target? at h
    split at h
    · cases h
      rename_i hresolve
      rw [readBytes, hresolve]
    · cases h
  have htext : String.fromUTF8? text.toUTF8 = some text := dif_pos text.isValidUTF8
  rw [readText, hbytes]
  simp only [htext]

theorem readText_writeText {path text : String} (h : t.writeText path text = .ok t') :
    t'.readText path = .ok text :=
  readText_of_target (target?_writeText h)

end PromptFiles.FileTree
