import PromptFiles.FileTree.Access
import PromptFiles.Proofs.FileTree.Parents

/-!
# Walks through a file tree

One equation for each kind of piece: nothing, two dots, an entry, a link, or a name that is not
there. A walk that follows links comes to the same without the pieces that lead nowhere
(`walk_thinned`), and goes on from where the pieces before have led (`walk_append`).
-/

namespace PromptFiles.FileTree

variable {t : FileTree}

-- ---------------------------------------------------------------------------
-- Where a file may be put
-- ---------------------------------------------------------------------------

/-- The canonical path of the file that is written where a path leads here. -/
def Place.file? : Place → Option (List String)
  | existing path (.file _) => some path
  | existing _ _ => none
  | missing directory name => some (directory ++ [name])

/-- A file may be put here: there is none yet, or only a file. -/
def Admits (t : FileTree) (path : List String) : Prop :=
  path ≠ [] ∧ ∀ entry, t.lookup path = some entry → ∃ bytes, entry = .file bytes

-- ---------------------------------------------------------------------------
-- Single pieces
-- ---------------------------------------------------------------------------

abbrev IsName (piece : String) : Prop :=
  ¬(piece = "" || piece = ".") = true ∧ piece ≠ ".." ∧ ¬nameLimit < piece.utf8ByteSize

section

variable {follow : Bool} {links : Nat} {location rest : List String} {piece : String}
  (hat : t.lookup location = some .directory)
include hat

theorem walk_skip (hpiece : (piece = "" || piece = ".") = true) :
    t.walk follow links location (piece :: rest) = t.walk follow links location rest := by
  rw [FileTree.walk, if_neg (by simp [hat]), if_pos hpiece]

theorem walk_up :
    t.walk follow links location (".." :: rest) = t.walk follow links location.dropLast rest := by
  rw [FileTree.walk, if_neg (by simp [hat]), if_neg (by decide), if_pos rfl]

theorem walk_entry (hname : IsName piece) (hchild : t.lookup (location ++ [piece]) = some entry)
    (hentry : ∀ target, entry ≠ .link target) :
    t.walk follow links location (piece :: rest) =
      t.walk follow links (location ++ [piece]) rest := by
  obtain ⟨hpiece, hup, hlong⟩ := hname
  rw [FileTree.walk, if_neg (by simp [hat]), if_neg hpiece, if_neg hup, if_neg hlong]
  cases entry with
  | link target => exact absurd rfl (hentry target)
  | _ => simp only [hchild]

theorem walk_back (hname : IsName piece)
    (hchild : t.lookup (location ++ [piece]) = some .directory) :
    t.walk follow links location (piece :: ".." :: rest) = t.walk follow links location rest := by
  rw [walk_entry hat hname hchild (by simp), walk_up hchild, List.dropLast_concat]

theorem walk_link (hname : IsName piece)
    (hchild : t.lookup (location ++ [piece]) = some (.link target))
    (hlast : ¬(rest = [] && !follow) = true) :
    t.walk follow (links + 1) location (piece :: rest) =
      t.walk follow links (origin location target) (Path.pieces target ++ rest) := by
  obtain ⟨hpiece, hup, hlong⟩ := hname
  rw [FileTree.walk, if_neg (by simp [hat]), if_neg hpiece, if_neg hup, if_neg hlong]
  simp only [hchild, if_neg hlast]

theorem walk_missing (hname : IsName piece) (hchild : t.lookup (location ++ [piece]) = none) :
    t.walk follow links location (piece :: rest) =
      if rest = [] then .ok (.missing location piece) else .error .notFound := by
  obtain ⟨hpiece, hup, hlong⟩ := hname
  rw [FileTree.walk, if_neg (by simp [hat]), if_neg hpiece, if_neg hup, if_neg hlong]
  simp only [hchild]

end

-- ---------------------------------------------------------------------------
-- Whole walks
-- ---------------------------------------------------------------------------

/-- A walk looks at nothing but what is at a place. By induction along the walk. -/
theorem walk_congr {t' : FileTree} (hlookup : ∀ place, t'.lookup place = t.lookup place)
    (follow : Bool) (links : Nat) (location pieces : List String) :
    t'.walk follow links location pieces = t.walk follow links location pieces := by
  fun_induction FileTree.walk t follow links location pieces <;> rw [FileTree.walk] <;> grind

theorem lookup_of_existing {follow : Bool} {links : Nat} {location pieces : List String}
    (h : t.walk follow links location pieces = .ok (.existing place entry)) :
    t.lookup place = some entry := by
  fun_induction FileTree.walk t follow links location pieces with
  | case1 _ _ _ hentry =>
    cases h
    exact hentry
  | case4 _ _ _ _ _ _ ih => exact ih h
  | case5 _ _ _ _ _ ih => exact ih h
  | case9 _ _ _ _ _ _ _ _ _ _ hchild =>
    injection h with h
    injection h with hplace hentry
    rw [← hplace, ← hentry]
    exact hchild
  | case11 _ _ _ _ _ _ _ _ _ _ _ _ ih => exact ih h
  | case12 _ _ _ _ _ _ _ _ _ _ _ _ ih => exact ih h
  | case2 | case3 | case6 | case7 | case8 | case10 => cases h

theorem lookup_of_missing {follow : Bool} {links : Nat} {location pieces : List String}
    (h : t.walk follow links location pieces = .ok (.missing directory name)) :
    t.lookup directory = some .directory ∧ t.lookup (directory ++ [name]) = none := by
  fun_induction FileTree.walk t follow links location pieces with
  | case4 _ _ _ _ _ _ ih => exact ih h
  | case5 _ _ _ _ _ ih => exact ih h
  | case7 _ _ _ hat _ _ _ child hchild =>
    cases h
    exact ⟨Decidable.not_not.mp hat, hchild⟩
  | case11 _ _ _ _ _ _ _ _ _ _ _ _ ih => exact ih h
  | case12 _ _ _ _ _ _ _ _ _ _ _ _ ih => exact ih h
  | case1 | case2 | case3 | case6 | case8 | case9 | case10 => cases h

/-- A file may be put where a path leads, unless there is a directory or a link. -/
theorem admits_of_walk {follow : Bool} {links : Nat} {location pieces : List String} {r : Place}
    (h : t.walk follow links location pieces = .ok r) (hr : r.file? = some place) :
    t.Admits place := by
  cases r with
  | missing directory name =>
    cases hr
    exact ⟨by simp, by simp [(lookup_of_missing h).2]⟩
  | existing other entry =>
    cases entry with
    | file bytes =>
      cases hr
      have hfile := lookup_of_existing h
      refine ⟨?_, fun entry hentry => ⟨bytes, Option.some.inj (hentry.symm.trans hfile)⟩⟩
      rintro rfl
      cases hfile
    | directory | link => cases hr

abbrev Followed (path : String) : Prop :=
  path.toList.contains '\x00' = false ∧ path ≠ "" ∧ path.utf8ByteSize ≤ pathLimit

theorem resolve_eq_walk {follow : Bool} {path : String} (h : Followed path) :
    t.resolve follow path =
      t.walk follow linkLimit (origin t.current path) (Path.pieces path) := by
  obtain ⟨hnul, hempty, hlong⟩ := h
  rw [resolve, if_neg (Bool.not_eq_true _ ▸ hnul), if_neg hempty, if_neg (Nat.not_lt.mpr hlong)]

theorem resolve_relative {follow : Bool} {path : String} (h : Followed path)
    (habsolute : Path.isAbsolute path = false) :
    t.resolve follow path = t.walk follow linkLimit t.current (Path.pieces path) := by
  rw [resolve_eq_walk h, origin, habsolute, if_neg Bool.false_ne_true]

theorem resolve_beyond {follow : Bool} {path piece : String} {rest : List String}
    (h : Followed path) (habsolute : Path.isAbsolute path = false)
    (hpieces : Path.pieces path = piece :: rest) (hrest : rest ≠ [])
    (hname : IsName piece) (hat : t.lookup t.current = some .directory)
    (hmissing : t.lookup (t.current ++ [piece]) = none) :
    t.resolve follow path = .error .notFound := by
  rw [resolve_relative h habsolute, hpieces, walk_missing hat hname hmissing, if_neg hrest]

/-- With a path that leads anywhere there is nothing wrong. -/
theorem walk_of_resolve {follow : Bool} {path : String} {r : Place}
    (h : t.resolve follow path = .ok r) :
    t.walk follow linkLimit (origin t.current path) (Path.pieces path) = .ok r ∧
      ∀ t' : FileTree, t'.resolve follow path =
        t'.walk follow linkLimit (origin t'.current path) (Path.pieces path) := by
  unfold resolve at h
  split at h
  · cases h
  split at h
  · cases h
  split at h
  · cases h
  rename_i hnul hempty hlong
  exact ⟨h, fun _ => resolve_eq_walk ⟨by simpa using hnul, hempty, Nat.not_lt.mp hlong⟩⟩

theorem writePlace_eq_ok {path : String} (h : t.writePlace path = .ok place) :
    ∃ r, t.resolve true path = .ok r ∧ r.file? = some place := by
  unfold writePlace at h
  split at h
  · split at h <;> cases h
  · split at h
    · cases h
    · cases h
      exact ⟨_, ‹_›, rfl⟩
    · cases h
    · cases h
      exact ⟨_, ‹_›, rfl⟩

theorem admits_of_writePlace {path : String} (h : t.writePlace path = .ok place) :
    t.Admits place := by
  obtain ⟨r, hresolve, hr⟩ := writePlace_eq_ok h
  exact admits_of_walk (walk_of_resolve hresolve).1 hr

theorem writeBytes_eq_ok {path : String} {bytes : ByteArray}
    (h : t.writeBytes path bytes = .ok t') :
    ∃ place, t.writePlace path = .ok place ∧ t' = t.put place (.file bytes) := by
  unfold writeBytes at h
  cases hplace : t.writePlace path with
  | error fault =>
    rw [hplace] at h
    cases h
  | ok place =>
    rw [hplace] at h
    cases h
    exact ⟨place, rfl, rfl⟩

/-- Some pieces without some of those that lead nowhere. -/
inductive Thinned : List String → List String → Prop where
  | nil : Thinned [] []
  | keep : Thinned pieces thinned → Thinned (piece :: pieces) (piece :: thinned)
  | skip : (piece = "" || piece = ".") = true → Thinned pieces thinned →
      Thinned (piece :: pieces) thinned

theorem Thinned.refl (pieces : List String) : Thinned pieces pieces := by
  induction pieces with
  | nil => exact .nil
  | cons piece rest ih => exact .keep ih

theorem Thinned.append_left (before : List String) (h : Thinned pieces thinned) :
    Thinned (before ++ pieces) (before ++ thinned) := by
  induction before with
  | nil => exact h
  | cons piece rest ih => exact .keep ih

theorem thinned_names (path : String) : Thinned (Path.pieces path) (Path.names path) := by
  unfold Path.names
  induction Path.pieces path with
  | nil => exact .nil
  | cons piece rest ih =>
    rw [List.filter_cons]
    split
    · exact .keep ih
    · rename_i h
      refine .skip ?_ ih
      simpa [Path.component?_eq_none_iff] using h

/-- Pieces that lead nowhere can be left out where the walk follows links. -/
theorem walk_thinned {links : Nat} {location : List String} {r : Place}
    (h : t.walk true links location pieces = .ok r) (hthin : Thinned pieces thinned) :
    t.walk true links location thinned = .ok r := by
  -- Without following the last link this fails: a dot after a link has it followed.
  generalize hfollow : true = follow at h ⊢
  fun_induction FileTree.walk t follow links location pieces generalizing thinned with
  | case1 =>
    cases hthin
    rw [FileTree.walk, ‹t.lookup _ = _›, ← h]
  | case4 links location piece rest hat hpiece =>
    rename_i ih
    cases hthin with
    | keep hrest => exact (walk_skip (Decidable.not_not.mp hat) hpiece).trans (ih hrest h)
    | skip _ hrest => exact ih hrest h
  | case5 links location rest hat hpiece =>
    rename_i ih
    cases hthin with
    | keep hrest => exact (walk_up (Decidable.not_not.mp hat)).trans (ih hrest h)
    | skip hskip => exact absurd hskip hpiece
  | case7 links location piece hat hpiece hup hlong child =>
    rename_i hchild
    cases hthin with
    | keep hrest =>
      cases hrest
      rw [walk_missing (Decidable.not_not.mp hat) ⟨hpiece, hup, hlong⟩ hchild, if_pos rfl, ← h]
    | skip hskip => exact absurd hskip hpiece
  | case9 =>
    rename_i hlast
    simp [← hfollow] at hlast
  | case11 location piece rest hat hpiece hup hlong child target hchild hlast links =>
    rename_i ih
    cases hthin with
    | keep hrest =>
      rw [walk_link (Decidable.not_not.mp hat) ⟨hpiece, hup, hlong⟩ hchild (by simp [← hfollow])]
      exact ih (hrest.append_left _) h
    | skip hskip => exact absurd hskip hpiece
  | case12 links location piece rest hat hpiece hup hlong child entry hentry hchild =>
    rename_i ih
    cases hthin with
    | keep hrest =>
      rw [walk_entry (Decidable.not_not.mp hat) ⟨hpiece, hup, hlong⟩ hchild hentry]
      exact ih hrest h
    | skip hskip => exact absurd hskip hpiece
  | case2 | case3 | case6 | case8 | case10 => cases h

/-- What follows pieces that lead to an entry goes on from there. -/
theorem walk_append {links : Nat} {location : List String}
    (h : t.walk true links location pieces = .ok (.existing place entry)) :
    ∃ links', ∀ more, t.walk true links location (pieces ++ more) =
      t.walk true links' place more := by
  -- Every link on the way takes one from those that are left for the rest.
  generalize hfollow : true = follow at h ⊢
  fun_induction FileTree.walk t follow links location pieces with
  | case1 links location =>
    cases h
    exact ⟨links, fun more => rfl⟩
  | case4 links location piece rest hat hpiece ih =>
    obtain ⟨links', hmore⟩ := ih h
    exact ⟨links', fun more => (walk_skip (Decidable.not_not.mp hat) hpiece).trans (hmore more)⟩
  | case5 links location rest hat hpiece ih =>
    obtain ⟨links', hmore⟩ := ih h
    exact ⟨links', fun more => (walk_up (Decidable.not_not.mp hat)).trans (hmore more)⟩
  | case9 links location piece rest hat hpiece hup hlong child target hchild hlast =>
    simp [← hfollow] at hlast
  | case11 location piece rest hat hpiece hup hlong child target hchild hlast links ih =>
    obtain ⟨links', hmore⟩ := ih h
    refine ⟨links', fun more => ?_⟩
    rw [List.cons_append,
      walk_link (Decidable.not_not.mp hat) ⟨hpiece, hup, hlong⟩ hchild (by simp [← hfollow]),
      ← List.append_assoc]
    exact hmore more
  | case12 links location piece rest hat hpiece hup hlong child entry hentry hchild ih =>
    obtain ⟨links', hmore⟩ := ih h
    refine ⟨links', fun more => ?_⟩
    rw [List.cons_append, walk_entry (Decidable.not_not.mp hat) ⟨hpiece, hup, hlong⟩ hchild hentry]
    exact hmore more
  | case2 | case3 | case6 | case7 | case8 | case10 => cases h

/-- A walk that does not end at a link is the same if it would follow one there. -/
theorem walk_follow {links : Nat} {location : List String} {r : Place}
    (h : t.walk false links location pieces = .ok r)
    (hr : ∀ place target, r ≠ .existing place (.link target)) :
    t.walk true links location pieces = .ok r := by
  generalize hfollow : false = follow at h
  fun_induction FileTree.walk t follow links location pieces with
  | case1 =>
    rw [FileTree.walk, ‹t.lookup _ = _›, ← h]
  | case4 links location piece rest hat hpiece ih =>
    exact (walk_skip (Decidable.not_not.mp hat) hpiece).trans (ih h)
  | case5 links location rest hat hpiece ih =>
    exact (walk_up (Decidable.not_not.mp hat)).trans (ih h)
  | case7 links location piece hat hpiece hup hlong child hchild =>
    rw [walk_missing (Decidable.not_not.mp hat) ⟨hpiece, hup, hlong⟩ hchild, if_pos rfl, ← h]
  | case9 =>
    cases h
    exact absurd rfl (hr _ _)
  | case11 location piece rest hat hpiece hup hlong child target hchild hlast links ih =>
    rw [walk_link (Decidable.not_not.mp hat) ⟨hpiece, hup, hlong⟩ hchild (by simp)]
    exact ih h
  | case12 links location piece rest hat hpiece hup hlong child entry hentry hchild ih =>
    rw [walk_entry (Decidable.not_not.mp hat) ⟨hpiece, hup, hlong⟩ hchild hentry]
    exact ih h
  | case2 | case3 | case6 | case8 | case10 => cases h

end PromptFiles.FileTree
