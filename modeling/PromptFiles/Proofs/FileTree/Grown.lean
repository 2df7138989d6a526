import PromptFiles.Proofs.FileTree.Closed
import PromptFiles.Proofs.FileTree.Written

/-!
# Making the directories above a file

Making directories changes nothing else: `grown_makeParents`. If the path has no two dots, and
some directory was missing, the path then leads into the last one that was made, which is empty
(`leadsToEmpty_makeParents`). So a path that leads to nothing does not lead to a file either once
the directories above it are made, unless it has two dots: `LeadsLater.two_dots`.
-/

namespace PromptFiles.FileTree

variable {t t' : FileTree}

-- ---------------------------------------------------------------------------
-- More directories
-- ---------------------------------------------------------------------------

/-- What was at a place still is, and if nothing was there, a directory may be. -/
def KeptAt (t t' : FileTree) (place : List String) : Prop :=
  t'.lookup place = t.lookup place ∨ (t.lookup place = none ∧ t'.lookup place = some .directory)

/-- Nothing has changed, except that there may be more directories. -/
structure Grown (t t' : FileTree) : Prop where
  current : t'.current = t.current
  lookup : ∀ place, t.KeptAt t' place

theorem Grown.refl (t : FileTree) : t.Grown t :=
  ⟨rfl, fun _ => .inl rfl⟩

theorem Grown.trans {t₁ t₂ t₃ : FileTree} (h : t₁.Grown t₂) (h' : t₂.Grown t₃) : t₁.Grown t₃ := by
  refine ⟨h'.current.trans h.current, fun place => ?_⟩
  rcases h'.lookup place with hsame' | ⟨hnone, hmade⟩
  · rcases h.lookup place with hsame | ⟨hnone, hmade⟩
    · exact .inl (hsame'.trans hsame)
    · exact .inr ⟨hnone, hsame'.trans hmade⟩
  · rcases h.lookup place with hsame | ⟨-, hbefore⟩
    · exact .inr ⟨hsame.symm.trans hnone, hmade⟩
    · rw [hbefore] at hnone
      cases hnone

theorem KeptAt.file_iff (h : t.KeptAt t' place) :
    t'.lookup place = some (.file bytes) ↔ t.lookup place = some (.file bytes) := by
  rcases h with hsame | ⟨hnone, hmade⟩
  · rw [hsame]
  · simp [hnone, hmade]

theorem Grown.lookup_eq_none (h : t.Grown t') (hnone : t'.lookup place = none) :
    t.lookup place = none := by
  rcases h.lookup place with hsame | ⟨hbefore, -⟩
  · exact hsame.symm.trans hnone
  · exact hbefore

theorem grown_put (h : t.lookup (directory ++ [name]) = none) :
    t.Grown (t.put (directory ++ [name]) .directory) := by
  refine ⟨rfl, fun place => ?_⟩
  unfold KeptAt
  rw [lookup_put _ _ _ _ (by simp)]
  by_cases hplace : place = directory ++ [name]
  · rw [if_pos hplace]
    exact .inr ⟨hplace ▸ h, rfl⟩
  · exact .inl (if_neg hplace)

theorem grown_makeDirectory {path : String} (h : t.makeDirectory path = .ok t') : t.Grown t' := by
  obtain ⟨directory, name, hresolve, rfl⟩ := makeDirectory_eq_ok h
  exact grown_put (lookup_of_missing (walk_of_resolve hresolve).1).2

theorem grown_makeAll (t : FileTree) (paths : List String) : t.Grown (t.makeAll paths).1 :=
  makeAll_invariant (fun hmade h => h.trans (grown_makeDirectory hmade)) (.refl t) paths

theorem grown_makeParents (t : FileTree) (path : String) : t.Grown (t.makeParents path).1 :=
  makeParents_invariant (fun hmade h => h.trans (grown_makeDirectory hmade)) (.refl t) path

theorem grown_of_makeParents {path : String} (h : t.makeParents path = (t', result)) :
    t.Grown t' := by
  have hgrown := grown_makeParents t path
  rwa [h] at hgrown

-- ---------------------------------------------------------------------------
-- Empty directories
-- ---------------------------------------------------------------------------

def LeadsToEmpty (t : FileTree) (location names : List String) : Prop :=
  ∃ place, t.walk true linkLimit location names = .ok (.existing place .directory) ∧
    ∀ name, t.lookup (place ++ [name]) = none

theorem walk_of_leadsToEmpty {location names : List String} {name : String} {r : Place}
    (hempty : t.LeadsToEmpty location names) (hname : (Path.component? name).isSome = true)
    (hup : name ≠ "..") (h : t.walk true linkLimit location (names ++ [name]) = .ok r) :
    ∃ place, r = .missing place name ∧ t.lookup (place ++ [name]) = none := by
  obtain ⟨place, hwalk, hnone⟩ := hempty
  obtain ⟨links, hmore⟩ := walk_append hwalk
  rw [hmore] at h
  have hpiece : ¬(name = "" || name = ".") = true := by
    rw [Option.isSome_iff_ne_none, Ne, Path.component?_eq_none_iff] at hname
    simpa using hname
  by_cases hat : t.lookup place = some .directory
  · by_cases hlong : nameLimit < name.utf8ByteSize
    · rw [FileTree.walk, if_neg (by simp [hat]), if_neg hpiece, if_neg hup, if_pos hlong] at h
      cases h
    · rw [walk_missing hat ⟨hpiece, hup, hlong⟩ (hnone name), if_pos rfl] at h
      cases h
      exact ⟨place, rfl, hnone name⟩
  · rw [FileTree.walk, if_pos hat] at h
    cases h

/-- A directory that is made is empty, and the path leads to it. -/
theorem leadsToEmpty_makeDirectory {path : String} (hclosed : t.Closed)
    (hbare : saysDirectory path = false) (h : t.makeDirectory path = .ok t') :
    t'.LeadsToEmpty (origin t.current path) (Path.names path) := by
  obtain ⟨directory, name, hresolve, rfl⟩ := makeDirectory_eq_ok h
  rw [hbare, if_neg Bool.false_ne_true] at hresolve
  obtain ⟨hwalk, -⟩ := walk_of_resolve hresolve
  obtain ⟨-, hnone⟩ := lookup_of_missing hwalk
  have hput : (t.put (directory ++ [name]) .directory).walk false linkLimit
      (origin t.current path) (Path.pieces path) =
        .ok (.existing (directory ++ [name]) .directory) :=
    walk_put (admits_of_walk hwalk rfl) (by simp) hwalk rfl
  refine ⟨directory ++ [name], walk_thinned (walk_follow hput (by simp)) (thinned_names path), ?_⟩
  intro other
  rw [lookup_put _ _ _ _ (by simp), if_neg (by simp)]
  exact Decidable.not_not.mp fun hother => by
    rw [hclosed _ _ hother] at hnone
    cases hnone

/-- The ways in which a directory is there in the end: it was there, it could be made at once, or
those above it had to be made first. -/
theorem makeAll_cons_ok {path : String} {above : List String}
    (h : t.makeAll (path :: above) = (t', .ok ())) :
    t' = t ∨ t.makeDirectory path = .ok t' ∨ path ≠ "" ∧ ∃ t₁, t.makeAll above = (t₁, .ok ()) ∧
      (t₁.makeDirectory path = .ok t' ∨ t' = t₁ ∧ t₁.isDirectory path = true) := by
  have hgiven {t : FileTree} {fault : Fault}
      (h : (t, if t.isDirectory path then (.ok () : Except Fault Unit) else .error fault) =
        (t', .ok ())) :
      t' = t ∧ t.isDirectory path = true := by
    obtain ⟨rfl, hok⟩ := Prod.mk.inj h
    refine ⟨rfl, ?_⟩
    split at hok
    · assumption
    · cases hok
  unfold makeAll at h
  split at h
  · cases h
    exact .inl rfl
  · rename_i hpath
    dsimp only at h
    split at h
    · cases h
      exact .inr (.inl ‹_›)
    · split at h
      · cases h
      · split at h
        · cases h
          exact .inr (.inr ⟨hpath, _, ‹_›, .inl ‹_›⟩)
        · exact .inr (.inr ⟨hpath, _, ‹_›, .inr (hgiven h)⟩)
    · exact .inl (hgiven h).1

theorem resolve_of_isDirectory {path : String} (h : t.isDirectory path = true) :
    ∃ place, t.resolve true path = .ok (.existing place .directory) := by
  have htarget : t.target? path = some .directory := of_decide_eq_true h
  unfold target? at htarget
  split at htarget
  · cases htarget
    exact ⟨_, ‹_›⟩
  · cases htarget

theorem resolve_of_leadsToEmpty {path up : String} {r : Place}
    (hparent : Path.parent? path = some up) (hne : up ≠ "") (hup : ".." ∉ Path.names path)
    (hempty : t.LeadsToEmpty (origin t.current up) (Path.names up))
    (h : t.resolve true path = .ok r) :
    ∃ place name, r = .missing place name ∧ t.lookup (place ++ [name]) = none := by
  obtain ⟨habsolute, -, name, hname, hnames⟩ := Path.names_parent? hparent hne
  have hwalk := walk_thinned (walk_of_resolve h).1 (thinned_names path)
  rw [origin, habsolute, ← origin] at hempty
  rw [hnames] at hwalk hup
  obtain ⟨place, rfl, hnone⟩ :=
    walk_of_leadsToEmpty hempty hname (by rintro rfl; simp at hup) hwalk
  exact ⟨place, name, rfl, hnone⟩

/-- Making a directory and those above it changes nothing, or leads to the last of them. -/
theorem leadsToEmpty_makeAll {path : String} {above : List String}
    (hascent : Path.Ascent (path :: above)) (hclosed : t.Closed)
    (hbare : saysDirectory path = false) (hup : ".." ∉ Path.names path)
    (h : t.makeAll (path :: above) = (t', .ok ())) :
    t' = t ∨ t'.LeadsToEmpty (origin t.current path) (Path.names path) := by
  induction above generalizing path t' with
  | nil =>
    rcases makeAll_cons_ok h with hsame | hmade | ⟨-, t₁, hnone, hmade | ⟨rfl, -⟩⟩
    · exact .inl hsame
    · exact .inr (leadsToEmpty_makeDirectory hclosed hbare hmade)
    · cases hnone
      exact .inr (leadsToEmpty_makeDirectory hclosed hbare hmade)
    · cases hnone
      exact .inl rfl
  | cons up above ih =>
    cases hascent with
    | up hparent hrest =>
    rcases makeAll_cons_ok h with hsame | hmade | ⟨hpath, t₁, habove, hmade | ⟨rfl, hthere⟩⟩
    · exact .inl hsame
    · exact .inr (leadsToEmpty_makeDirectory hclosed hbare hmade)
    · have hclosed₁ := preserved_closed.makeAll hclosed (up :: above)
      have hgrown := grown_makeAll t (up :: above)
      rw [habove] at hclosed₁ hgrown
      rw [← hgrown.current]
      exact .inr (leadsToEmpty_makeDirectory hclosed₁ hbare hmade)
    · by_cases hempty : up = ""
      · rw [hempty, makeAll, if_pos rfl] at habove
        cases habove
        exact .inl rfl
      · obtain ⟨-, hbareUp, name, -, hnames⟩ := Path.names_parent? hparent hempty
        have hupUp : ".." ∉ Path.names up := by
          rw [hnames] at hup
          exact fun hmem => hup (List.mem_append_left _ hmem)
        refine (ih hrest hbareUp hupUp habove).imp_right fun hmade => ?_
        -- Had those above been made just now, there would be nothing where the path leads.
        have hgrown := grown_makeAll t (up :: above)
        rw [habove] at hgrown
        rw [← hgrown.current] at hmade
        obtain ⟨place, hresolve⟩ := resolve_of_isDirectory hthere
        obtain ⟨_, _, hmissing, -⟩ := resolve_of_leadsToEmpty hparent hempty hup hmade hresolve
        cases hmissing

theorem leadsToEmpty_makeParents {path : String} (hclosed : t.Closed)
    (hup : ".." ∉ Path.names path) (h : t.makeParents path = (t', .ok ())) :
    t' = t ∨ ∃ up, Path.parent? path = some up ∧ up ≠ "" ∧
      t'.LeadsToEmpty (origin t'.current up) (Path.names up) := by
  have hgrown := grown_of_makeParents h
  unfold makeParents at h
  split at h
  · cases h
    exact .inl rfl
  · rename_i up hparent
    obtain ⟨above, hpaths, hascent⟩ := Path.ascent_withAncestors up
    by_cases hempty : up = ""
    · rw [makeDirectories, hpaths, hempty, makeAll, if_pos rfl] at h
      cases h
      exact .inl rfl
    · obtain ⟨-, hbare, name, -, hnames⟩ := Path.names_parent? hparent hempty
      have hupUp : ".." ∉ Path.names up := by
        rw [hnames] at hup
        exact fun hmem => hup (List.mem_append_left _ hmem)
      split at h
      · rename_i hmade
        cases h
        rw [makeDirectories, hpaths] at hmade
        rw [hgrown.current]
        exact (leadsToEmpty_makeAll hascent hclosed hbare hupUp hmade).imp_right fun hleads =>
          ⟨up, hparent, hempty, hleads⟩
      · cases h

-- ---------------------------------------------------------------------------
-- New files
-- ---------------------------------------------------------------------------

/-- The path leads to nothing, and where a file is put once the directories above it are made. -/
structure LeadsLater (t : FileTree) (path : String) (place : List String) : Prop where
  missing : t.exists? path = false
  later : ∃ t', t.makeParents path = (t', .ok ()) ∧ t'.writePlace path = .ok place

theorem lookup_writePlace {path : String} (hnew : t.exists? path = false)
    (hplace : t.writePlace path = .ok place) : t.lookup place = none := by
  obtain ⟨r, hresolve, hr⟩ := writePlace_eq_ok hplace
  cases r with
  | existing other entry =>
    rw [exists?, target?, hresolve] at hnew
    cases hnew
  | missing directory name =>
    cases hr
    exact (lookup_of_missing (walk_of_resolve hresolve).1).2

theorem LeadsLater.makeParents_ne {path : String} (h : t.LeadsLater path place)
    (hthere : t.lookup place ≠ none) : (t.makeParents path).1 ≠ t := by
  obtain ⟨t', hmade, hplace⟩ := h.later
  rw [hmade]
  rintro rfl
  exact hthere (lookup_writePlace h.missing hplace)

/-- Unless there are two dots in the path, nothing is there in its place either. -/
theorem LeadsLater.two_dots {path : String} (h : t.LeadsLater path place) (hclosed : t.Closed)
    (hthere : t.lookup place ≠ none) : ".." ∈ Path.pieces path := by
  refine Decidable.byContradiction fun hup => ?_
  obtain ⟨t', hmade, hplace⟩ := h.later
  have hupNames : ".." ∉ Path.names path := fun hmem => hup (List.mem_filter.mp hmem).1
  rcases leadsToEmpty_makeParents hclosed hupNames hmade with rfl | ⟨up, hparent, hempty, hleads⟩
  · exact hthere (lookup_writePlace h.missing hplace)
  · obtain ⟨r, hresolve, hr⟩ := writePlace_eq_ok hplace
    obtain ⟨directory, name, rfl, hnone⟩ :=
      resolve_of_leadsToEmpty hparent hempty hupNames hleads hresolve
    cases hr
    exact hthere ((grown_of_makeParents hmade).lookup_eq_none hnone)

-- ---------------------------------------------------------------------------
-- Two dots
-- ---------------------------------------------------------------------------

theorem walk_put_back (hat : t.lookup t.current = some .directory) (follow : Bool)
    (rest : List String) :
    (t.put (t.current ++ ["a"]) .directory).walk follow linkLimit t.current ("a" :: ".." :: rest) =
      (t.put (t.current ++ ["a"]) .directory).walk follow linkLimit t.current rest := by
  have hmade : (t.put (t.current ++ ["a"]) .directory).lookup (t.current ++ ["a"]) =
      some .directory := by
    rw [lookup_put _ _ _ _ (by simp), if_pos rfl]
  have hkept : (t.put (t.current ++ ["a"]) .directory).lookup t.current = some .directory := by
    rw [lookup_put _ _ _ _ (by simp), if_neg (by simp), hat]
  exact walk_back hkept (by decide +kernel) hmade

theorem makeParents_twoDots (hat : t.lookup t.current = some .directory)
    (hmissing : t.lookup (t.current ++ ["a"]) = none) :
    t.makeParents "a/../b" = (t.put (t.current ++ ["a"]) .directory, .ok ()) := by
  have hparent : Path.parent? "a/../b" = some "a/.." := by decide +kernel
  have hall : Path.withAncestors "a/.." = ["a/..", "a", ""] := by decide +kernel
  have hpieces : Path.pieces "a/.." = ["a", ".."] := by decide +kernel
  have hfirst : Path.pieces "a" = ["a"] := by decide +kernel
  have habove : t.makeDirectory "a/.." = .error .notFound := by
    rw [makeDirectory, if_neg (by decide +kernel),
      resolve_beyond (by decide +kernel) (by decide +kernel) hpieces (by simp)
        (by decide +kernel) hat hmissing]
  have hmade : t.makeDirectory "a" = .ok (t.put (t.current ++ ["a"]) .directory) := by
    rw [makeDirectory, if_neg (by decide +kernel),
      resolve_relative (by decide +kernel) (by decide +kernel), hfirst,
      walk_missing hat (by decide +kernel) hmissing, if_pos rfl]
  -- The path above leads back to the working directory now, so nothing is left to make.
  have hback (follow : Bool) : (t.put (t.current ++ ["a"]) .directory).resolve follow "a/.." =
      .ok (.existing t.current .directory) := by
    rw [resolve_relative (by decide +kernel) (by decide +kernel), hpieces]
    refine (walk_put_back hat follow []).trans ?_
    rw [FileTree.walk, lookup_put _ _ _ _ (by simp), if_neg (by simp), hat]
  have hagain : (t.put (t.current ++ ["a"]) .directory).makeDirectory "a/.." =
      .error .alreadyExists := by
    rw [makeDirectory, if_neg (by decide +kernel), hback]
  have hthere : (t.put (t.current ++ ["a"]) .directory).isDirectory "a/.." = true := by
    rw [isDirectory, target?, hback, decide_eq_true rfl]
  simp [makeParents, hparent, makeDirectories, hall, makeAll, habove, hmade, hagain, hthere]

/-- With two dots there may be a file: once the directory is made, they lead out of it again. -/
theorem leadsLater_twoDots (hat : t.lookup t.current = some .directory)
    (hmissing : t.lookup (t.current ++ ["a"]) = none)
    (hthere : t.lookup (t.current ++ ["b"]) = some (.file bytes)) :
    t.LeadsLater "a/../b" (t.current ++ ["b"]) := by
  have hpieces : Path.pieces "a/../b" = ["a", "..", "b"] := by decide +kernel
  have hbefore : t.resolve true "a/../b" = .error .notFound :=
    resolve_beyond (by decide +kernel) (by decide +kernel) hpieces (by simp) (by decide +kernel)
      hat hmissing
  have hkept {place : List String} (hplace : place ≠ t.current ++ ["a"]) :
      (t.put (t.current ++ ["a"]) .directory).lookup place = t.lookup place := by
    rw [lookup_put _ _ _ _ (by simp), if_neg hplace]
  have hafter : (t.put (t.current ++ ["a"]) .directory).resolve true "a/../b" =
      .ok (.existing (t.current ++ ["b"]) (.file bytes)) := by
    rw [resolve_relative (by decide +kernel) (by decide +kernel), hpieces]
    refine (walk_put_back hat true ["b"]).trans ?_
    have hfile := (hkept (by simp)).trans hthere
    rw [walk_entry ((hkept (by simp)).trans hat) (by decide +kernel) hfile (by simp),
      FileTree.walk, hfile]
  refine ⟨?_, _, makeParents_twoDots hat hmissing, ?_⟩
  · rw [exists?, target?, hbefore]
    rfl
  · rw [writePlace, if_neg (by decide +kernel), hafter]

end PromptFiles.FileTree
