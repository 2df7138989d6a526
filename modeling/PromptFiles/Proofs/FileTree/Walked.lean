import PromptFiles.Proofs.FileTree.Named

/-!
# What a walk comes across

A walk opens each directory under its path. Where that can be done, it is led to the directory in
which it came across the name (`openDirectory_join`), so it comes across the entries below, as deep
as it may go, each once (`mem_walkBelow` and `once_walkBelow`). Otherwise it comes across a
directory below that cannot be opened: `error_mem_walkBelow`.
-/

namespace PromptFiles.FileTree

variable {t t' : FileTree} {root name path : String} {place above names : List String}
  {entry : Entry} {depth : Nat}

-- ---------------------------------------------------------------------------
-- Directories
-- ---------------------------------------------------------------------------

theorem child_eq_some_iff {child : String × Entry} :
    (if names.dropLast = place then names.getLast?.map fun name => (name, entry) else none) =
      some child ↔ (names, entry) = (place ++ [child.1], child.2) := by
  constructor
  · intro h
    split at h
    · rename_i hplace
      obtain ⟨name, hname, rfl⟩ := Option.map_eq_some_iff.mp h
      obtain ⟨before, rfl⟩ := List.getLast?_eq_some_iff.mp hname
      rw [← hplace, List.dropLast_concat]
    · cases h
  · rintro ⟨⟩
    simp

theorem mem_children :
    (name, entry) ∈ t.children place ↔ t.lookup (place ++ [name]) = some entry := by
  rw [lookup_eq_some_iff (by simp), children, List.mem_filterMap]
  constructor
  · rintro ⟨⟨path, e⟩, hmem, hchild⟩
    exact child_eq_some_iff.mp hchild ▸ hmem
  · intro hmem
    exact ⟨_, hmem, child_eq_some_iff.mpr rfl⟩

theorem nodup_children (t : FileTree) (place : List String) :
    ((t.children place).map Prod.fst).Nodup := by
  refine List.pairwise_map.mpr (List.Pairwise.filterMap _ ?_ (List.pairwise_map.mp t.distinct))
  rintro ⟨path, e⟩ ⟨path', e'⟩ hne child hchild child' hchild' hsame
  obtain ⟨rfl, rfl⟩ := Prod.mk.inj (child_eq_some_iff.mp hchild)
  obtain ⟨rfl, rfl⟩ := Prod.mk.inj (child_eq_some_iff.mp hchild')
  exact hne (by rw [hsame])

theorem openDirectory_eq_ok_iff : t.openDirectory path = .ok place ↔
    t.resolve true path = .ok (.existing place .directory) := by
  unfold openDirectory
  split <;> simp_all

theorem lookup_of_openDirectory (h : t.openDirectory path = .ok place) :
    t.lookup place = some .directory :=
  lookup_of_existing (walk_of_resolve (openDirectory_eq_ok_iff.mp h)).1

theorem ne_empty_of_openDirectory (h : t.openDirectory path = .ok place) : path ≠ "" := by
  rintro rfl
  cases h

theorem utf8ByteSize_le_of_isOk (h : (t.openDirectory path).isOk = true) :
    path.utf8ByteSize ≤ pathLimit := by
  cases hopen : t.openDirectory path with
  | error fault =>
    rw [hopen] at h
    cases h
  | ok place =>
    have hresolve := openDirectory_eq_ok_iff.mp hopen
    unfold resolve at hresolve
    split at hresolve
    · cases hresolve
    split at hresolve
    · cases hresolve
    split at hresolve
    · cases hresolve
    exact Nat.not_lt.mp ‹_›

/-- One name more leads into the directory that has this name. -/
theorem openDirectory_join (hname : Path.IsEntryName name)
    (hopen : t.openDirectory path = .ok place)
    (hchild : t.lookup (place ++ [name]) = some .directory)
    (h : (t.openDirectory (Path.join path name)).isOk = true) :
    t.openDirectory (Path.join path name) = .ok (place ++ [name]) := by
  have hpath := ne_empty_of_openDirectory hopen
  obtain ⟨hwalk, -⟩ := walk_of_resolve (openDirectory_eq_ok_iff.mp hopen)
  cases hmore : t.openDirectory (Path.join path name) with
  | error fault =>
    rw [hmore] at h
    cases h
  | ok other =>
    obtain ⟨hjoin, -⟩ := walk_of_resolve (openDirectory_eq_ok_iff.mp hmore)
    obtain ⟨front, hpieces, hfront⟩ := Path.exists_pieces_join hpath hname
    have hthin : Thinned (Path.pieces path) front := by
      rcases hfront with hfront | hfront
      · exact hfront ▸ .refl front
      · have hslash : Thinned [""] [] := .skip rfl .nil
        simpa [hfront] using hslash.append_left front
    obtain ⟨links, hrest⟩ := walk_append (walk_thinned hwalk hthin)
    rw [hpieces, origin, Path.isAbsolute_join hpath hname, ← origin, hrest] at hjoin
    obtain ⟨hempty, hcurrent, hup, -⟩ := hname
    have hat := lookup_of_openDirectory hopen
    by_cases hlong : nameLimit < name.utf8ByteSize
    · rw [FileTree.walk, if_neg (by simp [hat]), if_neg (by simp [hempty, hcurrent]), if_neg hup,
        if_pos hlong] at hjoin
      cases hjoin
    · rw [walk_entry hat ⟨by simp [hempty, hcurrent], hup, hlong⟩ hchild (by simp), FileTree.walk,
        hchild] at hjoin
      cases hjoin
      rfl

theorem openDirectory_below (hnamed : t.Named)
    (hopen : t.openDirectory (Path.below root above) = .ok place)
    (hchild : t.lookup (place ++ [name]) = some .directory)
    (h : (t.openDirectory (Path.below root (above ++ [name]))).isOk = true) :
    t.openDirectory (Path.below root (above ++ [name])) = .ok (place ++ [name]) := by
  rw [Path.below_concat] at h ⊢
  exact openDirectory_join (hnamed _ _ hchild name (by simp)) hopen hchild h

/-- Every directory below can be opened under its path. -/
def Opens (t : FileTree) (root : String) (place : List String) : Prop :=
  ∀ names, t.Below place names .directory →
    (t.openDirectory (Path.below root names)).isOk = true

theorem Opens.perm (hopens : t.Opens root place) (hcurrent : t'.current = t.current)
    (h : t.entries.Perm t'.entries) : t'.Opens root place := by
  intro names hbelow
  rw [openDirectory, resolve_perm hcurrent h]
  exact hopens names ((Below.congr (lookup_perm h)).mp hbelow)

-- ---------------------------------------------------------------------------
-- Walks
-- ---------------------------------------------------------------------------

theorem mem_walkBelow_succ {item : Except (String × Fault) (List String × Entry)}
    (hopen : t.openDirectory (Path.below root above) = .ok place) :
    item ∈ t.walkBelow root above (depth + 1) ↔
      ∃ name entry, t.lookup (place ++ [name]) = some entry ∧
        (item = .ok (above ++ [name], entry) ∨
          entry = .directory ∧ item ∈ t.walkBelow root (above ++ [name]) depth) := by
  rw [walkBelow, hopen, List.mem_flatMap]
  constructor
  · rintro ⟨⟨name, entry⟩, hchild, hitem⟩
    refine ⟨name, entry, mem_children.mp hchild, ?_⟩
    rcases List.mem_cons.mp hitem with hitem | hitem
    · exact .inl hitem
    · split at hitem
      · exact .inr ⟨‹_›, hitem⟩
      · cases hitem
  · rintro ⟨name, entry, hchild, hitem⟩
    refine ⟨(name, entry), mem_children.mpr hchild, ?_⟩
    rcases hitem with hitem | ⟨hentry, hitem⟩
    · exact List.mem_cons.mpr (.inl hitem)
    · exact List.mem_cons.mpr (.inr (by rwa [if_pos hentry]))

/-- A fault that a walk comes across is that of a directory below. -/
theorem error_mem_walkBelow (hnamed : t.Named)
    (hopen : t.openDirectory (Path.below root above) = .ok place)
    (h : .error (path, fault) ∈ t.walkBelow root above depth) :
    ∃ names, t.Below place names .directory ∧ names.length < depth ∧
      path = Path.below root (above ++ names) ∧ t.openDirectory path = .error fault := by
  have hat := lookup_of_openDirectory hopen
  induction depth generalizing above place with
  | zero => cases h
  | succ depth ih =>
    obtain ⟨name, entry, hchild, hitem | ⟨rfl, hitem⟩⟩ := (mem_walkBelow_succ hopen).mp h
    · cases hitem
    · cases hbelow : t.openDirectory (Path.below root (above ++ [name])) with
      | error fault' =>
        cases depth with
        | zero => cases hitem
        | succ depth =>
          rw [walkBelow, hbelow, List.mem_singleton] at hitem
          cases hitem
          exact ⟨[name], .child hat hchild, by simp, rfl, hbelow⟩
      | ok other =>
        have hopen' := openDirectory_below hnamed hopen hchild (by rw [hbelow]; rfl)
        obtain ⟨names, hnames, hdepth, hpath, hfault⟩ := ih hopen' hitem hchild
        refine ⟨name :: names, .deeper hat hnames, ?_, ?_, hfault⟩
        · rw [List.length_cons]
          omega
        · rw [hpath, List.append_assoc, List.singleton_append]

/-- A walk that comes across no fault has opened the directories that it had to go into. -/
theorem isOk_openDirectory (hnamed : t.Named)
    (hopen : t.openDirectory (Path.below root above) = .ok place)
    (hwalk : ∀ item ∈ t.walkBelow root above depth, item.isOk = true)
    (hbelow : t.Below place names .directory) (hdepth : names.length < depth) :
    (t.openDirectory (Path.below root (above ++ names))).isOk = true := by
  induction names generalizing above place depth with
  | nil => exact absurd rfl (below_iff.mp hbelow).1
  | cons name names ih =>
    obtain ⟨depth, rfl⟩ : ∃ d, depth = d + 2 := ⟨depth - 2, by simp at hdepth; omega⟩
    have hchild : t.lookup (place ++ [name]) = some .directory := by
      cases hbelow with
      | child _ hchild => exact hchild
      | deeper _ hrest => exact hrest.lookup_place
    have hrest (item) (h : item ∈ t.walkBelow root (above ++ [name]) (depth + 1)) :
        item.isOk = true :=
      hwalk item ((mem_walkBelow_succ hopen).mpr ⟨name, _, hchild, .inr ⟨rfl, h⟩⟩)
    have hok : (t.openDirectory (Path.below root (above ++ [name]))).isOk = true := by
      cases h : t.openDirectory (Path.below root (above ++ [name])) with
      | ok _ => rfl
      | error fault =>
        have hfault := hrest (.error (Path.below root (above ++ [name]), fault))
          (by rw [walkBelow, h]; exact List.mem_singleton_self _)
        cases hfault
    cases hbelow with
    | child _ _ => exact hok
    | deeper _ hnames =>
      have hopen' := openDirectory_below hnamed hopen hchild hok
      have h := ih hopen' hrest hnames (by simpa using hdepth)
      rwa [List.append_assoc] at h

theorem mem_walkBelow (hnamed : t.Named)
    (hopen : t.openDirectory (Path.below root above) = .ok place)
    (hopens : ∀ names, t.Below place names .directory → names.length < depth →
      (t.openDirectory (Path.below root (above ++ names))).isOk = true) :
    .ok (names, entry) ∈ t.walkBelow root above depth ↔
      ∃ more, names = above ++ more ∧ t.Below place more entry ∧ more.length ≤ depth := by
  have hat := lookup_of_openDirectory hopen
  induction depth generalizing above place with
  | zero =>
    constructor
    · intro h
      cases h
    · rintro ⟨more, -, hbelow, hdepth⟩
      exact absurd (List.length_eq_zero_iff.mp (Nat.le_zero.mp hdepth)) (below_iff.mp hbelow).1
  | succ depth ih =>
    have hinto {name : String} (hchild : t.lookup (place ++ [name]) = some .directory) (hdepth : 0 < depth) :
        .ok (names, entry) ∈ t.walkBelow root (above ++ [name]) depth ↔
          ∃ more, names = above ++ [name] ++ more ∧ t.Below (place ++ [name]) more entry ∧
            more.length ≤ depth := by
      have hok := hopens [name] (.child hat hchild) (by simpa using hdepth)
      refine ih (openDirectory_below hnamed hopen hchild hok) (fun others hothers hlength => ?_)
        hchild
      have h := hopens (name :: others) (.deeper hat hothers) (by simpa using hlength)
      rwa [List.append_assoc]
    rw [mem_walkBelow_succ hopen]
    constructor
    · rintro ⟨name, e, hchild, hitem | ⟨rfl, hitem⟩⟩
      · cases hitem
        exact ⟨[name], rfl, .child hat hchild, by simp⟩
      · have hdepth : 0 < depth := by
          cases depth with
          | zero => cases hitem
          | succ depth => exact depth.succ_pos
        obtain ⟨more, rfl, hbelow, hlength⟩ := (hinto hchild hdepth).mp hitem
        exact ⟨name :: more, by simp, .deeper hat hbelow, by simpa using hlength⟩
    · rintro ⟨more, rfl, hbelow, hlength⟩
      cases hbelow with
      | @child _ name _ _ hchild => exact ⟨name, entry, hchild, .inl rfl⟩
      | @deeper _ name more _ _ hrest =>
        have hdepth : 0 < depth := by
          have hne := List.length_pos_iff.mpr (below_iff.mp hrest).1
          simp only [List.length_cons] at hlength
          omega
        refine ⟨name, .directory, hrest.lookup_place, .inr ⟨rfl, ?_⟩⟩
        exact (hinto hrest.lookup_place hdepth).mpr
          ⟨more, by simp, hrest, by simpa using hlength⟩

theorem exists_names_walkBelow (h : .ok (names, entry) ∈ t.walkBelow root above depth) :
    ∃ name more, names = above ++ name :: more := by
  induction depth generalizing above with
  | zero => cases h
  | succ depth ih =>
    cases hopen : t.openDirectory (Path.below root above) with
    | error fault =>
      rw [walkBelow, hopen, List.mem_singleton] at h
      cases h
    | ok place =>
      obtain ⟨name, e, -, hitem | ⟨-, hitem⟩⟩ := (mem_walkBelow_succ hopen).mp h
      · cases hitem
        exact ⟨name, [], rfl⟩
      · obtain ⟨next, more, rfl⟩ := ih hitem
        exact ⟨name, next :: more, by simp⟩

theorem once_walkBelow (t : FileTree) (root : String) (above : List String) (depth : Nat) :
    (t.walkBelow root above depth).Pairwise fun a b =>
      ∀ names e e', a = .ok (names, e) → b ≠ .ok (names, e') := by
  induction depth generalizing above with
  | zero => exact .nil
  | succ depth ih =>
    rw [walkBelow]
    split
    · exact List.pairwise_singleton _ _
    rename_i place hopen
    have hnames {child : String × Entry} {names : List String} {e : Entry}
        (h : .ok (names, e) ∈ (.ok (above ++ [child.1], child.2) ::
          if child.2 = .directory then t.walkBelow root (above ++ [child.1]) depth else []
            : List (Except (String × Fault) (List String × Entry)))) :
        ∃ more, names = above ++ child.1 :: more := by
      rcases List.mem_cons.mp h with h | h
      · cases h
        exact ⟨[], rfl⟩
      · split at h
        · obtain ⟨next, more, rfl⟩ := exists_names_walkBelow h
          exact ⟨next :: more, by simp⟩
        · cases h
    refine List.pairwise_flatMap.mpr ⟨fun ⟨name, entry⟩ _ => ?_, ?_⟩
    · refine List.pairwise_cons.mpr ⟨?_, ?_⟩
      · rintro item hitem names e e' ⟨⟩ rfl
        split at hitem
        · obtain ⟨next, more, hsame⟩ := exists_names_walkBelow hitem
          simp at hsame
        · cases hitem
      · split
        · exact ih _
        · exact .nil
    · refine (List.pairwise_map.mp (nodup_children t place)).imp ?_
      rintro child child' hne a ha b hb names e e' rfl rfl
      obtain ⟨more, rfl⟩ := hnames ha
      obtain ⟨more', hsame⟩ := hnames hb
      have htail := List.append_cancel_left hsame
      exact hne (List.cons.inj htail).1

end PromptFiles.FileTree
