import Mathlib.Data.List.Lex
import Mathlib.Data.String.Basic
import PromptFiles.Proofs.FileTree.Parents

/-!
# Paths below a directory

The components of a path below a directory are those of the directory and then the names, so
paths below one directory are in the order of their names: `less_below_iff`.
-/

namespace PromptFiles.Path

variable {names : List String} {name path root : String}

def IsEntryName (name : String) : Prop :=
  name ≠ "" ∧ name ≠ "." ∧ name ≠ ".." ∧ '/' ∉ name.toList

instance (name : String) : Decidable (IsEntryName name) :=
  inferInstanceAs (Decidable (_ ∧ _))

-- ---------------------------------------------------------------------------
-- Components
-- ---------------------------------------------------------------------------

theorem component?_of_isEntryName (h : IsEntryName name) :
    component? name = some (.normal name) := by
  obtain ⟨hempty, hcurrent, hup, -⟩ := h
  unfold component?
  split <;> simp_all

theorem pieces_append_slash (directory path : String) :
    pieces (directory ++ "/" ++ path) = pieces directory ++ pieces path := by
  have htext : (directory ++ "/" ++ path).toList = directory.toList ++ '/' :: path.toList := by
    simp
  rw [pieces, htext, Text.split_append_sep, List.map_append, pieces, pieces]

theorem exists_pieces_cons (path : String) : ∃ piece rest, pieces path = piece :: rest :=
  List.exists_cons_of_ne_nil (by simp [pieces])

theorem pieces_slash (directory : String) :
    pieces (directory ++ "/") = pieces directory ++ [""] := by
  have h := pieces_append_slash directory ""
  rwa [String.append_empty] at h

theorem components_append_slash (directory path : String) :
    components (directory ++ "/" ++ path) =
      components (directory ++ "/") ++ (pieces path).filterMap component? := by
  obtain ⟨piece, rest, hpieces⟩ := exists_pieces_cons directory
  obtain ⟨first, more, hpath⟩ := exists_pieces_cons path
  have hmore (last : String) (others : List String) :
      (rest ++ last :: others).isEmpty = false := by simp
  simp [components, pieces_append_slash, pieces_slash, hpieces, hpath, component?, hmore]

theorem components_slash {directory : String} (h : directory ≠ "") :
    components (directory ++ "/") = components directory := by
  obtain ⟨piece, rest, hpieces⟩ := exists_pieces_cons directory
  -- Only the empty path is a single empty piece.
  have hfirst : first? piece rest.isEmpty = first? piece false := by
    cases rest with
    | cons next others => rfl
    | nil =>
      have hpiece : piece ≠ "" := by
        rintro rfl
        have hjoin := Text.join_split '/' directory.toList
        rw [pieces, List.map_eq_singleton_iff] at hpieces
        obtain ⟨cs, hsplit, hcs⟩ := hpieces
        simp_all [Text.join]
      simp [first?, hpiece]
  have hmore : (rest ++ [""]).isEmpty = false := by simp
  simp [components, pieces_slash, hpieces, component?, hfirst, hmore]

theorem pieces_of_isEntryName (h : IsEntryName name) : pieces name = [name] := by
  obtain ⟨-, -, -, hslash⟩ := h
  rw [pieces, Text.split_of_not_mem hslash, List.map_singleton, String.ofList_toList]

theorem isAbsolute_of_isEntryName (h : IsEntryName name) : isAbsolute name = false := by
  obtain ⟨-, -, -, hslash⟩ := h
  rw [isAbsolute, decide_eq_false]
  exact fun hhead => hslash (List.mem_of_mem_head? hhead)

-- ---------------------------------------------------------------------------
-- One name more
-- ---------------------------------------------------------------------------

theorem exists_join (hpath : path ≠ "") (h : IsEntryName name) :
    ∃ directory, join path name = directory ++ "/" ++ name ∧
      (path = directory ∨ path = directory ++ "/") := by
  unfold join
  rw [isAbsolute_of_isEntryName h, if_neg Bool.false_ne_true, if_neg hpath]
  split
  · rename_i hslash
    obtain ⟨cs, hcs⟩ := List.getLast?_eq_some_iff.mp hslash
    obtain rfl : path = String.ofList cs ++ "/" := by
      rw [← String.toList_inj, hcs]
      simp
    exact ⟨String.ofList cs, rfl, .inr rfl⟩
  · exact ⟨path, rfl, .inl rfl⟩

theorem components_join (hpath : path ≠ "") (h : IsEntryName name) :
    components (join path name) = components path ++ [.normal name] := by
  obtain ⟨directory, hjoin, rfl | rfl⟩ := exists_join hpath h
  · rw [hjoin, components_append_slash, components_slash hpath, pieces_of_isEntryName h]
    simp [component?_of_isEntryName h]
  · rw [hjoin, components_append_slash, pieces_of_isEntryName h]
    simp [component?_of_isEntryName h]

/-- A slash at the end of the path is the slash before the name. -/
theorem exists_pieces_join (hpath : path ≠ "") (h : IsEntryName name) :
    ∃ front, pieces (join path name) = front ++ [name] ∧
      (pieces path = front ∨ pieces path = front ++ [""]) := by
  obtain ⟨directory, hjoin, hdirectory⟩ := exists_join hpath h
  refine ⟨pieces directory, ?_, ?_⟩
  · rw [hjoin, pieces_append_slash, pieces_of_isEntryName h]
  · rcases hdirectory with rfl | rfl
    · exact .inl rfl
    · exact .inr (pieces_slash directory)

theorem isAbsolute_join (hpath : path ≠ "") (h : IsEntryName name) :
    isAbsolute (join path name) = isAbsolute path := by
  obtain ⟨directory, hjoin, rfl | rfl⟩ := exists_join hpath h
  · have hne : path.toList ≠ [] := by simpa using hpath
    simp [hjoin, isAbsolute, List.head?_append_of_ne_nil _ hne]
  · simp [hjoin, isAbsolute, List.head?_append]

theorem utf8ByteSize_join (hpath : path ≠ "") (h : IsEntryName name) :
    path.utf8ByteSize < (join path name).utf8ByteSize := by
  obtain ⟨hname, -⟩ := id h
  have hpos : 0 < name.utf8ByteSize := by
    rw [Nat.pos_iff_ne_zero, Ne, String.utf8ByteSize_eq_zero_iff]
    exact hname
  obtain ⟨directory, hjoin, rfl | rfl⟩ := exists_join hpath h
  · simp only [hjoin, String.utf8ByteSize_append]
    omega
  · simp only [hjoin, String.utf8ByteSize_append]
    omega

theorem join_ne_empty (hpath : path ≠ "") (h : IsEntryName name) : join path name ≠ "" := by
  have hlonger := utf8ByteSize_join hpath h
  intro hempty
  rw [hempty] at hlonger
  exact absurd hlonger (by simp)

-- ---------------------------------------------------------------------------
-- More names
-- ---------------------------------------------------------------------------

theorem below_concat (root : String) (names : List String) (name : String) :
    below root (names ++ [name]) = join (below root names) name := by
  rw [below, List.foldl_append]
  rfl

theorem components_below (hroot : root ≠ "") (h : ∀ name ∈ names, IsEntryName name) :
    components (below root names) = components root ++ names.map .normal := by
  induction names generalizing root with
  | nil => simp [below]
  | cons name rest ih =>
    rw [List.forall_mem_cons] at h
    have hbelow : below root (name :: rest) = below (join root name) rest := rfl
    rw [hbelow, ih (join_ne_empty hroot h.1) h.2, components_join hroot h.1]
    simp

theorem length_lt_below (hroot : root ≠ "") (h : ∀ name ∈ names, IsEntryName name) :
    names.length < (below root names).utf8ByteSize := by
  suffices root.utf8ByteSize + names.length ≤ (below root names).utf8ByteSize by
    have hpos : root.utf8ByteSize ≠ 0 := by rwa [Ne, String.utf8ByteSize_eq_zero_iff]
    omega
  induction names generalizing root with
  | nil => simp [below]
  | cons name rest ih =>
    rw [List.forall_mem_cons] at h
    have hmore := ih (join_ne_empty hroot h.1) h.2
    have hone := utf8ByteSize_join hroot h.1
    have hbelow : below root (name :: rest) = below (join root name) rest := rfl
    rw [hbelow, List.length_cons]
    omega

-- ---------------------------------------------------------------------------
-- Order
-- ---------------------------------------------------------------------------

theorem Component.less_self (c : Component) : c.less c = false := by
  simp [Component.less]

theorem Component.normal_less_iff {a b : String} :
    (normal a).less (normal b) = true ↔ a < b := by
  show (decide (3 < 3) || (3 == 3 && decide (a < b))) = true ↔ a < b
  simp

theorem lessComponents_append (common as bs : List Component) :
    lessComponents (common ++ as) (common ++ bs) = lessComponents as bs := by
  induction common with
  | nil => rfl
  | cons c rest ih => simp [lessComponents, Component.less_self, ih]

theorem lessComponents_normal (as bs : List String) :
    lessComponents (as.map .normal) (bs.map .normal) = true ↔ as < bs := by
  induction as generalizing bs with
  | nil => cases bs <;> simp [lessComponents]
  | cons a as ih =>
    cases bs with
    | nil => simp [lessComponents]
    | cons b bs =>
      simp [lessComponents, Component.normal_less_iff, ih, List.cons_lt_cons_iff]

/-- Below one directory the order of paths is that of their names, one by one. -/
theorem less_below_iff (hroot : root ≠ "") (has : ∀ name ∈ as, IsEntryName name)
    (hbs : ∀ name ∈ bs, IsEntryName name) :
    less (below root as) (below root bs) = true ↔ as < bs := by
  rw [less, components_below hroot has, components_below hroot hbs, lessComponents_append,
    lessComponents_normal]

end PromptFiles.Path
