import PromptFiles.FileTree.Access

/-!
# Parents of paths

A path leads where its parent leads and then to one name more, whatever slashes and single dots
stand between or at the end: `names_parent?`.
-/

namespace PromptFiles.Path

def names (path : String) : List String :=
  (pieces path).filter fun piece => (component? piece).isSome

theorem slash_not_mem_of_pieces (h : piece ∈ pieces path) : '/' ∉ piece.toList := by
  obtain ⟨cs, hcs, rfl⟩ := List.mem_map.mp h
  rw [String.toList_ofList]
  exact Text.not_mem_of_mem_split hcs

theorem toList_intercalate_slash (front : List String) :
    ("/".intercalate front).toList = Text.join '/' (front.map String.toList) := by
  rw [String.toList_intercalate, Text.join_eq_intercalate]
  rfl

theorem pieces_intercalate {front : List String} (hne : front ≠ [])
    (h : ∀ piece ∈ front, '/' ∉ piece.toList) : pieces ("/".intercalate front) = front := by
  rw [pieces, toList_intercalate_slash, Text.split_join (by simpa using hne), List.map_map]
  · simp [Function.comp_def]
  · intro cs hcs
    obtain ⟨piece, hpiece, rfl⟩ := List.mem_map.mp hcs
    exact h piece hpiece

theorem saysDirectory_intercalate {front : List String} {last : String}
    (hlast : last ≠ "") (h : '/' ∉ last.toList) :
    FileTree.saysDirectory ("/".intercalate (front ++ [last])) = false := by
  obtain ⟨before, hjoin⟩ := Text.exists_join_append '/' (front.map String.toList) last.toList
  obtain ⟨c, hc⟩ : ∃ c, last.toList.getLast? = some c :=
    Option.ne_none_iff_exists'.mp (by simpa using hlast)
  have hend : ("/".intercalate (front ++ [last])).toList.getLast? = some c := by
    rw [toList_intercalate_slash, List.map_append, List.map_singleton, hjoin, List.getLast?_append,
      hc, Option.some_or]
  have hslash : some c ≠ some '/' := by
    rintro ⟨rfl⟩
    exact h (List.mem_of_getLast? hc)
  rw [FileTree.saysDirectory, hend, decide_eq_false hslash, Bool.false_and]

theorem isAbsolute_iff : isAbsolute path = true ↔ path ≠ "" ∧ (pieces path).head? = some "" := by
  have hempty : path ≠ "" ↔ path.toList ≠ [] := by simp
  rw [isAbsolute, pieces, hempty]
  cases path.toList with
  | nil => simp [Text.split]
  | cons c cs =>
    rw [Text.split]
    by_cases hc : c = '/'
    · simp [hc]
    · rw [if_neg hc]
      cases hs : Text.split '/' cs with
      | nil => exact absurd hs (Text.split_ne_nil '/' cs)
      | cons first others => simp [hc]

theorem names_eq {front skipped after : List String}
    (hpieces : pieces path = front ++ (skipped ++ name :: after))
    (hskipped : ∀ piece ∈ skipped ++ after, component? piece = none)
    (hname : component? name ≠ none) :
    names path = front.filter (fun piece => (component? piece).isSome) ++ [name] := by
  have hnone (ps : List String) (hps : ∀ p ∈ ps, component? p = none) :
      ps.filter (fun p => (component? p).isSome) = [] := by
    rw [List.filter_eq_nil_iff]
    intro p hp
    simp [hps p hp]
  rw [names, hpieces, List.filter_append, List.filter_append, List.filter_cons_of_pos,
    hnone skipped, hnone after, List.nil_append]
  · exact fun p hp => hskipped p (List.mem_append_right _ hp)
  · exact fun p hp => hskipped p (List.mem_append_left _ hp)
  · exact Option.isSome_iff_ne_none.mpr hname

/-- The parent of a path, if it is not empty, is the same path without its last name. -/
theorem names_parent? (h : parent? path = some up) (hup : up ≠ "") :
    isAbsolute up = isAbsolute path ∧ FileTree.saysDirectory up = false ∧
      ∃ name, (component? name).isSome = true ∧ names path = names up ++ [name] := by
  obtain ⟨front, skipped, name, after, hpieces, hskipped, -, hname, hlast, hjoined⟩ :=
    parent?_spec h
  have hfront : front ≠ [] := by
    rintro rfl
    exact hup hjoined
  have hslash : ∀ piece ∈ front, '/' ∉ piece.toList := by
    intro piece hpiece
    have hmem : piece ∈ pieces path := by simp [hpieces, hpiece]
    exact slash_not_mem_of_pieces hmem
  have hnames := names_eq hpieces hskipped (hname hfront)
  have hpath : path ≠ "" := by
    rintro rfl
    simp [names, pieces, Text.split, component?] at hnames
  have hhead : (pieces path).head? = front.head? := by
    cases hf : front with
    | nil => exact absurd hf hfront
    | cons first others => rw [hpieces, hf, List.cons_append, List.head?_cons, List.head?_cons]
  -- The root is the one parent with a slash at its end, so its pieces are not those of the path.
  by_cases hroot : front = [""]
  · rw [if_pos hroot] at hjoined
    subst hjoined
    refine ⟨?_, by decide, name, Option.isSome_iff_ne_none.mpr (hname hfront), ?_⟩
    · rw [isAbsolute_iff.mpr ⟨hpath, by rw [hhead, hroot]; rfl⟩]
      decide
    · rw [hnames, hroot]
      rfl
  · rw [if_neg hroot] at hjoined
    have hpiecesUp : pieces up = front := by
      rw [hjoined, pieces_intercalate hfront hslash]
    refine ⟨?_, ?_, name, Option.isSome_iff_ne_none.mpr (hname hfront), ?_⟩
    · rw [Bool.eq_iff_iff, isAbsolute_iff, isAbsolute_iff, hhead, hpiecesUp]
      simp [hup, hpath]
    · have hfrontLast := List.dropLast_concat_getLast hfront
      rw [hjoined, ← hfrontLast]
      refine saysDirectory_intercalate ?_ (hslash _ (List.getLast_mem hfront))
      intro hempty
      rcases hlast _ (List.getLast?_eq_some_getLast hfront) with hone | hsome
      · exact hroot (by rw [hone, hempty])
      · rw [hempty] at hsome
        exact hsome rfl
    · rw [hnames, names, hpiecesUp]

end PromptFiles.Path
