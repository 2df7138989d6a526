/-!
# Cutting a text at a separator

A text is cut at every occurrence of a character, so there is always one piece more
than there are separators. Joining the pieces again gives the text back.
-/

namespace PromptFiles.Text

def split (sep : Char) : List Char → List (List Char)
  | [] => [[]]
  | c :: rest =>
    if c = sep then [] :: split sep rest
    else
      match split sep rest with
      | [] => [[c]]
      | piece :: others => (c :: piece) :: others

def join (sep : Char) : List (List Char) → List Char
  | [] => []
  | [piece] => piece
  | piece :: others => piece ++ sep :: join sep others

@[simp] theorem split_ne_nil (sep : Char) (cs : List Char) : split sep cs ≠ [] := by
  cases cs with
  | nil => simp [split]
  | cons c rest =>
    unfold split
    split
    · simp
    · split <;> simp

@[simp] theorem join_split (sep : Char) (cs : List Char) : join sep (split sep cs) = cs := by
  induction cs with
  | nil => rfl
  | cons c rest ih =>
    have hne := split_ne_nil sep rest
    unfold split
    split
    · subst c
      cases h : split sep rest with
      | nil => exact absurd h hne
      | cons piece others => rw [h] at ih; simp [join, ih]
    · cases h : split sep rest with
      | nil => exact absurd h hne
      | cons piece others => rw [h] at ih; cases others <;> simp_all [join]

theorem not_mem_of_mem_split {sep : Char} {cs piece : List Char} (h : piece ∈ split sep cs) :
    sep ∉ piece := by
  induction cs generalizing piece with
  | nil => simp_all [split]
  | cons c rest ih =>
    unfold split at h
    split at h
    · rcases List.mem_cons.mp h with rfl | h
      · simp
      · exact ih h
    · cases hs : split sep rest with
      | nil => exact absurd hs (split_ne_nil sep rest)
      | cons first others =>
        rw [hs] at h ih
        rcases List.mem_cons.mp h with rfl | h
        · have := @ih first (by simp)
          simp_all [eq_comm]
        · exact ih (by simp [h])

theorem split_of_not_mem {sep : Char} {cs : List Char} (h : sep ∉ cs) : split sep cs = [cs] := by
  induction cs with
  | nil => rfl
  | cons c rest ih =>
    simp only [List.mem_cons, not_or] at h
    rw [split, if_neg (Ne.symm h.1), ih h.2]

theorem split_append_cons {sep : Char} {cs : List Char} (h : sep ∉ cs) (rest : List Char) :
    split sep (cs ++ sep :: rest) = cs :: split sep rest := by
  induction cs with
  | nil => simp [split]
  | cons c cs ih =>
    simp only [List.mem_cons, not_or] at h
    rw [List.cons_append, split, if_neg (Ne.symm h.1), ih h.2]

theorem split_append_sep (sep : Char) (before after : List Char) :
    split sep (before ++ sep :: after) = split sep before ++ split sep after := by
  induction before with
  | nil => simp [split]
  | cons c cs ih =>
    rw [List.cons_append, split, split]
    split
    · rw [ih, List.cons_append]
    · rw [ih]
      cases h : split sep cs with
      | nil => exact absurd h (split_ne_nil sep cs)
      | cons piece others => rfl

theorem split_join {sep : Char} {pieces : List (List Char)} (hne : pieces ≠ [])
    (h : ∀ piece ∈ pieces, sep ∉ piece) : split sep (join sep pieces) = pieces := by
  induction pieces with
  | nil => exact absurd rfl hne
  | cons piece others ih =>
    have hpiece := h piece List.mem_cons_self
    cases others with
    | nil => exact split_of_not_mem hpiece
    | cons next others =>
      have hrest := ih (by simp) fun p hp => h p (List.mem_cons_of_mem _ hp)
      rw [join, split_append_cons hpiece, hrest]
      simp

theorem join_eq_intercalate (sep : Char) (pieces : List (List Char)) :
    join sep pieces = [sep].intercalate pieces := by
  induction pieces with
  | nil => rfl
  | cons piece others ih =>
    cases others with
    | nil => rw [join, List.intercalate_singleton]
    | cons next others =>
      rw [join, ih, List.intercalate_cons_cons, List.append_assoc, List.singleton_append]
      simp

theorem exists_join_append (sep : Char) (pieces : List (List Char)) (last : List Char) :
    ∃ before, join sep (pieces ++ [last]) = before ++ last := by
  induction pieces with
  | nil => exact ⟨[], rfl⟩
  | cons piece others ih =>
    obtain ⟨before, hbefore⟩ := ih
    refine ⟨piece ++ sep :: before, ?_⟩
    rw [List.cons_append, join, hbefore, List.append_assoc, List.cons_append]
    simp

theorem length_dropWhile_le (p : Char → Bool) (cs : List Char) :
    (cs.dropWhile p).length ≤ cs.length :=
  (List.dropWhile_suffix p).length_le

end PromptFiles.Text
