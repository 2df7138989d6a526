import Mathlib.Data.List.TakeWhile
import PromptFiles.Text.Blank
import PromptFiles.Text.Margin

/-!
# Lines of joined texts

`ended` is the text of lines that all end in a line feed. Such a text may be cut off from
what follows it: `lines_ended_append`. Every text is some ended lines and a last line
without a line feed (`ended_append_last`).
-/

namespace PromptFiles.Text

def ended (ls : List Line) : List Char :=
  ls.flatMap (· ++ ['\n'])

@[simp] theorem ended_nil : ended [] = [] := rfl

@[simp] theorem ended_cons (l : Line) (ls : List Line) :
    ended (l :: ls) = l ++ '\n' :: ended ls := by
  simp [ended]

@[simp] theorem ended_append (ls ms : List Line) : ended (ls ++ ms) = ended ls ++ ended ms := by
  simp [ended]

def Unbroken (ls : List Line) : Prop :=
  ∀ l ∈ ls, '\n' ∉ l

theorem unbroken_append {ls ms : List Line} : Unbroken (ls ++ ms) ↔ Unbroken ls ∧ Unbroken ms := by
  simp only [Unbroken, List.mem_append, or_imp, forall_and]

theorem unbroken_cons {l : Line} {ls : List Line} :
    Unbroken (l :: ls) ↔ '\n' ∉ l ∧ Unbroken ls := by
  simp [Unbroken]

theorem lines_unbroken {l : Line} (h : '\n' ∉ l) : lines l = [l] :=
  split_of_not_mem h

theorem lines_cons {l : Line} (h : '\n' ∉ l) (rest : List Char) :
    lines (l ++ '\n' :: rest) = l :: lines rest :=
  split_append_cons h rest

theorem lines_ended_append {ls : List Line} (h : Unbroken ls) (rest : List Char) :
    lines (ended ls ++ rest) = ls ++ lines rest := by
  induction ls with
  | nil => rfl
  | cons l ls ih =>
    obtain ⟨hl, hls⟩ := unbroken_cons.mp h
    rw [ended_cons, List.append_assoc, List.cons_append, lines_cons hl, ih hls, List.cons_append]

theorem lines_ended {ls : List Line} (h : Unbroken ls) : lines (ended ls) = ls ++ [[]] := by
  rw [← List.append_nil (ended ls), lines_ended_append h]
  rfl

theorem unbroken_lines (cs : List Char) : Unbroken (lines cs) :=
  fun _ => not_mem_of_mem_split

theorem unbroken_dropLast_lines (cs : List Char) : Unbroken (lines cs).dropLast :=
  fun l hl => unbroken_lines cs l ((List.dropLast_sublist _).mem hl)

theorem unlines_append (ls : List Line) {ms : List Line} (h : ms ≠ []) :
    unlines (ls ++ ms) = ended ls ++ unlines ms := by
  induction ls with
  | nil => rfl
  | cons l ls ih =>
    have hne : ls ++ ms ≠ [] := fun he => h (List.append_eq_nil_iff.mp he).2
    have hjoin : unlines (l :: (ls ++ ms)) = l ++ '\n' :: unlines (ls ++ ms) := by
      cases hr : ls ++ ms with
      | nil => exact absurd hr hne
      | cons n ns => rfl
    rw [List.cons_append, hjoin, ih, ended_cons]
    simp

theorem ended_eq_unlines {ls : List Line} (h : ls ≠ []) : ended ls = unlines ls ++ ['\n'] := by
  rw [← List.dropLast_concat_getLast h, unlines_append _ (by simp), ended_append]
  simp [unlines, join]

theorem ended_append_last (cs : List Char) :
    ∃ last, '\n' ∉ last ∧ lines cs = (lines cs).dropLast ++ [last] ∧
      cs = ended (lines cs).dropLast ++ last := by
  have hne : lines cs ≠ [] := split_ne_nil '\n' cs
  have hlast := List.dropLast_concat_getLast hne
  refine ⟨(lines cs).getLast hne, unbroken_lines cs _ (List.getLast_mem hne), hlast.symm, ?_⟩
  have h := unlines_append (lines cs).dropLast (List.cons_ne_nil ((lines cs).getLast hne) [])
  rw [hlast, unlines_lines] at h
  exact h

theorem mem_iff_lines {c : Char} {cs : List Char} (hn : c ≠ '\n') :
    c ∈ cs ↔ ∃ l ∈ lines cs, c ∈ l := by
  obtain ⟨last, -, hlines, hcs⟩ := ended_append_last cs
  generalize (lines cs).dropLast = init at hlines hcs
  rw [hlines, hcs]
  simp [ended, hn, or_and_right, exists_or]

theorem lines_dropLast_unbroken {l : Line} (h : '\n' ∉ l) : (lines l).dropLast = [] := by
  rw [lines_unbroken h]
  rfl

-- ---------------------------------------------------------------------------
-- Trimming
-- ---------------------------------------------------------------------------

theorem trimStart_eq_nil {cs : List Char} : trimStart cs = [] ↔ ∀ c ∈ cs, isBlank c = true :=
  List.dropWhile_eq_nil_iff

theorem trimStart_eq_self {cs : List Char} (h : ∀ c ∈ cs.head?, isBlank c = false) :
    trimStart cs = cs := by
  cases cs with
  | nil => rfl
  | cons c cs => simp [trimStart, h c (by simp)]

theorem trimEnd_eq_self {cs : List Char} (h : ∀ c ∈ cs.getLast?, isBlank c = false) :
    trimEnd cs = cs := by
  have hstart : cs.reverse.dropWhile isBlank = cs.reverse :=
    trimStart_eq_self (by rwa [List.head?_reverse])
  rw [trimEnd, hstart, List.reverse_reverse]

theorem trim_eq_self {cs : List Char} (hfirst : ∀ c ∈ cs.head?, isBlank c = false)
    (hlast : ∀ c ∈ cs.getLast?, isBlank c = false) : trim cs = cs := by
  rw [trim, trimStart_eq_self hfirst, trimEnd_eq_self hlast]

theorem head?_trimStart (cs : List Char) : ∀ c ∈ (trimStart cs).head?, isBlank c = false := by
  intro c hc
  have h := List.head?_dropWhile_not isBlank cs
  rw [show cs.dropWhile isBlank = trimStart cs from rfl, hc] at h
  simpa using h

theorem getLast?_trimEnd (cs : List Char) : ∀ c ∈ (trimEnd cs).getLast?, isBlank c = false := by
  intro c hc
  rw [trimEnd, List.getLast?_reverse] at hc
  exact head?_trimStart cs.reverse c hc

theorem exists_trimEnd_append (cs : List Char) :
    ∃ es, cs = trimEnd cs ++ es ∧ ∀ c ∈ es, isBlank c = true := by
  refine ⟨(cs.reverse.takeWhile isBlank).reverse, ?_, fun c hc => ?_⟩
  · rw [trimEnd, ← List.reverse_append, List.takeWhile_append_dropWhile, List.reverse_reverse]
  · exact List.mem_takeWhile_imp (List.mem_reverse.mp hc)

theorem exists_append_trim_append (cs : List Char) :
    ∃ bs es, cs = bs ++ (trim cs ++ es) ∧ ∀ c ∈ bs ++ es, isBlank c = true := by
  obtain ⟨es, hes, hblank⟩ := exists_trimEnd_append (trimStart cs)
  refine ⟨cs.takeWhile isBlank, es, ?_, fun c hc => ?_⟩
  · rw [trim, ← hes, trimStart, List.takeWhile_append_dropWhile]
  · rcases List.mem_append.mp hc with hc | hc
    · exact List.mem_takeWhile_imp hc
    · exact hblank c hc

theorem mem_trim (h : c ∈ cs) (hb : isBlank c = false) : c ∈ trim cs := by
  obtain ⟨bs, es, hcs, hblank⟩ := exists_append_trim_append cs
  have hout : c ∉ bs ++ es := fun hc => by rw [hblank c hc] at hb; cases hb
  rw [hcs, List.mem_append, List.mem_append] at h
  rcases h with h | h | h
  · exact absurd (List.mem_append_left es h) hout
  · exact h
  · exact absurd (List.mem_append_right bs h) hout

theorem mem_of_mem_trim (h : c ∈ trim cs) : c ∈ cs := by
  obtain ⟨bs, es, hcs, -⟩ := exists_append_trim_append cs
  rw [hcs]
  simp [h]

theorem getLast?_trim (cs : List Char) : ∀ c ∈ (trim cs).getLast?, isBlank c = false :=
  getLast?_trimEnd (trimStart cs)

theorem head?_trim (cs : List Char) : ∀ c ∈ (trim cs).head?, isBlank c = false := by
  intro c hc
  obtain ⟨es, hes, -⟩ := exists_trimEnd_append (trimStart cs)
  refine head?_trimStart cs c ?_
  rw [hes, List.head?_append, show trimEnd (trimStart cs) = trim cs from rfl, hc]
  rfl

theorem trim_trim (cs : List Char) : trim (trim cs) = trim cs :=
  trim_eq_self (head?_trim cs) (getLast?_trim cs)

theorem trimStart_blank_append {bs : List Char} (hb : ∀ c ∈ bs, isBlank c = true)
    (cs : List Char) : trimStart (bs ++ cs) = trimStart cs :=
  List.dropWhile_append_of_pos hb

theorem trimEnd_append_blank {bs : List Char} (hb : ∀ c ∈ bs, isBlank c = true)
    (cs : List Char) : trimEnd (cs ++ bs) = trimEnd cs := by
  rw [trimEnd, List.reverse_append,
    List.dropWhile_append_of_pos fun c hc => hb c (List.mem_reverse.mp hc)]
  rfl

theorem trim_blank_append {bs : List Char} (hb : ∀ c ∈ bs, isBlank c = true) (cs : List Char) :
    trim (bs ++ cs) = trim cs := by
  rw [trim, trimStart_blank_append hb, trim]

theorem trim_append_blank {bs : List Char} (hb : ∀ c ∈ bs, isBlank c = true) (cs : List Char) :
    trim (cs ++ bs) = trim cs := by
  by_cases hc : ∀ c ∈ cs, isBlank c = true
  · rw [trim_blank_append hc, ← List.append_nil cs, trim_blank_append hc, trim, trim,
      trimStart_eq_nil.mpr hb]
    rfl
  · have hne : ¬(cs.dropWhile isBlank).isEmpty := fun he =>
      hc (trimStart_eq_nil.mp (List.isEmpty_iff.mp he))
    have hstart : trimStart (cs ++ bs) = trimStart cs ++ bs := by
      rw [trimStart, List.dropWhile_append, if_neg hne, trimStart]
    rw [trim, trim, hstart, trimEnd_append_blank hb]

theorem trimStart_suffix_append (bs cs : List Char) : trimStart cs <:+ trimStart (bs ++ cs) := by
  rw [trimStart, trimStart, List.dropWhile_append]
  split
  · exact List.suffix_refl _
  · exact (List.dropWhile_suffix _).trans (List.suffix_append _ _)

theorem trimEnd_suffix_append (bs cs : List Char) : trimEnd cs <:+ trimEnd (bs ++ cs) := by
  rw [trimEnd, trimEnd, List.reverse_append, List.dropWhile_append]
  split
  · rename_i hnil
    rw [List.isEmpty_iff.mp hnil]
    exact List.nil_suffix
  · rw [List.reverse_append, List.reverse_reverse]
    exact List.suffix_append _ _

theorem trim_suffix_append (bs cs : List Char) : trim cs <:+ trim (bs ++ cs) := by
  obtain ⟨ds, hds⟩ := trimStart_suffix_append bs cs
  rw [trim, trim, ← hds]
  exact trimEnd_suffix_append ds _

theorem isBlank_newline : ∀ c ∈ ['\n'], isBlank c = true := by
  intro c hc
  rw [List.mem_singleton.mp hc]
  decide

theorem trim_ended (ls : List Line) : trim (ended ls) = trim (unlines ls) := by
  by_cases h : ls = []
  · rw [h]; rfl
  · rw [ended_eq_unlines h, trim_append_blank isBlank_newline]

end PromptFiles.Text
