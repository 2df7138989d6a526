import PromptFiles.Proofs.Text.Lines

/-!
# Texts without a margin

Removing the margin takes no character but spaces and tabs from a line with content, and
leaves a text whose hollow lines are empty. Trimming such a text takes what is left of the
margin from it: `dedent_trim`, so that doing both again changes nothing.
-/

namespace PromptFiles.Text

-- ---------------------------------------------------------------------------
-- Margins
-- ---------------------------------------------------------------------------

theorem commonPrefix_prefixes (as bs : List Char) :
    commonPrefix as bs <+: as ∧ commonPrefix as bs <+: bs := by
  fun_induction commonPrefix as bs with
  | case1 as b bs ih =>
    exact ⟨List.cons_prefix_cons.mpr ⟨rfl, ih.1⟩, List.cons_prefix_cons.mpr ⟨rfl, ih.2⟩⟩
  | case2 => exact ⟨List.nil_prefix, List.nil_prefix⟩
  | case3 => exact ⟨List.nil_prefix, List.nil_prefix⟩

theorem foldl_commonPrefix_prefixes (first : List Char) (others : List (List Char)) :
    others.foldl commonPrefix first <+: first ∧
      ∀ l ∈ others, others.foldl commonPrefix first <+: l := by
  induction others generalizing first with
  | nil => simp
  | cons l rest ih =>
    obtain ⟨hfirst, hrest⟩ := ih (commonPrefix first l)
    obtain ⟨hleft, hright⟩ := commonPrefix_prefixes first l
    refine ⟨hfirst.trans hleft, fun k hk => ?_⟩
    rcases List.mem_cons.mp hk with rfl | hk
    · exact hfirst.trans hright
    · exact hrest k hk

theorem margin_prefix_indent {l : Line} {ls : List Line} (h : l ∈ ls) (hl : isHollow l = false) :
    margin ls <+: indent l := by
  have hmem : indent l ∈ (ls.filter (!isHollow ·)).map indent :=
    List.mem_map_of_mem (List.mem_filter.mpr ⟨h, by simp [hl]⟩)
  unfold margin
  split
  · exact List.nil_prefix
  · rename_i first others heq
    obtain ⟨hfirst, hothers⟩ := foldl_commonPrefix_prefixes first others
    rw [heq] at hmem
    rcases List.mem_cons.mp hmem with he | hm
    · rw [he]; exact hfirst
    · exact hothers _ hm

theorem margin_cons_hollow {l : Line} (h : isHollow l = true) (ls : List Line) :
    margin (l :: ls) = margin ls := by
  simp [margin, h]

theorem margin_eq_nil {l : Line} {ls : List Line} (h : l ∈ ls) (hl : isHollow l = false)
    (hi : indent l = []) : margin ls = [] := by
  have hp := margin_prefix_indent h hl
  rwa [hi, List.prefix_nil] at hp

theorem isBlank_of_isIndent {c : Char} (h : isIndent c = true) : isBlank c = true := by
  simp only [isIndent, Bool.or_eq_true, beq_iff_eq] at h
  rcases h with rfl | rfl <;> decide

theorem isBlank_of_hollow {l : Line} (h : isHollow l = true) (hc : c ∈ l) : isBlank c = true := by
  rw [← List.takeWhile_append_dropWhile (p := isIndent) (l := l)] at hc
  rcases List.mem_append.mp hc with hc | hc
  · exact isBlank_of_isIndent (List.mem_takeWhile_imp hc)
  · have hreturn := List.all_eq_true.mp h c hc
    rw [beq_iff_eq.mp hreturn]
    decide

theorem isHollow_of_mem {l : Line} (hc : c ∈ l) (hb : isBlank c = false) : isHollow l = false := by
  cases hh : isHollow l with
  | false => rfl
  | true =>
    rw [isBlank_of_hollow hh hc] at hb
    cases hb

theorem isIndent_of_not_isBlank {c : Char} (hb : isBlank c = false) : isIndent c = false := by
  cases hi : isIndent c with
  | false => rfl
  | true =>
    rw [isBlank_of_isIndent hi] at hb
    cases hb

-- ---------------------------------------------------------------------------
-- Removing the margin
-- ---------------------------------------------------------------------------

theorem isHollow_append {bs : List Char} (h : ∀ c ∈ bs, isIndent c = true) (cs : List Char) :
    isHollow (bs ++ cs) = isHollow cs := by
  rw [isHollow, List.dropWhile_append_of_pos h, isHollow]

theorem indent_append (l : Line) : indent l ++ l.dropWhile isIndent = l :=
  List.takeWhile_append_dropWhile

theorem drop_indent {l : Line} (h : w ≤ (indent l).length) :
    l.drop w = (indent l).drop w ++ l.dropWhile isIndent := by
  rw [← List.drop_append_of_le_length h, indent_append]

theorem isIndent_of_mem_indent {l : Line} (h : c ∈ indent l) : isIndent c = true :=
  List.mem_takeWhile_imp h

theorem isHollow_drop {l : Line} (h : w ≤ (indent l).length) :
    isHollow (l.drop w) = isHollow l := by
  have hl : isHollow (indent l ++ l.dropWhile isIndent) = isHollow (l.dropWhile isIndent) :=
    isHollow_append (fun _ => isIndent_of_mem_indent) _
  rw [indent_append] at hl
  rw [drop_indent h, hl]
  exact isHollow_append (fun c hc => isIndent_of_mem_indent (List.mem_of_mem_drop hc)) _

theorem unbroken_outdent {ls : List Line} (h : Unbroken ls) (w : Nat) :
    Unbroken (ls.map (outdent w)) := by
  intro l hl
  obtain ⟨k, hk, rfl⟩ := List.mem_map.mp hl
  unfold outdent
  split
  · simp
  · exact fun hn => h k hk (List.mem_of_mem_drop hn)

theorem lines_unlines {ls : List Line} (h : Unbroken ls) (hne : ls ≠ []) :
    lines (unlines ls) = ls :=
  split_join hne h

theorem lines_dedent (cs : List Char) :
    lines (dedent cs) = (lines cs).map (outdent (margin (lines cs)).length) := by
  refine lines_unlines (unbroken_outdent (unbroken_lines cs) _) ?_
  simp [lines]

/-- Hollow lines are empty. -/
def Tidy (ls : List Line) : Prop :=
  ∀ l ∈ ls, isHollow l = true → l = []

theorem tidy_dedent (cs : List Char) : Tidy (lines (dedent cs)) := by
  rw [lines_dedent]
  intro l hl hh
  obtain ⟨k, hk, rfl⟩ := List.mem_map.mp hl
  unfold outdent at hh ⊢
  split
  · rfl
  · rename_i hsolid
    have hk := margin_prefix_indent hk (by simpa using hsolid)
    rw [if_neg hsolid, isHollow_drop hk.length_le] at hh
    exact absurd hh hsolid

theorem mem_dedent (h : c ∈ cs) (hb : isBlank c = false) : c ∈ dedent cs := by
  have hn : c ≠ '\n' := by rintro rfl; cases hb
  obtain ⟨l, hl, hc⟩ := (mem_iff_lines hn).mp h
  rw [mem_iff_lines hn, lines_dedent]
  refine ⟨_, List.mem_map_of_mem hl, ?_⟩
  have hsolid := isHollow_of_mem hc hb
  rw [outdent, if_neg (by simp [hsolid]), drop_indent (margin_prefix_indent hl hsolid).length_le]
  rw [← indent_append l, List.mem_append] at hc
  rcases hc with hc | hc
  · have hi := isIndent_of_mem_indent hc
    rw [isIndent_of_not_isBlank hb] at hi
    cases hi
  · exact List.mem_append_right _ hc

theorem dedent_eq_self {cs : List Char} (hm : margin (lines cs) = []) (ht : Tidy (lines cs)) :
    dedent cs = cs := by
  have hmap : (lines cs).map (outdent 0) = lines cs := by
    refine (List.map_congr_left fun l hl => ?_).trans (List.map_id _)
    unfold outdent
    split
    · rename_i hh
      exact (ht l hl hh).symm
    · rfl
  simp only [dedent, hm, List.length_nil, hmap, unlines_lines]

theorem dedent_newline (cs : List Char) : dedent ('\n' :: cs) = '\n' :: dedent cs := by
  have hlines : lines ('\n' :: cs) = [] :: lines cs := lines_cons (l := []) (by simp) cs
  have hhollow : isHollow [] = true := by decide
  have hne : (lines cs).map (outdent (margin (lines cs)).length) ≠ [] := by simp [lines]
  have hempty (w : Nat) : outdent w [] = [] := by simp [outdent, hhollow]
  have h := unlines_append [[]] hne
  simp only [dedent, hlines, margin_cons_hollow hhollow, List.map_cons, hempty]
  exact h

/-- Where neither the whole nor the part has a margin, the lines before the part are dedented
apart from it. -/
theorem dedent_ended_append {ls : List Line} (h : Unbroken ls) {cs : List Char}
    (hwhole : margin (lines (ended ls ++ cs)) = []) (hpart : margin (lines cs) = []) :
    dedent (ended ls ++ cs) = ended (ls.map (outdent 0)) ++ dedent cs := by
  have hne : (lines cs).map (outdent 0) ≠ [] := by simp [lines]
  simp only [dedent, hwhole, hpart, List.length_nil]
  rw [lines_ended_append h, List.map_append, unlines_append _ hne]

-- ---------------------------------------------------------------------------
-- Trimming without a margin
-- ---------------------------------------------------------------------------

theorem exists_lines_cons {c : Char} (h : c ≠ '\n') (cs : List Char) :
    ∃ l ls, lines cs = l :: ls ∧ lines (c :: cs) = (c :: l) :: ls := by
  obtain ⟨l, ls, hls⟩ := List.exists_cons_of_ne_nil (split_ne_nil '\n' cs)
  refine ⟨l, ls, hls, ?_⟩
  rw [lines, split, if_neg h, hls]

theorem tail_lines_append (bs cs : List Char) : (lines cs).tail ⊆ (lines (bs ++ cs)).tail := by
  induction bs with
  | nil => exact fun _ hl => hl
  | cons b bs ih =>
    rw [List.cons_append]
    by_cases hb : b = '\n'
    · rw [hb, show lines ('\n' :: (bs ++ cs)) = _ from lines_cons (l := []) (by simp) (bs ++ cs)]
      exact fun l hl => List.mem_of_mem_tail (ih hl)
    · obtain ⟨l, ls, hls, hcons⟩ := exists_lines_cons hb (bs ++ cs)
      rw [hls] at ih
      rw [hcons]
      exact ih

/-- A part that no blank begins or ends has only its first and last line cut. -/
theorem Tidy.of_part {cs : List Char} (h : Tidy (lines (bs ++ (cs ++ es))))
    (hfirst : ∀ c ∈ cs.head?, isBlank c = false) (hlast : ∀ c ∈ cs.getLast?, isBlank c = false) :
    Tidy (lines cs) := by
  have hsolid {l : Line} {c : Char} (hc : c ∈ l) (hb : isBlank c = false) : ¬isHollow l = true := by
    simp [isHollow_of_mem hc hb]
  obtain ⟨last, -, hlines, hcs⟩ := ended_append_last cs
  have hinit := unbroken_dropLast_lines cs
  have tidyLast (hh : isHollow last = true) : last = [] := by
    cases hg : last.getLast? with
    | none => exact List.getLast?_eq_none_iff.mp hg
    | some c =>
      refine absurd hh (hsolid (List.mem_of_getLast? hg) (hlast c ?_))
      rw [hcs, List.getLast?_append, hg]
      rfl
  generalize (lines cs).dropLast = init at hlines hcs hinit
  cases init with
  | nil =>
    intro l hl hh
    rw [hlines] at hl
    obtain rfl : l = last := by simpa using hl
    exact tidyLast hh
  | cons f init =>
    intro l hl hh
    rw [hlines, List.mem_append, List.mem_singleton, List.mem_cons] at hl
    rcases hl with (rfl | hl) | rfl
    · cases l with
      | nil => rfl
      | cons c l => exact absurd hh (hsolid (c := c) (by simp) (hfirst c (by simp [hcs])))
    · -- A line that begins and ends within the part is a line of the whole.
      have hmem : l ∈ (lines (cs ++ es)).tail := by
        rw [hcs, List.append_assoc, lines_ended_append hinit]
        exact List.mem_append_left _ hl
      exact h l (List.mem_of_mem_tail (tail_lines_append bs _ hmem)) hh
    · exact tidyLast hh

theorem dedent_trim {cs : List Char} (h : Tidy (lines cs)) : dedent (trim cs) = trim cs := by
  obtain ⟨bs, es, hcs, -⟩ := exists_append_trim_append cs
  refine dedent_eq_self ?_ (.of_part (hcs ▸ h) (head?_trim cs) (getLast?_trim cs))
  have hfirst := head?_trim cs
  cases ht : trim cs with
  | nil => rfl
  | cons c rest =>
    have hc : isBlank c = false := hfirst c (by simp [ht])
    obtain ⟨l, ls, -, hlines⟩ := exists_lines_cons (c := c) (by rintro rfl; cases hc) rest
    have hsolid : isHollow (c :: l) = false := isHollow_of_mem List.mem_cons_self hc
    rw [hlines]
    refine margin_eq_nil List.mem_cons_self hsolid ?_
    simp [indent, isIndent_of_not_isBlank hc]

end PromptFiles.Text
