import PromptFiles.Proofs.Text.Dedented

/-!
# Line endings without the margin

Some texts have a carriage return before each line feed. Removing the margin keeps the carriage
return of a line with content, but it empties a bare line together with its carriage return, so
such a text comes out with endings of both kinds. `returns_dedented` says which endings are kept,
and that nothing else stands between the two kinds of texts.
-/

namespace PromptFiles.Text

def EndsInReturn (l : Line) : Prop :=
  l.getLast? = some '\r'

instance (l : Line) : Decidable (EndsInReturn l) :=
  inferInstanceAs (Decidable (_ = _))

def endedLines (cs : List Char) : List Line :=
  (lines cs).dropLast

def addReturns (cs : List Char) : List Char :=
  cs.flatMap fun c => if c = '\n' then ['\r', '\n'] else [c]

def withReturns (s : String) : String :=
  String.ofList (addReturns s.toList)

-- ---------------------------------------------------------------------------
-- Carriage returns of single lines
-- ---------------------------------------------------------------------------

theorem isHollow_return (l : Line) : isHollow (l ++ ['\r']) = isHollow l := by
  have hreturn : isIndent '\r' = false := by decide
  by_cases h : ∀ c ∈ l, isIndent c = true
  · have hall : l.dropWhile isIndent = [] := List.dropWhile_eq_nil_iff.mpr h
    rw [isHollow_append h, isHollow, isHollow, hall]
    simp [hreturn]
  · have hsome : ¬(l.dropWhile isIndent).isEmpty := by
      rwa [List.isEmpty_iff, List.dropWhile_eq_nil_iff]
    rw [isHollow, List.dropWhile_append, if_neg hsome, List.all_append, isHollow]
    simp

theorem indent_return (l : Line) : indent (l ++ ['\r']) = indent l := by
  have hreturn : isIndent '\r' = false := by decide
  rw [indent, List.takeWhile_append]
  split
  · rename_i hall
    rw [indent, (List.takeWhile_prefix isIndent).eq_of_length hall, List.takeWhile_cons_of_neg]
    · exact List.append_nil l
    · simp [hreturn]
  · rfl

theorem getLast?_drop {l : Line} (hsolid : isHollow l = false) (h : w ≤ (indent l).length) :
    (l.drop w).getLast? = l.getLast? := by
  have hrest : l.dropWhile isIndent ≠ [] := by
    intro hnil
    rw [isHollow, hnil] at hsolid
    cases hsolid
  have hlast (before : List Char) : (before ++ l.dropWhile isIndent).getLast? =
      some ((l.dropWhile isIndent).getLast hrest) := by
    rw [List.getLast?_append, List.getLast?_eq_some_getLast hrest]
    rfl
  rw [drop_indent h, hlast, ← hlast (indent l), indent_append]

theorem endsInReturn_outdent {l : Line} {ls : List Line} (hl : l ∈ ls) :
    EndsInReturn (outdent (margin ls).length l) ↔ EndsInReturn l ∧ ¬IsBare l := by
  rw [← isHollow_iff]
  unfold outdent
  split
  · rename_i hhollow
    simp [EndsInReturn, hhollow]
  · rename_i hsolid
    have hfalse : isHollow l = false := by simpa using hsolid
    rw [EndsInReturn, getLast?_drop hfalse (margin_prefix_indent hl hfalse).length_le]
    simp [EndsInReturn, hsolid]

-- ---------------------------------------------------------------------------
-- Texts that stay as they are
-- ---------------------------------------------------------------------------

theorem dedent_eq_self_iff {cs : List Char} (hm : margin (lines cs) = []) :
    dedent cs = cs ↔ Tidy (lines cs) := by
  refine ⟨fun h => ?_, dedent_eq_self hm⟩
  rw [← h]
  exact tidy_dedent cs

theorem margin_eq_nil_of_flush {ls : List Line}
    (h : ∀ l ∈ ls, ¬IsBare l → l.head? ≠ some ' ' ∧ l.head? ≠ some '\t') : margin ls = [] := by
  by_contra hne
  obtain ⟨l, hl, hsolid⟩ := exists_solid_of_margin hne
  obtain ⟨c, rest, hmargin⟩ := List.exists_cons_of_ne_nil hne
  have hline := margin_append_drop hl hsolid
  have hc : isIndent c = true := isIndent_of_mem_margin (hmargin ▸ List.mem_cons_self)
  rw [hmargin, List.cons_append] at hline
  obtain ⟨hspace, htab⟩ := h l hl (by rw [← isHollow_iff, hsolid]; simp)
  rw [← hline, List.head?_cons] at hspace htab
  simp only [isIndent, Bool.or_eq_true, beq_iff_eq] at hc
  rcases hc with rfl | rfl
  · exact hspace rfl
  · exact htab rfl

theorem eq_nil_iff_of_bare {l : Line} (hl : IsBare l) (hspace : ' ' ∉ l) (htab : '\t' ∉ l) :
    l = [] ↔ ¬EndsInReturn l := by
  obtain ⟨blanks, n, hblanks, rfl⟩ := hl
  cases blanks with
  | nil => cases n <;> simp [EndsInReturn, List.getLast?_replicate]
  | cons c blanks =>
    have hc := hblanks c List.mem_cons_self
    simp only [isIndent, Bool.or_eq_true, beq_iff_eq] at hc
    rcases hc with rfl | rfl
    · exact absurd List.mem_cons_self hspace
    · exact absurd List.mem_cons_self htab

-- ---------------------------------------------------------------------------
-- Carriage returns added
-- ---------------------------------------------------------------------------

theorem addReturns_append (cs ds : List Char) :
    addReturns (cs ++ ds) = addReturns cs ++ addReturns ds :=
  List.flatMap_append

theorem addReturns_unbroken {l : Line} (h : '\n' ∉ l) : addReturns l = l := by
  induction l with
  | nil => rfl
  | cons c l ih =>
    simp only [List.mem_cons, not_or] at h
    rw [addReturns, List.flatMap_cons, if_neg (Ne.symm h.1), ← addReturns, ih h.2]
    rfl

theorem addReturns_ended {ls : List Line} (h : Unbroken ls) :
    addReturns (ended ls) = ended (ls.map (· ++ ['\r'])) := by
  induction ls with
  | nil => rfl
  | cons l ls ih =>
    obtain ⟨hl, hls⟩ := unbroken_cons.mp h
    have hfeed : addReturns ('\n' :: ended ls) = '\r' :: '\n' :: addReturns (ended ls) := rfl
    rw [ended_cons, addReturns_append, addReturns_unbroken hl, hfeed, ih hls, List.map_cons,
      ended_cons, List.append_assoc, List.singleton_append]

theorem lines_addReturns {cs last : List Char} {ls : List Line} (hls : Unbroken ls)
    (hlast : '\n' ∉ last) (hcs : lines cs = ls ++ [last]) :
    lines (addReturns cs) = ls.map (· ++ ['\r']) ++ [last] := by
  have hunbroken : Unbroken (ls.map (· ++ ['\r'])) := by
    intro l hl
    obtain ⟨k, hk, rfl⟩ := List.mem_map.mp hl
    simpa using hls k hk
  have htext : cs = ended ls ++ last := by
    rw [← unlines_lines cs, hcs, unlines_append ls (by simp)]
    rfl
  rw [htext, addReturns_append, addReturns_ended hls, addReturns_unbroken hlast,
    lines_ended_append hunbroken, lines_unbroken hlast]

theorem margin_addReturns (ls : List Line) (last : Line) :
    margin (ls.map (· ++ ['\r']) ++ [last]) = margin (ls ++ [last]) := by
  have hindents : ((ls.map (· ++ ['\r'])).filter (!isHollow ·)).map indent =
      (ls.filter (!isHollow ·)).map indent := by
    have hfilter : (fun l => !isHollow l) ∘ (· ++ ['\r']) = fun l => !isHollow l :=
      funext fun l => by simp [isHollow_return]
    rw [List.filter_map, hfilter, List.map_map]
    exact List.map_congr_left fun l _ => indent_return l
  simp only [margin, List.filter_append, List.map_append, hindents]

/-- With carriage returns added first, the bare lines lose theirs. -/
theorem lines_dedent_addReturns {cs last : List Char} {ls : List Line} (hls : Unbroken ls)
    (hlast : '\n' ∉ last) (hcs : lines cs = ls ++ [last]) :
    let width := (margin (lines cs)).length
    lines (dedent (addReturns cs)) = ls.map (fun l =>
        if isHollow l then [] else outdent width l ++ ['\r']) ++ [outdent width last] := by
  intro width
  rw [lines_dedent, lines_addReturns hls hlast hcs, margin_addReturns, ← hcs, List.map_append,
    List.map_map]
  refine congrArg (· ++ _) (List.map_congr_left fun l hl => ?_)
  rw [Function.comp_apply, outdent, isHollow_return]
  split
  · rfl
  · rename_i hsolid
    have hfalse : isHollow l = false := by simpa using hsolid
    have hmem : l ∈ lines cs := hcs ▸ List.mem_append_left _ hl
    have hwidth : width ≤ l.length :=
      (margin_prefix_indent hmem hfalse).length_le.trans (List.takeWhile_prefix _).length_le
    rw [outdent, if_neg hsolid, List.drop_append_of_le_length hwidth]

theorem dedent_addReturns_iff (cs : List Char) :
    dedent (addReturns cs) = addReturns (dedent cs) ↔ ∀ l ∈ endedLines cs, ¬IsBare l := by
  obtain ⟨last, hlast, hcs, -⟩ := ended_append_last cs
  have hls := unbroken_dropLast_lines cs
  have hbefore := lines_dedent_addReturns hls hlast hcs
  have hdedent : lines (dedent cs) =
      (lines cs).dropLast.map (outdent (margin (lines cs)).length) ++
        [outdent (margin (lines cs)).length last] := by
    rw [lines_dedent]
    nth_rewrite 2 [hcs]
    rw [List.map_append, List.map_singleton]
  have hunbroken := unbroken_append.mp (hdedent ▸ unbroken_lines (dedent cs))
  have hafter := lines_addReturns hunbroken.1 (hunbroken.2 _ (by simp)) hdedent
  rw [List.map_map] at hafter
  have hinj : dedent (addReturns cs) = addReturns (dedent cs) ↔
      lines (dedent (addReturns cs)) = lines (addReturns (dedent cs)) :=
    ⟨congrArg lines, fun h => by rw [← unlines_lines (dedent _), h, unlines_lines]⟩
  rw [hinj, hbefore, hafter, List.append_left_inj, List.map_inj_left]
  refine forall₂_congr fun l hl => ?_
  rw [← isHollow_iff, Function.comp_apply]
  split
  · rename_i hhollow
    simp [hhollow]
  · rename_i hsolid
    simp [hsolid]

/-- Where the endings of the lines go when the margin is removed. A line keeps a carriage return at
its end if it has content, and a bare line loses it. So all endings are kept if and only if no bare
line before a line feed ends in a carriage return. A text whose lines begin with no space or tab is
changed only by what its bare lines lose, and it makes no difference whether carriage returns are
added before or after if and only if there is no bare line for them. -/
theorem returns_dedented (s : String) :
    List.Forall₂ (fun l l' => EndsInReturn l' ↔ EndsInReturn l ∧ ¬IsBare l)
      (lines s.toList) (lines (dedented s).toList) ∧
    (List.Forall₂ (fun l l' => EndsInReturn l' ↔ EndsInReturn l)
        (endedLines s.toList) (endedLines (dedented s).toList) ↔
      ∀ l ∈ endedLines s.toList, IsBare l → ¬EndsInReturn l) ∧
    ((∀ l ∈ lines s.toList, ¬IsBare l → l.head? ≠ some ' ' ∧ l.head? ≠ some '\t') →
      (∀ l ∈ lines s.toList, IsBare l → ' ' ∉ l ∧ '\t' ∉ l) →
      (dedented s = s ↔ ∀ l ∈ lines s.toList, IsBare l → ¬EndsInReturn l)) ∧
    (dedented (withReturns s) = withReturns (dedented s) ↔
      ∀ l ∈ endedLines s.toList, ¬IsBare l) := by
  have hlines : lines (dedented s).toList =
      (lines s.toList).map (outdent (margin (lines s.toList)).length) := by
    rw [toList_dedented, lines_dedent]
  refine ⟨?_, ?_, fun hflush hbare => ?_, ?_⟩
  · rw [hlines, List.forall₂_map_right_iff]
    exact List.forall₂_same.mpr fun l => endsInReturn_outdent
  · rw [endedLines, endedLines, hlines, ← List.map_dropLast, List.forall₂_map_right_iff,
      List.forall₂_same]
    refine forall₂_congr fun l hl => ?_
    rw [endsInReturn_outdent ((List.dropLast_sublist _).mem hl), and_iff_left_iff_imp]
    exact imp_not_comm
  · have hself : dedented s = s ↔ dedent s.toList = s.toList := by
      rw [dedented, ← String.toList_inj, String.toList_ofList]
    rw [hself, dedent_eq_self_iff (margin_eq_nil_of_flush hflush)]
    refine forall₂_congr fun l hl => ?_
    rw [isHollow_iff]
    refine imp_congr_right fun hb => ?_
    exact eq_nil_iff_of_bare hb (hbare l hl hb).1 (hbare l hl hb).2
  · rw [← dedent_addReturns_iff, dedented, withReturns, withReturns, toList_dedented,
      String.toList_ofList, String.ofList_inj]

theorem returns_dedented_unchanged :
    let s := "a\r\n\nb\r\n"
    (∀ l ∈ lines s.toList, ¬IsBare l → l.head? ≠ some ' ' ∧ l.head? ≠ some '\t') ∧
      (∀ l ∈ lines s.toList, IsBare l → ' ' ∉ l ∧ '\t' ∉ l) ∧ dedented s = s := by
  intro s
  obtain ⟨-, -, hunchanged, -⟩ := returns_dedented s
  have hflush : ∀ l ∈ lines s.toList, ¬IsBare l → l.head? ≠ some ' ' ∧ l.head? ≠ some '\t' := by
    decide
  have hbare : ∀ l ∈ lines s.toList, IsBare l → ' ' ∉ l ∧ '\t' ∉ l := by decide
  exact ⟨hflush, hbare, (hunchanged hflush hbare).mpr (by decide)⟩

theorem returns_dedented_mixed :
    let s := "a\r\n\r\nb"
    dedented s = "a\r\n\nb" ∧
      (∀ l ∈ lines s.toList, ¬IsBare l → l.head? ≠ some ' ' ∧ l.head? ≠ some '\t') ∧
      (∀ l ∈ lines s.toList, IsBare l → ' ' ∉ l ∧ '\t' ∉ l) ∧
      s = withReturns "a\n\nb" ∧ dedented s ≠ withReturns (dedented "a\n\nb") ∧
      ¬List.Forall₂ (fun l l' => EndsInReturn l' ↔ EndsInReturn l)
        (endedLines s.toList) (endedLines (dedented s).toList) := by
  decide

end PromptFiles.Text
