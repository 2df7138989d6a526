import Mathlib.Data.List.Forall2
import Mathlib.Tactic.Push
import PromptFiles.Proofs.Text.Margin

/-!
# What removing the margin does

The margin is the longest run of spaces and tabs that all lines with content start with
(`prefix_margin`), so nothing of it is left once it is removed (`margin_dedent`). A margin put in
front of the lines with content becomes a part of the margin (`margin_indentBy`). The main result,
`dedented_lines`, says line by line what is removed; everything else about the whole text follows
from the lines.
-/

namespace PromptFiles.Text

/-- A line of spaces and tabs with nothing but carriage returns after them. -/
def IsBare (l : Line) : Prop :=
  ∃ blanks n, (∀ c ∈ blanks, isIndent c = true) ∧ l = blanks ++ List.replicate n '\r'

theorem isHollow_iff {l : Line} : isHollow l = true ↔ IsBare l := by
  constructor
  · intro h
    have hreturns : l.dropWhile isIndent = List.replicate (l.dropWhile isIndent).length '\r' := by
      refine List.eq_replicate_of_mem fun c hc => ?_
      simpa using List.all_eq_true.mp h c hc
    exact ⟨indent l, _, fun c => isIndent_of_mem_indent, by rw [← hreturns, indent_append]⟩
  · rintro ⟨blanks, n, hblanks, rfl⟩
    rw [isHollow_append hblanks]
    cases n <;> simp [isHollow, List.replicate_succ, isIndent]

instance (l : Line) : Decidable (IsBare l) :=
  decidable_of_iff _ isHollow_iff

inductive Outdents (m : List Char) : Line → Line → Prop
  | bare : IsBare l → Outdents m l []
  | content : ¬IsBare (m ++ l) → Outdents m (m ++ l) l

-- ---------------------------------------------------------------------------
-- The longest margin
-- ---------------------------------------------------------------------------

theorem prefix_commonPrefix {w as bs : List Char} (ha : w <+: as) (hb : w <+: bs) :
    w <+: commonPrefix as bs := by
  induction w generalizing as bs with
  | nil => exact List.nil_prefix
  | cons c w ih =>
    obtain ⟨as, rfl⟩ := ha
    obtain ⟨bs, rfl⟩ := hb
    rw [List.cons_append, List.cons_append, commonPrefix, if_pos rfl]
    exact List.cons_prefix_cons.mpr ⟨rfl, ih (List.prefix_append w as) (List.prefix_append w bs)⟩

theorem prefix_foldl_commonPrefix {w first : List Char} {others : List (List Char)}
    (hfirst : w <+: first) (hothers : ∀ l ∈ others, w <+: l) :
    w <+: others.foldl commonPrefix first := by
  induction others generalizing first with
  | nil => exact hfirst
  | cons l rest ih =>
    refine ih (prefix_commonPrefix hfirst (hothers l List.mem_cons_self)) fun k hk => ?_
    exact hothers k (List.mem_cons_of_mem _ hk)

theorem prefix_indent {w : List Char} {l : Line} (hw : ∀ c ∈ w, isIndent c = true) (h : w <+: l) :
    w <+: indent l := by
  obtain ⟨rest, rfl⟩ := h
  rw [indent, List.takeWhile_append_of_pos hw]
  exact List.prefix_append w _

theorem prefix_margin {w : List Char} {ls : List Line} (hw : ∀ c ∈ w, isIndent c = true)
    (hsome : ∃ l ∈ ls, isHollow l = false) (h : ∀ l ∈ ls, isHollow l = false → w <+: l) :
    w <+: margin ls := by
  have hindents : ∀ i ∈ (ls.filter (!isHollow ·)).map indent, w <+: i := by
    intro i hi
    obtain ⟨l, hl, rfl⟩ := List.mem_map.mp hi
    obtain ⟨hmem, hsolid⟩ := List.mem_filter.mp hl
    exact prefix_indent hw (h l hmem (by simpa using hsolid))
  unfold margin
  split
  · rename_i hnone
    obtain ⟨l, hl, hsolid⟩ := hsome
    simp only [List.map_eq_nil_iff, List.filter_eq_nil_iff] at hnone
    exact absurd hsolid (by simpa using hnone l hl)
  · rename_i first others heq
    rw [heq] at hindents
    refine prefix_foldl_commonPrefix (hindents first List.mem_cons_self) fun i hi => ?_
    exact hindents i (List.mem_cons_of_mem _ hi)

theorem exists_solid_of_margin {ls : List Line} (h : margin ls ≠ []) :
    ∃ l ∈ ls, isHollow l = false := by
  by_contra hnone
  push Not at hnone
  refine h ?_
  have hfilter : ls.filter (!isHollow ·) = [] := by
    refine List.filter_eq_nil_iff.mpr fun l hl => ?_
    simpa using hnone l hl
  simp [margin, hfilter]

theorem isIndent_of_mem_margin {ls : List Line} (hc : c ∈ margin ls) : isIndent c = true := by
  obtain ⟨l, hl, hsolid⟩ := exists_solid_of_margin (List.ne_nil_of_mem hc)
  exact isIndent_of_mem_indent ((margin_prefix_indent hl hsolid).subset hc)

theorem margin_append_drop {l : Line} {ls : List Line} (hl : l ∈ ls) (hsolid : isHollow l = false) :
    margin ls ++ l.drop (margin ls).length = l := by
  obtain ⟨rest, hrest⟩ := (margin_prefix_indent hl hsolid).trans (List.takeWhile_prefix isIndent)
  rw [← hrest, List.drop_left]

theorem outdents_outdent {l : Line} {ls : List Line} (hl : l ∈ ls) :
    Outdents (margin ls) l (outdent (margin ls).length l) := by
  unfold outdent
  split
  · rename_i hhollow
    exact .bare (isHollow_iff.mp hhollow)
  · rename_i hsolid
    have hline := margin_append_drop hl (by simpa using hsolid)
    have hbare : ¬IsBare (margin ls ++ l.drop (margin ls).length) := by
      rwa [hline, ← isHollow_iff]
    have h := Outdents.content hbare
    rwa [hline] at h

theorem isHollow_of_outdent {l : Line} (h : isHollow (outdent w l) = false) :
    isHollow l = false := by
  unfold outdent at h
  split at h
  · cases h
  · rename_i hsolid
    simpa using hsolid

theorem margin_dedent (cs : List Char) : margin (lines (dedent cs)) = [] := by
  by_contra hne
  obtain ⟨c, rest, hmargin⟩ := List.exists_cons_of_ne_nil hne
  obtain ⟨l', hl', hsolid'⟩ := exists_solid_of_margin hne
  have hstarts : ∀ l ∈ lines (dedent cs), isHollow l = false → [c] <+: l := by
    intro l hl hsolid
    have hprefix := (margin_prefix_indent hl hsolid).trans (List.takeWhile_prefix isIndent)
    rw [hmargin] at hprefix
    exact (List.prefix_append [c] rest).trans hprefix
  have hc : isIndent c = true := isIndent_of_mem_margin (hmargin ▸ List.mem_cons_self)
  rw [lines_dedent] at hstarts hl'
  -- The character would be one more of the margin that was removed.
  have hlonger : margin (lines cs) ++ [c] <+: margin (lines cs) := by
    refine prefix_margin ?_ ?_ ?_
    · intro d hd
      rcases List.mem_append.mp hd with hd | hd
      · exact isIndent_of_mem_margin hd
      · exact List.mem_singleton.mp hd ▸ hc
    · obtain ⟨l, hl, rfl⟩ := List.mem_map.mp hl'
      exact ⟨l, hl, isHollow_of_outdent hsolid'⟩
    · intro l hl hsolid
      have hdrop := hstarts _ (List.mem_map_of_mem hl)
      rw [outdent, if_neg (by simp [hsolid]),
        isHollow_drop (margin_prefix_indent hl hsolid).length_le] at hdrop
      rw [← margin_append_drop hl hsolid]
      simpa using hdrop hsolid
  have hlength := hlonger.length_le
  rw [List.length_append, List.length_singleton] at hlength
  omega

theorem dedent_dedent (cs : List Char) : dedent (dedent cs) = dedent cs :=
  dedent_eq_self (margin_dedent cs) (tidy_dedent cs)

-- ---------------------------------------------------------------------------
-- A margin put in front
-- ---------------------------------------------------------------------------

def indentLine (w : List Char) (l : Line) : Line :=
  if isHollow l then l else w ++ l

/-- The text with `w` in front of every line with content. -/
def indentBy (w cs : List Char) : List Char :=
  unlines ((lines cs).map (indentLine w))

def indented (w : List Char) (s : String) : String :=
  String.ofList (indentBy w s.toList)

theorem commonPrefix_append (w as bs : List Char) :
    commonPrefix (w ++ as) (w ++ bs) = w ++ commonPrefix as bs := by
  induction w with
  | nil => rfl
  | cons c w ih => rw [List.cons_append, List.cons_append, commonPrefix, if_pos rfl, ih]; rfl

theorem foldl_commonPrefix_append (w first : List Char) (others : List (List Char)) :
    (others.map (w ++ ·)).foldl commonPrefix (w ++ first) =
      w ++ others.foldl commonPrefix first := by
  induction others generalizing first with
  | nil => rfl
  | cons l rest ih => rw [List.map_cons, List.foldl_cons, commonPrefix_append, ih, List.foldl_cons]

section
variable {w : List Char} (hw : ∀ c ∈ w, isIndent c = true)
include hw

theorem isHollow_indentLine (l : Line) : isHollow (indentLine w l) = isHollow l := by
  unfold indentLine
  split
  · rfl
  · exact isHollow_append hw l

theorem margin_indentBy {ls : List Line} (hsome : ∃ l ∈ ls, isHollow l = false) :
    margin (ls.map (indentLine w)) = w ++ margin ls := by
  have hindents : ((ls.map (indentLine w)).filter (!isHollow ·)).map indent =
      ((ls.filter (!isHollow ·)).map indent).map (w ++ ·) := by
    have hfilter : (fun l => !isHollow l) ∘ indentLine w = fun l => !isHollow l :=
      funext fun l => by simp [isHollow_indentLine hw]
    rw [List.filter_map, hfilter, List.map_map, List.map_map]
    refine List.map_congr_left fun l hl => ?_
    have hsolid : isHollow l = false := by simpa using (List.mem_filter.mp hl).2
    simp [indentLine, hsolid, indent, List.takeWhile_append_of_pos hw]
  have hne : (ls.filter (!isHollow ·)).map indent ≠ [] := by
    obtain ⟨l, hl, hsolid⟩ := hsome
    exact List.ne_nil_of_mem (List.mem_map_of_mem (List.mem_filter.mpr ⟨hl, by simp [hsolid]⟩))
  obtain ⟨first, others, heq⟩ := List.exists_cons_of_ne_nil hne
  simp only [margin, hindents, heq, List.map_cons, foldl_commonPrefix_append]

theorem outdent_indentLine {ls : List Line} {l : Line} (hl : l ∈ ls) :
    outdent (margin (ls.map (indentLine w))).length (indentLine w l) =
      outdent (margin ls).length l := by
  unfold outdent
  rw [isHollow_indentLine hw]
  split
  · rfl
  · rename_i hsolid
    have hline : indentLine w l = w ++ l := if_neg hsolid
    rw [margin_indentBy hw ⟨l, hl, by simpa using hsolid⟩, hline, List.length_append,
      List.drop_length_add_append]

theorem lines_indentBy (cs : List Char) :
    lines (indentBy w cs) = (lines cs).map (indentLine w) := by
  refine lines_unlines (fun l hl => ?_) (by simp [lines])
  obtain ⟨k, hk, rfl⟩ := List.mem_map.mp hl
  unfold indentLine
  split
  · exact unbroken_lines cs k hk
  · intro hn
    rcases List.mem_append.mp hn with hn | hn
    · exact absurd (hw _ hn) (by decide)
    · exact unbroken_lines cs k hk hn

theorem dedent_indentBy (cs : List Char) : dedent (indentBy w cs) = dedent cs := by
  simp only [dedent, lines_indentBy hw, List.map_map]
  congr 1
  exact List.map_congr_left fun l hl => outdent_indentLine hw hl

end

-- ---------------------------------------------------------------------------
-- What is left
-- ---------------------------------------------------------------------------

/-- A character that may be removed. -/
def isLoose (c : Char) : Bool :=
  isIndent c || c == '\r'

theorem isLoose_of_isHollow {l : Line} (h : isHollow l = true) (hc : c ∈ l) : isLoose c = true := by
  obtain ⟨blanks, n, hblanks, rfl⟩ := isHollow_iff.mp h
  rcases List.mem_append.mp hc with hc | hc
  · simp [isLoose, hblanks c hc]
  · simp [isLoose, List.eq_of_mem_replicate hc]

/-- A text with some of its loose characters left out. -/
def Loosens (cs ds : List Char) : Prop :=
  ds.Sublist cs ∧ ds.filter (!isLoose ·) = cs.filter (!isLoose ·)

theorem Loosens.append (h : Loosens as bs) (h' : Loosens cs ds) : Loosens (as ++ cs) (bs ++ ds) :=
  ⟨h.1.append h'.1, by rw [List.filter_append, List.filter_append, h.2, h'.2]⟩

theorem Loosens.refl (cs : List Char) : Loosens cs cs :=
  ⟨List.Sublist.refl cs, rfl⟩

theorem loosens_nil (h : ∀ c ∈ cs, isLoose c = true) : Loosens cs [] := by
  refine ⟨List.nil_sublist cs, (List.filter_eq_nil_iff.mpr fun c hc => ?_).symm⟩
  simp [h c hc]

theorem loosens_outdent {l : Line} {ls : List Line} (hl : l ∈ ls) :
    Loosens l (outdent (margin ls).length l) := by
  unfold outdent
  split
  · rename_i hhollow
    exact loosens_nil fun c hc => isLoose_of_isHollow hhollow hc
  · rename_i hsolid
    have hline := margin_append_drop hl (by simpa using hsolid)
    have hmargin : Loosens (margin ls) [] :=
      loosens_nil fun c hc => by simp [isLoose, isIndent_of_mem_margin hc]
    have h := hmargin.append (.refl (l.drop (margin ls).length))
    rwa [hline, List.nil_append] at h

theorem Loosens.unlines {f : Line → Line} {ls : List Line} (h : ∀ l ∈ ls, Loosens l (f l)) :
    Loosens (unlines ls) (unlines (ls.map f)) := by
  induction ls with
  | nil => exact .refl []
  | cons l ls ih =>
    have hl := h l List.mem_cons_self
    cases ls with
    | nil => exact hl
    | cons k ls =>
      have hrest := ih fun j hj => h j (List.mem_cons_of_mem _ hj)
      exact hl.append (.append (.refl ['\n']) hrest)

theorem loosens_dedent (cs : List Char) : Loosens cs (dedent cs) := by
  have h : Loosens (unlines (lines cs)) (dedent cs) :=
    Loosens.unlines fun l hl => loosens_outdent hl
  rwa [unlines_lines] at h

theorem toList_dedented (s : String) : (dedented s).toList = dedent s.toList := by
  simp [dedented]

/-- There is a run of spaces and tabs that is removed from every line with content, and is all that
is removed from it; any other line becomes empty. It is the longest run that all lines with content
start with, so that they have no space or tab at their start in common afterwards. Removing the
margin again changes nothing, no character is removed that is not a space, a tab or a carriage
return, and spaces and tabs put in front of all lines with content make no difference. -/
theorem dedented_lines (s : String) :
    (∃ m, (∀ c ∈ m, c = ' ' ∨ c = '\t') ∧
      List.Forall₂ (Outdents m) (lines s.toList) (lines (dedented s).toList) ∧
      ∀ w, (∀ c ∈ w, c = ' ' ∨ c = '\t') → (∃ l ∈ lines s.toList, ¬IsBare l) →
        (∀ l ∈ lines s.toList, ¬IsBare l → w <+: l) → w <+: m) ∧
    (∀ c, c = ' ' ∨ c = '\t' → (∃ l ∈ lines (dedented s).toList, ¬IsBare l) →
      ∃ l ∈ lines (dedented s).toList, ¬IsBare l ∧ l.head? ≠ some c) ∧
    (dedented s).toList.count '\n' = s.toList.count '\n' ∧
    dedented (dedented s) = dedented s ∧
    (dedented s).toList.Sublist s.toList ∧
    (dedented s).toList.filter (· ∉ [' ', '\t', '\r']) =
      s.toList.filter (· ∉ [' ', '\t', '\r']) ∧
    ∀ w, (∀ c ∈ w, c = ' ' ∨ c = '\t') → dedented (indented w s) = dedented s := by
  have hindent (c : Char) : isIndent c = true ↔ c = ' ' ∨ c = '\t' := by simp [isIndent]
  have hloose : (fun c => decide (c ∉ [' ', '\t', '\r'])) = fun c => !isLoose c := by
    funext c
    rw [Bool.eq_iff_iff]
    simp [isLoose, isIndent, and_assoc]
  have hsolid (l : Line) : ¬IsBare l ↔ isHollow l = false := by
    rw [← isHollow_iff, Bool.not_eq_true]
  simp only [← hindent, hsolid, hloose, toList_dedented]
  obtain ⟨hsublist, hfilter⟩ := loosens_dedent s.toList
  refine ⟨⟨margin (lines s.toList), fun c => isIndent_of_mem_margin, ?_, fun w => prefix_margin⟩,
    ?_, ?_, ?_, hsublist, hfilter, ?_⟩
  · rw [lines_dedent, List.forall₂_map_right_iff]
    exact List.forall₂_same.mpr fun l => outdents_outdent
  · intro c hc hsome
    by_contra hall
    push Not at hall
    have hprefix : [c] <+: margin (lines (dedent s.toList)) := by
      refine prefix_margin (fun d hd => List.mem_singleton.mp hd ▸ hc) hsome fun l hl hs => ?_
      obtain ⟨rest, rfl⟩ := List.head?_eq_some_iff.mp (hall l hl hs)
      exact List.prefix_append [c] rest
    rw [margin_dedent] at hprefix
    simpa using hprefix.length_le
  · -- A line feed is not loose, so the filter keeps every one of them.
    have hcount (cs : List Char) : (cs.filter (!isLoose ·)).count '\n' = cs.count '\n' :=
      List.count_filter (by decide)
    rw [← hcount, hfilter, hcount]
  · rw [dedented, toList_dedented, dedent_dedent, dedented]
  · intro w hw
    rw [dedented, indented, String.toList_ofList, dedent_indentBy hw, dedented]

theorem dedented_lines_crlf :
    let s := "\t a\r\n  \r\n\t  b"
    dedented s = "a\r\n\n b" ∧ dedented (indented [' ', '\t'] s) = "a\r\n\n b" ∧
      (∃ l ∈ lines (dedented s).toList, ¬IsBare l) ∧
      ∃ l ∈ lines (dedented s).toList, ¬IsBare l ∧ l.head? ≠ some ' ' := by
  intro s
  obtain ⟨-, hcommon, -, -, -, -, hindented⟩ := dedented_lines s
  have hs : dedented s = "a\r\n\n b" := by decide
  have hsome : ∃ l ∈ lines (dedented s).toList, ¬IsBare l :=
    ⟨['a', '\r'], by rw [hs]; decide, by decide⟩
  exact ⟨hs, (hindented [' ', '\t'] (by simp)).trans hs, hsome, hcommon ' ' (.inl rfl) hsome⟩

end PromptFiles.Text
