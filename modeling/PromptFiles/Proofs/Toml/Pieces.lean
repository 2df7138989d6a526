import Mathlib
import PromptFiles.Proofs.FrontMatter.Framing
import PromptFiles.Toml.Writer

/-!
# Pieces of a written document

A `Piece` begins and ends within a line beside a character that the delimiter of front
matter has not got, so pieces can be joined without making a line that is the delimiter.
A `Block` consists of whole lines. Both say whether one of their own lines is the
delimiter. `Quotes.piece_write`: of a quoted text these are the lines of the text itself,
its last one aside.
-/

namespace PromptFiles.Toml

open Text (Line Unbroken ended lines)
open FrontMatter (delimiter isDelimiter isDelimiter_iff)

-- ---------------------------------------------------------------------------
-- Pieces and blocks
-- ---------------------------------------------------------------------------

/-- A part of a line that no delimiter has. -/
def Marked (l : Line) : Prop :=
  ∃ c ∈ l, c ≠ '-' ∧ c ≠ '\r'

theorem Marked.of_mem (hc : c ∈ l) (h : c ≠ '-' ∧ c ≠ '\r') : Marked l :=
  ⟨c, hc, h⟩

theorem Marked.append_right (h : Marked l) (m : Line) : Marked (l ++ m) := by
  obtain ⟨c, hc, hn⟩ := h
  exact ⟨c, List.mem_append_left m hc, hn⟩

theorem Marked.append_left (h : Marked l) (m : Line) : Marked (m ++ l) := by
  obtain ⟨c, hc, hn⟩ := h
  exact ⟨c, List.mem_append_right m hc, hn⟩

theorem Marked.not_isDelimiter (h : Marked l) : isDelimiter l = false := by
  obtain ⟨c, hc, hdash, hreturn⟩ := h
  by_contra hd
  rcases isDelimiter_iff.mp (by simpa using hd) with rfl | rfl <;>
    simp [delimiter] at hc <;> simp_all

/-- Text within one line, or over several, with a mark in the first and in the last; and whether
a line between those two is the delimiter. -/
inductive Piece : List Char → Bool → Prop where
  | line : '\n' ∉ cs → Marked cs → Piece cs false
  | lines : '\n' ∉ first → Marked first → Unbroken middle → '\n' ∉ last → Marked last →
      Piece (first ++ '\n' :: (ended middle ++ last)) (middle.any isDelimiter)

theorem Piece.fixed (h : (!cs.contains '\n' && cs.any fun c => c != '-' && c != '\r') = true) :
    Piece cs false := by
  obtain ⟨hn, hm⟩ := Bool.and_eq_true_iff.mp h
  obtain ⟨c, hc, hne⟩ := List.any_eq_true.mp hm
  exact .line (by simpa using hn) (.of_mem hc (by simpa using hne))

theorem Piece.append (ha : Piece cs p) (hb : Piece ds q) : Piece (cs ++ ds) (p || q) := by
  cases ha with
  | line hn hm =>
    cases hb with
    | line hn' hm' => exact .line (by simp [hn, hn']) (hm.append_right ds)
    | @lines first middle last hf hfm hi hl hlm =>
      have hfirst : '\n' ∉ cs ++ first := by simp [hn, hf]
      simpa using Piece.lines hfirst (hm.append_right first) hi hl hlm
  | @lines first middle last hf hfm hi hl hlm =>
    cases hb with
    | line hn' hm' =>
      have hlast : '\n' ∉ last ++ ds := by simp [hl, hn']
      simpa using Piece.lines hf hfm hi hlast (hlm.append_right ds)
    | @lines first' middle' last' hf' hfm' hi' hl' hlm' =>
      -- The line in which the two meet is marked.
      have hmeet : Unbroken (middle ++ (last ++ first') :: middle') :=
        Text.unbroken_append.mpr ⟨hi, Text.unbroken_cons.mpr ⟨by simp [hl, hf'], hi'⟩⟩
      have h := Piece.lines hf hfm hmeet hl' hlm'
      simpa [(hlm.append_right first').not_isDelimiter] using h

/-- Whole lines, and whether one of them is the delimiter. -/
inductive Block : List Char → Bool → Prop where
  | mk : Unbroken ls → Block (ended ls) (ls.any isDelimiter)

theorem Block.nil : Block [] false :=
  .mk (show Unbroken [] by simp [Unbroken])

theorem Block.blankLine : Block ['\n'] false :=
  .mk (show Unbroken [[]] by simp [Unbroken])

theorem Block.append (ha : Block cs p) (hb : Block ds q) : Block (cs ++ ds) (p || q) := by
  obtain ⟨hls⟩ := ha
  obtain ⟨hms⟩ := hb
  have h := Block.mk (Text.unbroken_append.mpr ⟨hls, hms⟩)
  simpa using h

theorem Piece.block (h : Piece cs p) : Block (cs ++ ['\n']) p := by
  cases h with
  | line hn hm =>
    have h := Block.mk (Text.unbroken_cons.mpr ⟨hn, by simp [Unbroken]⟩ : Unbroken [cs])
    simpa [hm.not_isDelimiter] using h
  | @lines first middle last hf hfm hi hl hlm =>
    have hu : Unbroken (first :: (middle ++ [last])) :=
      Text.unbroken_cons.mpr ⟨hf, Text.unbroken_append.mpr ⟨hi, by simpa [Unbroken] using hl⟩⟩
    have h := Block.mk hu
    simpa [hfm.not_isDelimiter, hlm.not_isDelimiter] using h

inductive Each (kind : List Char → Bool → Prop) : List (List Char) → Bool → Prop where
  | nil : Each kind [] false
  | cons : kind cs p → Each kind rest q → Each kind (cs :: rest) (p || q)

theorem Each.append (ha : Each kind as p) (hb : Each kind bs q) :
    Each kind (as ++ bs) (p || q) := by
  induction ha with
  | nil => exact hb
  | cons h _ ih => simpa [Bool.or_assoc] using Each.cons h ih

-- ---------------------------------------------------------------------------
-- Quoted texts
-- ---------------------------------------------------------------------------

namespace Quotes

def holdsDelimiter (cs : List Char) : Bool :=
  (lines cs).dropLast.contains delimiter.toList

theorem holdsDelimiter_unbroken (h : '\n' ∉ cs) : holdsDelimiter cs = false := by
  rw [holdsDelimiter, Text.lines_dropLast_unbroken h]
  rfl

theorem upperHex_ne_newline (n : Nat) : upperHex n ≠ '\n' := by
  have ofNat_ne {m : Nat} (hm : '\n'.toNat < m) : Char.ofNat m ≠ '\n' := by
    intro h
    unfold Char.ofNat at h
    split at h
    · have hnat : m = '\n'.toNat := congrArg Char.toNat h
      omega
    · cases h
  have h0 : '\n'.toNat < '0'.toNat := by decide
  have hA : '\n'.toNat < 'A'.toNat := by decide
  unfold upperHex
  split
  · exact ofNat_ne (by omega)
  · exact ofNat_ne (by omega)

theorem newline_not_mem_escaped (c : Char) : '\n' ∉ escaped c := by
  unfold escaped
  split <;> try decide
  rename_i hn _ _
  split
  · simp [Ne.symm (upperHex_ne_newline _)]
  · simpa using Ne.symm hn

theorem escaped_eq_self {c : Char} (h : '\\' ∉ escaped c) : escaped c = [c] := by
  unfold escaped at h ⊢
  split at h <;> simp_all
  cases hc : isControl c with
  | false => rfl
  | true => simp [hc] at h

theorem escapedLines_append (run : Nat) {l : Line} (h : '\n' ∉ l) (rest : List Char) :
    escapedLines run (l ++ '\n' :: rest) = escapedLines run l ++ '\n' :: escapedLines 0 rest := by
  fun_induction escapedLines run l with
  | case1 run => simp [escapedLines]
  | case2 rest' ih => simpa [escapedLines] using ih (by simp_all)
  | case3 run rest' hrun ih => simpa [escapedLines, hrun] using ih (by simp_all)
  | case4 run rest' ih => simp at h
  | case5 run c rest' hquote hbreak ih =>
    rw [List.cons_append, escapedLines, ih (by simp_all), List.append_assoc]
    · exact hquote
    · exact hbreak

theorem newline_not_mem_escapedLines (run : Nat) {l : Line} (h : '\n' ∉ l) :
    '\n' ∉ escapedLines run l := by
  fun_induction escapedLines run l with
  | case1 run => simp
  | case2 rest ih => simpa using ih (by simp_all)
  | case3 run rest hrun ih => simpa using ih (by simp_all)
  | case4 run rest ih => simp at h
  | case5 run c rest hquote hbreak ih =>
    rw [List.mem_append, not_or]
    exact ⟨newline_not_mem_escaped c, ih (by simp_all)⟩

theorem escapedLines_eq_self (run : Nat) {l : Line} (hs : '\\' ∉ escapedLines run l)
    (hq : '"' ∉ escapedLines run l) (hn : '\n' ∉ l) : escapedLines run l = l := by
  fun_induction escapedLines run l with
  | case1 run => rfl
  | case2 rest ih => simp at hs
  | case3 run rest hrun ih => simp at hq
  | case4 run rest ih => simp at hn
  | case5 run c rest hquote hbreak ih =>
    simp only [List.mem_append, not_or] at hs hq
    rw [escaped_eq_self hs.1, ih hs.2 hq.2 (by simp_all), List.singleton_append]

/-- Escaping makes no delimiter and hides none. -/
theorem isDelimiter_escapedLines {l : Line} (h : '\n' ∉ l) :
    isDelimiter (escapedLines 0 l) = (delimiter.toList == l) := by
  rw [Bool.eq_iff_iff, isDelimiter_iff, beq_iff_eq]
  constructor
  · intro hd
    have hs : '\\' ∉ escapedLines 0 l := by rcases hd with hd | hd <;> rw [hd] <;> decide
    have hq : '"' ∉ escapedLines 0 l := by rcases hd with hd | hd <;> rw [hd] <;> decide
    have hl := escapedLines_eq_self 0 hs hq h
    rcases hd with hd | hd
    · exact hd.symm.trans hl
    · rw [hl.symm.trans hd] at hd
      exact absurd hd (by decide)
  · rintro rfl
    exact .inl (by decide)

theorem escapedLines_ended {ls : List Line} (h : Unbroken ls) (rest : List Char) :
    escapedLines 0 (ended ls ++ rest) =
      ended (ls.map (escapedLines 0)) ++ escapedLines 0 rest := by
  induction ls with
  | nil => rfl
  | cons l ls ih =>
    obtain ⟨hl, hls⟩ := Text.unbroken_cons.mp h
    rw [Text.ended_cons, List.append_assoc, List.cons_append, escapedLines_append 0 hl, ih hls]
    simp

theorem piece_basic (h : '\n' ∉ cs) : Piece (writeBasic cs) (holdsDelimiter cs) := by
  rw [holdsDelimiter_unbroken h]
  refine .line ?_ (.of_mem (c := '"') (by simp [writeBasic]) (by decide))
  simp [writeBasic, newline_not_mem_escaped]

theorem piece_literal (h : '\n' ∉ cs) : Piece (writeLiteral cs) (holdsDelimiter cs) := by
  rw [holdsDelimiter_unbroken h]
  refine .line ?_ (.of_mem (c := '\'') (by simp [writeLiteral]) (by decide))
  simpa [writeLiteral] using h

theorem any_isDelimiter_escapedLines {ls : List Line} (h : Unbroken ls) :
    (ls.map (escapedLines 0)).any isDelimiter = ls.contains delimiter.toList := by
  induction ls with
  | nil => rfl
  | cons l ls ih =>
    obtain ⟨hl, hls⟩ := Text.unbroken_cons.mp h
    rw [List.map_cons, List.any_cons, isDelimiter_escapedLines hl, ih hls, List.contains_cons]

theorem piece_basicLines (cs : List Char) : Piece (writeBasicLines cs) (holdsDelimiter cs) := by
  by_cases hn : '\n' ∈ cs
  · obtain ⟨last, hlast, -, hcs⟩ := Text.ended_append_last cs
    have hinit := Text.unbroken_dropLast_lines cs
    have hescaped : Unbroken ((lines cs).dropLast.map (escapedLines 0)) := by
      intro escaped hm
      obtain ⟨l, hl, rfl⟩ := List.mem_map.mp hm
      exact newline_not_mem_escapedLines 0 (hinit l hl)
    have hquote : Marked "\"\"\"".toList := .of_mem (c := '"') (by simp) (by decide)
    have hend : '\n' ∉ escapedLines 0 last ++ "\"\"\"".toList := by
      simpa using newline_not_mem_escapedLines 0 hlast
    have h := Piece.lines (by decide) hquote hescaped hend (hquote.append_left _)
    rw [any_isDelimiter_escapedLines hinit] at h
    have htext : escapedLines 0 cs =
        ended ((lines cs).dropLast.map (escapedLines 0)) ++ escapedLines 0 last := by
      rw [← escapedLines_ended hinit, ← hcs]
    simpa [writeBasicLines, opening, hn, htext, holdsDelimiter] using h
  · rw [holdsDelimiter_unbroken hn]
    refine .line ?_ (.of_mem (c := '"') (by simp [writeBasicLines]) (by decide))
    simpa [writeBasicLines, opening, hn] using newline_not_mem_escapedLines 0 hn

theorem any_isDelimiter_plain {ls : List Line} (h : ∀ l ∈ ls, '\r' ∉ l) :
    ls.any isDelimiter = ls.contains delimiter.toList := by
  induction ls with
  | nil => rfl
  | cons l ls ih =>
    have hl : isDelimiter l = (delimiter.toList == l) := by
      rw [Bool.eq_iff_iff, isDelimiter_iff, beq_iff_eq]
      refine ⟨?_, fun he => .inl he.symm⟩
      rintro (he | he)
      · exact he.symm
      · exact absurd (by simp [he]) (h l (by simp))
    rw [List.any_cons, hl, ih fun m hm => h m (List.mem_cons_of_mem _ hm), List.contains_cons]

theorem piece_literalLines (h : '\r' ∉ cs) :
    Piece (writeLiteralLines cs) (holdsDelimiter cs) := by
  by_cases hn : '\n' ∈ cs
  · obtain ⟨last, hlast, -, hcs⟩ := Text.ended_append_last cs
    have hinit := Text.unbroken_dropLast_lines cs
    have hreturn : ∀ l ∈ (lines cs).dropLast, '\r' ∉ l := by
      intro l hl hr
      refine h (hcs ▸ List.mem_append_left _ (List.mem_flatMap.mpr ⟨l, hl, ?_⟩))
      exact List.mem_append_left _ hr
    have hquote : Marked "'''".toList := .of_mem (c := '\'') (by simp) (by decide)
    have hend : '\n' ∉ last ++ "'''".toList := by simpa using hlast
    have hp := Piece.lines (by decide) hquote hinit hend (hquote.append_left _)
    rw [any_isDelimiter_plain hreturn, ← List.append_assoc (ended _), ← hcs] at hp
    simpa [writeLiteralLines, opening, hn, holdsDelimiter] using hp
  · rw [holdsDelimiter_unbroken hn]
    refine .line ?_ (.of_mem (c := '\'') (by simp [writeLiteralLines]) (by decide))
    simp [writeLiteralLines, opening, hn]

/-- Whichever quotes are chosen, only a line of the text can become a delimiter. -/
theorem piece_write (cs : List Char) : Piece (write cs) (holdsDelimiter cs) := by
  unfold write
  dsimp only
  split
  · rename_i h
    have h : ∀ c ∈ cs, (c ≠ '"' ∧ c ≠ '\\') ∧ c ≠ '\n' := by simp_all
    exact piece_basic fun hn => (h _ hn).2 rfl
  · split
    · rename_i h
      have h : ∀ c ∈ cs, c ≠ '\'' ∧ c ≠ '\n' := by simp_all
      exact piece_literal fun hn => (h _ hn).2 rfl
    · split
      · exact piece_basicLines cs
      · split
        · rename_i h
          refine piece_literalLines fun hr => ?_
          have hc : isControl '\r' = true := by decide
          simp_all
        · split
          · exact piece_basicLines cs
          · rename_i h
            exact piece_basic (by simpa using h)

theorem newline_not_mem_writeKey (cs : List Char) : '\n' ∉ writeKey cs := by
  have hbasic : '\n' ∉ writeBasic cs := by simp [writeBasic, newline_not_mem_escaped]
  unfold writeKey
  dsimp only
  split
  · rename_i h
    intro hn
    have hb : isBare '\n' = false := by decide
    simp_all
  · split
    · exact hbasic
    · split
      · rename_i h
        have h : ∀ c ∈ cs, isControl c = false ∧ c ≠ '\n' := by simp_all
        have hn : '\n' ∉ cs := fun hn => (h _ hn).2 rfl
        simpa [writeLiteral] using hn
      · exact hbasic

end Quotes

end PromptFiles.Toml
