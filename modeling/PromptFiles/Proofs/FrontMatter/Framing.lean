import Mathlib.Data.List.Basic
import PromptFiles.FrontMatter.Split
import PromptFiles.Proofs.Text.Margin

/-!
# Files with front matter

`IsFramed` says what a file with front matter looks like: an opening line, complete lines of
which none is the delimiter, a closing line, and the body. Nothing in it searches.
`split_iff_framed` compares it with `split`: a text that has this form is cut there and
nowhere else, a text whose first line is not the delimiter is all body, and any other text
is refused.
-/

namespace PromptFiles.FrontMatter

open Text (Line Unbroken ended lines unlines)

-- ---------------------------------------------------------------------------
-- Lines
-- ---------------------------------------------------------------------------

/-- What a line says. One carriage return at its end belongs to the line break. -/
def content (line : Line) : List Char :=
  if line.getLast? = some '\r' then line.dropLast else line

def firstLine (text : String) : Line :=
  text.toList.takeWhile (· != '\n')

theorem isDelimiter_iff {l : Line} :
    isDelimiter l = true ↔ l = delimiter.toList ∨ l = delimiter.toList ++ ['\r'] := by
  simp only [isDelimiter, Bool.or_eq_true, beq_iff_eq]

theorem isDelimiter_iff_content {l : Line} :
    isDelimiter l = true ↔ content l = delimiter.toList := by
  rw [isDelimiter_iff, content]
  constructor
  · rintro (rfl | rfl) <;> decide
  · intro h
    split at h
    · rename_i hreturn
      right
      rw [← h, List.dropLast_append_getLast? '\r' hreturn]
    · exact .inl h

theorem newline_not_mem_delimiter {l : Line} (h : content l = delimiter.toList) : '\n' ∉ l := by
  rcases isDelimiter_iff.mp (isDelimiter_iff_content.mpr h) with rfl | rfl <;> decide

theorem head?_lines (cs : List Char) : (lines cs).head? = some (cs.takeWhile (· != '\n')) := by
  induction cs with
  | nil => rfl
  | cons c cs ih =>
    by_cases hc : c = '\n'
    · subst hc
      simp [lines, Text.split]
    · obtain ⟨l, ls, hls, hcons⟩ := Text.exists_lines_cons hc cs
      rw [hls] at ih
      rw [hcons]
      simpa [hc] using ih

theorem startsWithDelimiter_iff (text : String) :
    startsWithDelimiter text = true ↔ content (firstLine text) = delimiter.toList := by
  rw [startsWithDelimiter, head?_lines, Option.any_some, isDelimiter_iff_content, firstLine]

-- ---------------------------------------------------------------------------
-- Cutting
-- ---------------------------------------------------------------------------

theorem split_cut (h : lines text.toList = opening :: (before ++ closing :: after))
    (hopening : isDelimiter opening = true) (hbefore : ∀ l ∈ before, (!isDelimiter l) = true)
    (hclosing : isDelimiter closing = true) :
    split text = .ok ⟨some (String.ofList (Text.trim (unlines before))),
      String.ofList (unlines after)⟩ := by
  rw [split, h]
  simp only [hopening, ↓reduceIte, List.dropWhile_append_of_pos hbefore,
    List.takeWhile_append_of_pos hbefore]
  simp [hclosing]

theorem split_none (h : startsWithDelimiter text = false) : split text = .ok ⟨none, text⟩ := by
  rw [split]
  rw [startsWithDelimiter] at h
  cases hl : lines text.toList with
  | nil => rfl
  | cons first rest =>
    rw [hl, List.head?_cons, Option.any_some] at h
    simp [h]

theorem split_of_starts (h : startsWithDelimiter text = true) :
    (∃ opening before closing after,
        lines text.toList = opening :: (before ++ closing :: after) ∧
        isDelimiter opening = true ∧ (∀ l ∈ before, (!isDelimiter l) = true) ∧
        isDelimiter closing = true) ∨
      split text = .error .missingClosingDelimiter := by
  rw [startsWithDelimiter] at h
  cases hl : lines text.toList with
  | nil => exact absurd hl (Text.split_ne_nil '\n' text.toList)
  | cons opening rest =>
    rw [hl, List.head?_cons, Option.any_some] at h
    cases hd : rest.dropWhile (!isDelimiter ·) with
    | nil => exact .inr (by simp [split, hl, h, hd])
    | cons closing after =>
      have hjoin := List.takeWhile_append_dropWhile (p := (!isDelimiter ·)) (l := rest)
      have hclosing := List.head?_dropWhile_not (!isDelimiter ·) rest
      rw [hd] at hjoin hclosing
      exact .inl ⟨opening, _, closing, after, by rw [hjoin], h,
        fun l hm => List.mem_takeWhile_imp (p := (!isDelimiter ·)) hm, by simpa using hclosing⟩

-- ---------------------------------------------------------------------------
-- The format
-- ---------------------------------------------------------------------------

/-- A file with front matter. `ending` is the line break of the closing line, which is missing
only at the end of the text; `raw` are the lines of the header. -/
structure IsFramed (text : String) (raw : List Line) (ending : List Char) (body : String) :
    Prop where
  layout : ∃ opening closing, content opening = delimiter.toList ∧
    content closing = delimiter.toList ∧
    text.toList = opening ++ '\n' :: (ended raw ++ (closing ++ (ending ++ body.toList)))
  unbroken : Unbroken raw
  header : ∀ l ∈ raw, content l ≠ delimiter.toList
  closed : ending = ['\n'] ∨ ending = [] ∧ body = ""

namespace IsFramed

theorem split_eq (h : IsFramed text raw ending body) :
    split text = .ok ⟨some (Text.trimmed (String.ofList (ended raw))), body⟩ := by
  obtain ⟨opening, closing, hopening, hclosing, htext⟩ := h.layout
  have hraw : ∀ l ∈ raw, (!isDelimiter l) = true := by
    intro l hl
    rw [Bool.not_eq_true', ← Bool.not_eq_true, isDelimiter_iff_content]
    exact h.header l hl
  have hlines : ∃ after, lines text.toList = opening :: (raw ++ closing :: after) ∧
      unlines after = body.toList := by
    rw [htext, Text.lines_cons (newline_not_mem_delimiter hopening),
      Text.lines_ended_append h.unbroken]
    rcases h.closed with hending | ⟨hending, hbody⟩
    · rw [hending, List.singleton_append, Text.lines_cons (newline_not_mem_delimiter hclosing)]
      exact ⟨_, rfl, Text.unlines_lines _⟩
    · rw [hending, hbody, String.toList_empty, List.append_nil, List.append_nil,
        Text.lines_unbroken (newline_not_mem_delimiter hclosing)]
      exact ⟨[], rfl, rfl⟩
  obtain ⟨after, hlines, hafter⟩ := hlines
  rw [split_cut hlines (isDelimiter_iff_content.mpr hopening) hraw
    (isDelimiter_iff_content.mpr hclosing), hafter, Text.trimmed, String.toList_ofList,
    Text.trim_ended, String.ofList_toList]

theorem starts (h : IsFramed text raw ending body) :
    content (firstLine text) = delimiter.toList := by
  obtain ⟨opening, closing, hopening, -, htext⟩ := h.layout
  have hfirst : firstLine text = opening := by
    have hhead := head?_lines text.toList
    rw [htext, Text.lines_cons (newline_not_mem_delimiter hopening), ← htext,
      List.head?_cons] at hhead
    exact (Option.some.inj hhead).symm
  rw [hfirst, hopening]

theorem append (h : IsFramed text raw ['\n'] body) (more : String) :
    IsFramed (text ++ more) raw ['\n'] (body ++ more) where
  layout := by
    obtain ⟨opening, closing, hopening, hclosing, htext⟩ := h.layout
    exact ⟨opening, closing, hopening, hclosing, by simp [htext]⟩
  unbroken := h.unbroken
  header := h.header
  closed := .inl rfl

end IsFramed

theorem exists_isFramed (h : lines text.toList = opening :: (before ++ closing :: after))
    (hopening : isDelimiter opening = true) (hbefore : ∀ l ∈ before, (!isDelimiter l) = true)
    (hclosing : isDelimiter closing = true) :
    ∃ ending, IsFramed text before ending (String.ofList (unlines after)) := by
  have hunbroken := Text.unbroken_lines text.toList
  rw [h] at hunbroken
  have hraw : Unbroken before := (Text.unbroken_append.mp (Text.unbroken_cons.mp hunbroken).2).1
  have hheader : ∀ l ∈ before, content l ≠ delimiter.toList := by
    intro l hl hd
    simpa [isDelimiter_iff_content.mpr hd] using hbefore l hl
  have htext : text.toList = opening ++ '\n' :: (ended before ++ unlines (closing :: after)) := by
    rw [← Text.unlines_lines text.toList, h, ← List.singleton_append,
      Text.unlines_append _ (by simp), Text.unlines_append _ (by simp)]
    simp
  have layout (ending : List Char)
      (hafter : unlines (closing :: after) = closing ++ (ending ++ unlines after)) :
      ∃ opening closing, content opening = delimiter.toList ∧
        content closing = delimiter.toList ∧ text.toList = opening ++ '\n' :: (ended before ++
          (closing ++ (ending ++ (String.ofList (unlines after)).toList))) :=
    ⟨opening, closing, isDelimiter_iff_content.mp hopening, isDelimiter_iff_content.mp hclosing,
      by rw [htext, hafter, String.toList_ofList]⟩
  cases after with
  | nil =>
    exact ⟨[], layout [] (by simp [unlines, Text.join]), hraw, hheader, .inr ⟨rfl, rfl⟩⟩
  | cons l ls =>
    exact ⟨['\n'], layout ['\n'] (by simp [unlines, Text.join]), hraw, hheader, .inl rfl⟩

theorem split_cases (text : String) :
    (content (firstLine text) ≠ delimiter.toList ∧ split text = .ok ⟨none, text⟩) ∨
      (∃ raw ending body, IsFramed text raw ending body) ∨
      (content (firstLine text) = delimiter.toList ∧
        split text = .error .missingClosingDelimiter) := by
  have hstarts := startsWithDelimiter_iff text
  cases hs : startsWithDelimiter text with
  | false => exact .inl ⟨fun hd => by simp [hstarts.mpr hd] at hs, split_none hs⟩
  | true =>
    rcases split_of_starts hs with ⟨_, _, _, _, hlines, hopening, hbefore, hclosing⟩ | herror
    · obtain ⟨ending, hframed⟩ := exists_isFramed hlines hopening hbefore hclosing
      exact .inr (.inl ⟨_, ending, _, hframed⟩)
    · exact .inr (.inr ⟨hstarts.mp hs, herror⟩)

theorem split_eq_none_iff {body : String} :
    split text = .ok ⟨none, body⟩ ↔ body = text ∧ content (firstLine text) ≠ delimiter.toList := by
  rcases split_cases text with ⟨hd, hs⟩ | ⟨raw, ending, other, hframed⟩ | ⟨hd, hs⟩
  · simp [hs, hd, eq_comm]
  · simp [hframed.split_eq, hframed.starts]
  · simp [hs, hd]

theorem split_eq_some_iff {header body : String} :
    split text = .ok ⟨some header, body⟩ ↔
      ∃ raw ending, IsFramed text raw ending body ∧
        header = Text.trimmed (String.ofList (ended raw)) := by
  constructor
  · intro h
    rcases split_cases text with ⟨-, hs⟩ | ⟨raw, ending, other, hframed⟩ | ⟨-, hs⟩
    · rw [hs] at h
      cases h
    · rw [hframed.split_eq] at h
      cases h
      exact ⟨raw, ending, hframed, rfl⟩
    · rw [hs] at h
      cases h
  · rintro ⟨raw, ending, hframed, rfl⟩
    exact hframed.split_eq

theorem split_eq_error_iff :
    split text = .error .missingClosingDelimiter ↔
      content (firstLine text) = delimiter.toList ∧
        ¬∃ raw ending body, IsFramed text raw ending body := by
  constructor
  · intro h
    rcases split_cases text with ⟨-, hs⟩ | ⟨raw, ending, body, hframed⟩ | ⟨hd, -⟩
    · rw [hs] at h
      cases h
    · rw [hframed.split_eq] at h
      cases h
    · refine ⟨hd, ?_⟩
      rintro ⟨raw, ending, body, hframed⟩
      rw [hframed.split_eq] at h
      cases h
  · rintro ⟨hd, hnone⟩
    rcases split_cases text with ⟨hne, -⟩ | hframed | ⟨-, hs⟩
    · exact absurd hd hne
    · exact absurd hframed hnone
    · exact hs

/-- A text is all body exactly when its first line is not the delimiter. It is cut into header
and body exactly when it has the format, and the header is trimmed. In all other cases the
closing line is missed. What follows a complete closing line goes to the body. -/
theorem split_iff_framed (text : String) :
    (startsWithDelimiter text = false ↔ content (firstLine text) ≠ delimiter.toList) ∧
    (∀ body, split text = .ok ⟨none, body⟩ ↔
      body = text ∧ content (firstLine text) ≠ delimiter.toList) ∧
    (∀ header body, split text = .ok ⟨some header, body⟩ ↔
      ∃ raw ending, IsFramed text raw ending body ∧
        header = Text.trimmed (String.ofList (ended raw))) ∧
    (split text = .error .missingClosingDelimiter ↔
      content (firstLine text) = delimiter.toList ∧
        ¬∃ raw ending body, IsFramed text raw ending body) ∧
    (∀ raw body more, IsFramed text raw ['\n'] body →
      split (text ++ more) =
        .ok ⟨some (Text.trimmed (String.ofList (ended raw))), body ++ more⟩) := by
  refine ⟨?_, fun _ => split_eq_none_iff, fun _ _ => split_eq_some_iff, split_eq_error_iff,
    fun _ _ more h => (h.append more).split_eq⟩
  rw [← Bool.not_eq_true, startsWithDelimiter_iff]

theorem split_iff_framed_crlf :
    IsFramed "---\r\na = 1\r\n---\r\nIntro\n---\n" ["a = 1\r".toList] ['\n'] "Intro\n---\n" ∧
      split ("---\r\na = 1\r\n---\r\nIntro\n---\n" ++ "More") =
        .ok ⟨some "a = 1", "Intro\n---\nMore"⟩ := by
  have hframed : IsFramed "---\r\na = 1\r\n---\r\nIntro\n---\n" ["a = 1\r".toList] ['\n']
      "Intro\n---\n" :=
    ⟨⟨"---\r".toList, "---\r".toList, by decide, by decide, by decide⟩,
      by unfold Unbroken; decide, by decide, .inl rfl⟩
  obtain ⟨-, -, -, -, happend⟩ := split_iff_framed "---\r\na = 1\r\n---\r\nIntro\n---\n"
  exact ⟨hframed, (happend _ _ "More" hframed).trans (by decide +kernel)⟩

/-- A dash too many, or a blank in front, and the line is not the delimiter. -/
example : startsWithDelimiter "----\na" = false ∧ startsWithDelimiter " ---\na" = false := by
  decide

end PromptFiles.FrontMatter
