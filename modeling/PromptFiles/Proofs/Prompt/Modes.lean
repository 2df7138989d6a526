import PromptFiles.Proofs.FrontMatter.Framing
import PromptFiles.Proofs.Prompt.Parsed

/-!
# Modes compared

The modes differ in what becomes of the front matter, and after that a text is parsed in the
same way. So a prompt of strict mode is the prompt of allow mode (`parseContent_allow`), and
what strict mode refuses besides is what is not complete (`parseContent_strict`). Ignore mode
takes every text with content, and its body ends with the body of the other modes where dedenting
does not tell the two apart (`suffix_of_framed`).
-/

namespace PromptFiles

open FrontMatter (IsFramed content delimiter split decode)
open Text (Unbroken ended lines lines_ended_append margin margin_eq_nil dedent_ended_append
  trim_suffix_append unbroken_append unbroken_cons)

-- ---------------------------------------------------------------------------
-- Strict and allow
-- ---------------------------------------------------------------------------

def IsComplete (text : String) : Prop :=
  ∃ header body m, split text = .ok ⟨some header, body⟩ ∧ decode .allow header = .ok m ∧
    ∀ name, ¬m.Lacks name

theorem Metadata.missingRequired_eq_nil_iff {m : Metadata} :
    m.missingRequired = [] ↔ ∀ name, ¬m.Lacks name := by
  simp only [List.eq_nil_iff_forall_not_mem, mem_missingRequired]

/-- What strict mode reads where allow mode reads something. -/
theorem readParts_strict {id : String} (h : readParts .allow id text = .ok (m, body)) :
    (split text = .ok ⟨none, text⟩ ∧ readParts .strict id text = .error (.missingMetadata id)) ∨
      ∃ header, split text = .ok ⟨some header, body⟩ ∧ decode .allow header = .ok m ∧
        readParts .strict id text =
          if m.missingRequired = [] then .ok (m, body)
          else .error (.invalidMetadata id (.incomplete m.missingRequired)) := by
  obtain ⟨⟨_ | header, rest⟩, hs⟩ := split_of_readParts (by decide) h
  · obtain ⟨rfl, -⟩ := FrontMatter.split_eq_none_iff.mp hs
    exact .inl ⟨hs, by simp [readParts, hs]⟩
  · obtain ⟨hd, rfl⟩ := (readParts_header_eq_ok_iff (by decide) hs).mp h
    refine .inr ⟨header, hs, hd, ?_⟩
    rw [readParts_header (by decide) hs, FrontMatter.decode_strict hd]
    by_cases hm : m.missingRequired = [] <;>
      simp [FrontMatter.check_strict, hm, Except.map, Except.mapError]

theorem readParts_allow {id : String} (h : readParts .strict id text = .ok (m, body)) :
    readParts .allow id text = .ok (m, body) := by
  obtain ⟨⟨_ | header, rest⟩, hs⟩ := split_of_readParts (by decide) h
  · simp [readParts, hs] at h
  · obtain ⟨hd, rfl⟩ := (readParts_header_eq_ok_iff (by decide) hs).mp h
    exact (readParts_header_eq_ok_iff (by decide) hs).mpr
      ⟨FrontMatter.decode_allow hd, rfl⟩

theorem parseContent_allow {id : String} (h : parseContent .strict id text = .ok p) :
    parseContent .allow id text = .ok p := by
  obtain ⟨htext, m, body, hparts, hp⟩ := parseContent_eq_ok_iff.mp h
  exact parseContent_eq_ok_iff.mpr ⟨htext, m, body, readParts_allow hparts, hp⟩

theorem parseContent_error {id : String} (htext : Text.allBlank text = false)
    (h : readParts mode id text = .error e) : parseContent mode id text = .error e := by
  simp [parseContent, htext, h]

/-- What strict mode makes of a text that allow mode parses. -/
theorem parseContent_strict {id : String} (h : parseContent .allow id text = .ok p) :
    (IsComplete text ∧ parseContent .strict id text = .ok p) ∨
      ¬IsComplete text ∧
        ((split text = .ok ⟨none, text⟩ ∧
            parseContent .strict id text = .error (.missingMetadata id)) ∨
          ∃ header body m, split text = .ok ⟨some header, body⟩ ∧ decode .allow header = .ok m ∧
            parseContent .strict id text =
              .error (.invalidMetadata id (.incomplete m.missingRequired))) := by
  obtain ⟨htext, m, body, hparts, hp⟩ := parseContent_eq_ok_iff.mp h
  rcases readParts_strict hparts with ⟨hs, hstrict⟩ | ⟨header, hs, hd, hstrict⟩
  · refine .inr ⟨?_, .inl ⟨hs, parseContent_error htext hstrict⟩⟩
    rintro ⟨header, body, m, hsome, -⟩
    rw [hs] at hsome
    cases hsome
  · by_cases hm : m.missingRequired = []
    · rw [if_pos hm] at hstrict
      exact .inl ⟨⟨header, body, m, hs, hd, Metadata.missingRequired_eq_nil_iff.mp hm⟩,
        parseContent_eq_ok_iff.mpr ⟨htext, m, body, hstrict, hp⟩⟩
    · rw [if_neg hm] at hstrict
      refine .inr ⟨?_, .inr ⟨header, body, m, hs, hd, parseContent_error htext hstrict⟩⟩
      rintro ⟨header', body', m', hs', hd', hlacks⟩
      rw [hs] at hs'
      cases hs'
      rw [hd] at hd'
      cases hd'
      exact hm (Metadata.missingRequired_eq_nil_iff.mpr hlacks)

theorem parseContent_strict_iff {id : String} (h : parseContent .allow id text = .ok p) :
    (∃ q, parseContent .strict id text = .ok q) ↔ IsComplete text := by
  rcases parseContent_strict h with ⟨hcomplete, hstrict⟩ | ⟨hnot, hrefused⟩
  · exact iff_of_true ⟨p, hstrict⟩ hcomplete
  · refine iff_of_false ?_ hnot
    rintro ⟨q, hq⟩
    rw [hq] at hrefused
    rcases hrefused with ⟨-, herror⟩ | ⟨_, _, _, -, -, herror⟩ <;> cases herror

-- ---------------------------------------------------------------------------
-- Ignore
-- ---------------------------------------------------------------------------

theorem allBlank_eq_false_iff :
    Text.allBlank text = false ↔ ∃ c ∈ text.toList, Text.isBlank c = false := by
  simp [Text.allBlank]

/-- Where the body has no margin, dedenting does to its lines in the whole text what it does to
them in the body alone. -/
theorem suffix_of_framed (h : IsFramed text raw ending body)
    (hmargin : margin (lines body.toList) = []) :
    ∃ front, normalBody text = front ++ normalBody body := by
  have hsuffix : (normalBody body).toList <:+ (normalBody text).toList := by
    rw [toList_normalBody, toList_normalBody]
    rcases h.closed with hending | ⟨-, hbody⟩
    · obtain ⟨opening, closing, hopening, hclosing, htext⟩ := h.layout
      have hwhole : text.toList = ended (opening :: raw ++ [closing]) ++ body.toList := by
        simp [htext, hending]
      have hunbroken : Unbroken (opening :: raw ++ [closing]) := by
        refine unbroken_append.mpr ⟨unbroken_cons.mpr ⟨?_, h.unbroken⟩, unbroken_cons.mpr ⟨?_, ?_⟩⟩
        · exact FrontMatter.newline_not_mem_delimiter hopening
        · exact FrontMatter.newline_not_mem_delimiter hclosing
        · simp [Unbroken]
      -- The opening line has content and no indent, so there is no margin to the whole.
      have hnone : margin (lines (ended (opening :: raw ++ [closing]) ++ body.toList)) = [] := by
        rw [lines_ended_append hunbroken]
        refine margin_eq_nil (l := opening) (by simp) ?_ ?_
        all_goals
          rcases FrontMatter.isDelimiter_iff.mp
            (FrontMatter.isDelimiter_iff_content.mpr hopening) with rfl | rfl <;> decide
      rw [hwhole, dedent_ended_append hunbroken hnone hmargin]
      exact trim_suffix_append _ _
    · -- The closing line ends the text.
      rw [hbody]
      exact List.nil_suffix
  obtain ⟨front, hfront⟩ := hsuffix
  refine ⟨String.ofList front, ?_⟩
  rw [← String.toList_inj, String.toList_append, String.toList_ofList, hfront]

-- ---------------------------------------------------------------------------
-- All three
-- ---------------------------------------------------------------------------

/-- The three modes on one text. What strict mode parses, allow mode parses to the same prompt.
What allow mode parses, strict mode parses if it is complete; otherwise it names what is lacking.
Ignore mode parses every text with content, takes no metadata from it, and where the body after
the front matter has no margin, its own body ends as that one does. -/
theorem modes_agree (settings : Settings) (id text : String) :
    let parse (mode : Mode) := parseText settings (some mode) id text
    (∀ p, parse .strict = .ok p → parse .allow = .ok p) ∧
    (∀ p, parse .allow = .ok p →
      ((∃ q, parse .strict = .ok q) ↔ IsComplete text) ∧
      (¬IsComplete text →
        (split text = .ok ⟨none, text⟩ ∧
            parse .strict = .error (.missingMetadata (namedSource id))) ∨
          ∃ header body m fields, split text = .ok ⟨some header, body⟩ ∧
            decode .allow header = .ok m ∧
            parse .strict = .error (.invalidMetadata (namedSource id) (.incomplete fields)) ∧
            fields.Pairwise (· < ·) ∧ ∀ name, name ∈ fields ↔ m.Lacks name)) ∧
    ((∃ p, parse .ignore = .ok p) ↔ ∃ c ∈ text.toList, Text.isBlank c = false) ∧
    (∀ p, parse .ignore = .ok p → p.metadata = { title := some (fallbackTitle id) }) ∧
    (∀ mode p, parse mode = .ok p → ∃ q, parse .ignore = .ok q) ∧
    (∀ mode p header rest, mode ≠ .ignore → parse mode = .ok p →
      split text = .ok ⟨some header, rest⟩ → margin (lines rest.toList) = [] →
      ∃ q front, parse .ignore = .ok q ∧ q.body = front ++ p.body) := by
  intro parse
  have hparse (mode : Mode) : parse mode = parseContent mode (namedSource id) text := rfl
  simp only [hparse]
  refine ⟨fun p => parseContent_allow, fun p h => ⟨parseContent_strict_iff h, fun hnot => ?_⟩,
    ⟨?_, fun hc => ?_⟩, fun p h => ?_, fun mode p h => ?_, ?_⟩
  · rcases parseContent_strict h with
      ⟨hcomplete, -⟩ | ⟨-, hnone | ⟨header, body, m, hs, hd, herror⟩⟩
    · exact absurd hcomplete hnot
    · exact .inl hnone
    · exact .inr ⟨header, body, m, m.missingRequired, hs, hd, herror, m.sorted_missingRequired,
        fun _ => Metadata.mem_missingRequired⟩
  · rintro ⟨p, hp⟩
    exact allBlank_eq_false_iff.mp (parseContent_ignore_iff.mp hp).1
  · exact ⟨_, parseContent_ignore_iff.mpr ⟨allBlank_eq_false_iff.mpr hc, rfl⟩⟩
  · obtain ⟨-, rfl⟩ := parseContent_ignore_iff.mp h
    rw [fallbackTitle_namedSource]
  · exact ⟨_, parseContent_ignore_iff.mpr ⟨(parseContent_eq_ok_iff.mp h).1, rfl⟩⟩
  · intro mode p header rest hmode h hs hmargin
    obtain ⟨htext, m, body, hparts, -, rfl⟩ := parseContent_eq_ok_iff.mp h
    obtain ⟨-, rfl⟩ := (readParts_header_eq_ok_iff hmode hs).mp hparts
    obtain ⟨raw, ending, hframed, -⟩ := FrontMatter.split_eq_some_iff.mp hs
    obtain ⟨front, hfront⟩ := suffix_of_framed hframed hmargin
    exact ⟨_, front, parseContent_ignore_iff.mpr ⟨htext, rfl⟩, hfront⟩

theorem modes_agree_versioned :
    let header := "title = \"T\"\r\nversion = \"1\"\r\ndescription = \"D\""
    let text := "---\r\n" ++ header ++ "\r\n---\r\n\nHi\n  there\n"
    let untold := "---\ntitle = \"T\"\n---\nHi"
    (∃ p q front, parseText {} (some .strict) "a.md" text = .ok p ∧
      parseText {} (some .allow) "a.md" text = .ok p ∧ IsComplete text ∧
      parseText {} (some .ignore) "a.md" text = .ok q ∧ q.body = front ++ p.body ∧
      q.metadata.title = some "a") ∧
    (∃ p, parseText {} (some .allow) "a.md" untold = .ok p) ∧ ¬IsComplete untold ∧
    ∃ fields, parseText {} (some .strict) "a.md" untold =
      .error (.invalidMetadata "a.md" (.incomplete fields)) ∧ "version" ∈ fields := by
  intro header text untold
  constructor
  · obtain ⟨hallow, hstrict, -, hignore, -, hbody⟩ := modes_agree {} "a.md" text
    obtain ⟨p, hp⟩ : ∃ p, parseText {} (some .strict) "a.md" text = .ok p :=
      exists_ok (by decide +kernel)
    have hs : split text = .ok ⟨some header, "\nHi\n  there\n"⟩ := by decide +kernel
    obtain ⟨q, front, hq, hfront⟩ := hbody .strict p _ _ (by decide) hp hs (by decide)
    refine ⟨p, q, front, hp, hallow p hp, (hstrict p (hallow p hp)).1.mp ⟨p, hp⟩, hq, hfront, ?_⟩
    rw [hignore q hq]
    decide
  · obtain ⟨-, hstrict, -⟩ := modes_agree {} "a.md" untold
    obtain ⟨p, hp⟩ : ∃ p, parseText {} (some .allow) "a.md" untold = .ok p :=
      exists_ok (by decide +kernel)
    have hs : split untold = .ok ⟨some "title = \"T\"", "Hi"⟩ := by decide +kernel
    have hlacks {header body : String} {m : Metadata}
        (hcut : split untold = .ok ⟨some header, body⟩)
        (hd : decode .allow header = .ok m) : m.Lacks "version" := by
      rw [hs] at hcut
      cases hcut
      have hmissing : (decode .allow "title = \"T\"").map Metadata.missingRequired =
          .ok ["description", "version"] := by decide +kernel
      rw [hd] at hmissing
      rw [← Metadata.mem_missingRequired, Except.ok.inj hmissing]
      decide
    have hnot : ¬IsComplete untold := by
      rintro ⟨header, body, m, hcut, hd, hcomplete⟩
      exact hcomplete _ (hlacks hcut hd)
    refine ⟨⟨p, hp⟩, hnot, ?_⟩
    rcases (hstrict p hp).2 hnot with
      ⟨hnone, -⟩ | ⟨header, body, m, fields, hcut, hd, herror, -, hmem⟩
    · rw [hs] at hnone
      cases hnone
    · exact ⟨fields, herror, (hmem _).mpr (hlacks hcut hd)⟩

end PromptFiles
