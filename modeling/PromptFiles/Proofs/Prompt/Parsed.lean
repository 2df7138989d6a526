import PromptFiles.Proofs.FrontMatter.Decoded
import PromptFiles.Proofs.Prompt.Body
import PromptFiles.Proofs.Template.Binding
import PromptFiles.Prompt.Source

/-!
# What every parsed prompt has

Whatever text a prompt was parsed from, in whatever mode: its body is not empty and has no
margin and no blank ends, it has a title, and none of its other keys is a standard one. Its body
alone is parsed to the same body again, with nothing taken for front matter: `parsed_prompt`.
-/

namespace PromptFiles

-- ---------------------------------------------------------------------------
-- Titles
-- ---------------------------------------------------------------------------

namespace Path

theorem component?_normal (h : component? piece = some (.normal name)) : name ≠ "" := by
  unfold component? at h
  split at h
  · cases h
  · cases h
  · cases h
  · rename_i hne _ _
    cases h
    exact hne

theorem normal_mem_components (h : .normal name ∈ components path) : name ≠ "" := by
  unfold components at h
  split at h
  · cases h
  · rename_i piece rest _
    rcases List.mem_append.mp h with hfirst | hrest
    · rw [Option.mem_toList] at hfirst
      unfold first? at hfirst
      split at hfirst
      · split at hfirst <;> cases hfirst
      · split at hfirst
        · cases hfirst
        · exact component?_normal hfirst
    · obtain ⟨piece, -, hpiece⟩ := List.mem_filterMap.mp hrest
      exact component?_normal hpiece

theorem fileName?_ne_empty (h : fileName? path = some name) : name ≠ "" := by
  unfold fileName? at h
  split at h
  · rename_i hlast
    cases h
    exact normal_mem_components (List.mem_of_getLast? hlast)
  · cases h

theorem stem_ne_empty (h : name ≠ "") : stem name ≠ "" := by
  simp only [stem]
  split
  · exact h
  · rename_i hne
    simpa using hne

end Path

theorem fallbackTitle_ne_empty (id : String) : fallbackTitle id ≠ "" := by
  unfold fallbackTitle
  split
  · decide
  · split
    · rename_i hname
      exact Path.stem_ne_empty (Path.fileName?_ne_empty hname)
    · decide

theorem fallbackTitle_namedSource (id : String) :
    fallbackTitle (namedSource id) = fallbackTitle id := by
  unfold namedSource
  split
  · rename_i hid
    rw [hid]
    decide
  · rfl

theorem Metadata.title_titled (m : Metadata) (id : String) :
    ∃ title, (m.titled id).title = some title ∧ title ≠ "" := by
  unfold titled
  split
  · exact ⟨_, rfl, fallbackTitle_ne_empty id⟩
  · rename_i hblank
    cases ht : m.title with
    | none => exact absurd (by simp [ht, blankField]) hblank
    | some title =>
      refine ⟨title, rfl, ?_⟩
      rintro rfl
      exact hblank (by simp [ht, blankField, Text.allBlank])

@[simp] theorem Metadata.extra_titled (m : Metadata) (id : String) :
    (m.titled id).extra = m.extra := by
  unfold titled
  split <;> rfl

-- ---------------------------------------------------------------------------
-- Parsing
-- ---------------------------------------------------------------------------

theorem readParts_header {id rest : String} (hmode : mode ≠ .ignore)
    (hs : FrontMatter.split text = .ok ⟨some header, rest⟩) :
    readParts mode id text =
      ((FrontMatter.decode mode header).mapError (.invalidMetadata id)).map (·, rest) := by
  cases mode with
  | ignore => exact absurd rfl hmode
  | strict | allow =>
    simp only [readParts, hs]
    split <;> simp [*, Except.map, Except.mapError]

theorem readParts_header_eq_ok_iff {id rest : String} (hmode : mode ≠ .ignore)
    (hs : FrontMatter.split text = .ok ⟨some header, rest⟩) :
    readParts mode id text = .ok (m, body) ↔
      FrontMatter.decode mode header = .ok m ∧ body = rest := by
  rw [readParts_header hmode hs]
  cases FrontMatter.decode mode header <;> simp [Except.map, Except.mapError, eq_comm]

theorem split_of_readParts {id : String} (hmode : mode ≠ .ignore)
    (h : readParts mode id text = .ok parts) : ∃ cut, FrontMatter.split text = .ok cut := by
  cases hs : FrontMatter.split text with
  | error e => cases mode <;> simp [readParts, hs] at h hmode
  | ok cut => exact ⟨cut, rfl⟩

theorem extra_readParts {id : String} (h : readParts mode id text = .ok (m, body)) :
    ∀ key ∈ m.extra.keys, key ∉ Metadata.standardFields := by
  have none (hm : m = {}) : ∀ key ∈ m.extra.keys, key ∉ Metadata.standardFields := by
    rw [hm]
    exact fun key hkey => absurd hkey (List.not_mem_nil)
  by_cases hmode : mode = .ignore
  · rw [hmode] at h
    cases h
    exact none rfl
  · obtain ⟨⟨_ | header, rest⟩, hs⟩ := split_of_readParts hmode h
    · refine none ?_
      cases mode with
      | ignore => exact absurd rfl hmode
      | strict => simp [readParts, hs] at h
      | allow =>
        simp only [readParts, hs, reduceCtorEq, ↓reduceIte] at h
        cases h
        rfl
    · exact FrontMatter.extra_decode ((readParts_header_eq_ok_iff hmode hs).mp h).1

/-- Nothing but a text without content is refused where metadata are ignored. -/
theorem parseContent_ignore_iff {id : String} : parseContent .ignore id text = .ok p ↔
    ∃ h : Text.allBlank text = false,
      p = ⟨id, { title := some (fallbackTitle id) }, normalBody text, normalBody_notBlank h⟩ := by
  rw [parseContent_eq_ok_iff]
  constructor
  · rintro ⟨htext, m, body, hparts, -, rfl⟩
    cases hparts
    exact ⟨htext, rfl⟩
  · rintro ⟨htext, rfl⟩
    exact ⟨htext, {}, text, rfl, normalBody_notBlank htext, rfl⟩

theorem parseContent_ignore (hb : Text.allBlank body = false) (hn : normalBody body = body)
    (id : String) : parseContent .ignore id body =
      .ok ⟨id, { title := some (fallbackTitle id) }, body, hb⟩ := by
  refine parseContent_ignore_iff.mpr ⟨hb, ?_⟩
  simp only [hn]

theorem parseContent_plain (hb : Text.allBlank body = false) (hn : normalBody body = body)
    (hs : FrontMatter.split body = .ok ⟨none, body⟩) (id : String) :
    parseContent .allow id body = .ok ⟨id, { title := some (fallbackTitle id) }, body, hb⟩ := by
  refine parseContent_eq_ok_iff.mpr ⟨hb, {}, body, ?_, ?_⟩
  · simp [readParts, hs]
  · simp only [hn]
    exact ⟨hb, rfl⟩

theorem parseSource_eq_ok_iff {settings : Settings} {source : Source} {id : String} :
    parseSource settings source mode id = .ok p ↔
      source.holds id = true ∧ ∃ text, source.read id = .ok text ∧
        parseContent (settings.resolve mode) id text = .ok p := by
  unfold parseSource
  cases source.holds id with
  | false => simp
  | true => cases source.read id <;> simp

/-- What holds of a prompt that was parsed from a text or from a source, in any mode. The body is
its own normal form, which is why parsing it alone changes nothing. -/
theorem parsed_prompt (settings : Settings) (mode : Option Mode) (id : String) (p : Prompt)
    (h : (∃ text, parseText settings mode id text = .ok p) ∨
      ∃ source, parseSource settings source mode id = .ok p) :
    p.body ≠ "" ∧ Text.trimmed p.body = p.body ∧ Text.dedented p.body = p.body ∧
      p.placeholders = Template.placeholders p.body ∧
      (∀ name, name ∈ p.placeholders ↔ ∃ format, .field name format ∈ Template.tokenize p.body) ∧
      (∃ title, p.metadata.title = some title ∧ title ≠ "") ∧
      (∀ key ∈ Metadata.standardFields, key ∉ p.metadata.extra.keys) ∧
      (∃ q, parseText settings (some .ignore) id p.body = .ok q ∧ q.body = p.body ∧
        q.placeholders = p.placeholders) ∧
      ∀ source : Source, source.holds id = true → source.read id = .ok p.body →
        ∃ q, parseSource settings source (some .ignore) id = .ok q ∧ q.body = p.body ∧
          q.placeholders = p.placeholders := by
  have hcontent : ∃ path text, parseContent (settings.resolve mode) path text = .ok p := by
    rcases h with ⟨text, htext⟩ | ⟨source, hsource⟩
    · exact ⟨namedSource id, text, htext⟩
    · obtain ⟨-, text, -, htext⟩ := parseSource_eq_ok_iff.mp hsource
      exact ⟨id, text, htext⟩
  obtain ⟨path, text, hparse⟩ := hcontent
  obtain ⟨-, m, body, hparts, hb, rfl⟩ := parseContent_eq_ok_iff.mp hparse
  have again (id : String) := parseContent_ignore hb (normalBody_normalBody body) id
  refine ⟨fun hempty => ?_, trimmed_normalBody body, dedented_normalBody body, rfl,
    fun name => Template.mem_placeholders, m.title_titled path, fun key hkey hextra => ?_,
    ⟨_, again _, rfl, rfl⟩, fun source hholds hread => ?_⟩
  · rw [show normalBody body = "" from hempty] at hb
    exact absurd hb (by decide)
  · rw [Metadata.extra_titled] at hextra
    exact extra_readParts hparts key hextra hkey
  · exact ⟨_, parseSource_eq_ok_iff.mpr ⟨hholds, _, hread, again id⟩, rfl, rfl⟩

theorem parsed_prompt_upwards :
    let text :=
      "---\r\ntitle = \" \"\r\nmodel = 1\r\n---\r\n\r\n  Hi \x7bwho\x7d\r\n\r\n    there \r\n"
    ∃ p, parseText {} none ".." text = .ok p ∧ p.body = "Hi \x7bwho\x7d\r\n\n  there" ∧
      Text.dedented p.body = p.body ∧ p.metadata.title = some "inline" ∧
      "title" ∉ p.metadata.extra.keys := by
  intro text
  obtain ⟨p, hp⟩ : ∃ p, parseText {} none ".." text = .ok p := exists_ok (by decide +kernel)
  have hok : ((parseText {} none ".." text).toOption.map fun p => (p.body, p.metadata.title)) =
      some ("Hi \x7bwho\x7d\r\n\n  there", some "inline") := by
    decide +kernel
  rw [hp] at hok
  obtain ⟨hbody, htitle⟩ := Prod.mk.inj (Option.some.inj hok)
  obtain ⟨-, -, hdedented, -, -, -, hkeys, -, -⟩ := parsed_prompt {} none ".." p (.inl ⟨text, hp⟩)
  exact ⟨p, hp, hbody, hdedented, htitle, hkeys "title" (by decide)⟩

end PromptFiles
