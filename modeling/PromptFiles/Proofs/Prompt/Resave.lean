import PromptFiles.Proofs.FrontMatter.Delimiter
import PromptFiles.Proofs.FrontMatter.Header
import PromptFiles.Proofs.Prompt.Parsed

/-!
# Reading back what was written

A written prompt file is parsed again to the same prompt, with the required fields filled
in: `parseText_serialize`. What is needed for that is asked of the metadata alone,
`Metadata.Storable`; the body may be anything that is not blank. `Metadata.ReadsAs` asks for less,
and is enough for the standard fields.
-/

namespace PromptFiles

open FrontMatter (filled headerTable serialize)

/-- Metadata whose header table is still there in the file it is written to. -/
structure Metadata.Storable (m : Metadata) : Prop where
  /-- The other keys are those of a table, which has each key once. -/
  keys_nodup : m.extra.keys.Nodup
  not_standard : ∀ key ∈ m.extra.keys, key ∉ standardFields
  /-- No text has the delimiter as a line, its last line aside. -/
  no_delimiter : (headerTable m).holdsDelimiter = false
  /-- What TOML owes: the text of the table, cut off the file again, denotes the same table. With
  a NaN in it a table is not even the same as itself. -/
  readsBack : ∃ t, Toml.Reader.table? (Text.trimmed (headerTable m).text) = some t ∧
    (headerTable m).same t = true

/-- Metadata whose header table is read, off the file that it is written to, as another table with
the same keys and texts. The other values may come back as they like. -/
structure Metadata.ReadsAs (m : Metadata) (t : Toml.Table) : Prop where
  keys_nodup : m.extra.keys.Nodup
  not_standard : ∀ key ∈ m.extra.keys, key ∉ standardFields
  no_delimiter : (headerTable m).holdsDelimiter = false
  read : Toml.Reader.table? (Text.trimmed (headerTable m).text) = some t
  matched : (headerTable m).Matches t

instance (m : Metadata) : Decidable (∃ t, m.ReadsAs t) :=
  decidable_of_iff (m.extra.keys.Nodup ∧ (∀ key ∈ m.extra.keys, key ∉ Metadata.standardFields) ∧
      (headerTable m).holdsDelimiter = false ∧
      ∃ t ∈ Toml.Reader.table? (Text.trimmed (headerTable m).text), (headerTable m).Matches t)
    ⟨fun ⟨hkeys, hextra, hwhole, t, ht, hmatched⟩ => ⟨t, hkeys, hextra, hwhole, ht, hmatched⟩,
      fun ⟨t, hkeys, hextra, hwhole, ht, hmatched⟩ => ⟨hkeys, hextra, hwhole, t, ht, hmatched⟩⟩

theorem Metadata.Storable.readsAs {m : Metadata} (hm : m.Storable) :
    ∃ t, (headerTable m).same t = true ∧ m.ReadsAs t := by
  obtain ⟨t, ht, hsame⟩ := hm.readsBack
  exact ⟨t, hsame, hm.keys_nodup, hm.not_standard, hm.no_delimiter, ht,
    .of_same (FrontMatter.nodup_headerTable hm.keys_nodup) hsame⟩

theorem serialize_notBlank (m : Metadata) (body : String) :
    Text.allBlank (serialize m body) = false := by
  refine List.all_eq_false.mpr ⟨'-', ?_, by decide⟩
  simp [serialize, FrontMatter.delimiter]

theorem blankField_filled (field : Option String) :
    Metadata.blankField (some (field.getD "")) = Metadata.blankField field := by
  cases field <;> simp [Metadata.blankField, Text.allBlank]

theorem title_titled_filled (m : Metadata) (extra : Toml.Table) (id : String) :
    ((filled m extra).titled id).title =
      if Metadata.blankField m.title then some (fallbackTitle id) else m.title := by
  have hblank : Metadata.blankField (filled m extra).title = Metadata.blankField m.title :=
    blankField_filled m.title
  rw [Metadata.titled, hblank]
  split
  · rfl
  · rename_i hne
    cases ht : m.title with
    | none => simp [ht, Metadata.blankField] at hne
    | some s => simp [filled, ht]

theorem decode_readsAs {m : Metadata} (hm : m.ReadsAs t) :
    FrontMatter.decode .allow (Text.trimmed (headerTable m).text) =
      .ok (filled m (t.filter fun e => !Metadata.standardFields.contains e.1)) := by
  rw [FrontMatter.decode, hm.read]
  exact FrontMatter.decodeTable_matches hm.not_standard hm.keys_nodup hm.matched

theorem readParts_readsAs {m : Metadata} (hm : m.ReadsAs t) (body id : String) :
    readParts .allow id (serialize m body) =
      .ok (filled m (t.filter fun e => !Metadata.standardFields.contains e.1), "\n" ++ body) :=
  (readParts_header_eq_ok_iff (by decide)
    (FrontMatter.split_serialize_whole hm.no_delimiter body)).mpr ⟨decode_readsAs hm, rfl⟩

theorem readParts_serialize {m : Metadata} (hm : m.Storable) (body id : String) :
    ∃ extra, m.extra.same extra = true ∧
      readParts .allow id (serialize m body) = .ok (filled m extra, "\n" ++ body) := by
  obtain ⟨t, hsame, ht⟩ := hm.readsAs
  refine ⟨_, ?_, readParts_readsAs ht body id⟩
  have hkept := Toml.Table.same_filter
    (FrontMatter.nodup_headerTable hm.keys_nodup) hsame
    (!Metadata.standardFields.contains ·)
  rwa [FrontMatter.filter_headerTable hm.not_standard] at hkept

/-- A saved prompt is parsed again with the same metadata and the same body. A required field
that was absent is empty, and a blank title gives way to the fallback. The body of a
prompt that was parsed does not change at all. -/
theorem parseText_serialize (settings : Settings) (m : Metadata) (body id : String)
    (hm : m.Storable) (hb : Text.allBlank body = false) :
    ∃ p, parseText settings (some .allow) id (serialize m body) = .ok p ∧
      p.metadata.author = m.author ∧ p.metadata.created = m.created ∧
      m.extra.same p.metadata.extra = true ∧
      p.metadata.description = some (m.description.getD "") ∧
      p.metadata.version = some (m.version.getD "") ∧
      p.metadata.title =
        (if Metadata.blankField m.title then some (fallbackTitle (namedSource id)) else m.title) ∧
      p.body = normalBody body ∧
      ∀ mode source text q, parseContent mode source text = .ok q → q.body = body →
        p.body = q.body ∧ p.placeholders = q.placeholders := by
  obtain ⟨extra, hextra, hparts⟩ := readParts_serialize hm body (namedSource id)
  have hbody := normalBody_notBlank hb
  have hparse : parseText settings (some .allow) id (serialize m body) =
      .ok ⟨namedSource id, (filled m extra).titled (namedSource id), normalBody body, hbody⟩ := by
    rw [parseText, Settings.resolve, Option.getD_some, parseContent,
      if_neg (by simp [serialize_notBlank]), hparts]
    simp only [normalBody_newline]
    exact create_ok hbody _ _
  have hkept : ((filled m extra).titled (namedSource id)).author = m.author ∧
      ((filled m extra).titled (namedSource id)).created = m.created ∧
      m.extra.same ((filled m extra).titled (namedSource id)).extra = true ∧
      ((filled m extra).titled (namedSource id)).description = some (m.description.getD "") ∧
      ((filled m extra).titled (namedSource id)).version = some (m.version.getD "") := by
    unfold Metadata.titled
    split <;> exact ⟨rfl, rfl, hextra, rfl, rfl⟩
  obtain ⟨hauthor, hcreated, hother, hdescription, hversion⟩ := hkept
  refine ⟨_, hparse, hauthor, hcreated, hother, hdescription, hversion,
    title_titled_filled m extra _, rfl, fun mode source text q hq hqb => ?_⟩
  have hsame : normalBody body = q.body := by rw [← hqb, normalBody_parsed hq]
  exact ⟨hsame, congrArg Template.placeholders hsame⟩

theorem parseText_serialize_ides :
    let m : Metadata :=
      { author := some "Ann", created := Calendar.Date.ofParts? (-44) 3 15,
        description := some "two\n\"lines\"",
        extra := [("tags", .array [.string "x", .integer 3])] }
    m.Storable ∧
      ∃ p, parseText {} (some .allow) "letters/ides.txt"
          (serialize m "---\n  Beware \x7bdate\x7d\n") = .ok p ∧
        p.metadata.created = m.created ∧ p.metadata.title = some "ides" ∧
        p.metadata.version = some "" ∧ p.body = "---\n  Beware \x7bdate\x7d" := by
  intro m
  have hm : m.Storable := by
    refine ⟨by decide, by decide, by decide +kernel, ?_⟩
    have hread : (Toml.Reader.table? (Text.trimmed (headerTable m).text)).any
        (headerTable m).same = true := by decide +kernel
    exact (Option.any_eq_true _ _).mp hread
  refine ⟨hm, ?_⟩
  obtain ⟨p, hp, -, hcreated, -, -, hversion, htitle, hbody, -⟩ :=
    parseText_serialize {} m "---\n  Beware \x7bdate\x7d\n" "letters/ides.txt" hm (by decide)
  exact ⟨p, hp, hcreated, htitle.trans (by decide +kernel), hversion,
    hbody.trans (by decide +kernel)⟩

end PromptFiles
