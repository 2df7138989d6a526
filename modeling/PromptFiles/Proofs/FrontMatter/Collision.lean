import PromptFiles.Proofs.FrontMatter.Decoded

/-!
# Other keys with the name of a standard one

Nothing keeps a standard key out of the other keys of metadata. Title, description and version are
always written, so another key of these names is never written. Author and date are written only
if they are there, and otherwise another key of the name stands in for them:
`decodeTable_headerTable`. A list or a table that stands in for the author is the one thing that
cannot be read back.
-/

namespace PromptFiles.FrontMatter

open Toml (Table)
open Metadata (standardFields)

-- ---------------------------------------------------------------------------
-- Tables that cannot be entered
-- ---------------------------------------------------------------------------

/-- By induction along the table: the first field for a text that has none is named. -/
theorem enterAll_eq_error {t : Table} (h : enterAll m t = .error e) :
    ∃ before key v after, t = before ++ (key, v) :: after ∧ Readable before ∧ key ∈ textFields ∧
      stringOf? v = none ∧ e = .invalidField key := by
  induction t generalizing m with
  | nil => cases h
  | cons entry rest ih =>
    obtain ⟨k, v⟩ := entry
    rw [enterAll] at h
    by_cases hv : k ∈ textFields → (stringOf? v).isSome = true
    · rw [enter_eq m hv] at h
      obtain ⟨before, key, w, after, rfl, hbefore, hkey, hnone, rfl⟩ := ih h
      refine ⟨(k, v) :: before, key, w, after, rfl, ?_, hkey, hnone, rfl⟩
      exact List.forall_mem_cons.mpr ⟨hv, hbefore⟩
    · obtain ⟨hk, hnone⟩ := Classical.not_imp.mp hv
      have hnone : stringOf? v = none := by simpa using hnone
      rw [enter_error m hk hnone] at h
      cases h
      exact ⟨[], k, v, rest, rfl, fun e he => absurd he List.not_mem_nil, hk, hnone, rfl⟩

theorem readable_of_enterAll {t : Table} (h : enterAll m t = .ok m') : Readable t := by
  induction t generalizing m with
  | nil => exact fun e he => absurd he List.not_mem_nil
  | cons entry rest ih =>
    obtain ⟨k, v⟩ := entry
    rw [enterAll, bind_ok] at h
    obtain ⟨next, hnext, hrest⟩ := h
    intro e he hkey
    rcases List.mem_cons.mp he with rfl | he
    · cases hv : stringOf? v with
      | some s => rfl
      | none =>
        rw [enter_error m hkey hv] at hnext
        cases hnext
    · exact ih hrest e he hkey

-- ---------------------------------------------------------------------------
-- What stands in
-- ---------------------------------------------------------------------------

def AuthorReadable (m : Metadata) : Prop :=
  m.author = none → ∀ v, m.extra.find? "author" = some v → (stringOf? v).isSome = true

/-- The metadata as the header gives them back: author and date come from another key of the
name where they are not there. -/
def completed (m : Metadata) : Metadata :=
  { filled m (m.extra.filter fun e => !standardFields.contains e.1) with
    author := m.author.or ((m.extra.find? "author").bind stringOf?)
    created := m.created.or ((m.extra.find? "created").bind dateOf?) }

theorem find?_author (m : Metadata) :
    (headerTable m).find? "author" = (m.author.map .string).or (m.extra.find? "author") := by
  rw [find?_headerTable]
  cases ha : m.author <;> cases hc : m.created <;>
    simp [standardEntries, Table.find?, ha, hc]

theorem find?_created (m : Metadata) : (headerTable m).find? "created" =
    (m.created.map fun d => .string d.text).or (m.extra.find? "created") := by
  rw [find?_headerTable]
  cases ha : m.author <;> cases hc : m.created <;>
    simp [standardEntries, Table.find?, ha, hc]

theorem find?_required (m : Metadata) :
    (headerTable m).find? "title" = some (.string (m.title.getD "")) ∧
      (headerTable m).find? "description" = some (.string (m.description.getD "")) ∧
      (headerTable m).find? "version" = some (.string (m.version.getD "")) := by
  simp [find?_headerTable, standardEntries, Table.find?]

theorem stringOf?_headerTable {m : Metadata} (hkeys : m.extra.keys.Nodup)
    (he : (key, v) ∈ headerTable m) (hkey : key ∈ textFields) (hne : key ≠ "author") :
    (stringOf? v).isSome = true := by
  have hv : (headerTable m).find? key = some v := Table.find?_of_mem (nodup_headerTable hkeys) he
  obtain ⟨htitle, hdescription, hversion⟩ := find?_required m
  simp only [textFields, List.mem_cons, List.not_mem_nil, or_false] at hkey
  rcases hkey with rfl | rfl | rfl | rfl
  · cases htitle.symm.trans hv
    rfl
  · cases hversion.symm.trans hv
    rfl
  · exact absurd rfl hne
  · cases hdescription.symm.trans hv
    rfl

theorem readable_headerTable_iff {m : Metadata} (hkeys : m.extra.keys.Nodup) :
    Readable (headerTable m) ↔ AuthorReadable m := by
  constructor
  · intro h hown v hv
    have hwritten : (headerTable m).find? "author" = some v := by
      rw [find?_author, hown, hv]
      rfl
    exact h _ (Table.mem_of_find? hwritten) (by decide : "author" ∈ textFields)
  · rintro h ⟨key, v⟩ he hkey
    by_cases hne : key = "author"
    · have hv := Table.find?_of_mem (nodup_headerTable hkeys) he
      rw [hne, find?_author] at hv
      cases hown : m.author with
      | some s =>
        rw [hown] at hv
        cases hv
        rfl
      | none =>
        rw [hown] at hv
        exact h hown v hv
    · exact stringOf?_headerTable hkeys he hkey hne

theorem entered_headerTable (m : Metadata) : entered {} (headerTable m) = completed m := by
  obtain ⟨htitle, hdescription, hversion⟩ := find?_required m
  have hauthor : ((headerTable m).find? "author").bind stringOf? =
      m.author.or ((m.extra.find? "author").bind stringOf?) := by
    rw [find?_author]
    cases m.author <;> rfl
  have hcreated : ((headerTable m).find? "created").elim none dateOf? =
      m.created.or ((m.extra.find? "created").bind dateOf?) := by
    rw [find?_created]
    cases m.created with
    | some d => exact Calendar.dateOfText?_text d
    | none => cases m.extra.find? "created" <;> rfl
  simp only [entered, completed, filled, htitle, hdescription, hversion, hauthor, hcreated,
    filter_nonstandard, Option.bind_some, stringOf?, Option.or_none,
    List.nil_append]

-- ---------------------------------------------------------------------------
-- Reading back
-- ---------------------------------------------------------------------------

theorem decodeTable_allow (t : Table) : decodeTable .allow t = enterAll {} t := by
  cases h : enterAll {} t with
  | error e => simp [decodeTable, h, bind, Except.bind]
  | ok m => simp [decodeTable, h, bind, Except.bind, check_allow]

variable {m : Metadata}

theorem decodeTable_of_readable (hkeys : m.extra.keys.Nodup) (h : AuthorReadable m) :
    decodeTable .allow (headerTable m) = .ok (completed m) := by
  have hreadable := (readable_headerTable_iff hkeys).mpr h
  rw [decodeTable_allow, enterAll_eq {} (nodup_headerTable hkeys) hreadable, entered_headerTable]

theorem decodeTable_of_unreadable (hkeys : m.extra.keys.Nodup) (h : ¬AuthorReadable m) :
    decodeTable .allow (headerTable m) = .error (.invalidField "author") := by
  rw [decodeTable_allow]
  cases he : enterAll {} (headerTable m) with
  | ok m' => exact absurd ((readable_headerTable_iff hkeys).mp (readable_of_enterAll he)) h
  | error e =>
    obtain ⟨before, key, v, after, htable, -, hkey, hnone, rfl⟩ := enterAll_eq_error he
    by_cases hne : key = "author"
    · rw [hne]
    · have hmem : (key, v) ∈ headerTable m := by simp [htable]
      have hsome := stringOf?_headerTable hkeys hmem hkey hne
      rw [hnone] at hsome
      cases hsome

theorem author_completed_iff (h : AuthorReadable m) :
    (completed m).author = m.author ↔ (m.author = none → "author" ∉ m.extra.keys) := by
  cases hown : m.author with
  | some s => simp [completed, hown]
  | none =>
    cases hfound : m.extra.find? "author" with
    | none => simp [completed, hown, hfound, Table.find?_eq_none.mp hfound]
    | some v =>
      obtain ⟨s, hs⟩ := Option.isSome_iff_exists.mp (h hown v hfound)
      simp [completed, hown, hfound, hs, Table.mem_keys_of_find? hfound]

theorem created_completed_iff :
    (completed m).created = m.created ↔
      (m.created = none → (m.extra.find? "created").bind dateOf? = none) := by
  cases hown : m.created <;> simp [completed, hown]

/-- What becomes of metadata that are written and read back, whatever their other keys are. They
come back as they are, empty for a required field that is absent, except that another key may
stand in for an author or a date that is not there. Only a list or a table in place of the author
is refused. -/
theorem decodeTable_headerTable {m : Metadata} (hkeys : m.extra.keys.Nodup) :
    (AuthorReadable m → decodeTable .allow (headerTable m) = .ok (completed m)) ∧
    (¬AuthorReadable m →
      decodeTable .allow (headerTable m) = .error (.invalidField "author")) ∧
    ((∃ m', decodeTable .allow (headerTable m) = .ok m' ∧ m'.author = m.author ∧
        m'.created = m.created ∧ m'.title = some (m.title.getD "") ∧
        m'.description = some (m.description.getD "") ∧
        m'.version = some (m.version.getD "")) ↔
      (m.author = none → "author" ∉ m.extra.keys) ∧
        (m.created = none → (m.extra.find? "created").bind dateOf? = none)) := by
  refine ⟨decodeTable_of_readable hkeys, decodeTable_of_unreadable hkeys, ?_⟩
  constructor
  · rintro ⟨m', hm', hauthor, hcreated, -⟩
    have hreadable : AuthorReadable m := by
      refine Classical.byContradiction fun h => ?_
      rw [decodeTable_of_unreadable hkeys h] at hm'
      cases hm'
    rw [decodeTable_of_readable hkeys hreadable] at hm'
    cases hm'
    exact ⟨(author_completed_iff hreadable).mp hauthor, created_completed_iff.mp hcreated⟩
  · rintro ⟨hauthor, hcreated⟩
    have hreadable : AuthorReadable m := fun hown v hv =>
      absurd (Table.mem_keys_of_find? hv) (hauthor hown)
    exact ⟨_, decodeTable_of_readable hkeys hreadable, (author_completed_iff hreadable).mpr hauthor,
      created_completed_iff.mpr hcreated, rfl, rfl, rfl⟩

theorem decodeTable_headerTable_crowded :
    let today := (Calendar.Date.ofParts? 2024 2 29).get (by decide)
    let m : Metadata :=
      { author := some "Ada", version := some "1"
        extra := [("author", .array []), ("title", .integer 7), ("created", .string today.text),
          ("version", .table []), ("description", .string "D"), ("model", .string "large")] }
    m.extra.keys.Nodup ∧ decodeTable .allow (headerTable m) = .ok
      { title := some "", version := some "1", author := some "Ada", created := some today
        description := some "", extra := [("model", .string "large")] } := by
  intro today m
  have hkeys : m.extra.keys.Nodup := by decide
  have hreadable : AuthorReadable m := fun h => by cases h
  have hcompleted : completed m =
      { title := some "", version := some "1", author := some "Ada", created := some today
        description := some "", extra := [("model", .string "large")] } := by cbv
  exact ⟨hkeys, hcompleted ▸ (decodeTable_headerTable hkeys).1 hreadable⟩

theorem decodeTable_headerTable_strayAuthor :
    let supplied : Metadata := { title := some "T", extra := [("author", .string "Eve")] }
    let refused : Metadata := { title := some "T", extra := [("author", .array [])] }
    supplied.author = none ∧ (decodeTable .allow (headerTable supplied)).map (·.author) =
        .ok (some "Eve") ∧
      decodeTable .allow (headerTable refused) = .error (.invalidField "author") :=
  ⟨rfl, rfl, rfl⟩

end PromptFiles.FrontMatter
