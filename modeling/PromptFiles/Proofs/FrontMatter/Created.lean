import PromptFiles.Proofs.FrontMatter.Accounted
import PromptFiles.Proofs.Toml.Entry

/-!
# The date of creation

A header says in one of several ways on which day its prompt was created: with a date, with a time
stamp, or with a text that is either, within white space. All of them mean the day that is written
there, whatever the offset, and a text with the numbers of no day leaves the date out:
`decode_spellings`.
-/

namespace PromptFiles.FrontMatter

open Calendar (Shape dayText)
open Text (isBlank)
open Toml (Table)

-- ---------------------------------------------------------------------------
-- One entry among others
-- ---------------------------------------------------------------------------

def createdOn (created : Option Calendar.Date) (m : Metadata) : Metadata :=
  { m with created }

theorem enter_createdOn (hkey : key ≠ "created") (m : Metadata) (v : Toml.Value) :
    enter (createdOn created m) key v = (enter m key v).map (createdOn created) := by
  unfold enter
  split
  iterate 4
    generalize textField _ v = field
    cases field <;> rfl
  · exact absurd rfl hkey
  · rfl

theorem enterAll_createdOn {t : Table} (ht : "created" ∉ t.keys) (m : Metadata) :
    enterAll (createdOn created m) t = (enterAll m t).map (createdOn created) := by
  induction t generalizing m with
  | nil => rfl
  | cons e rest ih =>
    obtain ⟨key, v⟩ := e
    obtain ⟨hkey, hrest⟩ : "created" ≠ key ∧ "created" ∉ Table.keys rest :=
      List.ne_and_not_mem_of_not_mem_cons ht
    rw [enterAll, enterAll, enter_createdOn hkey.symm]
    cases enter m key v with
    | error e => rfl
    | ok m' => exact ih hrest m'

/-- By induction along the entries before it: the date is entered wherever it stands. -/
theorem enterAll_insert {before : Table} (ht : "created" ∉ Table.keys (before ++ after))
    (m : Metadata) (v : Toml.Value) :
    enterAll m (before ++ ("created", v) :: after) =
      (enterAll m (before ++ after)).map (createdOn (dateOf? v)) := by
  induction before generalizing m with
  | nil => exact enterAll_createdOn ht m
  | cons e before ih =>
    obtain ⟨key, w⟩ := e
    rw [List.cons_append, List.cons_append, enterAll, enterAll]
    cases enter m key w with
    | error e => rfl
    | ok m' => exact ih (List.not_mem_of_not_mem_cons ht) m'

theorem check_createdOn (mode : Mode) (m : Metadata) :
    check mode (createdOn created m) = (check mode m).map (createdOn created) := by
  have hmissing : (createdOn created m).missingRequired = m.missingRequired := rfl
  rw [check, check, hmissing]
  split <;> rfl

theorem decode_insert (h : Toml.Reader.table? header = some (before ++ ("created", v) :: after))
    (mode : Mode) : decode mode header =
      (decodeTable mode (before ++ after)).map (createdOn (dateOf? v)) := by
  have hn := Toml.Reader.nodup_table? h
  have hkeys : "created" ∉ Table.keys (before ++ after) := by
    rw [Table.keys, List.map_append, List.map_cons] at hn
    rw [Table.keys, List.map_append]
    exact (List.nodup_middle.mp hn).notMem
  rw [decode_eq h, decodeTable, decodeTable, enterAll_insert hkeys]
  cases enterAll {} (before ++ after) with
  | error e => rfl
  | ok m => exact check_createdOn mode m

-- ---------------------------------------------------------------------------
-- Spellings
-- ---------------------------------------------------------------------------

inductive SaysDay : Toml.Value → Toml.Day → Prop
  | date : SaysDay (.datetime (.date d)) d
  | stamp : SaysDay (.datetime (.stamp d time offset)) d
  | string (shape : Shape) (hbefore : ∀ c ∈ before, isBlank c = true)
      (hafter : ∀ c ∈ after, isBlank c = true) :
      SaysDay (.string (String.ofList (before ++ shape.text d.text ++ after))) d

/-- A text that is made like one that says a day, with numbers that are no day. -/
inductive SaysNoDay : Toml.Value → Prop
  | string {year month day : Nat} (shape : Shape) (hbefore : ∀ c ∈ before, isBlank c = true)
      (hafter : ∀ c ∈ after, isBlank c = true) (hyear : year < 10 ^ 4) (hmonth : month < 100)
      (hday : day < 100) (hnone : Calendar.Date.ofParts? year month day = none) :
      SaysNoDay (.string (String.ofList
        (before ++ shape.text (dayText year month day) ++ after)))

theorem dateOf?_of_saysDay (h : SaysDay v d) : dateOf? v = some d.date := by
  cases h with
  | date | stamp => rfl
  | string shape hbefore hafter =>
    have hyear : d.date.year = (d.date.year.toNat : Int) := (Int.toNat_of_nonneg d.year_nonneg).symm
    exact Calendar.dateOfText?_shape hbefore hafter d.date hyear d.year_lt shape

theorem dateOf?_of_saysNoDay (h : SaysNoDay v) : dateOf? v = none := by
  cases h with
  | string shape hbefore hafter hyear hmonth hday hnone =>
    exact Calendar.dateOfText?_shape_eq_none hbefore hafter hyear hmonth hday hnone shape

-- ---------------------------------------------------------------------------
-- A header of one line
-- ---------------------------------------------------------------------------

def createdHeader (value : List Char) : String :=
  String.ofList (Toml.Reader.entryText "created".toList value)

theorem table?_createdHeader (hvalue : Toml.Reader.skipBlank value = value)
    (hnode : Toml.Reader.node? Toml.Reader.depthLimit value = some (n, []))
    (hv : n.toValue? = some v) :
    Toml.Reader.table? (createdHeader value) = some [("created", v)] := by
  have hkey : ∀ c ∈ "created".toList, Toml.Reader.isKeyChar c = true := by simp; decide
  rw [createdHeader, Toml.Reader.table?_entryText (by simp) hkey hvalue hnode hv,
    String.ofList_toList]

theorem exists_table?_shape (d : Toml.Day) (shape : Shape) : ∃ v,
    Toml.Reader.table? (createdHeader (shape.text d.text)) = some [("created", v)] ∧
      dateOf? v = some d.date := by
  obtain ⟨v, hv, hdate⟩ := Toml.Reader.node?_shape Toml.Reader.depthLimit d shape
  exact ⟨.datetime v, table?_createdHeader (Toml.Reader.skipBlank_shape d shape) hv rfl, hdate⟩

theorem table?_quoted (cs : List Char) :
    Toml.Reader.table? (createdHeader (Toml.Quotes.writeBasic cs)) =
      some [("created", .string (String.ofList cs))] :=
  table?_createdHeader rfl (Toml.Reader.node?_writeBasic _ cs) rfl

theorem decode_single (h : Toml.Reader.table? header = some [("created", v)]) :
    decode .allow header = .ok { created := dateOf? v } := by
  have halone : Toml.Reader.table? header = some ([] ++ ("created", v) :: []) := h
  exact decode_insert halone .allow

theorem decode_quoted (cs : List Char) :
    decode .allow (createdHeader (Toml.Quotes.writeBasic cs)) =
      .ok { created := dateOf? (.string (String.ofList cs)) } :=
  decode_single (table?_quoted cs)

/-- All spellings of a date of creation agree. A date, a time stamp with any time and any offset,
and a text that is one of these within white space, all are decoded to the day that they say; a
text with numbers that are no day is decoded to no date. In a header with other keys, what stands
for the date decides nothing else: whether the header is decoded, and to what, is up to those. -/
theorem decode_spellings :
    (∀ (d : Toml.Day) (shape : Shape),
      decode .allow (createdHeader (shape.text d.text)) = .ok { created := some d.date }) ∧
    (∀ (before after : List Char), (∀ c ∈ before, isBlank c = true) →
      (∀ c ∈ after, isBlank c = true) → ∀ shape : Shape,
        (∀ d : Toml.Day, decode .allow (createdHeader
            (Toml.Quotes.writeBasic (before ++ shape.text d.text ++ after))) =
          .ok { created := some d.date }) ∧
        (∀ year month day : Nat, year < 10 ^ 4 → month < 100 → day < 100 →
          Calendar.Date.ofParts? year month day = none → decode .allow (createdHeader
            (Toml.Quotes.writeBasic (before ++ shape.text (dayText year month day) ++ after))) =
          .ok { created := none })) ∧
    (∀ mode header before v after,
      Toml.Reader.table? header = some (before ++ ("created", v) :: after) →
        (∀ d, SaysDay v d → decode mode header =
          (decodeTable mode (before ++ after)).map (createdOn (some d.date))) ∧
        (SaysNoDay v → decode mode header =
          (decodeTable mode (before ++ after)).map (createdOn none))) := by
  refine ⟨fun d shape => ?_, fun before after hbefore hafter shape =>
    ⟨fun d => ?_, fun year month day hyear hmonth hday hnone => ?_⟩,
    fun mode header before v after h => ⟨fun d hv => ?_, fun hv => ?_⟩⟩
  · obtain ⟨v, hv, hdate⟩ := exists_table?_shape d shape
    rw [decode_single hv, hdate]
  · rw [decode_quoted, dateOf?_of_saysDay (.string shape hbefore hafter)]
  · have hv := SaysNoDay.string shape hbefore hafter hyear hmonth hday hnone
    rw [decode_quoted, dateOf?_of_saysNoDay hv]
  · rw [decode_insert h mode, dateOf?_of_saysDay hv]
  · rw [decode_insert h mode, dateOf?_of_saysNoDay hv]

theorem decode_spellings_leapDay :
    let leapDay := (Calendar.Date.ofParts? 2024 2 29).get (by decide)
    let header := "title = \"T\"\ncreated = 2024-02-29 23:59:59-23:59"
    decode .allow "created = 2024-02-29T23:59:59.75-23:59" = .ok { created := some leapDay } ∧
      decode .allow "created = \"\\n2024-02-29t00:00:00+23:59 \"" =
        .ok { created := some leapDay } ∧
      decode .allow "created = \" 2023-02-29\"" = .ok {} ∧
      decode .allow header = .ok { title := some "T", created := some leapDay } := by
  intro leapDay header
  let d : Toml.Day := ⟨leapDay, by decide, by decide⟩
  let late : Calendar.Clock := ⟨23, 59, 59, ['7', '5'], by decide, by decide, by decide,
    List.all_eq_true.mp (by decide)⟩
  let early : Calendar.Clock := ⟨0, 0, 0, [], by decide, by decide, by decide,
    List.all_eq_true.mp (by decide)⟩
  let west : Calendar.Zone := .offset true 23 59 (by decide) (by decide)
  let east : Calendar.Zone := .offset false 23 59 (by decide) (by decide)
  obtain ⟨hbare, hquoted, hheader⟩ := decode_spellings
  have hlate : createdHeader ((Shape.stamp 'T' late west (by decide)).text d.text) =
      "created = 2024-02-29T23:59:59.75-23:59" := by decide +kernel
  have hearly : createdHeader (Toml.Quotes.writeBasic
      (['\n'] ++ (Shape.stamp 't' early east (by decide)).text d.text ++ [' '])) =
      "created = \"\\n2024-02-29t00:00:00+23:59 \"" := by decide +kernel
  have hnoDay : createdHeader (Toml.Quotes.writeBasic
      ([' '] ++ Shape.plain.text (dayText 2023 2 29) ++ [])) =
      "created = \" 2023-02-29\"" := by decide +kernel
  let time : Toml.Time := ⟨23, 59, 59, 0, by decide, by decide, by decide, by decide⟩
  let v : Toml.Value := .datetime (.stamp d time (some (.minutes (-1439) (by decide))))
  have hexact : ∀ e ∈ ([("title", .string "T"), ("created", v)] : Table), e.2.IsExact := by
    simp [v, Toml.Value.isExact_string, Toml.Value.isExact_datetime]
  have htable : Toml.Reader.table? header = some [("title", .string "T"), ("created", v)] :=
    Toml.Reader.table?_of_same hexact (by decide +kernel)
  have hbreak : ∀ c ∈ ['\n'], isBlank c = true := List.all_eq_true.mp (by decide)
  have hspace : ∀ c ∈ [' '], isBlank c = true := List.all_eq_true.mp (by decide)
  refine ⟨?_, ?_, ?_, ?_⟩
  · exact hlate ▸ hbare d _
  · exact hearly ▸ (hquoted ['\n'] [' '] hbreak hspace _).1 d
  · exact hnoDay ▸ (hquoted [' '] [] hspace (by simp) .plain).2 2023 2 29 (by decide) (by decide)
      (by decide) (by decide)
  · exact (hheader .allow header [("title", .string "T")] v [] htable).1 d .stamp

end PromptFiles.FrontMatter
