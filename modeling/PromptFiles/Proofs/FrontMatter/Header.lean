import PromptFiles.FrontMatter.Decode
import PromptFiles.FrontMatter.Write
import PromptFiles.Proofs.Calendar.DateText
import PromptFiles.Proofs.Toml.Tables

/-!
# Header tables

What a table with each key once adds to the metadata does not depend on the order of the
keys: `enterAll_eq`. The table that is written for metadata, and every table with the same
keys and texts, is decoded to the standard fields of those metadata with the required ones filled
in: `decodeTable_matches`.
-/

namespace PromptFiles.FrontMatter

open Toml (Table)
open Metadata (standardFields)

-- ---------------------------------------------------------------------------
-- Entering keys
-- ---------------------------------------------------------------------------

def textFields : List String :=
  ["title", "version", "author", "description"]

def Readable (t : Table) : Prop :=
  ∀ e ∈ t, e.1 ∈ textFields → (stringOf? e.2).isSome = true

def entered (m : Metadata) (t : Table) : Metadata where
  title := ((t.find? "title").bind stringOf?).or m.title
  version := ((t.find? "version").bind stringOf?).or m.version
  author := ((t.find? "author").bind stringOf?).or m.author
  created := (t.find? "created").elim m.created dateOf?
  description := ((t.find? "description").bind stringOf?).or m.description
  extra := m.extra ++ t.filter fun e => !standardFields.contains e.1

theorem textField_ok (h : (stringOf? v).isSome = true) (key : String) :
    ∃ s, textField key v = .ok s ∧ stringOf? v = some s := by
  obtain ⟨s, hs⟩ := Option.isSome_iff_exists.mp h
  exact ⟨s, by rw [textField, hs], hs⟩

theorem enter_eq (m : Metadata) (h : k ∈ textFields → (stringOf? v).isSome = true) :
    enter m k v = .ok (entered m [(k, v)]) := by
  unfold enter
  split
  iterate 4
    obtain ⟨s, hfield, hs⟩ := textField_ok (h (by decide)) _
    rw [hfield]
    simp [Except.map, entered, Table.find?, hs, standardFields]
  · simp [entered, Table.find?, standardFields]
  · rename_i htitle hversion hauthor hdescription hcreated
    have hne {s : String} (hs : k = s → False) : s ≠ k := fun he => hs he.symm
    have hother : k ∉ standardFields := by
      simp only [standardFields, List.mem_cons, List.not_mem_nil, or_false, not_or]
      exact ⟨htitle, hversion, hauthor, hcreated, hdescription⟩
    simp [entered, Table.find?, hother, hne htitle, hne hversion, hne hauthor,
      hne hdescription, hne hcreated]

/-- A key is entered before or with the others, since none of them is that key. -/
theorem entered_cons (m : Metadata) (hk : k ∉ Table.keys rest) :
    entered (entered m [(k, v)]) rest = entered m ((k, v) :: rest) := by
  have hrest := Table.find?_eq_none.mpr hk
  have htext (key : String) (old : Option String) :
      ((Table.find? key rest).bind stringOf?).or
          (((Table.find? key [(k, v)]).bind stringOf?).or old) =
        ((Table.find? key ((k, v) :: rest)).bind stringOf?).or old := by
    by_cases he : key = k
    · simp [Table.find?, he, hrest]
    · simp [Table.find?, he]
  have hcreated : (Table.find? "created" rest).elim ((Table.find? "created" [(k, v)]).elim m.created
      dateOf?) dateOf? = (Table.find? "created" ((k, v) :: rest)).elim m.created dateOf? := by
    by_cases he : "created" = k
    · simp [Table.find?, he, hrest]
    · simp [Table.find?, he]
  simp only [entered, htext, hcreated, List.append_assoc, ← List.filter_append,
    List.singleton_append]

/-- Entering a table succeeds, and the order of its keys counts only for the other keys. -/
theorem enterAll_eq (m : Metadata) {t : Table} (hn : t.keys.Nodup) (ht : Readable t) :
    enterAll m t = .ok (entered m t) := by
  induction t generalizing m with
  | nil => simp [enterAll, entered, Table.find?]
  | cons e rest ih =>
    obtain ⟨k, v⟩ := e
    obtain ⟨hk, hrest⟩ : k ∉ Table.keys rest ∧ (Table.keys rest).Nodup := List.nodup_cons.mp hn
    rw [enterAll, enter_eq m (ht (k, v) List.mem_cons_self), ← entered_cons m hk]
    exact ih _ hrest fun e he => ht e (List.mem_cons_of_mem _ he)

-- ---------------------------------------------------------------------------
-- The written table
-- ---------------------------------------------------------------------------

def standardEntries (m : Metadata) : Table :=
  [("title", .string (m.title.getD "")), ("description", .string (m.description.getD "")),
    ("version", .string (m.version.getD ""))] ++
  (m.author.toList.map fun s => ("author", .string s)) ++
  (m.created.toList.map fun d => ("created", .string d.text))

/-- The metadata as they come back: the required fields are there, if only empty. -/
def filled (m : Metadata) (extra : Table) : Metadata :=
  { m with
    title := some (m.title.getD "")
    version := some (m.version.getD "")
    description := some (m.description.getD "")
    extra }

theorem keys_standardEntries (m : Metadata) :
    (standardEntries m).keys.Nodup ∧ (standardEntries m).keys ⊆ standardFields := by
  cases ha : m.author <;> cases hc : m.created <;>
    simp [standardEntries, Table.keys, standardFields, ha, hc]

theorem standardEntries_string (he : e ∈ standardEntries m) : ∃ s, e.2 = .string s := by
  simp only [standardEntries, List.mem_append, List.mem_cons, List.not_mem_nil, or_false,
    List.mem_map] at he
  rcases he with ((rfl | rfl | rfl) | ⟨s, -, rfl⟩) | ⟨d, -, rfl⟩ <;> exact ⟨_, rfl⟩

theorem headerTable_append (m : Metadata) :
    headerTable m =
      standardEntries m ++ m.extra.filter fun e => !(standardEntries m).contains e.1 :=
  rfl

theorem nodup_headerTable {m : Metadata} (hkeys : m.extra.keys.Nodup) :
    (headerTable m).keys.Nodup := by
  rw [headerTable_append, Table.keys_append,
    Table.keys_filter fun key => !(standardEntries m).contains key]
  refine List.nodup_append.mpr ⟨(keys_standardEntries m).1, hkeys.filter _, ?_⟩
  rintro key hk other hother rfl
  have hout := (List.mem_filter.mp hother).2
  rw [Table.contains_iff.mpr hk] at hout
  cases hout

/-- A field that is written counts before another key of its name. -/
theorem find?_headerTable (m : Metadata) (key : String) :
    (headerTable m).find? key = ((standardEntries m).find? key).or (m.extra.find? key) := by
  rw [headerTable_append, Table.find?_append]
  cases hf : (standardEntries m).find? key with
  | some v => rfl
  | none =>
    rw [Table.find?_filter (fun key => !(standardEntries m).contains key)]
    simp [Table.contains, hf]

theorem filter_nonstandard (m : Metadata) :
    (headerTable m).filter (fun e => !standardFields.contains e.1) =
      m.extra.filter fun e => !standardFields.contains e.1 := by
  have hstandard : (standardEntries m).filter (fun e => !standardFields.contains e.1) = [] := by
    refine List.filter_eq_nil_iff.mpr fun e he => ?_
    simpa using (keys_standardEntries m).2 (List.mem_map_of_mem he)
  rw [headerTable_append, List.filter_append, hstandard, List.nil_append, List.filter_filter]
  refine List.filter_congr fun e _ => ?_
  -- A key that is written as a field is a standard one.
  cases hc : (standardEntries m).contains e.1 with
  | false => simp
  | true => simpa [hc] using (keys_standardEntries m).2 (Table.contains_iff.mp hc)

variable {m : Metadata} (hextra : ∀ key ∈ m.extra.keys, key ∉ standardFields)
include hextra

theorem filter_headerTable :
    (headerTable m).filter (fun e => !standardFields.contains e.1) = m.extra := by
  rw [filter_nonstandard]
  exact List.filter_eq_self.mpr fun e he => by simpa using hextra e.1 (List.mem_map_of_mem he)

theorem find?_matches (h : (headerTable m).Matches t) (hkey : key ∈ standardFields) :
    t.find? key = (standardEntries m).find? key := by
  have hnone : m.extra.find? key = none := Table.find?_eq_none.mpr fun hk => hextra key hk hkey
  have hwritten : (headerTable m).find? key = (standardEntries m).find? key := by
    rw [find?_headerTable, hnone, Option.or_none]
  cases hf : (standardEntries m).find? key with
  | none => exact h.find?_none (hwritten.trans hf)
  | some v =>
    obtain ⟨s, rfl⟩ := standardEntries_string (Table.mem_of_find? hf)
    exact h.find?_string (hwritten.trans hf)

theorem decodeTable_matches (hkeys : m.extra.keys.Nodup) (h : (headerTable m).Matches t) :
    decodeTable .allow t = .ok (filled m (t.filter fun e => !standardFields.contains e.1)) := by
  have hnt : t.keys.Nodup := h.keys_perm.nodup_iff.mp (nodup_headerTable hkeys)
  have hfind (key : String) (hkey : key ∈ standardFields) := find?_matches hextra h hkey
  have hreadable : Readable t := by
    intro e he hkey
    have hstandard : e.1 ∈ standardFields := by
      simp only [textFields, List.mem_cons, List.not_mem_nil, or_false] at hkey
      rcases hkey with hk | hk | hk | hk <;> rw [hk] <;> decide
    have hwritten := (hfind e.1 hstandard).symm.trans (Table.find?_of_mem hnt he)
    obtain ⟨s, hs⟩ := standardEntries_string (Table.mem_of_find? hwritten)
    rw [show e.2 = .string s from hs]
    rfl
  rw [decodeTable, enterAll_eq {} hnt hreadable, entered, hfind "title" (by decide),
    hfind "version" (by decide), hfind "author" (by decide), hfind "created" (by decide),
    hfind "description" (by decide)]
  cases ha : m.author <;> cases hc : m.created <;>
    simp [filled, standardEntries, Table.find?, ha, hc, stringOf?, dateOf?,
      Calendar.dateOfText?_text, bind, Except.bind, check]

end PromptFiles.FrontMatter
