import PromptFiles.Proofs.FrontMatter.Collision
import PromptFiles.Proofs.Toml.Distinct

/-!
# What becomes of a header

Every entry of a header is accounted for. A field for a text holds the text of its entry, and the
first that cannot is the error; every key without a field is kept; only a date may be left out.
Since each key is there once, the order of the entries decides nothing but the order of the other
keys and which of several errors comes first: `decode_accounts`.
-/

namespace PromptFiles

def Metadata.text? (m : Metadata) : String → Option String
  | "title" => m.title
  | "version" => m.version
  | "author" => m.author
  | "description" => m.description
  | _ => none

theorem Toml.Table.find?_perm {t t' : Toml.Table} (hperm : t.Perm t') (hn : t.keys.Nodup)
    (key : String) : t.find? key = t'.find? key := by
  have hkeys : t.keys.Perm t'.keys := hperm.map Prod.fst
  cases h : t.find? key with
  | some v =>
    exact (find?_of_mem (hkeys.nodup_iff.mp hn) (hperm.subset (mem_of_find? h))).symm
  | none =>
    refine (find?_eq_none.mpr fun hkey => ?_).symm
    exact find?_eq_none.mp h (hkeys.symm.subset hkey)

namespace FrontMatter

open Toml (Table)
open Metadata (standardFields)

def IsCompound (v : Toml.Value) : Prop :=
  (∃ items, v = .array items) ∨ ∃ entries, v = .table entries

/-- The text of a value: a string as it is, any other scalar as it is written in TOML. -/
inductive HasText : Toml.Value → String → Prop
  | string : HasText (.string s) s
  | integer : HasText (.integer i) (Number.numeral i.toInt)
  | float : HasText (.float x) (Toml.floatText x)
  | boolean : HasText (.boolean b) (if b then "true" else "false")
  | datetime : HasText (.datetime d) d.text

theorem stringOf?_eq_some_iff : stringOf? v = some s ↔ HasText v s := by
  have hinteger (i : Int64) : stringOf? (.integer i) = some (Number.numeral i.toInt) :=
    congrArg some String.ofList_toList
  have hfloat (x : Number.Binary64) : stringOf? (.float x) = some (Toml.floatText x) :=
    congrArg some String.ofList_toList
  have hboolean (b : Bool) : stringOf? (.boolean b) = some (if b then "true" else "false") := by
    cases b <;> rfl
  constructor
  · intro h
    cases v with
    | string | datetime => cases h; constructor
    | integer i => cases (hinteger i).symm.trans h; exact .integer
    | float x => cases (hfloat x).symm.trans h; exact .float
    | boolean b => cases (hboolean b).symm.trans h; exact .boolean
    | array | table => cases h
  · intro h
    cases h with
    | string | datetime => rfl
    | integer => exact hinteger _
    | float => exact hfloat _
    | boolean => exact hboolean _

theorem stringOf?_eq_none_iff : stringOf? v = none ↔ IsCompound v := by
  cases v <;> simp [stringOf?, IsCompound]

theorem readable_iff {t : Table} :
    Readable t ↔ ∀ e ∈ t, e.1 ∈ textFields → ¬IsCompound e.2 := by
  simp only [Readable, ← stringOf?_eq_none_iff, ← Option.isSome_iff_ne_none]

-- ---------------------------------------------------------------------------
-- The fields and the other keys
-- ---------------------------------------------------------------------------

section
variable {t : Table} (hn : t.keys.Nodup)
include hn

theorem find?_bind_eq_some {f : Toml.Value → Option α} :
    (t.find? key).bind f = some a ↔ ∃ v, (key, v) ∈ t ∧ f v = some a := by
  rw [Option.bind_eq_some_iff]
  constructor
  · rintro ⟨v, hv, ha⟩
    exact ⟨v, Table.mem_of_find? hv, ha⟩
  · rintro ⟨v, hv, ha⟩
    exact ⟨v, Table.find?_of_mem hn hv, ha⟩

theorem text?_entered (hkey : key ∈ textFields) :
    (entered {} t).text? key = some s ↔ ∃ v, (key, v) ∈ t ∧ HasText v s := by
  have hfield : (entered {} t).text? key = (t.find? key).bind stringOf? := by
    simp only [textFields, List.mem_cons, List.not_mem_nil, or_false] at hkey
    rcases hkey with rfl | rfl | rfl | rfl <;> exact Option.or_none
  simp only [hfield, find?_bind_eq_some hn, stringOf?_eq_some_iff]

theorem isSome_text?_entered (ht : Readable t) (hkey : key ∈ textFields) :
    ((entered {} t).text? key).isSome = true ↔ key ∈ t.keys := by
  simp only [Option.isSome_iff_exists, text?_entered hn hkey]
  constructor
  · rintro ⟨s, v, hv, -⟩
    exact List.mem_map_of_mem hv
  · intro h
    obtain ⟨⟨k, v⟩, hv, rfl⟩ := List.mem_map.mp h
    obtain ⟨s, hs⟩ := Option.isSome_iff_exists.mp (ht _ hv hkey)
    exact ⟨s, v, hv, stringOf?_eq_some_iff.mp hs⟩

theorem created_entered :
    (entered {} t).created = some d ↔ ∃ v, ("created", v) ∈ t ∧ dateOf? v = some d := by
  have hfield : (entered {} t).created = (t.find? "created").bind dateOf? := by
    rw [entered]
    cases t.find? "created" <;> rfl
  rw [hfield, find?_bind_eq_some hn]

end

theorem extra_entered (t : Table) :
    (entered {} t).extra = t.filter fun e => e.1 ∉ standardFields := by
  rw [entered, List.nil_append]
  exact List.filter_congr fun e _ => by simp

-- ---------------------------------------------------------------------------
-- Success and failure
-- ---------------------------------------------------------------------------

theorem decode_eq (h : Toml.Reader.table? header = some t) (mode : Mode) :
    decode mode header = decodeTable mode t := by
  rw [decode, h]

theorem decodeTable_readable {t : Table} (hn : t.keys.Nodup) (ht : Readable t) (mode : Mode) :
    decodeTable mode t = check mode (entered {} t) := by
  rw [decodeTable, enterAll_eq {} hn ht]
  rfl

theorem enterAll_unreadable {before : Table} (hbefore : Readable before) (hkey : key ∈ textFields)
    (hv : stringOf? v = none) (m : Metadata) (after : Table) :
    enterAll m (before ++ (key, v) :: after) = .error (.invalidField key) := by
  induction before generalizing m with
  | nil =>
    rw [List.nil_append, enterAll, enter_error m hkey hv]
    rfl
  | cons e before ih =>
    obtain ⟨he, hrest⟩ := List.forall_mem_cons.mp hbefore
    rw [List.cons_append, enterAll, enter_eq m he]
    exact ih hrest _

def IsFirstCompound (key : String) (t : Table) : Prop :=
  ∃ before v after, t = before ++ (key, v) :: after ∧ key ∈ textFields ∧ IsCompound v ∧
    ∀ e ∈ before, e.1 ∈ textFields → ¬IsCompound e.2

theorem enterAll_eq_error_iff {t : Table} :
    enterAll m t = .error e ↔ ∃ key, IsFirstCompound key t ∧ e = .invalidField key := by
  constructor
  · intro h
    obtain ⟨before, key, v, after, rfl, hbefore, hkey, hv, rfl⟩ := enterAll_eq_error h
    exact ⟨key, ⟨before, v, after, rfl, hkey, stringOf?_eq_none_iff.mp hv,
      readable_iff.mp hbefore⟩, rfl⟩
  · rintro ⟨key, ⟨before, v, after, rfl, hkey, hv, hbefore⟩, rfl⟩
    exact enterAll_unreadable (readable_iff.mpr hbefore) hkey (stringOf?_eq_none_iff.mpr hv) m after

theorem exists_isFirstCompound {t : Table} (ht : ¬Readable t) :
    ∃ key, IsFirstCompound key t ∧ ∀ mode, decodeTable mode t = .error (.invalidField key) := by
  cases h : enterAll {} t with
  | ok m => exact absurd (readable_of_enterAll h) ht
  | error e =>
    obtain ⟨key, hfirst, rfl⟩ := enterAll_eq_error_iff.mp h
    refine ⟨key, hfirst, fun mode => ?_⟩
    rw [decodeTable, h]
    rfl

-- ---------------------------------------------------------------------------
-- Strict decoding
-- ---------------------------------------------------------------------------

theorem decode_strict_of_error {t : Table} (h : Toml.Reader.table? header = some t)
    (he : decode .allow header = .error e) : decode .strict header = .error e := by
  rw [decode_eq h, decodeTable_allow] at he
  rw [decode_eq h, decodeTable, he]
  rfl

theorem check_strict_of_lacks {m : Metadata} (h : ∃ name, m.Lacks name) :
    ∃ names, check .strict m = .error (.incomplete names) ∧ names.Pairwise (· < ·) ∧
      ∀ name, name ∈ names ↔ m.Lacks name := by
  obtain ⟨name, hname⟩ := h
  have hne : m.missingRequired ≠ [] := List.ne_nil_of_mem (Metadata.mem_missingRequired.mpr hname)
  refine ⟨m.missingRequired, ?_, m.sorted_missingRequired, fun _ => Metadata.mem_missingRequired⟩
  rw [check_strict, if_neg hne]

theorem check_strict_of_complete {m : Metadata} (h : ∀ name, ¬m.Lacks name) :
    check .strict m = .ok m := by
  rw [check_strict, if_pos]
  exact List.eq_nil_iff_forall_not_mem.mpr fun name hname =>
    h name (Metadata.mem_missingRequired.mp hname)

-- ---------------------------------------------------------------------------
-- Other orders
-- ---------------------------------------------------------------------------

/-- The same outcome but for the order of the other keys and the field that is named. -/
inductive Reordered : Except DecodeError Metadata → Except DecodeError Metadata → Prop
  | decoded {m : Metadata} : m.extra.Perm extra → Reordered (.ok m) (.ok { m with extra })
  | incomplete : Reordered (.error (.incomplete names)) (.error (.incomplete names))
  | invalidField : Reordered (.error (.invalidField key)) (.error (.invalidField key'))

theorem reordered_check {m : Metadata} (h : m.extra.Perm extra) (mode : Mode) :
    Reordered (check mode m) (check mode { m with extra }) := by
  have hmissing : Metadata.missingRequired { m with extra } = m.missingRequired := rfl
  rw [check, check, hmissing]
  split
  · exact .incomplete
  · exact .decoded h

theorem entered_perm {t t' : Table} (hperm : t.Perm t') (hn : t.keys.Nodup) :
    entered {} t' = { entered {} t with extra := (entered {} t').extra } := by
  simp only [entered, Table.find?_perm hperm hn]

theorem reordered_decodeTable {t t' : Table} (hperm : t.Perm t') (hn : t.keys.Nodup)
    (mode : Mode) : Reordered (decodeTable mode t) (decodeTable mode t') := by
  have hn' : t'.keys.Nodup := (hperm.map Prod.fst).nodup_iff.mp hn
  by_cases ht : Readable t
  · have ht' : Readable t' := fun e he => ht e (hperm.symm.subset he)
    rw [decodeTable_readable hn ht, decodeTable_readable hn' ht', entered_perm hperm hn]
    exact reordered_check (hperm.filter _) mode
  · have ht' : ¬Readable t' := fun h => ht fun e he => h e (hperm.subset he)
    obtain ⟨key, -, hkey⟩ := exists_isFirstCompound ht
    obtain ⟨key', -, hkey'⟩ := exists_isFirstCompound ht'
    rw [hkey, hkey']
    exact .invalidField

/-- What decoding makes of a header that is TOML. It fails if and only if a field for a text has a
list or a table, and names the first. Otherwise every such field is there if its key is, with the
text of its value; a date is there if its value has one; and all other keys are kept. Strict
decoding gives the same, or the required fields that are lacking. With the same entries in another
order all of this stays the same, but for the order of the other keys and the field that is
named. -/
theorem decode_accounts (h : Toml.Reader.table? header = some t) :
    (∀ e, decode .allow header = .error e ↔
      ∃ key, IsFirstCompound key t ∧ e = .invalidField key) ∧
    (∀ m, decode .allow header = .ok m →
      (∀ key ∈ textFields, ((m.text? key).isSome = true ↔ key ∈ t.keys) ∧
        ∀ s, m.text? key = some s ↔ ∃ v, (key, v) ∈ t ∧ HasText v s) ∧
      (∀ d, m.created = some d ↔ ∃ v, ("created", v) ∈ t ∧ dateOf? v = some d) ∧
      m.extra = t.filter fun e => e.1 ∉ standardFields) ∧
    (∀ e, decode .allow header = .error e → decode .strict header = .error e) ∧
    (∀ m, decode .allow header = .ok m →
      ((∀ name, ¬m.Lacks name) → decode .strict header = .ok m) ∧
      ((∃ name, m.Lacks name) → ∃ names, decode .strict header = .error (.incomplete names) ∧
        names.Pairwise (· < ·) ∧ ∀ name, name ∈ names ↔ m.Lacks name)) ∧
    ∀ mode header' t', Toml.Reader.table? header' = some t' → t.Perm t' →
      Reordered (decode mode header) (decode mode header') := by
  have hn := Toml.Reader.nodup_table? h
  refine ⟨fun e => ?_, fun m hm => ?_, fun e => decode_strict_of_error h, fun m hm => ?_,
    fun mode header' t' h' hperm => ?_⟩
  · rw [decode_eq h, decodeTable_allow, enterAll_eq_error_iff]
  · rw [decode_eq h, decodeTable_allow] at hm
    have ht := readable_of_enterAll hm
    rw [enterAll_eq {} hn ht] at hm
    cases hm
    exact ⟨fun key hkey => ⟨isSome_text?_entered hn ht hkey, fun s => text?_entered hn hkey⟩,
      fun d => created_entered hn, extra_entered t⟩
  · rw [decode_strict hm]
    exact ⟨check_strict_of_complete, check_strict_of_lacks⟩
  · rw [decode_eq h, decode_eq h']
    exact reordered_decodeTable hperm hn mode

theorem decode_accounts_reversed :
    let header := "title = \" \"\nversion = 2"
    let reversed := "version = 2\ntitle = \" \""
    let t : Table := [("title", .string " "), ("version", .integer 2)]
    Toml.Reader.table? header = some t ∧ Toml.Reader.table? reversed = some t.reverse ∧
      decode .allow header = .ok { title := some " ", version := some "2" } ∧
      (∃ names, decode .strict header = .error (.incomplete names) ∧ "title" ∈ names) ∧
      Reordered (decode .strict header) (decode .strict reversed) := by
  intro header reversed t
  have hexact : ∀ e ∈ t, e.2.IsExact := by
    simp [t, Toml.Value.isExact_string, Toml.Value.isExact_integer]
  have hheader : Toml.Reader.table? header = some t :=
    Toml.Reader.table?_of_same hexact (by decide +kernel)
  have hreversed : Toml.Reader.table? reversed = some t.reverse :=
    Toml.Reader.table?_of_same (fun e he => hexact e (List.mem_reverse.mp he)) (by decide +kernel)
  obtain ⟨-, -, -, hstrict, horder⟩ := decode_accounts hheader
  have hallow : decode .allow header = .ok { title := some " ", version := some "2" } := by
    rw [decode_eq hheader]
    cbv
  have hblank : Metadata.Lacks { title := some " ", version := some "2" } "title" :=
    ⟨some " ", by decide, by decide⟩
  obtain ⟨names, hnames, -, hmem⟩ := (hstrict _ hallow).2 ⟨"title", hblank⟩
  exact ⟨hheader, hreversed, hallow, ⟨names, hnames, (hmem _).mpr hblank⟩,
    horder .strict _ _ hreversed t.reverse_perm.symm⟩

end FrontMatter

end PromptFiles
