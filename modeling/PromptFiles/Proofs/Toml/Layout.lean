import PromptFiles.Proofs.Number.Digits
import PromptFiles.Proofs.Toml.Pieces

/-!
# Lines of a written document

Which lines of a document can be taken for the delimiter of front matter? Those of a text
in it that is the delimiter and not the text's last line, however deep the text stands,
and no others: `block_document`. The proof follows the writer function by function.
-/

namespace PromptFiles.Toml

open Text (Line ended lines)
open FrontMatter (delimiter isDelimiter)

-- ---------------------------------------------------------------------------
-- Numbers and dates
-- ---------------------------------------------------------------------------

open Number (digits padded isDigit)

theorem Marked.of_isDigit (hc : c ∈ l) (h : isDigit c = true) : Marked l := by
  refine .of_mem hc ⟨?_, ?_⟩ <;> rintro rfl <;> exact absurd h (by decide)

theorem marked_digits (n : Nat) : Marked (digits n) := by
  obtain ⟨c, cs, h⟩ := List.exists_cons_of_ne_nil (Nat.toDigits_ne_nil (n := n) (b := 10))
  have hc : c ∈ digits n := by rw [digits, h]; simp
  exact .of_isDigit hc (Number.isDigit_of_mem_digits hc)

theorem marked_padded (width n : Nat) : Marked (padded width n) :=
  (marked_digits n).append_left _

@[simp] theorem newline_not_mem_digits (n : Nat) : '\n' ∉ digits n := fun h =>
  absurd (Number.isDigit_of_mem_digits h) (by decide)

@[simp] theorem newline_not_mem_padded (width n : Nat) : '\n' ∉ padded width n := fun h =>
  absurd (Number.isDigit_of_mem_padded h) (by decide)

theorem piece_numeral (i : Int) : Piece (Number.numeral i).toList false := by
  cases i with
  | ofNat n =>
    have h := marked_digits n
    exact .line (by simp [Number.numeral]) (by simpa [Number.numeral] using h)
  | negSucc n =>
    have h := (marked_digits (n + 1)).append_left ['-']
    exact .line (by simp [Number.numeral]) (by simpa [Number.numeral] using h)

theorem piece_positional (d : Number.Decimal) (negative : Bool) (tail : List Char)
    (ht : '\n' ∉ tail) :
    Piece (String.ofList (if negative then '-' :: (d.positional.1 ++ tail)
      else d.positional.1 ++ tail)).toList false := by
  have hwhole : ∃ n, d.positional.1 = digits n := by
    unfold Number.Decimal.positional
    split <;> exact ⟨_, rfl⟩
  obtain ⟨n, hn⟩ := hwhole
  rw [String.toList_ofList, hn]
  have hm : Marked (digits n ++ tail) := (marked_digits n).append_right tail
  split
  · exact .line (by simp [ht]) (hm.append_left ['-'])
  · exact .line (by simp [ht]) hm

theorem newline_not_mem_positional (d : Number.Decimal) : '\n' ∉ d.positional.2 := by
  unfold Number.Decimal.positional
  split <;> simp

theorem piece_plain (x : Number.Binary64) : Piece x.plain.toList false := by
  cases x with
  | nan => exact .fixed rfl
  | infinite negative =>
    cases negative <;> exact .fixed rfl
  | finite negative m =>
    rw [Number.Binary64.plain]
    have hpart := newline_not_mem_positional (m.shortest .up)
    have h := piece_positional (m.shortest .up) negative
    split
    · rename_i whole hw
      have h := h [] (by simp)
      rw [hw, List.append_nil] at h
      exact h
    · rename_i whole part _ hw
      rw [hw] at h hpart
      exact h ('.' :: part) (by simpa using hpart)

theorem piece_floatText (x : Number.Binary64) : Piece (floatText x).toList false := by
  unfold floatText
  split
  · exact .fixed rfl
  · split
    · have hzero : Piece ".0".toList false := .fixed rfl
      simpa using (piece_plain x).append hzero
    · exact piece_plain x

theorem newline_not_mem_date (d : Calendar.Date) : '\n' ∉ d.chars := by
  unfold Calendar.Date.chars Calendar.Date.yearText
  split
  · simp
  · split <;> simp

theorem newline_not_mem_time (t : Time) : '\n' ∉ t.chars := by
  have hfraction : '\n' ∉ Time.fraction t.nanosecond := by
    unfold Time.fraction
    split
    · simp
    · intro h
      rcases List.mem_cons.mp h with h | h
      · cases h
      · have h := (List.dropWhile_sublist _).mem (List.mem_reverse.mp h)
        exact newline_not_mem_padded _ _ (List.mem_reverse.mp h)
  simp [Time.chars, hfraction]

theorem newline_not_mem_offset (o : Offset) : '\n' ∉ o.chars := by
  cases o with
  | utc => decide
  | minutes east bound =>
    have hsign : '\n' ≠ if east < 0 then '-' else '+' := by split <;> decide
    simp [Offset.chars, hsign]

theorem piece_date (d : Calendar.Date) : Piece d.chars false :=
  .line (newline_not_mem_date d) (((marked_padded 2 d.day).append_left ['-']).append_left _)

theorem piece_datetime (d : Datetime) : Piece d.chars false := by
  have mark {cs ds : List Char} : Marked (cs ++ 'T' :: ds) :=
    .of_mem (c := 'T') (by simp) (by decide)
  cases d with
  | stamp day t offset =>
    have hd : '\n' ∉ day.chars := newline_not_mem_date day.date
    have ht := newline_not_mem_time t
    cases offset with
    | none => exact .line (by simp [Datetime.chars, hd, ht]) mark
    | some o =>
      exact .line (by simp [Datetime.chars, hd, ht, newline_not_mem_offset o]) (mark.append_right _)
  | date day => exact piece_date day.date
  | time t =>
    refine .line (newline_not_mem_time t) (.of_mem (c := ':') ?_ (by decide))
    simp [Datetime.chars, Time.chars]

-- ---------------------------------------------------------------------------
-- Values
-- ---------------------------------------------------------------------------

namespace Value

mutual

def holdsDelimiter : Value → Bool
  | string s => Quotes.holdsDelimiter s.toList
  | array items => itemsHoldDelimiter items
  | table entries => entriesHoldDelimiter entries
  | _ => false

def itemsHoldDelimiter : List Value → Bool
  | [] => false
  | v :: rest => holdsDelimiter v || itemsHoldDelimiter rest

def entriesHoldDelimiter : List (String × Value) → Bool
  | [] => false
  | (_, v) :: rest => holdsDelimiter v || entriesHoldDelimiter rest

end

def amongHoldDelimiter (wanted : Value → Bool) (entries : List (String × Value)) : Bool :=
  entriesHoldDelimiter (entries.filter (wanted ·.2))

theorem among_cons (wanted : Value → Bool) (k : String) (v : Value)
    (rest : List (String × Value)) :
    amongHoldDelimiter wanted ((k, v) :: rest) =
      ((wanted v && v.holdsDelimiter) || amongHoldDelimiter wanted rest) := by
  cases h : wanted v <;> simp [amongHoldDelimiter, entriesHoldDelimiter, h]

theorem among_or (p q : Value → Bool) (entries : List (String × Value)) :
    (amongHoldDelimiter p entries || amongHoldDelimiter q entries) =
      amongHoldDelimiter (fun v => p v || q v) entries := by
  induction entries with
  | nil => rfl
  | cons e rest ih =>
    obtain ⟨k, v⟩ := e
    rw [among_cons, among_cons, among_cons, ← ih]
    cases p v <;> cases q v <;> cases v.holdsDelimiter <;> simp

theorem among_all {wanted : Value → Bool} {entries : List (String × Value)}
    (h : ∀ e ∈ entries, wanted e.2 = true) :
    amongHoldDelimiter wanted entries = entriesHoldDelimiter entries := by
  rw [amongHoldDelimiter, List.filter_eq_self.mpr h]

/-- Among chosen entries, those chosen again. -/
theorem among_filter (p q : Value → Bool) (entries : List (String × Value)) :
    amongHoldDelimiter p (entries.filter (q ·.2)) =
      amongHoldDelimiter (fun v => q v && p v) entries := by
  simp only [amongHoldDelimiter, List.filter_filter, Bool.and_comm]

end Value

@[simp] theorem commas_nil : commas [] = [] := rfl

@[simp] theorem commas_singleton (cs : List Char) : commas [cs] = cs := by
  simp [commas, List.intercalate]

@[simp] theorem commas_cons_cons (cs ds : List Char) (rest : List (List Char)) :
    commas (cs :: ds :: rest) = cs ++ ',' :: ' ' :: commas (ds :: rest) := by
  simp [commas, List.intercalate]

theorem Piece.commas (ha : Piece as p) (h : Each Piece texts q) :
    Piece (as ++ Toml.commas texts) (p || q) := by
  induction h generalizing as p with
  | nil => simpa using ha
  | @cons cs b rest c hcs hrest ih =>
    cases hrest with
    | nil => simpa using ha.append hcs
    | @cons ds b' rest' c' hds hrest' =>
      have hcomma : Piece [',', ' '] false := .fixed rfl
      have h := ih ((ha.append hcs).append hcomma)
      simpa [Bool.or_assoc] using h

theorem piece_entry (k : String) (h : Piece cs p) :
    Piece (Quotes.writeKey k.toList ++ " = ".toList ++ cs) p := by
  have hkey : Piece (Quotes.writeKey k.toList ++ " = ".toList) false :=
    .line (by simp [Quotes.newline_not_mem_writeKey])
      (.of_mem (c := '=') (by simp) (by decide))
  simpa using hkey.append h

namespace Value

theorem group_lt (v : Value) : v.group < 3 := by
  unfold group
  split
  · decide
  · split <;> decide
  · decide

mutual

theorem piece_inline : (v : Value) → Piece v.inline v.holdsDelimiter
  | string s => Quotes.piece_write s.toList
  | integer i => piece_numeral i.toInt
  | float x => piece_floatText x
  | boolean true => .fixed rfl
  | boolean false => .fixed rfl
  | datetime d => piece_datetime d
  | array items => by
    have hopen : Piece ['['] false := .fixed rfl
    have hclose : Piece [']'] false := .fixed rfl
    have h := (hopen.commas (each_inlineItems items)).append hclose
    simpa [inline, holdsDelimiter] using h
  | table [] => .fixed rfl
  | table (e :: entries) => by
    have hopen : Piece ['{', ' '] false := .fixed rfl
    have hclose : Piece [' ', '}'] false := .fixed rfl
    have hgroups : amongHoldDelimiter (fun v => decide (v.group = 0) || decide (v.group = 1) ||
        decide (v.group = 2)) (e :: entries) = entriesHoldDelimiter (e :: entries) := by
      refine among_all fun e _ => ?_
      have := e.2.group_lt
      simp only [Bool.or_eq_true, decide_eq_true_eq]
      omega
    have heach := ((each_inlineGroup 0 (e :: entries)).append
      (each_inlineGroup 1 (e :: entries))).append (each_inlineGroup 2 (e :: entries))
    rw [among_or, among_or, hgroups] at heach
    have h := (hopen.commas heach).append hclose
    simpa [inline, holdsDelimiter] using h

theorem each_inlineItems : (items : List Value) →
    Each Piece (inlineItems items) (itemsHoldDelimiter items)
  | [] => .nil
  | v :: rest => .cons (piece_inline v) (each_inlineItems rest)

theorem each_inlineGroup (g : Nat) : (entries : List (String × Value)) →
    Each Piece (inlineGroup g entries) (amongHoldDelimiter (fun v => decide (v.group = g)) entries)
  | [] => .nil
  | (k, v) :: rest => by
    have hrest := each_inlineGroup g rest
    rw [among_cons, inlineGroup]
    split
    · rename_i hg
      simpa [hg] using Each.cons (piece_entry k (piece_inline v)) hrest
    · rename_i hg
      simpa [hg] using hrest

end

end Value

-- ---------------------------------------------------------------------------
-- Documents
-- ---------------------------------------------------------------------------

theorem Block.of_nil (h : Block [] p) : p = false := by
  generalize hcs : [] = cs at h
  obtain ⟨hls⟩ := h
  rename_i ls
  cases ls with
  | nil => rfl
  | cons l ls => simp at hcs

theorem Block.intercalate (h : Each Block ds p) : Block (['\n'].intercalate ds) p := by
  induction h with
  | nil => exact .nil
  | @cons d q rest r hd hrest ih =>
    cases rest with
    | nil =>
      cases hrest
      simpa [List.intercalate] using hd
    | cons d' rest =>
      have h := (hd.append .blankLine).append ih
      simpa [List.intercalate] using h

namespace Writer

open Value (amongHoldDelimiter entriesHoldDelimiter itemsHoldDelimiter)

theorem block_entryLines (t : Table) :
    Block (entryLines t) (amongHoldDelimiter (fun v => !v.hasHeader) t) := by
  induction t with
  | nil => exact .nil
  | cons e rest ih =>
    obtain ⟨k, v⟩ := e
    rw [entryLines, Value.among_cons]
    split
    · rename_i hh
      simpa [hh] using ih
    · rename_i hh
      simpa [hh] using (piece_entry k v.piece_inline).block.append ih

/-- An entry of a table stands in its block or under a header of its own. -/
theorem inner_or_header (v : Value) :
    ((decide (v.group = 0) && !v.hasHeader) || (decide (v.group = 1) && !v.hasHeader) ||
      v.isTables || v.isTable) = true := by
  have hlt := v.group_lt
  have htable : v.group = 2 → v.isTable = true := by
    cases v <;> simp [Value.group, Value.isTable]
    split <;> simp
  cases ht : v.isTable with
  | true => simp
  | false =>
    have hne : v.group ≠ 2 := fun h => by simp [htable h] at ht
    have hg : v.group = 0 ∨ v.group = 1 := by omega
    cases hts : v.isTables <;> rcases hg with hg | hg <;> simp [hg, Value.hasHeader, ht, hts]

theorem block_innerLines (t : Table) :
    Block (innerLines t) (amongHoldDelimiter (fun v =>
      (decide (v.group = 0) && !v.hasHeader) || (decide (v.group = 1) && !v.hasHeader)) t) := by
  have h := (block_entryLines (t.filter (·.2.group = 0))).append
    (block_entryLines (t.filter (·.2.group = 1)))
  rw [Value.among_filter _ (fun v => decide (v.group = 0)),
    Value.among_filter _ (fun v => decide (v.group = 1)), Value.among_or] at h
  exact h

theorem newline_not_mem_headerPath (path : List String) : '\n' ∉ headerPath path := by
  induction path with
  | nil => simp [headerPath, List.intercalate]
  | cons k rest ih =>
    have hk := Quotes.newline_not_mem_writeKey k.toList
    cases rest with
    | nil => simpa [headerPath, List.intercalate] using hk
    | cons k' rest =>
      simp only [headerPath, List.intercalate] at ih
      simp_all [headerPath, List.intercalate]

theorem block_tableHeader (path : List String) : Block (tableHeader path) false := by
  have h : Piece ('[' :: headerPath path ++ [']']) false :=
    .line (by simp [newline_not_mem_headerPath]) (.of_mem (c := '[') (by simp) (by decide))
  simpa [tableHeader] using h.block

theorem block_elementHeader (path : List String) : Block (elementHeader path) false := by
  have h : Piece ('[' :: '[' :: headerPath path ++ [']', ']']) false :=
    .line (by simp [newline_not_mem_headerPath]) (.of_mem (c := '[') (by simp) (by decide))
  simpa [elementHeader] using h.block

mutual

theorem each_valueBlocks (path : List String) : (v : Value) → v.hasHeader = true →
    Each Block (valueBlocks path v) v.holdsDelimiter
  | .table entries, _ => by
    have htables := each_tableBlocks Value.isTables (by simp_all [Value.hasHeader]) path entries
    have htable := each_tableBlocks Value.isTable (by simp_all [Value.hasHeader]) path entries
    rw [valueBlocks, Value.holdsDelimiter]
    split
    · rename_i himplied
      have h := htables.append htable
      rw [Value.among_or, Value.among_all] at h
      · simpa using h
      · intro e he
        have hall := (Bool.and_eq_true_iff.mp himplied).2
        have hh : e.2.hasHeader = true := List.all_eq_true.mp hall e he
        simpa [Value.hasHeader, Bool.or_comm] using hh
    · have hblock := (block_tableHeader path).append (block_innerLines entries)
      have h := ((Each.cons hblock .nil).append htables).append htable
      rw [Bool.false_or, Bool.or_false, Value.among_or, Value.among_or,
        Value.among_all fun e _ => inner_or_header e.2] at h
      exact h
  | .array items, h => by
    have hall : items.all Value.isTable = true := by
      simp_all [Value.hasHeader, Value.isTable, Value.isTables]
    simpa [valueBlocks, Value.holdsDelimiter] using each_elementBlocks path items hall
  | .string _, h | .integer _, h | .float _, h | .boolean _, h | .datetime _, h => by
    simp [Value.hasHeader, Value.isTable, Value.isTables] at h

theorem each_tableBlocks (wanted : Value → Bool) (hw : ∀ v, wanted v = true → v.hasHeader = true)
    (path : List String) : (entries : List (String × Value)) →
    Each Block (tableBlocks wanted path entries) (amongHoldDelimiter wanted entries)
  | [] => .nil
  | (k, v) :: rest => by
    have hrest := each_tableBlocks wanted hw path rest
    rw [tableBlocks, Value.among_cons]
    split
    · rename_i hv
      simpa [hv] using (each_valueBlocks (path ++ [k]) v (hw v hv)).append hrest
    · rename_i hv
      simpa [hv] using hrest

theorem each_elementBlocks (path : List String) : (items : List Value) →
    items.all Value.isTable = true →
    Each Block (elementBlocks path items) (itemsHoldDelimiter items)
  | [], _ => .nil
  | .table entries :: rest, h => by
    have hrest := each_elementBlocks path rest (by simp_all)
    have htables := each_tableBlocks Value.isTables (by simp_all [Value.hasHeader]) path entries
    have htable := each_tableBlocks Value.isTable (by simp_all [Value.hasHeader]) path entries
    have hblock := (block_elementHeader path).append (block_innerLines entries)
    have h := (Each.cons hblock (htables.append htable)).append hrest
    rw [Bool.false_or, ← Bool.or_assoc, Value.among_or, Value.among_or,
      Value.among_all fun e _ => inner_or_header e.2] at h
    exact h
  | .string _ :: _, h | .integer _ :: _, h | .float _ :: _, h | .boolean _ :: _, h
  | .datetime _ :: _, h | .array _ :: _, h => by
    simp [Value.isTable] at h

end

/-- The delimiter is a line of a document when a text in it holds it, and only then. -/
theorem block_document (t : Table) : Block (document t) (entriesHoldDelimiter t) := by
  have hfirst := block_entryLines t
  have hblocks := each_tableBlocks Value.hasHeader (fun _ h => h) [] t
  have hall : (amongHoldDelimiter (fun v => !v.hasHeader) t ||
      amongHoldDelimiter Value.hasHeader t) = entriesHoldDelimiter t := by
    rw [Value.among_or, Value.among_all fun e _ => by simp]
  rw [document]
  split
  · rename_i hnil
    rw [hnil] at hfirst
    rw [← hall, Block.of_nil hfirst]
    exact .intercalate hblocks
  · rw [← hall]
    exact .intercalate (.cons hfirst hblocks)

end Writer

end PromptFiles.Toml
