import PromptFiles.Proofs.Toml.Instant
import PromptFiles.Toml.Reader
import PromptFiles.Toml.Writer

/-!
# A document with one entry

A document of a bare key, an equals sign and a value denotes the table with that entry:
`table?_entryText`. The value may be any text in double quotes, with escapes where they are needed
(`node?_writeBasic`), or a date in any of its shapes without quotes (`node?_shape`).
-/

namespace PromptFiles.Toml

open Calendar (Clock Zone Shape dayText stampText separators)
open Number (isDigit padded)

theorem ne_of_kind {kind : Char → Bool} {c d : Char} (hc : kind c = true) (hd : kind d = false) :
    c ≠ d := by
  rintro rfl
  rw [hc] at hd
  cases hd

theorem cons_ne_of_kind {kind : Char → Bool} {c d : Char} {cs ds : List Char}
    (hc : kind c = true) (hd : kind d = false) : c :: cs ≠ d :: ds :=
  fun h => ne_of_kind hc hd (List.cons.inj h).1

-- ---------------------------------------------------------------------------
-- Texts in double quotes
-- ---------------------------------------------------------------------------

namespace Quotes

theorem codePoint?_upperHex {n : Nat} (h : n < 128) :
    codePoint? ['0', '0', upperHex (n / 16), upperHex (n % 16)] = some (Char.ofNat n) := by
  revert n
  decide +kernel

theorem escaped_cases (c : Char) :
    (escaped c = [c] ∧ isPlain c = true ∧ c ≠ '"' ∧ c ≠ '\\') ∨
      ∃ cs, escaped c = '\\' :: cs ∧ ∀ rest, escape? (cs ++ rest) = some (c, rest) := by
  unfold escaped
  split
  case h_8 hquote hbackslash _ _ hbreak _ _ =>
    split
    · rename_i hcontrol
      have hlt : c.toNat < 128 := by
        simp only [isControl, Bool.or_eq_true, Bool.and_eq_true, decide_eq_true_eq, beq_iff_eq,
          Char.lt_def, UInt32.lt_iff_toNat_lt] at hcontrol
        rcases hcontrol with ⟨⟨hlow, -⟩, -⟩ | rfl
        · exact hlow.trans (by decide)
        · decide
      refine .inr ⟨_, rfl, fun rest => ?_⟩
      have hcode := codePoint?_upperHex hlt
      rw [Char.ofNat_toNat] at hcode
      simp [escape?, shortEscape?, escapeDigits?, hcode]
    · rename_i hcontrol
      refine .inl ⟨rfl, ?_, hquote, hbackslash⟩
      simp_all [isControl, isPlain]
  all_goals exact .inr ⟨_, rfl, fun rest => rfl⟩

theorem basic_escaped (cs rest : List Char) :
    basic (cs.flatMap escaped ++ '"' :: rest) = some (cs, rest) := by
  induction cs with
  | nil => rw [List.flatMap_nil, List.nil_append, basic]
  | cons c cs ih =>
    rw [List.flatMap_cons, List.append_assoc]
    rcases escaped_cases c with ⟨hself, hplain, hquote, hbackslash⟩ | ⟨es, hes, hescape⟩
    · rw [hself, List.singleton_append, basic, if_pos hplain, ih]
      · rfl
      · simpa using hquote
      · simpa using hbackslash
    · rw [hes, List.cons_append, basic]
      split
      · rename_i h
        rw [hescape] at h
        cases h
        rw [ih]
        rfl
      · rename_i h
        rw [hescape] at h
        cases h

theorem text?_writeBasic (cs : List Char) :
    text? (writeBasic cs) = some (String.ofList cs, []) := by
  have hread := basic_escaped cs []
  have hone {c : Char} {rest : List Char} : cs.flatMap escaped ++ ['"'] ≠ '"' :: c :: rest := by
    intro h
    cases cs with
    | nil => simp at h
    | cons d ds =>
      rcases escaped_cases d with ⟨hself, -, hquote, -⟩ | ⟨es, hes, -⟩
      · rw [List.flatMap_cons, hself] at h
        exact hquote (List.cons.inj h).1
      · rw [List.flatMap_cons, hes] at h
        exact absurd (List.cons.inj h).1 (by decide)
  rw [writeBasic, List.cons_append, text?, hread]
  · rfl
  · exact fun rest h => hone h

end Quotes

-- ---------------------------------------------------------------------------
-- Dates without quotes
-- ---------------------------------------------------------------------------

theorem Day.exists_text (d : Day) : ∃ a b cs, d.text = a :: b :: cs ∧ isDigit a = true ∧
    isDigit b = true ∧ '-' ∈ cs := by
  obtain ⟨a, b, c, e, hyear, hdigit⟩ := Datetime.exists_padded_four d.year_lt
  refine ⟨a, b, [c, e] ++ '-' :: padded 2 d.date.month ++ '-' :: padded 2 d.date.day, ?_,
    hdigit a (by simp), hdigit b (by simp), by simp⟩
  rw [Day.text, dayText, hyear]
  rfl

theorem Day.exists_shape (d : Day) (shape : Shape) :
    ∃ c cs, shape.text d.text = c :: cs ∧ isDigit c = true := by
  obtain ⟨a, b, cs, hday, ha, -⟩ := d.exists_text
  cases shape with
  | plain => exact ⟨a, _, hday, ha⟩
  | stamp => exact ⟨a, _, by rw [Shape.text, stampText, hday, List.cons_append], ha⟩

namespace Scalar

theorem isAtomChar_of_isDigit {c : Char} (h : isDigit c = true) : isAtomChar c = true := by
  rw [isAtomChar, decide_eq_true_eq]
  intro hc
  simp only [List.mem_cons, List.not_mem_nil, or_false] at hc
  rcases hc with rfl | rfl | rfl | rfl | rfl | rfl | rfl | rfl | rfl | rfl | rfl | rfl | rfl <;>
    exact absurd h (by decide)

theorem isAtomChar_of_mem_padded (h : c ∈ padded width n) : isAtomChar c = true :=
  isAtomChar_of_isDigit (Number.isDigit_of_mem_padded h)

theorem isAtomChar_of_mem_day {d : Day} (h : c ∈ d.text) : isAtomChar c = true := by
  simp only [Day.text, dayText, List.mem_append, List.mem_cons] at h
  rcases h with (h | rfl | h) | rfl | h
  · exact isAtomChar_of_mem_padded h
  · decide
  · exact isAtomChar_of_mem_padded h
  · decide
  · exact isAtomChar_of_mem_padded h

theorem isAtomChar_of_mem_time {clock : Clock} {zone : Zone} (h : c ∈ clock.text ++ zone.text) :
    isAtomChar c = true := by
  have hfraction (hc : c ∈ clock.fractionText) : isAtomChar c = true := by
    unfold Clock.fractionText at hc
    split at hc
    · cases hc
    · rcases List.mem_cons.mp hc with rfl | hc
      · decide
      · exact isAtomChar_of_isDigit (clock.isDigit_fraction c hc)
  have hzone (hc : c ∈ zone.text) : isAtomChar c = true := by
    cases zone with
    | utc =>
      rw [List.mem_singleton.mp hc]
      decide
    | offset negative hour minute =>
      simp only [Zone.text, List.mem_append, List.mem_cons] at hc
      rcases hc with (rfl | hc) | rfl | hc
      · cases negative <;> decide
      · exact isAtomChar_of_mem_padded hc
      · decide
      · exact isAtomChar_of_mem_padded hc
  simp only [Clock.text, List.mem_append, List.mem_cons] at h
  rcases h with (((h | rfl | h) | rfl | h) | h) | h
  · exact isAtomChar_of_mem_padded h
  · decide
  · exact isAtomChar_of_mem_padded h
  · decide
  · exact isAtomChar_of_mem_padded h
  · exact hfraction h
  · exact hzone h

theorem grouped?_eq_none (hc : c ∈ cs) (h : p c = false) (hne : c ≠ '_') :
    grouped? p cs = none := by
  have hmem {d : Char} {rest : List Char} (hd : p d = true) (hc : c ∈ d :: rest) : c ∈ rest :=
    (List.mem_cons.mp hc).resolve_left fun he => by simp [← he, h] at hd
  fun_induction grouped? p cs with
  | case1 => cases hc
  | case2 d hd => cases hmem hd hc
  | case3 d hd => rfl
  | case4 d rest hd ih =>
    rw [ih ((List.mem_cons.mp (hmem hd hc)).resolve_left hne)]
    rfl
  | case5 d rest hd => rfl
  | case6 d rest hd hrest hp ih =>
    rw [ih (hmem hp hc)]
    rfl
  | case7 d rest hd hrest hp => rfl

theorem integer?_day (d : Day) (rest : List Char) : integer? (d.text ++ rest) = none := by
  obtain ⟨a, b, cs, htext, ha, hb, hdash⟩ := d.exists_text
  have hnone : decimal? (a :: b :: (cs ++ rest)) = none := by
    rw [decimal?, grouped?_eq_none (c := '-') (by simp [hdash]) (by decide) (by decide)]
  have hsign : sign (a :: b :: (cs ++ rest)) = (false, a :: b :: (cs ++ rest)) := by
    rw [sign]
    · exact fun _ => cons_ne_of_kind ha (by decide)
    · exact fun _ => cons_ne_of_kind ha (by decide)
  rw [htext, List.cons_append, List.cons_append, integer?, hsign]
  · simp [hnone]
  · exact fun _ h => cons_ne_of_kind hb (by decide) (List.cons.inj h).2
  · exact fun _ h => cons_ne_of_kind hb (by decide) (List.cons.inj h).2
  · exact fun _ h => cons_ne_of_kind hb (by decide) (List.cons.inj h).2

theorem ofAtom?_day (h : Datetime.ofChars? (Day.text d ++ rest) = some v) :
    ofAtom? (d.text ++ rest) = some (.datetime v) := by
  have hletter (word : List Char) (hword : ∀ c ∈ word.head?, isDigit c = false) :
      d.text ++ rest ≠ word := by
    rintro rfl
    obtain ⟨a, b, cs, htext, ha, -⟩ := d.exists_text
    exact absurd ha (by simp [hword a (by simp [htext])])
  rw [ofAtom?, if_neg (hletter _ (by simp; decide)), if_neg (hletter _ (by simp; decide)),
    integer?_day, h]

theorem exists_time (clock : Clock) (zone : Zone) :
    ∃ c cs, clock.text ++ zone.text = c :: cs ∧ isDigit c = true := by
  obtain ⟨c, cs, hcs⟩ := List.exists_cons_of_ne_nil (Number.padded_ne_nil 2 clock.hour)
  have hc : c ∈ padded 2 clock.hour := hcs ▸ List.mem_cons_self
  rw [clock.text_append, hcs]
  exact ⟨c, _, rfl, Number.isDigit_of_mem_padded hc⟩

theorem atom_all (h : ∀ c ∈ cs, isAtomChar c = true) : atom cs = (cs, []) := by
  rw [atom, List.takeWhile_eq_self_iff.mpr h, List.dropWhile_eq_nil_iff.mpr h]

theorem atom_stampText (d : Day) (hseparator : separator ∈ separators) (clock : Clock)
    (zone : Zone) : atom (stampText d.text separator clock zone) =
      (stampText d.text separator clock zone, []) := by
  have hday (c : Char) (hc : c ∈ d.text) : isAtomChar c = true := isAtomChar_of_mem_day hc
  have htime (c : Char) (hc : c ∈ clock.text ++ zone.text) : isAtomChar c = true :=
    isAtomChar_of_mem_time hc
  by_cases hspace : separator = ' '
  · obtain ⟨c, cs, hcs, hc⟩ := exists_time clock zone
    have hread : Datetime.day? d.text = some (d, []) := by
      simpa using Datetime.day?_text d []
    rw [hcs] at htime
    rw [stampText, hcs, hspace, atom, List.takeWhile_append_of_pos hday,
      List.dropWhile_append_of_pos hday, List.takeWhile_cons_of_neg (by decide),
      List.dropWhile_cons_of_neg (by decide), List.append_nil]
    simp only [hc, hread, Option.any_some, decide_true, Bool.and_self, if_true,
      List.takeWhile_eq_self_iff.mpr htime, List.dropWhile_eq_nil_iff.mpr htime]
  · have hletter : isAtomChar separator = true := by
      simp only [separators, List.mem_cons, List.not_mem_nil, or_false, hspace] at hseparator
      rcases hseparator with rfl | rfl <;> decide
    refine atom_all fun c hc => ?_
    rcases List.mem_append.mp hc with hc | hc
    · exact hday c hc
    · rcases List.mem_cons.mp hc with rfl | hc
      · exact hletter
      · exact htime c hc

theorem node?_shape (d : Day) (shape : Shape) : ∃ v,
    node? (shape.text d.text) = some (.datetime v, []) ∧ v.date? = some d.date := by
  cases shape with
  | plain =>
    have hread := Datetime.ofChars?_dayText d
    rw [← List.append_nil d.text] at hread
    refine ⟨.date d, ?_, rfl⟩
    rw [Shape.text, node?, atom_all fun c hc => isAtomChar_of_mem_day hc]
    rw [← List.append_nil d.text]
    simp only [ofAtom?_day hread]
    rfl
  | stamp separator clock zone hseparator =>
    obtain ⟨o, hread⟩ := Datetime.ofChars?_stampText d hseparator clock zone
    refine ⟨.stamp d (Datetime.timeOf clock) (some o), ?_, rfl⟩
    rw [Shape.text, node?, atom_stampText d hseparator]
    rw [stampText] at hread ⊢
    simp only [ofAtom?_day hread]
    rfl

end Scalar

-- ---------------------------------------------------------------------------
-- A line with a key and a value
-- ---------------------------------------------------------------------------

namespace Reader

theorem node?_of_isDigit (depth : Nat) (h : isDigit c = true) (cs : List Char) :
    node? depth (c :: cs) = Scalar.node? (c :: cs) := by
  rw [node?]
  · exact fun _ => cons_ne_of_kind h (by decide)
  · exact fun _ => cons_ne_of_kind h (by decide)
  · exact fun _ => cons_ne_of_kind h (by decide)
  · exact fun _ => cons_ne_of_kind h (by decide)

theorem node?_shape (depth : Nat) (d : Day) (shape : Shape) : ∃ v,
    node? depth (shape.text d.text) = some (.datetime v, []) ∧ v.date? = some d.date := by
  obtain ⟨c, cs, hcs, hc⟩ := d.exists_shape shape
  obtain ⟨v, hv, hdate⟩ := Scalar.node?_shape d shape
  refine ⟨v, ?_, hdate⟩
  rw [← hv, hcs, node?_of_isDigit depth hc]

theorem skipBlank_cons {kind : Char → Bool} (hc : kind c = true) (hspace : kind ' ' = false)
    (htab : kind '\t' = false) (cs : List Char) : skipBlank (c :: cs) = c :: cs := by
  simp [skipBlank, Quotes.isBlank, ne_of_kind hc hspace, ne_of_kind hc htab]

theorem skipBlank_shape (d : Day) (shape : Shape) :
    skipBlank (shape.text d.text) = shape.text d.text := by
  obtain ⟨c, cs, hcs, hc⟩ := d.exists_shape shape
  rw [hcs, skipBlank_cons hc (by decide) (by decide)]

theorem node?_writeBasic (depth : Nat) (cs : List Char) :
    node? depth (Quotes.writeBasic cs) = some (.string (String.ofList cs), []) := by
  rw [Quotes.writeBasic, List.cons_append, node?, ← List.cons_append, ← Quotes.writeBasic,
    Quotes.text?_writeBasic]
  rfl

def entryText (key value : List Char) : List Char :=
  key ++ " = ".toList ++ value

section
variable {key : List Char} (hne : key ≠ []) (hkey : ∀ c ∈ key, isKeyChar c = true)
include hne hkey

theorem exists_entryText (value : List Char) :
    ∃ c cs, entryText key value = c :: cs ∧ isKeyChar c = true := by
  obtain ⟨c, cs, rfl⟩ := List.exists_cons_of_ne_nil hne
  exact ⟨c, _, rfl, hkey c List.mem_cons_self⟩

theorem skipBlank_entryText (value : List Char) :
    skipBlank (entryText key value) = entryText key value := by
  obtain ⟨c, cs, hcs, hc⟩ := exists_entryText hne hkey value
  rw [hcs, skipBlank_cons hc (by decide) (by decide)]

theorem key?_entryText (value : List Char) :
    key? depthLimit (entryText key value) = some ([String.ofList key], '=' :: ' ' :: value) := by
  have hpart : keyPart? (entryText key value) =
      some (String.ofList key, ' ' :: '=' :: ' ' :: value) := by
    have hstop : isKeyChar ' ' = false := by decide
    have htext : entryText key value = key ++ ' ' :: '=' :: ' ' :: value := by simp [entryText]
    have hrun : (entryText key value).takeWhile isKeyChar = key := by
      rw [htext, List.takeWhile_append_of_pos hkey, List.takeWhile_cons_of_neg (by simp [hstop]),
        List.append_nil]
    have hrest : (entryText key value).dropWhile isKeyChar = ' ' :: '=' :: ' ' :: value := by
      rw [htext, List.dropWhile_append_of_pos hkey, List.dropWhile_cons_of_neg (by simp [hstop])]
    obtain ⟨c, cs, hcs, hc⟩ := exists_entryText hne hkey value
    rw [keyPart?, hrun, hrest]
    · simp [hne]
    · rw [hcs]; exact fun _ => cons_ne_of_kind hc (by decide)
    · rw [hcs]; exact fun _ => cons_ne_of_kind hc (by decide)
  rw [show depthLimit = 79 + 1 from rfl, key?, skipBlank_entryText hne hkey value, hpart]
  rfl

section
variable {value : List Char} (hvalue : skipBlank value = value)
  (hnode : node? depthLimit value = some (n, []))
include hvalue hnode

theorem statement?_entryText :
    statement? (entryText key value) = some (.entry [String.ofList key] n, []) := by
  obtain ⟨c, cs, hcs, hc⟩ := exists_entryText hne hkey value
  have hkeyNode : keyNode? skipBlank (node? depthLimit) (entryText key value) =
      some (([String.ofList key], n), []) := by
    have hspace : skipBlank (' ' :: value) = value := hvalue
    have hequals : skipBlank ('=' :: ' ' :: value) = '=' :: ' ' :: value := rfl
    rw [keyNode?, key?_entryText hne hkey value]
    simp only [Option.bind_eq_bind, Option.bind_some, hequals, hspace, hnode]
    rfl
  rw [statement?, hkeyNode]
  · rfl
  · rw [hcs]; exact fun _ => cons_ne_of_kind hc (by decide)
  · rw [hcs]; exact fun _ => cons_ne_of_kind hc (by decide)

theorem statements?_entryText :
    statements? (entryText key value) = some [.entry [String.ofList key] n] := by
  obtain ⟨c, cs, hcs, hc⟩ := exists_entryText hne hkey value
  have hblank := skipBlank_entryText hne hkey value
  have hend : lineEnd? (entryText key value) = none := by
    rw [lineEnd?, hblank, hcs]
    split
    · rename_i h
      exact absurd h (cons_ne_of_kind hc (by decide))
    · rw [if_neg (by simp), Quotes.lineBreak?]
      · exact fun _ => cons_ne_of_kind hc (by decide)
      · exact fun _ => cons_ne_of_kind hc (by decide)
  have hempty : statements? [] = some [] := by rw [statements?]; rfl
  have hlast : lineEnd? [] = some [] := rfl
  rw [statements?, hblank, hend]
  rw [statement?_entryText hne hkey hvalue hnode]
  simp only [hlast, hempty]
  simp [hcs]

theorem table?_entryText (hv : n.toValue? = some v) :
    table? (String.ofList (entryText key value)) = some [(String.ofList key, v)] := by
  obtain ⟨c, cs, hcs, hc⟩ := exists_entryText hne hkey value
  have hmark : skipMark (entryText key value) = entryText key value := by
    rw [hcs, skipMark]
    exact fun _ => cons_ne_of_kind hc (by decide)
  have hentries : entries? (String.ofList (entryText key value)) =
      some [(String.ofList key, n)] := by
    rw [entries?, String.toList_ofList, hmark, statements?_entryText hne hkey hvalue hnode]
    rfl
  rw [table?, hentries, Option.bind_some, Node.toTable?, hv]
  rfl

end
end

end Reader

end PromptFiles.Toml
