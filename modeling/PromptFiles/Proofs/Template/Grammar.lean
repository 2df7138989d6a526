import Mathlib.Data.List.Chain
import Mathlib.Data.List.TakeWhile
import PromptFiles.Template.Token

/-!
# The grammar of templates

`Token.Fits` says where a token may stand, by the text that follows it. Every text that
is not empty starts with exactly one token that fits (`exists_fits`, `cut_source`), so a
fact about the tokens of a text is proved token by token (`tokenInduction`).
`isReading_iff` compares `tokenize` with the grammar, which does not scan: it only says
what the tokens are, that they make up the text, and what may stand next to what.
-/

namespace PromptFiles.Template

def BraceFree (cs : List Char) : Prop :=
  ∀ c ∈ cs, isBrace c = false

def fieldInner (name : String) : Option String → List Char
  | none => name.toList
  | some format => name.toList ++ ':' :: format.toList

/-- The first closing brace ends the field, the first colon its name, and a second opening
brace would have made it an escape. -/
structure IsField (name : String) (format : Option String) : Prop where
  name_open : '}' ∉ name.toList
  format_open : ∀ f, format = some f → '}' ∉ f.toList
  name_colon : ':' ∉ name.toList
  notEscape : (fieldInner name format).head? ≠ some '{'

/-- A brace that no brace of its kind follows, and after which no field can be closed. -/
structure IsUnmatched (brace : Char) (rest : List Char) : Prop where
  isBrace : isBrace brace = true
  notDoubled : rest.head? ≠ some brace
  notClosed : brace = '{' → '}' ∉ rest

namespace Token

def isLiteral : Token → Bool
  | literal _ => true
  | _ => false

def sources (ts : List Token) : List Char :=
  ts.flatMap source

@[simp] theorem sources_nil : sources [] = [] := rfl

@[simp] theorem sources_cons (t : Token) (ts : List Token) :
    sources (t :: ts) = t.source ++ sources ts := by
  simp [sources]

@[simp] theorem sources_append (ts us : List Token) :
    sources (ts ++ us) = sources ts ++ sources us := by
  simp [sources]

theorem source_field (name : String) (format : Option String) :
    (field name format).source = '{' :: fieldInner name format ++ ['}'] := by
  cases format <;> simp [source, fieldInner]

/-- A token may be cut after `position` bytes when `rest` follows it. -/
def Fits (position : Nat) (rest : List Char) : Token → Prop
  | literal text =>
    text ≠ "" ∧ BraceFree text.toList ∧ ∀ c, rest.head? = some c → isBrace c = true
  | escaped brace => isBrace brace = true
  | field name format => IsField name format
  | unmatched brace p => p = position ∧ IsUnmatched brace rest

theorem Fits.source_ne_nil {t : Token} (h : t.Fits position rest) : t.source ≠ [] := by
  cases t with
  | literal text => simpa [source] using h.1
  | escaped brace => simp [source]
  | field name format => simp [source_field]
  | unmatched brace p => simp [source]

end Token

open Token (sources)

theorem isBrace_iff {c : Char} : isBrace c = true ↔ c = '{' ∨ c = '}' := by
  simp [isBrace]

theorem byteLength_append (cs ds : List Char) :
    byteLength (cs ++ ds) = byteLength cs + byteLength ds := by
  induction cs with
  | nil => simp [byteLength]
  | cons c cs ih => simp only [List.cons_append, byteLength, ih, Nat.add_assoc]

@[simp] theorem byteLength_nil : byteLength [] = 0 := rfl

theorem byteLength_brace {c : Char} (h : isBrace c = true) : byteLength [c] = 1 := by
  rcases isBrace_iff.mp h with rfl | rfl <;> rfl

-- ---------------------------------------------------------------------------
-- Runs up to a character
-- ---------------------------------------------------------------------------

theorem takeWhile_append_stop {p : α → Bool} {as bs : List α} (ha : ∀ a ∈ as, p a = true)
    (hb : ∀ b, bs.head? = some b → p b = false) : (as ++ bs).takeWhile p = as := by
  rw [List.takeWhile_append_of_pos ha]
  cases bs with
  | nil => simp
  | cons b bs => simp [hb b rfl]

theorem dropWhile_append_stop {p : α → Bool} {as bs : List α} (ha : ∀ a ∈ as, p a = true)
    (hb : ∀ b, bs.head? = some b → p b = false) : (as ++ bs).dropWhile p = bs := by
  rw [List.dropWhile_append_of_pos ha]
  cases bs with
  | nil => rfl
  | cons b bs => simp [hb b rfl]

theorem head?_dropWhile_false {p : α → Bool} {as : List α} {a : α}
    (h : (as.dropWhile p).head? = some a) : p a = false := by
  have := List.head?_dropWhile_not p as
  rw [h] at this
  simpa using this

theorem cutField?_append {inner : List Char} (h : '}' ∉ inner) (rest : List Char) :
    cutField? (inner ++ '}' :: rest) = some (inner, rest) := by
  have hp : ∀ c ∈ inner, (c != '}') = true := by
    intro c hc
    simp only [bne_iff_ne]
    rintro rfl
    exact h hc
  have hs : ∀ c, ('}' :: rest).head? = some c → (c != '}') = false := by simp
  simp [cutField?, dropWhile_append_stop hp hs, takeWhile_append_stop hp hs]

theorem cutField?_eq_some {cs inner after : List Char} (h : cutField? cs = some (inner, after)) :
    '}' ∉ inner ∧ cs = inner ++ '}' :: after := by
  unfold cutField? at h
  split at h
  · cases h
  · rename_i c rest hd
    cases h
    have hc : c = '}' := by
      have hhead : (cs.dropWhile (· != '}')).head? = some c := by simp [hd]
      simpa using head?_dropWhile_false hhead
    refine ⟨?_, ?_⟩
    · intro hm
      have := List.mem_takeWhile_imp hm
      simp at this
    · subst hc
      rw [← hd, List.takeWhile_append_dropWhile]

theorem cutField?_eq_none {cs : List Char} (h : cutField? cs = none) : '}' ∉ cs := by
  unfold cutField? at h
  split at h
  · rename_i hd
    intro hm
    have := List.dropWhile_eq_nil_iff.mp hd _ hm
    simp at this
  · cases h

theorem fieldToken_inner {name : String} {format : Option String} (h : ':' ∉ name.toList) :
    fieldToken (fieldInner name format) = .field name format := by
  have hp : ∀ c ∈ name.toList, (c != ':') = true := by
    intro c hc
    simp only [bne_iff_ne]
    rintro rfl
    exact h hc
  cases format with
  | none =>
    have ht := List.takeWhile_eq_self_iff.mpr hp
    have hd := List.dropWhile_eq_nil_iff.mpr hp
    simp [fieldToken, fieldInner, ht, hd]
  | some f =>
    have hs : ∀ c, (':' :: f.toList).head? = some c → (c != ':') = false := by simp
    simp [fieldToken, fieldInner, takeWhile_append_stop hp hs, dropWhile_append_stop hp hs]

theorem exists_fieldToken {inner : List Char} (ho : '}' ∉ inner) (he : inner.head? ≠ some '{') :
    ∃ name format, fieldToken inner = .field name format ∧ fieldInner name format = inner ∧
      IsField name format := by
  have hjoin := List.takeWhile_append_dropWhile (p := (· != ':')) (l := inner)
  have hcolon : ':' ∉ inner.takeWhile (· != ':') := by
    intro hm
    have := List.mem_takeWhile_imp hm
    simp at this
  have hname : '}' ∉ inner.takeWhile (· != ':') := fun hm => ho ((List.takeWhile_sublist _).mem hm)
  unfold fieldToken
  split
  · rename_i hd
    rw [hd, List.append_nil] at hjoin
    refine ⟨_, none, rfl, by simpa [fieldInner] using hjoin, ?_⟩
    exact ⟨by simpa using hname, by simp, by simpa using hcolon,
      by simpa [fieldInner, hjoin] using he⟩
  · rename_i c f hd
    have hc : c = ':' := by
      have hhead : (inner.dropWhile (· != ':')).head? = some c := by simp [hd]
      simpa using head?_dropWhile_false hhead
    subst hc
    rw [hd] at hjoin
    have hf : '}' ∉ f := fun hm => ho (hjoin ▸ List.mem_append_right _ (List.mem_cons_of_mem _ hm))
    refine ⟨_, some (String.ofList f), rfl, by simpa [fieldInner] using hjoin, ?_⟩
    exact ⟨by simpa using hname, by simpa using hf, by simpa using hcolon,
      by simpa [fieldInner, hjoin] using he⟩

-- ---------------------------------------------------------------------------
-- One token
-- ---------------------------------------------------------------------------

theorem cut_literal {text : String} (position : Nat) (hne : text ≠ "")
    (hfree : BraceFree text.toList) (hstop : ∀ c, rest.head? = some c → isBrace c = true) :
    cut position (text.toList ++ rest) =
      .literal text :: cut (position + byteLength text.toList) rest := by
  cases hcs : text.toList with
  | nil => exact absurd (by simpa using hcs) hne
  | cons c cs =>
    rw [hcs] at hfree
    have hp : ∀ d ∈ cs, (!isBrace d) = true := fun d hd => by
      simpa using hfree d (List.mem_cons_of_mem _ hd)
    have hs : ∀ d, rest.head? = some d → (!isBrace d) = false := fun d hd => by
      simpa using hstop d hd
    rw [List.cons_append, cut, if_neg (by simp [hfree c (by simp)])]
    simp only [takeWhile_append_stop hp hs, dropWhile_append_stop hp hs]
    rw [← hcs, String.ofList_toList]

theorem cut_escaped (h : isBrace brace = true) :
    cut position (brace :: brace :: rest) = .escaped brace :: cut (position + 2) rest := by
  rw [cut, if_pos h, if_pos List.head?_cons, List.tail_cons]

theorem cut_field (h : IsField name format) :
    cut position ((Token.field name format).source ++ rest) =
      .field name format ::
        cut (position + byteLength (Token.field name format).source) rest := by
  have hopen : '}' ∉ fieldInner name format := by
    cases format with
    | none => exact h.name_open
    | some f => simp [fieldInner, h.name_open, h.format_open f rfl]
  have hhead : (fieldInner name format ++ '}' :: rest).head? ≠ some '{' := by
    cases hi : fieldInner name format with
    | nil => simp
    | cons c cs => simpa [hi] using h.notEscape
  have hlength : byteLength (Token.field name format).source =
      byteLength (fieldInner name format) + 2 := by
    rw [Token.source_field, ← List.singleton_append, byteLength_append, byteLength_append]
    have hl : byteLength ['{'] = 1 := rfl
    have hr : byteLength ['}'] = 1 := rfl
    omega
  rw [hlength, Token.source_field]
  simp only [List.cons_append, List.append_assoc, List.nil_append]
  rw [cut, if_pos (show isBrace '{' = true from rfl), if_neg hhead, if_pos rfl]
  split
  · rename_i inner after hcut
    rw [cutField?_append hopen] at hcut
    cases hcut
    rw [fieldToken_inner h.name_colon, Nat.add_assoc]
  · rename_i hcut
    rw [cutField?_append hopen] at hcut
    cases hcut

theorem cut_unmatched (h : IsUnmatched brace rest) :
    cut position (brace :: rest) = .unmatched brace position :: cut (position + 1) rest := by
  rw [cut, if_pos h.isBrace, if_neg h.notDoubled]
  split
  · rename_i hb
    split
    · rename_i hcut
      have hc := (cutField?_eq_some hcut).2
      exact absurd (by simp [hc]) (h.notClosed hb)
    · rfl
  · rfl

theorem cut_source {t : Token} (h : t.Fits position rest) :
    cut position (t.source ++ rest) = t :: cut (position + byteLength t.source) rest := by
  cases t with
  | literal text => exact cut_literal _ h.1 h.2.1 h.2.2
  | escaped brace =>
    have h2 : byteLength [brace, brace] = 2 := by
      rw [← List.singleton_append, byteLength_append, byteLength_brace h]
    simpa [Token.source, h2] using cut_escaped h
  | field name format => exact cut_field h
  | unmatched brace p =>
    obtain ⟨rfl, hu⟩ := h
    simpa [Token.source, byteLength_brace hu.isBrace] using cut_unmatched hu

theorem exists_fits (position : Nat) {cs : List Char} (h : cs ≠ []) :
    ∃ t rest, cs = Token.source t ++ rest ∧ t.Fits position rest := by
  obtain ⟨c, rest, rfl⟩ := List.exists_cons_of_ne_nil h
  by_cases hb : isBrace c = true
  · by_cases hd : rest.head? = some c
    · obtain ⟨after, rfl⟩ := List.head?_eq_some_iff.mp hd
      exact ⟨.escaped c, after, rfl, hb⟩
    · have alone (hclosed : c = '{' → '}' ∉ rest) :
          ∃ t after, c :: rest = Token.source t ++ after ∧ t.Fits position after :=
        ⟨.unmatched c position, rest, rfl, rfl, hb, hd, hclosed⟩
      by_cases hc : c = '{'
      · subst hc
        cases hcut : cutField? rest with
        | none => exact alone fun _ => cutField?_eq_none hcut
        | some cutAt =>
          obtain ⟨inner, after⟩ := cutAt
          obtain ⟨hopen, rfl⟩ := cutField?_eq_some hcut
          have hhead : inner.head? ≠ some '{' := by
            intro he
            obtain ⟨tail, rfl⟩ := List.head?_eq_some_iff.mp he
            exact hd rfl
          obtain ⟨name, format, -, hinner, hfield⟩ := exists_fieldToken hopen hhead
          refine ⟨.field name format, after, ?_, hfield⟩
          simp [Token.source_field, hinner]
      · exact alone fun he => absurd he hc
  · have hfree : BraceFree (c :: rest.takeWhile (!isBrace ·)) := by
      intro d hm
      rcases List.mem_cons.mp hm with rfl | hm
      · simpa using hb
      · simpa using List.mem_takeWhile_imp hm
    refine ⟨.literal (String.ofList (c :: rest.takeWhile (!isBrace ·))),
      rest.dropWhile (!isBrace ·), ?_, ?_, ?_, ?_⟩
    · simp [Token.source]
    · simp
    · simpa using hfree
    · intro d hd
      simpa using head?_dropWhile_false hd

/-- Induction along the tokens of a text, each with the number of bytes before it. -/
theorem tokenInduction {motive : Nat → List Char → Prop} (nil : ∀ position, motive position [])
    (cons : ∀ position t rest, Token.Fits position rest t →
      motive (position + byteLength t.source) rest → motive position (t.source ++ rest))
    (position : Nat) (cs : List Char) : motive position cs := by
  by_cases hne : cs = []
  · exact hne ▸ nil position
  · obtain ⟨t, rest, hcs, hfits⟩ := exists_fits position hne
    have hlt : rest.length < cs.length := by
      have := List.length_pos_iff.mpr hfits.source_ne_nil
      rw [hcs, List.length_append]
      omega
    exact hcs ▸ cons position t rest hfits (tokenInduction nil cons _ rest)
termination_by cs.length

-- ---------------------------------------------------------------------------
-- The grammar
-- ---------------------------------------------------------------------------

/-- These tokens are a reading of a text that `start` bytes come before. -/
structure IsReading (start : Nat) (cs : List Char) (ts : List Token) : Prop where
  sources : sources ts = cs
  literals : ∀ text, .literal text ∈ ts → text ≠ "" ∧ BraceFree text.toList
  notAdjacent : ts.IsChain fun t u => ¬(t.isLiteral ∧ u.isLiteral)
  escapes : ∀ brace, .escaped brace ∈ ts → isBrace brace = true
  fields : ∀ name format, .field name format ∈ ts → IsField name format
  unmatched : ∀ before brace position after, ts = before ++ .unmatched brace position :: after →
    position = start + byteLength (Token.sources before) ∧
      IsUnmatched brace (Token.sources after)

namespace IsReading

theorem nil : IsReading start [] [] :=
  ⟨rfl, by simp, .nil, by simp, by simp, by simp⟩

theorem head_isBrace (h : IsReading start cs ts)
    (hl : ∀ t, ts.head? = some t → t.isLiteral = false) :
    ∀ c, cs.head? = some c → isBrace c = true := by
  intro c hc
  rw [← h.sources] at hc
  cases ts with
  | nil => simp at hc
  | cons t ts =>
    cases t with
    | literal text => simp [Token.isLiteral] at hl
    | escaped brace =>
      obtain rfl : brace = c := by simpa [Token.source] using hc
      exact h.escapes brace (by simp)
    | field name format =>
      obtain rfl : '{' = c := by simpa [Token.source_field] using hc
      rfl
    | unmatched brace position =>
      obtain rfl : brace = c := by simpa [Token.source] using hc
      exact (h.unmatched [] brace position ts rfl).2.isBrace

theorem cons {t : Token} (hf : t.Fits start cs)
    (h : IsReading (start + byteLength t.source) cs ts) :
    IsReading start (t.source ++ cs) (t :: ts) where
  sources := by rw [Token.sources_cons, h.sources]
  literals text hm := by
    rcases List.mem_cons.mp hm with rfl | hm
    · exact ⟨hf.1, hf.2.1⟩
    · exact h.literals text hm
  notAdjacent := by
    refine List.isChain_cons.mpr ⟨?_, h.notAdjacent⟩
    rintro u hu ⟨ht, hlit⟩
    obtain ⟨us, rfl⟩ := List.head?_eq_some_iff.mp hu
    cases t <;> simp [Token.isLiteral] at ht
    cases u <;> simp [Token.isLiteral] at hlit
    rename_i text other
    -- The second literal starts with a character that the first one would have taken.
    obtain ⟨hne, hfree⟩ := h.literals other (by simp)
    cases ho : other.toList with
    | nil => exact hne (by simpa using ho)
    | cons c os =>
      have hb : isBrace c = true := hf.2.2 c (by rw [← h.sources]; simp [Token.source, ho])
      exact absurd (hfree c (by simp [ho])) (by simp [hb])
  escapes brace hm := by
    rcases List.mem_cons.mp hm with rfl | hm
    · exact hf
    · exact h.escapes brace hm
  fields name format hm := by
    rcases List.mem_cons.mp hm with rfl | hm
    · exact hf
    · exact h.fields name format hm
  unmatched before brace position after heq := by
    cases before with
    | nil =>
      obtain ⟨rfl, rfl⟩ := List.cons.inj heq
      obtain ⟨rfl, hu⟩ := hf
      exact ⟨by simp, h.sources ▸ hu⟩
    | cons u before =>
      obtain ⟨rfl, rfl⟩ := List.cons.inj heq
      obtain ⟨hp, hu⟩ := h.unmatched before brace position after rfl
      refine ⟨?_, hu⟩
      rw [hp, Token.sources_cons, byteLength_append, Nat.add_assoc]

theorem tail (h : IsReading start cs (t :: ts)) :
    IsReading (start + byteLength t.source) (Token.sources ts) ts where
  sources := rfl
  literals text hm := h.literals text (List.mem_cons_of_mem _ hm)
  notAdjacent := (List.isChain_cons.mp h.notAdjacent).2
  escapes brace hm := h.escapes brace (List.mem_cons_of_mem _ hm)
  fields name format hm := h.fields name format (List.mem_cons_of_mem _ hm)
  unmatched before brace position after heq := by
    obtain ⟨hp, hu⟩ := h.unmatched (t :: before) brace position after (by rw [heq]; rfl)
    refine ⟨?_, hu⟩
    rw [hp, Token.sources_cons, byteLength_append, Nat.add_assoc]

theorem head (h : IsReading start cs (t :: ts)) : t.Fits start (Token.sources ts) := by
  cases t with
  | literal text =>
    obtain ⟨hne, hfree⟩ := h.literals text (by simp)
    refine ⟨hne, hfree, h.tail.head_isBrace fun u hu => ?_⟩
    have := (List.isChain_cons.mp h.notAdjacent).1 u hu
    simpa [Token.isLiteral] using this
  | escaped brace => exact h.escapes brace (by simp)
  | field name format => exact h.fields name format (by simp)
  | unmatched brace position =>
    obtain ⟨hp, hu⟩ := h.unmatched [] brace position ts rfl
    exact ⟨by simpa using hp, hu⟩

end IsReading

theorem isReading_cut (start : Nat) (cs : List Char) : IsReading start cs (cut start cs) := by
  induction start, cs using tokenInduction with
  | nil position => simpa [cut] using IsReading.nil
  | cons position t rest hfits ih => exact cut_source hfits ▸ ih.cons hfits

theorem IsReading.eq_cut (h : IsReading start cs ts) : ts = cut start cs := by
  induction ts generalizing start cs with
  | nil => rw [← h.sources]; simp [cut]
  | cons t ts ih => rw [← h.sources, Token.sources_cons, cut_source h.head, ← ih h.tail]

/-- The tokens of a template are its only reading. -/
theorem isReading_iff (template : String) (ts : List Token) :
    IsReading 0 template.toList ts ↔ ts = tokenize template :=
  ⟨fun h => h.eq_cut, fun h => h ▸ isReading_cut 0 template.toList⟩

/-- Three braces on either side are a field between two escapes. -/
example : tokenize "\x7b\x7b\x7ba\x7d\x7d\x7d" =
    [.escaped '{', .field "a" none, .escaped '}'] := by
  cbv

end PromptFiles.Template
