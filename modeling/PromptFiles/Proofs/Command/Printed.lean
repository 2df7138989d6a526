import PromptFiles.Proofs.Command.Supplied
import PromptFiles.Proofs.Number.Integer
import PromptFiles.Proofs.Number.ReadBack
import PromptFiles.Proofs.Template.Assigned

/-!
# Values in a field without a format

A value on the command line may be taken for a number, and then its field shows the number. What is
printed is the value itself unless it is an integer that is not written as its numeral, or a decimal
that is not the shortest one of the binary number it is rounded to: `run_format_field`. Even then
what is printed is read as the same number.
-/

namespace PromptFiles.Command

open NameMap (find?)
open Number (Binary64 Decimal IsShortest IsShortestText Literal Magnitude Spells numeral)

-- ---------------------------------------------------------------------------
-- Values
-- ---------------------------------------------------------------------------

def IsWord (v : String) : Prop :=
  (∀ i : Int64, ¬Spells v.toList i.toInt) ∧ ('.' ∉ v.toList ∨ Literal.ofText? v = none)

/-- What is printed for a value. A decimal that is too large is printed as a word. -/
inductive IsPrinted (v : String) : String → Prop
  | word (h : IsWord v) : IsPrinted v v
  | integer {i : Int64} (h : Spells v.toList i.toInt) : IsPrinted v (numeral i.toInt)
  | decimal {negative : Bool} {n : Nat} {e : Int} {m : Magnitude} {d : Decimal} {text : String}
    (hpoint : '.' ∈ v.toList) (hread : Literal.ofText? v = some (.decimal negative n e))
    (hcovers : m.Covers (n * 10 ^ e)) (hshort : IsShortest m d)
    (hreduced : d.IsReduced ∨ d = ⟨0, 0⟩)
    (htext : text.toList = (if negative then ['-'] else []) ++ d.text) : IsPrinted v text
  | infinite {negative : Bool} {n : Nat} {e : Int} (hpoint : '.' ∈ v.toList)
    (hread : Literal.ofText? v = some (.decimal negative n e))
    (hlarge : Magnitude.bound ≤ n * 10 ^ e) : IsPrinted v (if negative then "-inf" else "inf")

inductive IsFaithful (v : String) : Prop
  | word (h : IsWord v)
  | integer {i : Int64} (h : v = numeral i.toInt)
  | decimal {negative : Bool} {whole : Nat} {part : List Char} {m : Magnitude}
    (h : IsShortestText v.toList negative whole part m)

theorem point_not_mem_of_spells (h : Spells cs i) : '.' ∉ cs := by
  have hnumeral {ds : List Char} (h : Number.isNumeral ds = true) : '.' ∉ ds :=
    fun hmem => absurd ((Number.isNumeral_iff.mp h).2 '.' hmem) (by decide)
  cases h with
  | digits h => exact hnumeral h
  | plus h => simpa using hnumeral h
  | minus h => simpa using hnumeral h

theorem inferred_cases (v : String) :
    (IsWord v ∧ inferred v = .text v) ∨
      (∃ i : Int64, Spells v.toList i.toInt ∧ inferred v = .integer i) ∨
      ∃ negative n e, '.' ∈ v.toList ∧ Literal.ofText? v = some (.decimal negative n e) ∧
        inferred v = .float (.ofDecimal negative n e) := by
  unfold inferred
  cases hinteger : Number.int64? v with
  | some i => exact .inr (.inl ⟨i, Number.int64?_eq_some_iff.mp hinteger, rfl⟩)
  | none =>
    have hnone (i : Int64) : ¬Spells v.toList i.toInt := by
      rw [← Number.int64?_eq_some_iff, hinteger]
      exact nofun
    by_cases hpoint : '.' ∈ v.toList
    · have hcontains : v.toList.contains '.' = true := List.contains_iff_mem.mpr hpoint
      simp only [hcontains, if_true]
      cases hread : Literal.ofText? v with
      | none => exact .inl ⟨⟨hnone, .inr hread⟩, rfl⟩
      | some l =>
        obtain ⟨negative, n, e, rfl⟩ := Literal.ofText?_eq_decimal hpoint hread
        exact .inr (.inr ⟨negative, n, e, hpoint, rfl, rfl⟩)
    · have hcontains : ¬v.toList.contains '.' = true := mt List.contains_iff_mem.mp hpoint
      simp only [hcontains]
      exact .inl ⟨⟨hnone, .inl hpoint⟩, rfl⟩

theorem isPrinted_render (v : String) : IsPrinted v (inferred v).render := by
  rcases inferred_cases v with ⟨hword, h⟩ | ⟨i, hspells, h⟩ | ⟨negative, n, e, hpoint, hread, h⟩
  · rw [h]
    exact .word hword
  · rw [h]
    exact .integer hspells
  · rcases Binary64.ofDecimal_cases negative n e with ⟨m, hcovers, hx⟩ | ⟨hlarge, hx⟩
    · rw [h, hx]
      exact .decimal hpoint hread hcovers m.isShortest_shortest m.isReduced_or_eq_zero
        (Binary64.toList_plain negative m)
    · have hplain : Template.Value.render (.float (.infinite negative)) =
          if negative then "-inf" else "inf" := by cases negative <;> rfl
      rw [h, hx, hplain]
      exact .infinite hpoint hread hlarge

theorem render_eq_iff (v : String) : (inferred v).render = v ↔ IsFaithful v := by
  rcases inferred_cases v with ⟨hword, h⟩ | ⟨i, hspells, h⟩ | ⟨negative, n, e, hpoint, hread, h⟩
  · rw [h]
    exact ⟨fun _ => .word hword, fun _ => rfl⟩
  · rw [h]
    refine ⟨fun heq => .integer heq.symm, fun hfaithful => ?_⟩
    cases hfaithful with
    | word hword => exact absurd hspells (hword.1 i)
    | @integer j hj =>
      have hsame : Number.int64? v = some j := by
        rw [Number.int64?_eq_some_iff, hj]
        exact Number.spells_numeral j.toInt
      rw [Number.int64?_eq_some_iff.mpr hspells, Option.some_inj] at hsame
      rw [hsame]
      exact hj.symm
    | decimal hshort =>
      refine absurd ?_ (point_not_mem_of_spells hspells)
      rw [hshort.shape]
      simp
  · have hx : (Literal.ofText? v).map Literal.toBinary64 = some (.ofDecimal negative n e) := by
      rw [hread]
      rfl
    rw [h]
    refine (Binary64.plain_eq_iff hx hpoint).trans ?_
    constructor
    · rintro ⟨negative, whole, part, m, hshort⟩
      exact .decimal hshort
    · intro hfaithful
      cases hfaithful with
      | word hword =>
        rcases hword.2 with hnone | hnone
        · exact absurd hpoint hnone
        · rw [hread] at hnone
          cases hnone
      | @integer i hi =>
        have hspells : Spells v.toList i.toInt := by
          rw [hi]
          exact Number.spells_numeral i.toInt
        exact absurd hpoint (point_not_mem_of_spells hspells)
      | decimal hshort => exact ⟨_, _, _, _, hshort⟩

theorem int64?_render (h : Number.int64? v = some i) :
    Number.int64? (inferred v).render = some i := by
  rw [inferred, h]
  exact Number.int64?_eq_some_iff.mpr (Number.spells_numeral i.toInt)

theorem ofText?_render (hpoint : '.' ∈ v.toList) :
    (Literal.ofText? (inferred v).render).map Literal.toBinary64 =
      (Literal.ofText? v).map Literal.toBinary64 := by
  rcases inferred_cases v with ⟨-, h⟩ | ⟨i, hspells, -⟩ | ⟨negative, n, e, -, hread, h⟩
  · rw [h]
    rfl
  · exact absurd hpoint (point_not_mem_of_spells hspells)
  · rw [h, hread]
    exact Binary64.ofText?_plain _

-- ---------------------------------------------------------------------------
-- Fields
-- ---------------------------------------------------------------------------

/-- A name that means the same in a field and before an equals sign. -/
def IsFieldName (name : String) : Prop :=
  name ≠ "" ∧ ∀ c ∈ name.toList, c ∉ ['{', '}', ':', '='] ∧ Text.isBlank c = false

instance (name : String) : Decidable (IsFieldName name) :=
  @instDecidableAnd _ _ _ (List.decidableBAll _ _)

def fieldOf (name : String) : String :=
  "\x7b" ++ name ++ "\x7d"

theorem tokenize_fieldOf (h : IsFieldName name) :
    Template.tokenize (fieldOf name) = [.field name none] := by
  have hfield : Template.IsField name none := by
    refine ⟨fun hmem => ?_, nofun, fun hmem => ?_, fun hhead => ?_⟩
    · exact absurd (h.2 _ hmem).1 (by decide)
    · exact absurd (h.2 _ hmem).1 (by decide)
    · exact absurd (h.2 _ (List.mem_of_mem_head? hhead)).1 (by decide)
  have hlist : (fieldOf name).toList = (Template.Token.field name none).source ++ [] := by
    simp [fieldOf, Template.Token.source]
  rw [Template.tokenize, hlist, Template.cut_field hfield, Template.cut]

theorem placeholders_fieldOf (h : IsFieldName name) :
    Template.placeholders (fieldOf name) = [name] := by
  rw [Template.placeholders, tokenize_fieldOf h]
  rfl

theorem formatWith_fieldOf (h : IsFieldName name) {args : Template.Arguments}
    (hfind : find? name (args.bindings [name]) = some value) (isPartial : Bool) :
    Template.formatWith (fieldOf name) (Template.placeholders (fieldOf name)) args isPartial =
      .ok value.render := by
  have hsubstitute : Template.substitute (args.bindings [name]) [.field name none] =
      .ok value.render.toList := by
    simp [Template.substitute, Template.Token.expand, hfind, Template.Value.renderAs, bind,
      Except.bind, pure, Except.pure]
  have hbound : NameMap.contains name (args.bindings [name]) = true := by
    rw [NameMap.contains, hfind]
    rfl
  rw [Template.formatWith, placeholders_fieldOf h, tokenize_fieldOf h]
  simp [hbound, hsubstitute, Except.map]

def FormatRequest.Gives (r : FormatRequest) (name value : String) : Prop :=
  r.positional = [] ∧ r.named = [(name, value)] ∨
    name = "0" ∧ r.positional = [value] ∧ r.named = []

theorem find?_gives {r : FormatRequest} (h : r.Gives name value) :
    find? name (r.arguments.bindings [name]) = some (inferred value) := by
  rw [Template.Arguments.find?_bindings_eq _ List.mem_cons_self, positional_arguments]
  rcases h with ⟨hpositional, hnamed⟩ | ⟨rfl, hpositional, hnamed⟩
  · simp [FormatRequest.arguments, Template.Arguments.ofLists, Template.Arguments.insert,
      hpositional, hnamed, NameMap.insert, find?]
  · have hposition : Template.position? "0" = some 0 := by decide
    simp [hpositional, hposition]

-- ---------------------------------------------------------------------------
-- Command lines
-- ---------------------------------------------------------------------------

def Asks (arguments : List String) (config : Option String) (mode : Option Mode)
    (file name value : String) : Prop :=
  ∃ r, Invocation.parse arguments = .ok ⟨config, .format r⟩ ∧ r.file = file ∧ r.mode = mode ∧
    r.Gives name value

theorem binding?_fieldName (h : IsFieldName name) (value : String) :
    binding? (name ++ "=" ++ value) = some (name, value) := by
  refine binding?_eq_some_iff.mpr ⟨name.toList, by simp, fun hmem => ?_, ?_, h.1⟩
  · exact absurd (h.2 _ hmem).1 (by decide)
  · exact Text.trim_eq_self (fun c hc => (h.2 c (List.mem_of_mem_head? hc)).2)
      fun c hc => (h.2 c (List.mem_of_mem_getLast? hc)).2

theorem isDashed_binding (hne : name ≠ "") (hhead : name.toList.head? ≠ some '-')
    (value : String) : isDashed (name ++ "=" ++ value) = false := by
  obtain ⟨c, cs, hcs⟩ := List.exists_cons_of_ne_nil (mt String.toList_eq_nil_iff.mp hne)
  have hc : c ≠ '-' := by simpa [hcs] using hhead
  simp [isDashed, hcs, hc]

section
variable {config : Option String} {file : String} (hfile : file ≠ "") (hconfig : config ≠ some "")
include hfile hconfig

theorem asks_formatLine (h : IsFieldName name) (mode : Option Mode) (value : String) :
    Asks (formatLine config mode file [] [name ++ "=" ++ value]) config mode file name value := by
  have hbinding := binding?_fieldName h value
  have hnamed : ∀ text ∈ [name ++ "=" ++ value], (binding? text).isSome = true := by
    simp [hbinding]
  refine ⟨_, parse_formatLine hfile hconfig hnamed mode [], rfl, rfl, .inl ⟨rfl, ?_⟩⟩
  simp [hbinding]

theorem asks_detachedLine (h : IsFieldName name) (hhead : name.toList.head? ≠ some '-')
    (mode : Option Mode) (value : String) :
    Asks (detachedLine config mode file (name ++ "=" ++ value)) config mode file name value :=
  ⟨_, parse_detachedLine hfile hconfig (binding?_fieldName h value)
    (isDashed_binding h.1 hhead value) mode, rfl, rfl, .inl ⟨rfl, rfl⟩⟩

theorem asks_position (mode : Option Mode) (value : String) :
    Asks (formatLine config mode file [value] []) config mode file "0" value :=
  ⟨_, parse_formatLine hfile hconfig (by simp) mode [value], rfl, rfl, .inr ⟨rfl, rfl, rfl⟩⟩

end

section
variable {t u : FileTree} {p : Prompt} (hstart : start t env config = (u, .ok s))
  (hload : loadPrompt s.settings u mode file = .ok p) (hname : IsFieldName name)
  (hbody : p.body = fieldOf name)
include hstart hload hname hbody

theorem run_asked (h : Asks arguments config mode file name v) (today : Calendar.Date) :
    (run t env today arguments).status = 0 ∧
      (run t env today arguments).output = [(inferred v).render] := by
  obtain ⟨r, hparse, rfl, rfl, hgives⟩ := h
  have hformat : p.format r.arguments r.isPartial = .ok (inferred v).render := by
    rw [Prompt.format, Prompt.placeholders, hbody]
    exact formatWith_fieldOf hname (find?_gives hgives) r.isPartial
  exact run_format_ok hparse hstart hload today hformat

/-- If the body of a prompt is one field without a format, then a value for it is printed as it is
if and only if it does not read as a number, or is the numeral of an integer of 64 bits, or is the
shortest decimal of a binary number. Otherwise the numeral or the shortest decimal of the number is
printed, which reads as the same number. -/
theorem run_format_field (today : Calendar.Date) (v : String) :
    Asks (formatLine config mode file [] [name ++ "=" ++ v]) config mode file name v ∧
    (name.toList.head? ≠ some '-' →
      Asks (detachedLine config mode file (name ++ "=" ++ v)) config mode file name v) ∧
    (name = "0" → Asks (formatLine config mode file [v] []) config mode file name v) ∧
    ∃ text, IsPrinted v text ∧ (text = v ↔ IsFaithful v) ∧
      (∀ i, Number.int64? v = some i → Number.int64? text = some i) ∧
      ('.' ∈ v.toList → (Literal.ofText? text).map Literal.toBinary64 =
        (Literal.ofText? v).map Literal.toBinary64) ∧
      ∀ arguments, Asks arguments config mode file name v →
        (run t env today arguments).status = 0 ∧ (run t env today arguments).output = [text] := by
  have hfile := file_ne_empty hload
  have hconfig := config_ne_empty hstart
  refine ⟨asks_formatLine hfile hconfig hname mode v,
    fun hhead => asks_detachedLine hfile hconfig hname hhead mode v, ?_,
    (inferred v).render, isPrinted_render v, render_eq_iff v, fun i => int64?_render,
    ofText?_render, fun arguments h => run_asked hstart hload hname hbody h today⟩
  rintro rfl
  exact asks_position hfile hconfig mode v

end

theorem run_format_field_numeral :
    let body := fieldOf "n"
    let today := (Calendar.Date.ofParts? 2024 2 29).get (by decide)
    ∃ s p, start (single body) {} none = (single body, .ok s) ∧
      loadPrompt s.settings (single body) none "p" = .ok p ∧ IsFieldName "n" ∧ p.body = body ∧
      (run (single body) {} today (formatLine none none "p" [] ["n=-42"])).output = ["-42"] ∧
      (run (single body) {} today (detachedLine none none "p" "n=v1.0")).output = ["v1.0"] := by
  intro body today
  have hnormal : normalBody body = body := by cbv
  obtain ⟨s, hstart, hload⟩ := load_single (by decide) hnormal (by cbv)
  have hname : IsFieldName "n" := by decide
  refine ⟨s, _, hstart, hload, hname, rfl, ?_, ?_⟩
  · obtain ⟨hasks, -, -, text, -, hiff, -, -, hruns⟩ :=
      run_format_field hstart hload hname rfl today "-42"
    have htext : text = "-42" := hiff.mpr (@IsFaithful.integer _ (-42) (by decide))
    rw [← htext]
    exact (hruns _ hasks).2
  · obtain ⟨-, hasks, -, text, -, hiff, -, -, hruns⟩ :=
      run_format_field hstart hload hname rfl today "v1.0"
    have hword : IsWord "v1.0" := by
      refine ⟨fun i hspells => ?_, .inr (by decide)⟩
      rw [← Number.int64?_eq_some_iff] at hspells
      exact absurd hspells (by simp [show Number.int64? "v1.0" = none by decide])
    have htext : text = "v1.0" := hiff.mpr (.word hword)
    rw [← htext]
    exact (hruns _ (hasks (by decide))).2

theorem run_format_zeros :
    let body := fieldOf "n"
    let today := (Calendar.Date.ofParts? 2024 2 29).get (by decide)
    let line := formatLine none none "p" [] ["n=007"]
    ∃ s p, start (single body) {} none = (single body, .ok s) ∧
      loadPrompt s.settings (single body) none "p" = .ok p ∧ IsFieldName "n" ∧ p.body = body ∧
      Asks line none none "p" "n" "007" ∧ (run (single body) {} today line).output = ["7"] ∧
      (run (single body) {} today line).output ≠ ["007"] := by
  intro body today line
  have hnormal : normalBody body = body := by cbv
  obtain ⟨s, hstart, hload⟩ := load_single (by decide) hnormal (by cbv)
  have hname : IsFieldName "n" := by decide
  have hasks : Asks line none none "p" "n" "007" :=
    asks_formatLine (by decide) (by decide) hname none "007"
  have houtput : (run (single body) {} today line).output = ["7"] :=
    (run_asked hstart hload hname rfl hasks today).2
  refine ⟨s, _, hstart, hload, hname, rfl, hasks, houtput, ?_⟩
  rw [houtput]
  decide

end PromptFiles.Command
