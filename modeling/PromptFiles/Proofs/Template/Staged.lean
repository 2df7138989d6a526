import Mathlib
import PromptFiles.Proofs.Number.Digits
import PromptFiles.Proofs.Template.Binding
import PromptFiles.Proofs.Template.Grammar

/-!
# Formatting in stages

A template of text and fields alone is formatted with some of its names and the result
with the rest. `stages_agree` is the one fact behind it: what the first pass writes is
cut again into the fields it left and into nothing else, as long as the values it put in
hold no brace. Text without a brace in front of a template joins its first literal
(`substitute_append`, `fieldNames_append`), and a field is cut in the same way wherever
it stands.
-/

namespace PromptFiles.Template

open NameMap (find? contains)

-- ---------------------------------------------------------------------------
-- Written values
-- ---------------------------------------------------------------------------

theorem braceFree_append {cs ds : List Char} :
    BraceFree (cs ++ ds) ↔ BraceFree cs ∧ BraceFree ds := by
  simp only [BraceFree, List.mem_append, or_imp, forall_and]

theorem braceFree_replicate (n : Nat) (h : isBrace c = false) :
    BraceFree (List.replicate n c) := by
  intro d hd
  rw [List.eq_of_mem_replicate hd]
  exact h

theorem braceFree_toFixed (x : Number.Binary64) (places : Nat) :
    BraceFree (x.toFixed places).toList := by
  intro c hc
  have hd := Number.isDecimalChar_toFixed x hc
  by_contra hb
  rcases isBrace_iff.mp (by simpa using hb) with rfl | rfl <;> exact absurd hd (by decide)

theorem braceFree_body (spec : Spec) {value : Value} (h : BraceFree value.render.toList) :
    BraceFree (spec.body value).toList := by
  unfold Spec.body
  split
  · exact braceFree_toFixed _ _
  · exact braceFree_toFixed _ _
  · exact h

theorem braceFree_pad (spec : Spec) (numeric : Bool) {body : List Char} (h : BraceFree body) :
    BraceFree (spec.pad numeric body) := by
  have fill (c : Char) (hc : isBrace c = false) :
      BraceFree (List.replicate (spec.width.getD 0 - body.length) c) := braceFree_replicate _ hc
  unfold Spec.pad
  split
  · split
    · rename_i rest
      obtain ⟨hminus, hrest⟩ := braceFree_append.mp (show BraceFree (['-'] ++ rest) from h)
      exact braceFree_append.mpr ⟨braceFree_append.mpr ⟨hminus, fill '0' rfl⟩, hrest⟩
    · exact braceFree_append.mpr ⟨fill '0' rfl, h⟩
  · split
    · exact braceFree_append.mpr ⟨fill ' ' rfl, h⟩
    · exact braceFree_append.mpr ⟨h, fill ' ' rfl⟩

theorem braceFree_renderAs {value : Value} (h : BraceFree value.render.toList)
    (format : Option String) : BraceFree (value.renderAs format).toList := by
  unfold Value.renderAs
  split
  · simpa [Spec.apply] using braceFree_pad _ _ (braceFree_body _ h)
  · exact h

-- ---------------------------------------------------------------------------
-- Text in front of a template
-- ---------------------------------------------------------------------------

theorem substitute_cons (bound : List (String × Value)) (t : Token) (ts : List Token) :
    substitute bound (t :: ts) =
      (t.expand bound).bind fun text => (substitute bound ts).map (text ++ ·) := by
  rw [substitute]
  cases t.expand bound with
  | error e => rfl
  | ok text => cases substitute bound ts <;> rfl

def fieldNames (ts : List Token) : List String :=
  ts.filterMap Token.name?

theorem cut_leading (position : Nat) (cs : List Char) :
    cut position cs =
      (if cs.takeWhile (!isBrace ·) = [] then []
        else [.literal (String.ofList (cs.takeWhile (!isBrace ·)))]) ++
      cut (position + byteLength (cs.takeWhile (!isBrace ·))) (cs.dropWhile (!isBrace ·)) := by
  have hjoin := List.takeWhile_append_dropWhile (p := (!isBrace ·)) (l := cs)
  split
  · rename_i hnil
    rw [hnil, List.nil_append] at hjoin
    rw [hnil, byteLength_nil, Nat.add_zero, hjoin, List.nil_append]
  · rename_i hne
    have hfree : BraceFree (String.ofList (cs.takeWhile (!isBrace ·))).toList := by
      intro c hc
      rw [String.toList_ofList] at hc
      simpa using List.mem_takeWhile_imp hc
    have hstop : ∀ c, (cs.dropWhile (!isBrace ·)).head? = some c → isBrace c = true :=
      fun c hc => by simpa using head?_dropWhile_false hc
    have hcut := cut_literal position (by simpa using hne) hfree hstop
    rw [String.toList_ofList, hjoin] at hcut
    exact hcut

theorem substitute_leading (bound : List (String × Value)) (position : Nat) (cs : List Char) :
    substitute bound (cut position cs) =
      (substitute bound (cut (position + byteLength (cs.takeWhile (!isBrace ·)))
        (cs.dropWhile (!isBrace ·)))).map (cs.takeWhile (!isBrace ·) ++ ·) := by
  rw [cut_leading position cs]
  split
  · rename_i hnil
    rw [hnil, byteLength_nil, Nat.add_zero, List.nil_append]
    cases substitute bound (cut position (cs.dropWhile (!isBrace ·))) <;> rfl
  · rw [List.singleton_append, substitute_cons, Token.expand, String.toList_ofList]
    rfl

theorem fieldNames_leading (position : Nat) (cs : List Char) :
    fieldNames (cut position cs) =
      fieldNames (cut (position + byteLength (cs.takeWhile (!isBrace ·)))
        (cs.dropWhile (!isBrace ·))) := by
  rw [cut_leading position cs]
  split <;> rfl

section
variable {cs : List Char} (h : BraceFree cs) (rest : List Char)
include h

theorem takeWhile_braceFree_append :
    (cs ++ rest).takeWhile (!isBrace ·) = cs ++ rest.takeWhile (!isBrace ·) :=
  List.takeWhile_append_of_pos fun c hc => by simpa using h c hc

theorem dropWhile_braceFree_append :
    (cs ++ rest).dropWhile (!isBrace ·) = rest.dropWhile (!isBrace ·) :=
  List.dropWhile_append_of_pos fun c hc => by simpa using h c hc

theorem substitute_append (bound : List (String × Value)) (position : Nat) :
    substitute bound (cut position (cs ++ rest)) =
      (substitute bound (cut (position + byteLength cs) rest)).map (cs ++ ·) := by
  rw [substitute_leading, takeWhile_braceFree_append h, dropWhile_braceFree_append h,
    byteLength_append, ← Nat.add_assoc, substitute_leading bound (position + byteLength cs)]
  cases substitute bound _ with
  | error e => rfl
  | ok text => simp [Except.map]

theorem fieldNames_append (position : Nat) :
    fieldNames (cut position (cs ++ rest)) =
      fieldNames (cut (position + byteLength cs) rest) := by
  rw [fieldNames_leading, takeWhile_braceFree_append h, dropWhile_braceFree_append h,
    byteLength_append, ← Nat.add_assoc, ← fieldNames_leading]

end

-- ---------------------------------------------------------------------------
-- Templates of text and fields
-- ---------------------------------------------------------------------------

def Token.isPlain : Token → Bool
  | literal _ | field _ _ => true
  | escaped _ | unmatched _ _ => false

/-- Substitution sees no more of the bindings than which value the names of its fields have. -/
theorem substitute_congr_names {bound other : List (String × Value)} {ts : List Token}
    (h : ∀ name ∈ fieldNames ts, find? name bound = find? name other) :
    substitute bound ts = substitute other ts := by
  induction ts with
  | nil => rfl
  | cons t ts ih =>
    have ht : t.expand bound = t.expand other := by
      cases t with
      | field name format =>
        rw [Token.expand, Token.expand, h name (by simp [fieldNames, Token.name?])]
      | _ => rfl
    rw [substitute_cons, substitute_cons, ht, ih fun name hname => h name ?_]
    rw [fieldNames, List.filterMap_cons]
    cases t.name? with
    | none => exact hname
    | some _ => exact List.mem_cons_of_mem _ hname

theorem substitute_congr {bound other : List (String × Value)}
    (h : ∀ name, find? name bound = find? name other) (ts : List Token) :
    substitute bound ts = substitute other ts :=
  substitute_congr_names fun name _ => h name

theorem expand_plain (bound : List (String × Value)) {t : Token} (h : t.isPlain = true) :
    ∃ text, t.expand bound = .ok text := by
  cases t with
  | literal text => exact ⟨_, rfl⟩
  | field name format =>
    rw [Token.expand]
    split
    · exact ⟨_, rfl⟩
    · exact ⟨_, rfl⟩
  | escaped brace => cases h
  | unmatched brace position => cases h

theorem substitute_plain (bound : List (String × Value)) {ts : List Token}
    (h : ∀ t ∈ ts, t.isPlain = true) : ∃ text, substitute bound ts = .ok text := by
  induction ts with
  | nil => exact ⟨[], rfl⟩
  | cons t ts ih =>
    obtain ⟨hd, hhd⟩ := expand_plain bound (h t (by simp))
    obtain ⟨tl, htl⟩ := ih fun u hu => h u (List.mem_cons_of_mem _ hu)
    exact ⟨hd ++ tl, by rw [substitute_cons, hhd, htl]; rfl⟩

/-- One set of bindings before another: a name has its first value, or else its second. -/
def Overrides (first second both : List (String × Value)) : Prop :=
  ∀ name, find? name both = (find? name first).or (find? name second)

/-- What a first pass over a template writes, as a second pass reads it. -/
structure Stages (first : List (String × Value)) (ts : List Token) (out : List Char) : Prop where
  substitute_first : substitute first ts = .ok out
  fieldNames_cut : ∀ next, fieldNames (cut next out) = (fieldNames ts).filter (!contains · first)
  substitute_cut : ∀ next second both, Overrides first second both →
    substitute second (cut next out) = substitute both ts

namespace Stages

theorem nil : Stages first [] [] where
  substitute_first := rfl
  fieldNames_cut next := by rw [cut]; rfl
  substitute_cut next second both _ := by rw [cut]; rfl

theorem cons_text {t : Token} {text : List Char} (hexpand : t.expand first = .ok text)
    (hfree : BraceFree text)
    (hname : fieldNames [t] = (fieldNames [t]).filter (contains · first))
    (hboth : ∀ second both, Overrides first second both → t.expand both = .ok text)
    (ih : Stages first ts out) : Stages first (t :: ts) (text ++ out) where
  substitute_first := by rw [substitute_cons, hexpand, ih.substitute_first]; rfl
  fieldNames_cut next := by
    have hnone : (fieldNames [t]).filter (!contains · first) = [] := by
      rw [hname, List.filter_filter]
      simp
    rw [fieldNames_append hfree, ih.fieldNames_cut, fieldNames, fieldNames,
      ← List.singleton_append (l := ts), List.filterMap_append, List.filter_append]
    exact (congrArg (· ++ _) hnone).symm
  substitute_cut next second both h := by
    rw [substitute_append hfree, ih.substitute_cut _ second both h, substitute_cons,
      hboth second both h]
    rfl

theorem cons_field {format : Option String} (hfield : IsField name format)
    (hnone : find? name first = none)
    (ih : Stages first ts out) :
    Stages first (.field name format :: ts) ((Token.field name format).source ++ out) where
  substitute_first := by
    rw [substitute_cons, Token.expand, hnone, ih.substitute_first]
    rfl
  fieldNames_cut next := by
    have hc : contains name first = false := NameMap.contains_eq_false.mpr hnone
    rw [cut_field hfield]
    simp only [fieldNames, List.filterMap_cons, Token.name?, List.filter_cons, hc]
    simpa [fieldNames] using ih.fieldNames_cut _
  substitute_cut next second both h := by
    have hsame : find? name both = find? name second := by rw [h name, hnone, Option.none_or]
    rw [cut_field hfield, substitute_cons, substitute_cons, ih.substitute_cut _ second both h,
      Token.expand, Token.expand, hsame]

end Stages

/-- The first pass leaves its unbound fields and no others. By induction along the tokens; the
second pass may start anywhere, since what is cut does not depend on it. -/
theorem stages_agree {first : List (String × Value)}
    (hfirst : ∀ name value, find? name first = some value → BraceFree value.render.toList)
    (position : Nat) (cs : List Char) (hplain : ∀ t ∈ cut position cs, t.isPlain = true) :
    ∃ out, Stages first (cut position cs) out := by
  induction position, cs using tokenInduction with
  | nil position => exact ⟨[], by simpa [cut] using Stages.nil⟩
  | cons position t rest hfits ih =>
    rw [cut_source hfits] at hplain ⊢
    obtain ⟨out, hout⟩ := ih fun u hu => hplain u (List.mem_cons_of_mem _ hu)
    cases t with
    | literal text =>
      exact ⟨_, hout.cons_text rfl hfits.2.1 rfl fun _ _ _ => rfl⟩
    | field name format =>
      cases hfind : find? name first with
      | none => exact ⟨_, hout.cons_field hfits hfind⟩
      | some value =>
        have hexpand (bound : List (String × Value)) (hb : find? name bound = some value) :
            (Token.field name format).expand bound = .ok (value.renderAs format).toList := by
          rw [Token.expand, hb]
        refine ⟨_, hout.cons_text (hexpand first hfind)
          (braceFree_renderAs (hfirst name value hfind) format) ?_ ?_⟩
        · simp [fieldNames, Token.name?, contains, hfind]
        · intro second both h
          exact hexpand both (by rw [h name, hfind, Option.some_or])
    | escaped brace => exact absurd (hplain (.escaped brace) (by simp)) (by simp [Token.isPlain])
    | unmatched brace p =>
      exact absurd (hplain (.unmatched brace p) (by simp)) (by simp [Token.isPlain])

-- ---------------------------------------------------------------------------
-- Two runs
-- ---------------------------------------------------------------------------

namespace Arguments

/-- All named arguments of both; for a shared name the value of `first` counts. -/
def union (first second : Arguments) : Arguments :=
  first.named.foldr (fun (name, value) args => args.insert name value) second

theorem positional_union (first second : Arguments) :
    (first.union second).positional = second.positional := by
  unfold union
  induction first.named with
  | nil => rfl
  | cons p rest ih => exact ih

theorem overrides_union (first second : Arguments) :
    Overrides first.named second.named (first.union second).named := by
  intro name
  unfold union
  induction first.named with
  | nil => rfl
  | cons p rest ih =>
    obtain ⟨n, v⟩ := p
    rw [List.foldr_cons]
    show find? name (NameMap.insert n v (List.foldr _ second rest).named) = _
    rw [NameMap.find?_insert, ih, find?]
    split <;> rfl

theorem bindings_named {args : Arguments} (h : args.positional = []) (names : List String) :
    args.bindings names = args.named := by
  simp [bindings, h, bindFrom]

end Arguments

theorem placeholders_eq (template : String) :
    placeholders template = Names.ofList (fieldNames (tokenize template)) := rfl

section
variable {args : Arguments} (h : args.positional = [])
include h

theorem formatPartial_named (template : String) :
    formatPartial template args =
      (substitute args.named (tokenize template)).map String.ofList := by
  rw [formatPartial_eq, Arguments.bindings_named h]

theorem format_named (template : String) :
    format template args =
      if (placeholders template).filter (!contains · args.named) = [] then
        formatPartial template args
      else
        .error (.missingVariables ((placeholders template).filter (!contains · args.named))
          (args.named.map Prod.fst)) := by
  have hmissing :
      missing template args = (placeholders template).filter (!contains · args.named) := by
    rw [missing, Arguments.bindings_named h]
  rw [format_eq, hmissing, Arguments.bindings_named h]
  rfl

end

section
variable {template staged : String} {first second : Arguments}
  (hfirst : first.positional = []) (hsecond : second.positional = [])
  (h : Stages first.named (tokenize template) staged.toList)

include hfirst h in
theorem Stages.formatPartial_first : formatPartial template first = .ok staged := by
  rw [formatPartial_named hfirst, h.substitute_first]
  simp [Except.map]

include h in
theorem Stages.placeholders_eq :
    placeholders staged = (placeholders template).filter (!contains · first.named) := by
  rw [Template.placeholders_eq, Template.placeholders_eq, ← Names.ofList_filter, tokenize,
    h.fieldNames_cut]

include hsecond h in
theorem Stages.formatPartial_second :
    formatPartial staged second = formatPartial template (first.union second) := by
  rw [formatPartial_named hsecond,
    formatPartial_named ((first.positional_union second).trans hsecond), tokenize,
    h.substitute_cut 0 _ _ (first.overrides_union second)]

include h in
theorem Stages.missing_eq :
    (placeholders staged).filter (!contains · second.named) =
      (placeholders template).filter (!contains · (first.union second).named) := by
  rw [h.placeholders_eq, List.filter_filter]
  congr 1
  funext name
  simp only [contains, first.overrides_union second name]
  cases find? name first.named <;> cases find? name second.named <;> rfl

end

/-- Formatting with some names and then with others is formatting once with both, in a partial
run and in a validated one; and two partial runs whose names differ may change places. -/
theorem format_formatPartial (template : String) (first second : Arguments)
    (hfirst : first.positional = []) (hsecond : second.positional = [])
    (hplain : ∀ t ∈ tokenize template, t.isPlain = true)
    (hfree : ∀ p ∈ first.named, BraceFree p.2.render.toList) :
    ∃ staged, formatPartial template first = .ok staged ∧
      placeholders staged = (placeholders template).filter (!contains · first.named) ∧
      (∃ text, formatPartial staged second = .ok text ∧
        formatPartial template (first.union second) = .ok text) ∧
      ((∃ text, format staged second = .ok text ∧
          format template (first.union second) = .ok text) ∨
        ∃ missing provided providedOnce,
          format staged second = .error (.missingVariables missing provided) ∧
          format template (first.union second) =
            .error (.missingVariables missing providedOnce)) ∧
      ((∀ p ∈ second.named, BraceFree p.2.render.toList) →
        (∀ name, contains name first.named → contains name second.named = false) →
        ∃ other text, formatPartial template second = .ok other ∧
          formatPartial other first = .ok text ∧ formatPartial staged second = .ok text) := by
  have stage (args : Arguments) (hargs : ∀ p ∈ args.named, BraceFree p.2.render.toList) :
      ∃ staged : String, Stages args.named (tokenize template) staged.toList := by
    have hfound (name : String) (value : Value) (hv : find? name args.named = some value) :
        BraceFree value.render.toList := hargs _ (NameMap.mem_of_find? hv)
    obtain ⟨out, hout⟩ := stages_agree hfound 0 template.toList hplain
    exact ⟨String.ofList out, by rw [String.toList_ofList]; exact hout⟩
  obtain ⟨staged, h⟩ := stage first hfree
  have hboth : (first.union second).positional = [] := (first.positional_union second).trans hsecond
  obtain ⟨cs, hcs⟩ := substitute_plain (first.union second).named hplain
  have hpartial : formatPartial template (first.union second) = .ok (String.ofList cs) := by
    rw [formatPartial_named hboth, hcs]
    rfl
  have hagree := h.formatPartial_second hsecond
  refine ⟨staged, h.formatPartial_first hfirst, h.placeholders_eq,
    ⟨_, hagree.trans hpartial, hpartial⟩, ?_, ?_⟩
  · rw [format_named hsecond, format_named hboth, h.missing_eq, hagree, hpartial]
    split
    · exact .inl ⟨_, rfl, rfl⟩
    · exact .inr ⟨_, _, _, rfl, rfl⟩
  · intro hfree' hdisjoint
    obtain ⟨other, h'⟩ := stage second hfree'
    refine ⟨other, String.ofList cs, h'.formatPartial_first hsecond, ?_, hagree.trans hpartial⟩
    have hswap (name : String) :
        find? name (second.union first).named = find? name (first.union second).named := by
      rw [second.overrides_union first name, first.overrides_union second name]
      cases hf : find? name first.named with
      | none => rw [Option.or_none, Option.none_or]
      | some value =>
        have hs := hdisjoint name (by simp [contains, hf])
        rw [NameMap.contains_eq_false.mp hs, Option.none_or, Option.or_none]
    have hnone := (second.positional_union first).trans hfirst
    rw [h'.formatPartial_second hfirst, formatPartial_named hnone, substitute_congr hswap, hcs]
    rfl

theorem format_formatPartial_greeting :
    ∃ staged text, formatPartial "\x7bgreeting\x7d, \x7bname:5\x7d!"
        { named := [("greeting", .text "Hello")] } = .ok staged ∧
      placeholders staged = ["name"] ∧
      formatPartial staged { named := [("name", .text "Zoë")] } = .ok text ∧
      formatPartial "\x7bgreeting\x7d, \x7bname:5\x7d!" (Arguments.union
        { named := [("greeting", .text "Hello")] } { named := [("name", .text "Zoë")] }) =
          .ok text := by
  have htokens : tokenize "\x7bgreeting\x7d, \x7bname:5\x7d!" =
      [.field "greeting" none, .literal ", ", .field "name" (some "5"), .literal "!"] := by
    cbv
  have hello : BraceFree "Hello".toList := fun c hc => by
    simpa using List.all_eq_true.mp (show "Hello".toList.all (!isBrace ·) = true by decide) c hc
  obtain ⟨staged, hstaged, hnames, ⟨text, htext, honce⟩, -, -⟩ :=
    format_formatPartial "\x7bgreeting\x7d, \x7bname:5\x7d!"
      { named := [("greeting", .text "Hello")] } { named := [("name", .text "Zoë")] } rfl rfl
      (by rw [htokens]; simp [Token.isPlain]) (by simpa [Value.render] using hello)
  have hlist : placeholders "\x7bgreeting\x7d, \x7bname:5\x7d!" = ["greeting", "name"] := by
    rw [placeholders, htokens]; decide
  exact ⟨staged, text, hstaged, by rw [hnames, hlist]; decide, htext, honce⟩

end PromptFiles.Template
