import Mathlib
import PromptFiles.Proofs.Template.Validated

/-!
# Escaped text

With every brace written twice, a text is a template that says nothing but the text:
`substitute_doubled`, `fieldNames_doubled`. The other way round, a partial run without arguments
writes every token as it was but the escapes, of which it writes one brace: `substitute_nil`.
`format_doubled` holds both.
-/

namespace PromptFiles.Template

-- ---------------------------------------------------------------------------
-- Every brace twice
-- ---------------------------------------------------------------------------

def double (cs : List Char) : List Char :=
  cs.flatMap fun c => if isBrace c then [c, c] else [c]

def doubled (text : String) : String :=
  String.ofList (double text.toList)

theorem double_brace (h : isBrace c = true) (cs : List Char) :
    double (c :: cs) = c :: c :: double cs := by
  simp [double, h]

theorem double_other (h : isBrace c = false) (cs : List Char) :
    double (c :: cs) = [c] ++ double cs := by
  simp [double, h]

theorem braceFree_singleton (h : isBrace c = false) : BraceFree [c] := by
  intro d hd
  rwa [List.mem_singleton.mp hd]

/-- By induction on the text. The braces pair up from the left, whatever stands around them. -/
theorem substitute_doubled (bound : List (String × Value)) (position : Nat) (cs : List Char) :
    substitute bound (cut position (double cs)) = .ok cs := by
  induction cs generalizing position with
  | nil => simp [double, cut, substitute]
  | cons c cs ih =>
    cases hb : isBrace c with
    | true => rw [double_brace hb, cut_escaped hb, substitute_cons, ih]; rfl
    | false =>
      rw [double_other hb, substitute_append (braceFree_singleton hb), ih]
      rfl

theorem fieldNames_doubled (position : Nat) (cs : List Char) :
    fieldNames (cut position (double cs)) = [] := by
  induction cs generalizing position with
  | nil => simp [double, cut, fieldNames]
  | cons c cs ih =>
    cases hb : isBrace c with
    | true => rw [double_brace hb, cut_escaped hb]; exact ih _
    | false => rw [double_other hb, fieldNames_append (braceFree_singleton hb), ih]

theorem placeholders_doubled (text : String) : placeholders (doubled text) = [] := by
  rw [placeholders_eq, tokenize, doubled, String.toList_ofList, fieldNames_doubled]
  rfl

theorem fills_doubled (text : String) (args : Arguments) : args.Fills (doubled text) := by
  rw [Arguments.Fills, placeholders_doubled]
  simp

theorem formatPartial_doubled (text : String) (args : Arguments) :
    formatPartial (doubled text) args = .ok text := by
  rw [formatPartial_eq, tokenize, doubled, String.toList_ofList, substitute_doubled]
  simp [Except.map]

-- ---------------------------------------------------------------------------
-- Every escape once
-- ---------------------------------------------------------------------------

def Token.halved : Token → List Char
  | escaped brace => [brace]
  | t => t.source

def halved (template : String) : String :=
  String.ofList ((tokenize template).flatMap Token.halved)

theorem substitute_nil {ts : List Token}
    (h : ∀ brace position, .unmatched brace position ∉ ts) :
    substitute [] ts = .ok (ts.flatMap Token.halved) := by
  induction ts with
  | nil => rfl
  | cons t ts ih =>
    rw [substitute_cons, ih fun brace position hm => h brace position (List.mem_cons_of_mem _ hm)]
    cases t with
    | unmatched brace position => exact absurd List.mem_cons_self (h brace position)
    | _ => rfl

def Token.isEscape : Token → Bool
  | escaped _ => true
  | _ => false

theorem length_halved (ts : List Token) :
    (ts.flatMap Token.halved).length + ts.countP Token.isEscape = (Token.sources ts).length := by
  induction ts with
  | nil => rfl
  | cons t ts ih =>
    rw [List.flatMap_cons, Token.sources_cons, List.length_append, List.length_append,
      List.countP_cons, ← ih]
    cases t with
    | escaped brace =>
      simp [Token.halved, Token.isEscape, Token.source]
      omega
    | _ =>
      simp [Token.halved, Token.isEscape]
      omega

theorem sources_tokenize (template : String) :
    Token.sources (tokenize template) = template.toList :=
  (isReading_cut 0 template.toList).sources

theorem halved_eq_self_iff {template : String} :
    halved template = template ↔ ∀ brace, .escaped brace ∉ tokenize template := by
  have hlength := length_halved (tokenize template)
  rw [sources_tokenize] at hlength
  constructor
  · intro h brace hm
    have hpos : 0 < (tokenize template).countP Token.isEscape := List.countP_pos_iff.mpr ⟨_, hm, rfl⟩
    have hsame : ((tokenize template).flatMap Token.halved).length = template.toList.length := by
      rw [← String.toList_ofList (l := List.flatMap _ _), ← halved, h]
    omega
  · intro h
    have hkept : (tokenize template).flatMap Token.halved = Token.sources (tokenize template) := by
      refine List.flatMap_congr fun t ht => ?_
      cases t with
      | escaped brace => exact absurd ht (h brace)
      | _ => rfl
    rw [halved, hkept, sources_tokenize, String.ofList_toList]

theorem formatPartial_empty {template : String}
    (h : ∀ brace position, .unmatched brace position ∉ tokenize template) :
    formatPartial template {} = .ok (halved template) := by
  rw [formatPartial_named rfl, substitute_nil h]
  rfl

-- ---------------------------------------------------------------------------
-- Both
-- ---------------------------------------------------------------------------

/-- Any text whatever is the output of the template that has its braces twice, with any arguments
and in both kinds of runs, and that template has no placeholders. Without arguments, a partial
run halves the escapes of a template that has no unmatched brace and leaves the rest of it as it
is, so it changes nothing exactly where there is no escape. -/
theorem format_doubled (text : String) :
    placeholders (doubled text) = [] ∧
    (∀ args, format (doubled text) args = .ok text ∧
      formatPartial (doubled text) args = .ok text) ∧
    ((∀ brace position, .unmatched brace position ∉ tokenize text) →
      (tokenize text).flatMap Token.source = text.toList ∧
      formatPartial text {} = .ok (String.ofList ((tokenize text).flatMap Token.halved)) ∧
      (formatPartial text {} = .ok text ↔ ∀ brace, .escaped brace ∉ tokenize text)) := by
  refine ⟨placeholders_doubled text, fun args => ⟨?_, formatPartial_doubled text args⟩,
    fun h => ⟨sources_tokenize text, formatPartial_empty h, ?_⟩⟩
  · rw [format_of_fills (fills_doubled text args), formatPartial_doubled]
  · rw [formatPartial_empty h, Except.ok.injEq, halved_eq_self_iff]

theorem format_doubled_runs :
    let text := "\x7b\x7b\x7bno \x7b\x7d\x7d\x7d"
    (∀ brace position, .unmatched brace position ∉ tokenize text) ∧
      format (doubled text) {} = .ok text ∧
      formatPartial text {} = .ok "\x7b\x7bno \x7b\x7d\x7d" ∧
      formatPartial text {} ≠ .ok text := by
  intro text
  have htokens : tokenize text = [.escaped '{', .field "no \x7b" none, .escaped '}'] := by cbv
  obtain ⟨-, hdoubled, hempty⟩ := format_doubled text
  have hs : ∀ brace position, .unmatched brace position ∉ tokenize text := by simp [htokens]
  obtain ⟨-, hhalved, hsame⟩ := hempty hs
  refine ⟨hs, (hdoubled {}).1, ?_, ?_⟩
  · rw [hhalved, htokens]
    decide
  · rw [Ne, hsame, htokens]
    exact fun hnone => hnone '{' (by simp)

end PromptFiles.Template
