import PromptFiles.Proofs.Calendar.DateText
import PromptFiles.Proofs.Command.Checked
import PromptFiles.Proofs.Command.Line
import PromptFiles.Proofs.Config.Loaded
import PromptFiles.Proofs.Template.Stray

/-!
# Values for a prompt from the command line

A command line names a value in front of an equals sign, and loses the white space around the
name. So it can name neither a placeholder with an equals sign in it nor one with white space at
an end; it can name every other one, and has the first position for the one without a name
(`IsSuppliable`). A prompt with such placeholders only is formatted once enough values are given,
whatever was given before, and no command line formats a prompt with any other: `format_supplied`.
-/

namespace PromptFiles.Command

open NameMap (keys)
open Template (Arguments IsMatched placeholders)

/-- Placeholders that a command line can give a value to. Arguments are any texts here, though those
of a process cannot hold U+0000. -/
def IsSuppliable (name : String) : Prop :=
  '=' ∉ name.toList ∧ Text.trim name.toList = name.toList

instance (name : String) : Decidable (IsSuppliable name) :=
  inferInstanceAs (Decidable (_ ∧ _))

-- ---------------------------------------------------------------------------
-- Names on the command line
-- ---------------------------------------------------------------------------

theorem binding?_eq_some_iff : binding? argument = some (name, value) ↔
    ∃ before, argument.toList = before ++ '=' :: value.toList ∧ '=' ∉ before ∧
      Text.trim before = name.toList ∧ name ≠ "" := by
  unfold binding?
  constructor
  · intro h
    split at h
    · cases h
    · rename_i c after hdrop
      dsimp only at h
      split at h
      · cases h
      · rename_i hne
        cases h
        obtain rfl : c = '=' := by
          have hhead := List.head?_dropWhile_not (· != '=') argument.toList
          simpa [hdrop] using hhead
        refine ⟨argument.toList.takeWhile (· != '='), ?_, ?_, by simp, by simpa using hne⟩
        · rw [String.toList_ofList, ← hdrop, List.takeWhile_append_dropWhile]
        · intro hmem
          simpa using List.mem_takeWhile_imp hmem
  · rintro ⟨before, hargument, hbefore, htrim, hne⟩
    obtain ⟨hname, hvalue⟩ := cut_equals hbefore value.toList
    simp only [hargument, hname, hvalue, htrim]
    rw [if_neg (by simpa using hne), String.ofList_toList, String.ofList_toList]

theorem exists_binding_iff :
    (∃ argument value, binding? argument = some (name, value)) ↔ name ≠ "" ∧ IsSuppliable name := by
  simp only [binding?_eq_some_iff]
  constructor
  · rintro ⟨argument, value, before, -, hbefore, htrim, hne⟩
    refine ⟨hne, ?_, ?_⟩
    · rw [← htrim]
      exact fun h => hbefore (Text.mem_of_mem_trim h)
    · rw [← htrim, Text.trim_trim]
  · rintro ⟨hne, hequals, htrim⟩
    exact ⟨name ++ "=", "", name.toList, by simp, hequals, htrim, hne⟩

theorem isSuppliable_numeral (n : Nat) : IsSuppliable (Number.numeral n) := by
  have hdigits : (Number.numeral n).toList = Number.digits n := String.toList_ofList
  have hblank (c : Char) (hc : c ∈ Number.digits n) : Text.isBlank c = false :=
    Calendar.isBlank_of_isDigit (Number.isDigit_of_mem_digits hc)
  rw [IsSuppliable, hdigits]
  refine ⟨fun h => absurd (Number.isDigit_of_mem_digits h) (by decide), Text.trim_eq_self ?_ ?_⟩
  · intro c hc
    exact hblank c (List.mem_of_mem_head? hc)
  · intro c hc
    exact hblank c (List.mem_of_mem_getLast? hc)

theorem isSuppliable_of_binds {args : Arguments}
    (hnamed : ∀ name ∈ keys args.named, IsSuppliable name) (h : args.Binds names name) :
    IsSuppliable name := by
  cases h with
  | named hname => exact hnamed name hname
  | positional _ => exact isSuppliable_numeral _
  | first _ _ => exact ⟨by simp, rfl⟩

theorem isSuppliable_iff {names : List String} (h : name ∈ names) : IsSuppliable name ↔
    (∃ positional, Arguments.Binds { positional } names name) ∨
      ∃ argument value, binding? argument = some (name, value) := by
  rw [exists_binding_iff]
  constructor
  · intro hname
    by_cases hne : name = ""
    · subst hne
      exact .inl ⟨[.text ""], .first (by simp) h⟩
    · exact .inr ⟨hne, hname⟩
  · rintro (⟨positional, hbinds⟩ | ⟨-, hname⟩)
    · exact isSuppliable_of_binds (by simp [keys]) hbinds
    · exact hname

-- ---------------------------------------------------------------------------
-- Requests
-- ---------------------------------------------------------------------------

theorem positional_arguments (r : FormatRequest) :
    r.arguments.positional = r.positional.map inferred :=
  Arguments.positional_insertAll _ _

theorem mem_keys_arguments {r : FormatRequest} :
    name ∈ keys r.arguments.named ↔ ∃ value, (name, value) ∈ r.named := by
  refine Arguments.mem_keys_insertAll.trans ?_
  simp [keys]

theorem isSuppliable_of_parse {r : FormatRequest}
    (h : Invocation.parse arguments = .ok ⟨config, .format r⟩) :
    ∀ name ∈ keys r.arguments.named, IsSuppliable name := by
  intro name hname
  obtain ⟨value, hmem⟩ := mem_keys_arguments.mp hname
  obtain ⟨g, rfl⟩ := exists_toFormat h
  obtain ⟨argument, -, hbinding⟩ := List.mem_filterMap.mp hmem
  exact (exists_binding_iff.mp ⟨argument, value, hbinding⟩).2

def emptyValues (names : List String) : List String :=
  (names.filter (· ≠ "")).map (· ++ "=")

theorem binding?_emptyValue (h : IsSuppliable name) (hne : name ≠ "") :
    binding? (name ++ "=") = some (name, "") :=
  binding?_eq_some_iff.mpr ⟨name.toList, by simp, h.1, h.2, hne⟩

theorem isSome_emptyValues {names : List String} (h : ∀ name ∈ names, IsSuppliable name) :
    ∀ text ∈ emptyValues names, (binding? text).isSome = true := by
  simp only [emptyValues, List.mem_map, List.mem_filter, decide_eq_true_eq]
  rintro _ ⟨name, ⟨hname, hne⟩, rfl⟩
  rw [binding?_emptyValue (h name hname) hne]
  rfl

theorem mem_emptyValues {names others : List String} (h : ∀ name ∈ names, IsSuppliable name)
    (hname : name ∈ names) (hne : name ≠ "") :
    ∃ value, (name, value) ∈ (others ++ emptyValues names).filterMap binding? := by
  refine ⟨"", List.mem_filterMap.mpr ⟨name ++ "=", ?_, binding?_emptyValue (h name hname) hne⟩⟩
  simp [emptyValues, hname, hne]

/-- A first position and a value for each name are all that a prompt needs, whatever else is
given. -/
theorem exists_format {p : Prompt} {r : FormatRequest} (hmatched : IsMatched p.body)
    (hpositional : r.positional ≠ [])
    (hnamed : ∀ name ∈ p.placeholders, name ≠ "" → ∃ value, (name, value) ∈ r.named) :
    ∃ text, p.format r.arguments false = .ok text := by
  obtain ⟨text, htext⟩ := Template.exists_formatPartial hmatched r.arguments
  have hfills : r.arguments.Fills p.body := by
    intro name hname
    by_cases hne : name = ""
    · subst hne
      exact .first (by simpa [positional_arguments] using hpositional) hname
    · exact .named (mem_keys_arguments.mpr (hnamed name hname hne))
  exact ⟨text, (Template.format_of_fills hfills).trans htext⟩

-- ---------------------------------------------------------------------------
-- Runs
-- ---------------------------------------------------------------------------

section
variable {t u : FileTree} {p : Prompt} {r : FormatRequest}
  (hparse : Invocation.parse arguments = .ok ⟨config, .format r⟩)
  (hstart : start t env config = (u, .ok s))
  (hload : loadPrompt s.settings u r.mode r.file = .ok p)
include hparse hstart hload

theorem run_format (today : Calendar.Date) : run t env today arguments =
    s.finish u (sourceEvents s.settings (u.source none) r.mode r.file)
      ((r.apply p).mapError (·.message)) := by
  simp only [run, hparse, Invocation.run, hstart, Invocation.proceed, onPrompt, hload]
  rfl

theorem run_format_ok (today : Calendar.Date) (h : p.format r.arguments r.isPartial = .ok text) :
    (run t env today arguments).status = 0 ∧ (run t env today arguments).output = [text] := by
  rw [run_format hparse hstart hload, FormatRequest.apply, h]
  exact ⟨rfl, rfl⟩

theorem run_format_error (today : Calendar.Date)
    (h : p.format r.arguments r.isPartial = .error cause) :
    (run t env today arguments).status = 1 ∧
      (run t env today arguments).errors.getLast? = some ("Error: " ++ cause.message) := by
  rw [run_format hparse hstart hload, FormatRequest.apply, h]
  exact ⟨rfl, List.getLast?_concat⟩

theorem run_format_missing (today : Calendar.Date) (hname : name ∈ p.placeholders)
    (hnot : ¬IsSuppliable name) (hvalidated : r.isPartial = false) :
    (run t env today arguments).status = 1 ∧ ∃ missing, name ∈ missing ∧
      (run t env today arguments).errors.getLast? =
        some ("Error: missing format variables: " ++ Text.quotedList missing) := by
  have hbinds : ¬r.arguments.Binds p.placeholders name := fun h =>
    hnot (isSuppliable_of_binds (isSuppliable_of_parse hparse) h)
  obtain ⟨bound, hfails⟩ : ∃ bound, p.format r.arguments r.isPartial =
      .error (.missingVariables (Template.missing p.body r.arguments) bound) := by
    rw [hvalidated]
    exact ⟨_, Template.format_of_not_fills fun hfills => hbinds (hfills name hname)⟩
  obtain ⟨hstatus, herrors⟩ := run_format_error hparse hstart hload today hfails
  exact ⟨hstatus, _, Template.mem_missing.mpr ⟨hname, hbinds⟩, herrors⟩

end

-- ---------------------------------------------------------------------------
-- Files that can be named
-- ---------------------------------------------------------------------------

theorem resolve_empty (t : FileTree) (follow : Bool) : t.resolve follow "" = .error .notFound := by
  simp [FileTree.resolve]

theorem file_ne_empty {file : String} (h : loadPrompt settings t mode file = .ok p) :
    file ≠ "" := by
  rintro rfl
  have hnone : (t.source none).holds "" = false := by
    simp [FileTree.source, FileTree.pathOf, FileTree.isFile, FileTree.target?, resolve_empty]
  simp [loadPrompt, parseSource, hnone] at h

theorem config_ne_empty (h : start t env config = (u, .ok s)) : config ≠ some "" := by
  rintro rfl
  have hnone : t.exists? "" = false := by
    simp [FileTree.exists?, FileTree.target?, resolve_empty]
  simp [start, Config.load, hnone] at h

-- ---------------------------------------------------------------------------
-- One prompt file
-- ---------------------------------------------------------------------------

def single (text : String) : FileTree :=
  (FileTree.empty ["w"]).put ["w", "p"] (.file text.toUTF8)

theorem load_single {body : String} (hb : Text.allBlank body = false)
    (hn : normalBody body = body) (hs : FrontMatter.split body = .ok ⟨none, body⟩) :
    ∃ s, start (single body) {} none = (single body, .ok s) ∧
      loadPrompt s.settings (single body) none "p" =
        .ok ⟨"p", { title := some (fallbackTitle "p") }, body, hb⟩ := by
  have hload : Config.load (single body) {} none = .ok ⟨none, {}, {}, {}⟩ :=
    Config.load_eq_ok_iff.mpr
      ⟨none, {}, .none rfl (Config.exists?_defaultPath (by cbv) (by cbv)), rfl⟩
  obtain ⟨s, hstart, -, hsettings⟩ := start_of_load hload rfl
  have hfile : (single body).target? "p" = some (.file body.toUTF8) := by cbv
  have hmode : s.settings.resolve none = .allow := by
    rw [hsettings]
    rfl
  refine ⟨s, hstart, ?_⟩
  rw [loadPrompt_eq hfile, hmode, parseContent_plain hb hn hs]

-- ---------------------------------------------------------------------------
-- Placeholders that can be filled
-- ---------------------------------------------------------------------------

/-- The placeholders of a prompt that a position or a named value can stand for are those without
an equals sign and without white space at an end. If there are no others, and every brace is
matched, then any command line for the prompt can be made to succeed by more values. If there is
another, every command line fails that is not for a partial run, and names it as missing. -/
theorem format_supplied {t u : FileTree} {p : Prompt} (hstart : start t env config = (u, .ok s))
    (hload : loadPrompt s.settings u mode file = .ok p) (today : Calendar.Date) :
    (∀ name ∈ p.placeholders, IsSuppliable name ↔
      (∃ positional, Arguments.Binds { positional } p.placeholders name) ∨
        ∃ argument value, binding? argument = some (name, value)) ∧
    (IsMatched p.body → (∀ name ∈ p.placeholders, IsSuppliable name) →
      ∀ positional named, (∀ text ∈ named, (binding? text).isSome = true) →
        ∃ more others text, (∀ text ∈ others, (binding? text).isSome = true) ∧
          let line := formatLine config mode file (positional ++ more) (named ++ others)
          Invocation.parse line = .ok ⟨config, .format
            { file, mode, positional := positional ++ more
              named := (named ++ others).filterMap binding? }⟩ ∧
          (run t env today line).status = 0 ∧ (run t env today line).output = [text]) ∧
    ∀ name ∈ p.placeholders, ¬IsSuppliable name →
      ∀ arguments r, Invocation.parse arguments = .ok ⟨config, .format r⟩ →
        r.file = file → r.mode = mode → r.isPartial = false →
        (run t env today arguments).status = 1 ∧ ∃ missing, name ∈ missing ∧
          (run t env today arguments).errors.getLast? =
            some ("Error: missing format variables: " ++ Text.quotedList missing) := by
  refine ⟨fun name => isSuppliable_iff, fun hmatched hnames positional named hnamed => ?_, ?_⟩
  · -- Empty values will do, and one position more is enough.
    let r : FormatRequest :=
      { file, mode, positional := positional ++ [""]
        named := (named ++ emptyValues p.placeholders).filterMap binding? }
    have hothers := isSome_emptyValues hnames
    have hparse : Invocation.parse (formatLine config mode file (positional ++ [""])
        (named ++ emptyValues p.placeholders)) = .ok ⟨config, .format r⟩ :=
      parse_formatLine (file_ne_empty hload) (config_ne_empty hstart)
        (List.forall_mem_append.mpr ⟨hnamed, hothers⟩) mode _
    obtain ⟨text, htext⟩ : ∃ text, p.format r.arguments false = .ok text :=
      exists_format hmatched (by simp [r]) fun name => mem_emptyValues hnames
    obtain ⟨hstatus, houtput⟩ := run_format_ok hparse hstart hload today htext
    exact ⟨[""], emptyValues p.placeholders, text, hothers, hparse, hstatus, houtput⟩
  · rintro name hname hnot arguments r hparse rfl rfl hvalidated
    exact run_format_missing hparse hstart hload today hname hnot hvalidated

theorem format_supplied_greeting :
    let body := "Hi \x7b\x7d, \x7ba b\x7d \x7b7\x7d"
    let today := (Calendar.Date.ofParts? 2024 2 29).get (by decide)
    ∃ s p, start (single body) {} none = (single body, .ok s) ∧
      loadPrompt s.settings (single body) none "p" = .ok p ∧
      ∃ more others text, let line := formatLine none none "p" more ("a b=-1" :: others)
        (run (single body) {} today line).status = 0 ∧
          (run (single body) {} today line).output = [text] := by
  intro body today
  have hnormal : normalBody body = body := by cbv
  obtain ⟨s, hstart, hload⟩ := load_single (by decide) hnormal (by cbv)
  have htokens : Template.tokenize body = [.literal "Hi ", .field "" none, .literal ", ",
      .field "a b" none, .literal " ", .field "7" none] := by cbv
  have hlist : placeholders body = ["", "7", "a b"] := by
    rw [placeholders, htokens]
    decide
  have hmatched : IsMatched body := by simp [IsMatched, htokens]
  have hnames : ∀ name ∈ placeholders body, IsSuppliable name := by
    rw [hlist]
    decide
  obtain ⟨-, hsupplied, -⟩ := format_supplied hstart hload today
  obtain ⟨more, others, text, -, -, hstatus, houtput⟩ :=
    hsupplied hmatched hnames [] ["a b=-1"] (by decide)
  exact ⟨s, _, hstart, hload, more, others, text, hstatus, houtput⟩

theorem format_unsupplied_spaced :
    let body := "Hi \x7b x \x7d!"
    IsMatched body ∧ " x " ∈ placeholders body ∧
      (∀ positional, ¬Arguments.Binds { positional } (placeholders body) " x ") ∧
      (∀ argument value, binding? argument ≠ some (" x ", value)) ∧
      ∃ s p, start (single body) {} none = (single body, .ok s) ∧
        loadPrompt s.settings (single body) none "p" = .ok p ∧ p.body = body ∧
        ∀ today arguments r, Invocation.parse arguments = .ok ⟨none, .format r⟩ →
          r.file = "p" → r.mode = none → r.isPartial = false →
          (run (single body) {} today arguments).status = 1 := by
  intro body
  have hnormal : normalBody body = body := by cbv
  obtain ⟨s, hstart, hload⟩ := load_single (by decide) hnormal (by cbv)
  have htokens : Template.tokenize body =
      [.literal "Hi ", .field " x " none, .literal "!"] := by cbv
  have hname : " x " ∈ placeholders body := by
    rw [placeholders, htokens]
    decide
  have hnot : ¬IsSuppliable " x " := by decide
  have hnone := mt (isSuppliable_iff hname).mpr hnot
  rw [not_or] at hnone
  refine ⟨by simp [IsMatched, htokens], hname, fun positional h => hnone.1 ⟨positional, h⟩,
    fun argument value h => hnone.2 ⟨argument, value, h⟩, s, _, hstart, hload, rfl, ?_⟩
  intro today arguments r hparse hfile hmode hvalidated
  rw [← hfile, ← hmode] at hload
  exact (run_format_missing hparse hstart hload today hname hnot hvalidated).1

end PromptFiles.Command
