import PromptFiles.Command.Run
import PromptFiles.Proofs.FrontMatter.Decoded

/-!
# Command lines that are written

`formatLine` writes down what a prompt is to be formatted with: each value after the equals sign of
its option, so it may start with a hyphen or be empty, and the file after two hyphens. Reading the
line gives back what was written (`parse_formatLine`), whatever the values are, as long as each
named one has a name.
-/

namespace PromptFiles.Command

open FrontMatter (bind_ok)

def attached (name text : String) : String :=
  "--" ++ name ++ "=" ++ text

-- ---------------------------------------------------------------------------
-- Items
-- ---------------------------------------------------------------------------

theorem cut_equals (h : '=' ∉ before) (after : List Char) :
    (before ++ '=' :: after).takeWhile (· != '=') = before ∧
      (before ++ '=' :: after).dropWhile (· != '=') = '=' :: after := by
  have hbefore : ∀ c ∈ before, (c != '=') = true := by
    intro c hc
    exact bne_iff_ne.mpr (ne_of_mem_of_not_mem hc h)
  simp [List.takeWhile_append_of_pos hbefore, List.dropWhile_append_of_pos hbefore]

theorem nameAndValue_attached (h : '=' ∉ name.toList) (text : String) :
    nameAndValue (name.toList ++ '=' :: text.toList) = (name, some text) := by
  obtain ⟨hname, hvalue⟩ := cut_equals h text.toList
  simp [nameAndValue, hname, hvalue]

theorem items_attached {form : Form} (hname : '=' ∉ name.toList)
    (hoption : form.option? name = some option) (text : String) (rest : List String) :
    items form false (attached name text :: rest) =
      (.value name text :: (items form false rest).1, (items form false rest).2) := by
  have hlist : (attached name text).toList = '-' :: '-' :: (name.toList ++ '=' :: text.toList) := by
    simp [attached]
  have hitem : longItem form (attached name text) (name.toList ++ '=' :: text.toList) rest =
      (.value name text, rest) := by
    simp only [longItem, nameAndValue_attached hname, hoption]
  rw [items, hlist]
  cases hcs : name.toList ++ '=' :: text.toList with
  | nil => simp at hcs
  | cons c cs =>
    rw [hcs] at hitem
    simp only [hitem]

theorem items_values {form : Form} (hname : '=' ∉ name.toList)
    (hoption : form.option? name = some option) (texts : List String) (rest : List String) :
    items form false (texts.map (attached name) ++ rest) =
      (texts.map (.value name) ++ (items form false rest).1, (items form false rest).2) := by
  induction texts with
  | nil => rfl
  | cons text texts ih =>
    simp only [List.map_cons, List.cons_append]
    rw [items_attached hname hoption, ih]

/-- A value may be the next argument too, unless that looks like an option. -/
theorem items_detached {form : Form} (hne : name ≠ "") (hname : '=' ∉ name.toList)
    (hoption : form.option? name = some option) (htext : isDashed text = false)
    (rest : List String) : items form false (("--" ++ name) :: text :: rest) =
      items form false (attached name text :: rest) := by
  have hlist : ("--" ++ name).toList = '-' :: '-' :: name.toList := by simp
  have hall : ∀ c ∈ name.toList, (c != '=') = true := by
    intro c hc
    exact bne_iff_ne.mpr (ne_of_mem_of_not_mem hc hname)
  have hnone : nameAndValue name.toList = (name, none) := by
    simp [nameAndValue, List.takeWhile_eq_self_iff.mpr hall, List.dropWhile_eq_nil_iff.mpr hall]
  have hitem : longItem form ("--" ++ name) name.toList (text :: rest) =
      (.value name text, rest) := by
    simp [longItem, hnone, hoption, htext]
  rw [items_attached hname hoption, items, hlist]
  cases hcs : name.toList with
  | nil => exact absurd (String.toList_eq_nil_iff.mp hcs) hne
  | cons c cs =>
    rw [hcs] at hitem
    simp only [hitem]

theorem items_operands (form : Form) (operands : List String) :
    items form false ("--" :: operands) = (operands.map .operand, []) := by
  rw [items]
  rfl

-- ---------------------------------------------------------------------------
-- Given
-- ---------------------------------------------------------------------------

namespace Given

theorem add_value {form : Form} {g : Given} (hoption : form.option? name = some option)
    (haccepts : option.kind.accepts text = true)
    (honce : option.mayRepeat = true ∨ g.value? name = none) :
    add form g (.value name text) = .ok { g with values := g.values ++ [(name, text)] } := by
  rcases honce with h | h <;> simp [add, addValue, hoption, haccepts, h]

theorem foldlM_values {form : Form} {g : Given} (hoption : form.option? name = some option)
    {texts : List String} (haccepts : ∀ text ∈ texts, option.kind.accepts text = true)
    (honce : option.mayRepeat = true ∨ texts.length ≤ 1 ∧ g.value? name = none)
    (rest : List Item) :
    (texts.map (Item.value name) ++ rest).foldlM (add form) g =
      rest.foldlM (add form) { g with values := g.values ++ texts.map (name, ·) } := by
  induction texts generalizing g with
  | nil => simp
  | cons text texts ih =>
    have hadd := add_value hoption (haccepts text (by simp)) (honce.imp_right And.right)
    rw [List.map_cons, List.cons_append, List.foldlM_cons, hadd]
    show (texts.map (Item.value name) ++ rest).foldlM (add form) _ = _
    -- Either there may be more values of this option, or this was its only one.
    rcases honce with hrepeat | ⟨hlength, -⟩
    · rw [ih (fun other h => haccepts other (by simp [h])) (.inl hrepeat)]
      simp
    · obtain rfl : texts = [] := by simpa using hlength
      rfl

theorem value?_eq_head? (g : Given) (option : String) :
    g.value? option = (g.valuesOf option).head? := by
  obtain ⟨_, values, _⟩ := g
  simp only [value?, valuesOf]
  induction values with
  | nil => rfl
  | cons p rest ih =>
    obtain ⟨name, text⟩ := p
    by_cases h : option = name
    · simp [h]
    · have hne : (name == option) = false := beq_eq_false_iff_ne.mpr (Ne.symm h)
      rw [List.lookup_cons, beq_eq_false_iff_ne.mpr h, List.filter_cons_of_neg (by simp [hne]), ih]

end Given

-- ---------------------------------------------------------------------------
-- Commands
-- ---------------------------------------------------------------------------

/-- A command line is understood if what stands before its command is, and then what follows. -/
theorem parse_eq_ok_iff : Invocation.parse arguments = .ok invocation ↔
    ∃ common name rest form action given,
      Given.ofItems commonForm (items commonForm true arguments).1 = .ok common ∧
      (items commonForm true arguments).2 = name :: rest ∧ command? name = some (form, action) ∧
      Given.ofItems form (items form false rest).1 = .ok given ∧
      invocation = ⟨given.value? "config" <|> common.value? "config", action given⟩ := by
  unfold Invocation.parse
  constructor
  · intro h
    obtain ⟨common, hcommon, h⟩ := bind_ok.mp h
    split at h
    · cases h
    · cases h
    · split at h
      · cases h
      · obtain ⟨given, hgiven, h⟩ := bind_ok.mp h
        cases h
        exact ⟨common, _, _, _, _, given, hcommon, ‹_›, ‹_›, hgiven, rfl⟩
  · rintro ⟨common, name, rest, form, action, given, hcommon, hrest, hcommand, hgiven, rfl⟩
    refine bind_ok.mpr ⟨common, hcommon, ?_⟩
    rw [hrest]
    split
    · rename_i hnil
      cases hnil
    · rename_i hhelp
      cases hhelp
      cases hcommand
    · rename_i hcons
      cases hcons
      simp only [hcommand]
      exact bind_ok.mpr ⟨given, hgiven, rfl⟩

theorem parse_format (h : Given.ofItems formatForm (items formatForm false rest).1 = .ok g) :
    Invocation.parse ("format" :: rest) = .ok ⟨g.value? "config", .format g.toFormat⟩ := by
  have hcommand : items commonForm true ("format" :: rest) = ([], "format" :: rest) := by
    rw [items]
    rfl
  have hnone : (Given.value? {} "config" : Option String) = none := rfl
  refine parse_eq_ok_iff.mpr ⟨{}, "format", rest, formatForm, fun g => .format g.toFormat, g,
    ?_, ?_, rfl, h, ?_⟩
  · rw [hcommand]
    rfl
  · rw [hcommand]
  · rw [hnone]
    cases g.value? "config" <;> rfl

-- ---------------------------------------------------------------------------
-- Lines
-- ---------------------------------------------------------------------------

theorem options_formatForm :
    formatForm.option? "config" = some configOption ∧
      formatForm.option? "meta" = some modeOption ∧
      formatForm.option? "arg" = some ⟨"arg", .text, true⟩ ∧
      formatForm.option? "var" = some ⟨"var", .binding, true⟩ :=
  ⟨rfl, rfl, rfl, rfl⟩

section
variable (config : Option String) (mode : Option Mode) (file : String)
  (positional named : List String)

def formatArguments : List String :=
  config.toList.map (attached "config") ++ ((mode.toList.map Mode.name).map (attached "meta") ++
    (positional.map (attached "arg") ++ (named.map (attached "var") ++ ["--", file])))

def formatLine : List String :=
  "format" :: formatArguments config mode file positional named

def detachedArguments (text : String) : List String :=
  config.toList.map (attached "config") ++ ((mode.toList.map Mode.name).map (attached "meta") ++
    ["--var", text, "--", file])

def detachedLine (text : String) : List String :=
  "format" :: detachedArguments config mode file text

def formatGiven : Given where
  values := config.toList.map ("config", ·) ++ (mode.toList.map Mode.name).map ("meta", ·) ++
    positional.map ("arg", ·) ++ named.map ("var", ·)
  operands := [file]

theorem items_formatArguments :
    items formatForm false (formatArguments config mode file positional named) =
      (config.toList.map (.value "config") ++ ((mode.toList.map Mode.name).map (.value "meta") ++
        (positional.map (.value "arg") ++ (named.map (.value "var") ++ [.operand file]))), []) := by
  obtain ⟨hconfig, hmode, harg, hvar⟩ := options_formatForm
  rw [formatArguments, items_values (by decide) hconfig, items_values (by decide) hmode,
    items_values (by decide) harg, items_values (by decide) hvar, items_operands]
  rfl

theorem items_detachedArguments (h : isDashed text = false) :
    items formatForm false (detachedArguments config mode file text) =
      items formatForm false (formatArguments config mode file [] [text]) := by
  obtain ⟨hconfig, hmode, -, hvar⟩ := options_formatForm
  have hvalue := items_detached (by decide) (by decide) hvar h ["--", file]
  simp only [detachedArguments, formatArguments, items_values (by decide) hconfig,
    items_values (by decide) hmode, List.map_cons, List.map_nil, List.nil_append, List.cons_append]
  rw [← hvalue]
  rfl

theorem valuesOf_formatGiven : let g := formatGiven config mode file positional named
    g.valuesOf "config" = config.toList ∧ g.valuesOf "meta" = mode.toList.map Mode.name ∧
      g.valuesOf "arg" = positional ∧ g.valuesOf "var" = named := by
  simp [Given.valuesOf, formatGiven, List.filter_map, Function.comp_def]

end

theorem parse?_name (mode : Mode) : Mode.parse? mode.name = some mode := by
  cases mode <;> decide +kernel

theorem toFormat_formatGiven (config : Option String) (mode : Option Mode) (file : String)
    (positional named : List String) :
    (formatGiven config mode file positional named).toFormat =
      { file, named := named.filterMap binding?, positional, isPartial := false, mode } := by
  obtain ⟨-, hmeta, harg, hvar⟩ := valuesOf_formatGiven config mode file positional named
  have hmode : (formatGiven config mode file positional named).mode? = mode := by
    rw [Given.mode?, Given.value?_eq_head?, hmeta]
    cases mode <;> simp [parse?_name]
  rw [Given.toFormat, hmode, harg, hvar]
  rfl

section
variable {config : Option String} {file : String} {named : List String} (hfile : file ≠ "")
  (hconfig : config ≠ some "") (hnamed : ∀ text ∈ named, (binding? text).isSome = true)
include hfile hconfig hnamed

theorem ofItems_formatArguments (mode : Option Mode) (positional : List String) :
    Given.ofItems formatForm
        (items formatForm false (formatArguments config mode file positional named)).1 =
      .ok (formatGiven config mode file positional named) := by
  have hpaths : ∀ text ∈ config.toList, ValueKind.path.accepts text = true := by
    simpa [ValueKind.accepts] using fun text h e => hconfig (h.trans (congrArg some e))
  have hmodes : ∀ text ∈ mode.toList.map Mode.name, ValueKind.mode.accepts text = true := by
    simp [ValueKind.accepts, parse?_name]
  have hoperand (values : List (String × String)) :
      Given.add formatForm { values } (.operand file) = .ok { values, operands := [file] } := by
    simp [Given.add, Given.addOperand, ValueKind.accepts, hfile, formatForm, form]
  obtain ⟨hconfig, hmode, harg, hvar⟩ := options_formatForm
  rw [Given.ofItems, items_formatArguments,
    Given.foldlM_values hconfig hpaths (.inr ⟨by simp, rfl⟩),
    Given.foldlM_values hmode hmodes (.inr ⟨by simp, ?_⟩),
    Given.foldlM_values harg (fun _ _ => rfl) (.inl rfl),
    Given.foldlM_values hvar hnamed (.inl rfl)]
  · rw [List.foldlM_cons, hoperand]
    rfl
  · cases config <;> rfl

theorem parse_of_items {mode : Option Mode} {positional : List String}
    (h : items formatForm false rest =
      items formatForm false (formatArguments config mode file positional named)) :
    Invocation.parse ("format" :: rest) = .ok ⟨config, .format
      { file, named := named.filterMap binding?, positional, isPartial := false, mode }⟩ := by
  have hvalue : (formatGiven config mode file positional named).value? "config" = config := by
    rw [Given.value?_eq_head?, (valuesOf_formatGiven config mode file positional named).1]
    cases config <;> rfl
  have hgiven := ofItems_formatArguments hfile hconfig hnamed mode positional
  rw [← h] at hgiven
  rw [parse_format hgiven, hvalue, toFormat_formatGiven]

theorem parse_formatLine (mode : Option Mode) (positional : List String) :
    Invocation.parse (formatLine config mode file positional named) = .ok ⟨config, .format
      { file, named := named.filterMap binding?, positional, isPartial := false, mode }⟩ :=
  parse_of_items hfile hconfig hnamed rfl

/-- A value with a hyphen, and a name with no value. -/
example : formatLine none (some .ignore) "p" ["-1"] ["a="] =
    ["format", "--meta=ignore", "--arg=-1", "--var=a=", "--", "p"] := by
  decide

end

theorem parse_detachedLine {config : Option String} {file : String} (hfile : file ≠ "")
    (hconfig : config ≠ some "") (hbinding : binding? text = some (name, value))
    (htext : isDashed text = false) (mode : Option Mode) :
    Invocation.parse (detachedLine config mode file text) =
      .ok ⟨config, .format { file, named := [(name, value)], mode }⟩ := by
  have hnamed : ∀ other ∈ [text], (binding? other).isSome = true := by simp [hbinding]
  have hlist : [text].filterMap binding? = [(name, value)] := by simp [hbinding]
  rw [detachedLine, parse_of_items hfile hconfig hnamed
    (items_detachedArguments config mode file htext), hlist]

/-- However a command line asks to format a prompt, its named values are read by `binding?`. -/
theorem exists_toFormat (h : Invocation.parse arguments = .ok ⟨config, .format r⟩) :
    ∃ g : Given, r = g.toFormat := by
  obtain ⟨_, _, _, _, action, given, -, -, hcommand, -, h⟩ := parse_eq_ok_iff.mp h
  have haction : .format r = action given := congrArg Invocation.action h
  unfold command? at hcommand
  split at hcommand <;> cases hcommand <;> cases haction
  exact ⟨given, rfl⟩

end PromptFiles.Command
