import PromptFiles.Prompt.Collection

/-!
# The advisory

What is logged while texts are parsed, is the advisory on those that call for it, and besides that
what does not depend on the flag which turns the advisory off: `warnings_parses` and `rest_parses`.
Files are parsed one after another, up to the first that fails (`filesEvents_eq`).
-/

namespace PromptFiles

open Log (Event)

-- ---------------------------------------------------------------------------
-- One text
-- ---------------------------------------------------------------------------

/-- The advisory is due for a text that is parsed in this mode. -/
def advised (settings : Settings) (mode : Mode) (text : String) : Bool :=
  mode == .ignore && settings.warnOnIgnored && !Text.allBlank text &&
    FrontMatter.startsWithDelimiter text

def otherEvents (mode : Mode) (id text : String) : List Event :=
  if Text.allBlank text then []
  else
    headerEvents mode text ++
      match parseContent mode id text with
      | .ok p => [.parsedPrompt id mode p.body.utf8ByteSize]
      | .error _ => []

theorem level_headerEvents (h : e ∈ headerEvents mode text) : e.level = .debug := by
  unfold headerEvents at h
  split at h
  · cases h
  · unfold FrontMatter.decodeEvents at h
    split at h
    · cases h
    · rcases List.mem_append.mp h with hdate | hdecoded
      · obtain ⟨⟨key, value⟩, -, hdate⟩ := List.mem_filterMap.mp hdate
        obtain ⟨-, hevent⟩ := Option.ite_none_right_eq_some.mp hdate
        cases hevent
        rfl
      · split at hdecoded
        · rw [List.mem_singleton.mp hdecoded]
          rfl
        · cases hdecoded
  · cases h

theorem level_otherEvents {id : String} (h : e ∈ otherEvents mode id text) : e.level = .debug := by
  unfold otherEvents at h
  split at h
  · cases h
  · rcases List.mem_append.mp h with hheader | hparsed
    · exact level_headerEvents hheader
    · split at hparsed
      · rw [List.mem_singleton.mp hparsed]
        rfl
      · cases hparsed

theorem parseEvents_eq (settings : Settings) (mode : Mode) (id text : String) :
    parseEvents settings mode id text =
      (if advised settings mode text then [.ignoredHeader id] else []) ++
        otherEvents mode id text := by
  cases hblank : Text.allBlank text with
  | true => simp [parseEvents, otherEvents, advised, hblank]
  | false =>
    have hadvised : advised settings mode text =
        (mode = .ignore && settings.warnOnIgnored && FrontMatter.startsWithDelimiter text) := by
      cases mode <;> simp [advised, hblank]
    cases hparsed : parseContent mode id text <;>
      simp [parseEvents, otherEvents, advisory, hblank, hadvised, hparsed]

-- ---------------------------------------------------------------------------
-- Many texts
-- ---------------------------------------------------------------------------

def parsesEvents (settings : Settings) (mode : Mode) (texts : List (String × String)) :
    List Event :=
  texts.flatMap fun e => parseEvents settings mode e.1 e.2

theorem warnings_parses (settings : Settings) (mode : Mode) (texts : List (String × String)) :
    (parsesEvents settings mode texts).filter (·.level == .warn) =
      (texts.filter fun e => advised settings mode e.2).map fun e => .ignoredHeader e.1 := by
  induction texts with
  | nil => rfl
  | cons e rest ih =>
    have hother : (otherEvents mode e.1 e.2).filter (·.level == .warn) = [] := by
      rw [List.filter_eq_nil_iff]
      intro event hevent
      rw [level_otherEvents hevent]
      decide
    rw [parsesEvents] at ih ⊢
    rw [List.flatMap_cons, List.filter_append, ih, parseEvents_eq, List.filter_append, hother,
      List.filter_cons]
    cases advised settings mode e.2 <;> rfl

theorem rest_parses (settings : Settings) (mode : Mode) (texts : List (String × String)) :
    (parsesEvents settings mode texts).filter (·.level != .warn) =
      texts.flatMap fun e => otherEvents mode e.1 e.2 := by
  induction texts with
  | nil => rfl
  | cons e rest ih =>
    have hother : (otherEvents mode e.1 e.2).filter (·.level != .warn) =
        otherEvents mode e.1 e.2 := by
      rw [List.filter_eq_self]
      intro event hevent
      rw [level_otherEvents hevent]
      decide
    rw [parsesEvents] at ih ⊢
    rw [List.flatMap_cons, List.filter_append, ih, parseEvents_eq, List.filter_append, hother,
      List.flatMap_cons]
    cases advised settings mode e.2 <;> rfl

-- ---------------------------------------------------------------------------
-- Sources
-- ---------------------------------------------------------------------------

def Source.text? (source : Source) (id : String) : Option String :=
  if source.holds id then (source.read id).toOption else none

def Source.texts (source : Source) (ids : List String) : List (String × String) :=
  ids.flatMap fun id => (source.text? id).toList.map (id, ·)

theorem Source.texts_cons (source : Source) (id : String) (rest : List String) :
    source.texts (id :: rest) = source.texts [id] ++ source.texts rest := by
  simp [texts]

theorem sourceEvents_eq (settings : Settings) (source : Source) (mode : Option Mode)
    (id : String) : sourceEvents settings source mode id =
      parsesEvents settings (settings.resolve mode) (source.texts [id]) := by
  rw [sourceEvents, Source.texts, List.flatMap_singleton, Source.text?]
  cases source.holds id with
  | false => rfl
  | true =>
    cases source.read id with
    | error fault => rfl
    | ok text => simp [parsesEvents, Except.toOption]

def opened (t : FileTree) (mode : Mode) : List String → List String
  | [] => []
  | file :: rest =>
    file :: if (loadPrompt {} t (some mode) file).isOk then opened t mode rest else []

theorem filesEvents_eq (settings : Settings) (t : FileTree) (mode : Option Mode)
    (files : List String) : filesEvents settings t mode files =
      parsesEvents settings (settings.resolve mode)
        ((t.source none).texts (opened t (settings.resolve mode) files)) := by
  induction files with
  | nil => rfl
  | cons file rest ih =>
    have hload : loadPrompt settings t mode file =
        loadPrompt {} t (some (settings.resolve mode)) file := rfl
    rw [filesEvents, sourceEvents_eq, ih, opened, Source.texts_cons, hload]
    cases loadPrompt {} t (some (settings.resolve mode)) file <;>
      simp [parsesEvents, Source.texts, Except.isOk, Except.toBool]

end PromptFiles
