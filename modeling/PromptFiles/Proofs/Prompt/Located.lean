import Mathlib.Data.List.Basic
import PromptFiles.Proofs.FileTree.Written
import PromptFiles.Proofs.Prompt.Parsed

/-!
# Prompts from sources

A text that a source holds is parsed as the text alone would be, and the outcome names the id
that was asked for: `parseSource_eq`. A text alone that has no name goes under one of its own,
and a source does not know that name. So what the two give differs for the empty id, and for no
other: `located_parseText_iff`.
-/

namespace PromptFiles

open FileTree (pathOf)

-- ---------------------------------------------------------------------------
-- Outcomes and their ids
-- ---------------------------------------------------------------------------

def PromptError.located (id : String) : PromptError → PromptError
  | emptyContent _ => emptyContent id
  | malformedHeader _ => malformedHeader id
  | invalidMetadata _ cause => invalidMetadata id cause
  | missingMetadata _ => missingMetadata id
  | e => e

def PromptError.id? : PromptError → Option String
  | emptyContent id | malformedHeader id | invalidMetadata id _ | missingMetadata id => some id
  | _ => none

def located (id : String) : Except PromptError Prompt → Except PromptError Prompt
  | .ok p => .ok { p with path := id }
  | .error e => .error (e.located id)

/-- The id that the outcome of a parse names. -/
def locationOf : Except PromptError Prompt → Option String
  | .ok p => some p.path
  | .error e => e.id?

theorem readParts_located (mode : Mode) (id other text : String) :
    readParts mode id text = (readParts mode other text).mapError (·.located id) := by
  by_cases hmode : mode = .ignore
  · rw [hmode]
    rfl
  · cases hs : FrontMatter.split text with
    | error e => cases mode <;> simp [readParts, hs, Except.mapError, PromptError.located]
    | ok cut =>
      obtain ⟨_ | header, body⟩ := cut
      · cases mode <;> simp [readParts, hs, Except.mapError, PromptError.located]
      · rw [readParts_header hmode hs, readParts_header hmode hs]
        cases FrontMatter.decode mode header <;> rfl

theorem id?_readParts {id : String} (h : readParts mode id text = .error e) : e.id? = some id := by
  unfold readParts at h
  split at h
  · cases h
  all_goals
    split at h
    · cases h
      rfl
    · split at h
      · cases h
        rfl
      · cases h
    · split at h
      · cases h
      · cases h
        rfl

theorem create_located (id other : String) (m : Metadata) (body : String) :
    Prompt.create id m body = located id (Prompt.create other m body) := by
  unfold Prompt.create Prompt.ofParts?
  by_cases h : Text.allBlank body = false <;> simp [h, located, PromptError.located]

/-- The id counts for the title and in what the outcome names, and nowhere else. -/
theorem parseContent_located {id other : String} (htitle : fallbackTitle id = fallbackTitle other)
    (mode : Mode) (text : String) :
    parseContent mode id text = located id (parseContent mode other text) := by
  unfold parseContent
  split
  · rfl
  · rw [readParts_located mode id other]
    cases readParts mode other text with
    | error e => rfl
    | ok parts =>
      have htitled : parts.1.titled id = parts.1.titled other := by
        rw [Metadata.titled, htitle, Metadata.titled]
      show Prompt.create id (parts.1.titled id) _ = located id (Prompt.create other _ _)
      rw [htitled]
      exact create_located id other _ _

theorem locationOf_create {id : String} (m : Metadata) (body : String) :
    locationOf (Prompt.create id m body) = some id := by
  by_cases h : Text.allBlank body = false
  · rw [create_ok h]
    rfl
  · rw [Prompt.create, Prompt.ofParts?, dif_neg h]
    rfl

theorem locationOf_parseContent (mode : Mode) (id text : String) :
    locationOf (parseContent mode id text) = some id := by
  unfold parseContent
  split
  · rfl
  · split
    · exact locationOf_create _ _
    · rename_i hread
      exact id?_readParts hread

-- ---------------------------------------------------------------------------
-- Texts without a name
-- ---------------------------------------------------------------------------

theorem parseContent_eq_parseText (settings : Settings) (mode : Option Mode) (id text : String) :
    parseContent (settings.resolve mode) id text = located id (parseText settings mode id text) :=
  parseContent_located (fallbackTitle_namedSource id).symm _ text

theorem located_parseText_iff (settings : Settings) (mode : Option Mode) (id text : String) :
    located id (parseText settings mode id text) = parseText settings mode id text ↔ id ≠ "" := by
  rw [← parseContent_eq_parseText, parseText]
  constructor
  · rintro h rfl
    have hid := congrArg locationOf h
    rw [locationOf_parseContent, locationOf_parseContent] at hid
    exact absurd hid (by decide)
  · intro h
    rw [namedSource, if_neg h]

-- ---------------------------------------------------------------------------
-- Sources
-- ---------------------------------------------------------------------------

namespace Memory

def insertAll (m : Memory) (entries : List (String × String)) : Memory :=
  entries.foldl (fun m e => m.insert e.1 e.2) m

def latest? (id : String) (entries : List (String × String)) : Option String :=
  ((entries.filter (·.1 == id)).getLast?).map Prod.snd

theorem text?_insert (m : Memory) (id other text : String) :
    (m.insert id text).text? other = if other = id then some text else m.text? other :=
  NameMap.find?_insert id other text m.texts

theorem text?_insertAll (m : Memory) (entries : List (String × String)) (id : String) :
    (m.insertAll entries).text? id = (latest? id entries).or (m.text? id) := by
  induction entries generalizing m with
  | nil => rfl
  | cons e rest ih =>
    show ((m.insert e.1 e.2).insertAll rest).text? id = _
    rw [ih, text?_insert]
    by_cases he : e.1 = id
    · cases hlast : (rest.filter (·.1 == id)).getLast? <;>
        simp [latest?, List.getLast?_cons, he, hlast]
    · simp [latest?, he, Ne.symm he]

end Memory

/-- What a source has under an id: in memory the last text that came with it, and of files the
text of the one that the id leads to. -/
inductive Gives (id : String) : Source → Option String → Prop where
  | memory (entries : List (String × String)) :
      Gives id (Memory.insertAll {} entries).source (Memory.latest? id entries)
  | file {t : FileTree} {root : Option String} {text : String} :
      t.target? (pathOf root id) = some (.file text.toUTF8) → Gives id (t.source root) (some text)
  | noFile {t : FileTree} {root : Option String} :
      (∀ bytes, t.target? (pathOf root id) ≠ some (.file bytes)) → Gives id (t.source root) none

theorem Gives.read_eq {id : String} (h : Gives id source (some text)) :
    source.holds id = true ∧ source.read id = .ok text := by
  generalize hheld : some text = held at h
  cases h with
  | memory entries =>
    have htext : (Memory.insertAll {} entries).text? id = some text := by
      rw [Memory.text?_insertAll, ← hheld, Option.some_or]
    exact ⟨by simp [Memory.source, htext], by simp [Memory.source, htext]⟩
  | file h =>
    cases hheld
    exact ⟨FileTree.isFile_iff.mpr ⟨_, h⟩, FileTree.readText_of_target h⟩
  | noFile => cases hheld

theorem Gives.holds_eq_false {id : String} (h : Gives id source none) : source.holds id = false := by
  generalize hheld : none = held at h
  cases h with
  | memory entries =>
    have htext : (Memory.insertAll {} entries).text? id = none := by
      rw [Memory.text?_insertAll, ← hheld]
      rfl
    simp [Memory.source, htext]
  | file => cases hheld
  | noFile h =>
    refine Bool.eq_false_iff.mpr fun hfile => ?_
    obtain ⟨bytes, hbytes⟩ := FileTree.isFile_iff.mp hfile
    exact h bytes hbytes

theorem parseSource_of_gives {id : String} (h : Gives id source (some text)) (settings : Settings)
    (mode : Option Mode) :
    parseSource settings source mode id = parseContent (settings.resolve mode) id text := by
  obtain ⟨hholds, hread⟩ := h.read_eq
  rw [parseSource, hholds, hread]
  rfl

theorem parseSource_eq {id : String} (h : Gives id source (some text)) (settings : Settings)
    (mode : Option Mode) :
    parseSource settings source mode id = located id (parseText settings mode id text) :=
  (parseSource_of_gives h settings mode).trans (parseContent_eq_parseText settings mode id text)

theorem loadPrompt_eq {path : String} (h : t.target? path = some (.file text.toUTF8))
    (settings : Settings) (mode : Option Mode) :
    loadPrompt settings t mode path = parseContent (settings.resolve mode) path text :=
  parseSource_of_gives (.file h) settings mode

/-- Under an id that is not empty a source gives what the text alone gives. Under the empty id the
two differ in what they call the prompt, and in nothing else. An id that the source does not know
is refused by name. -/
theorem parseSource_agrees {id : String} (h : Gives id source held) (settings : Settings)
    (mode : Option Mode) :
    (∀ text, held = some text →
      parseSource settings source mode id = located id (parseText settings mode id text) ∧
      (parseSource settings source mode id = parseText settings mode id text ↔ id ≠ "")) ∧
    (held = none → parseSource settings source mode id = .error (.sourceMissing id)) := by
  constructor
  · rintro text rfl
    rw [parseSource_eq h]
    exact ⟨rfl, located_parseText_iff settings mode id text⟩
  · rintro rfl
    rw [parseSource, h.holds_eq_false]
    rfl

theorem parseSource_agrees_held :
    (Gives "a" (Memory.insertAll {} [("a", " "), ("", "x"), ("a", "Hi")]).source (some "Hi") ∧
      parseSource {} (Memory.insertAll {} [("a", " "), ("", "x"), ("a", "Hi")]).source none "a" =
        parseText {} none "a" "Hi") ∧
    Gives "a" (((FileTree.empty ["w"]).put ["w", "a"] (.file "Hi".toUTF8)).source (some "/w"))
        (some "Hi") ∧
      parseSource {} (((FileTree.empty ["w"]).put ["w", "a"] (.file "Hi".toUTF8)).source
        (some "/w")) none "a" = parseText {} none "a" "Hi" := by
  have hmemory := @Gives.memory "a" [("a", " "), ("", "x"), ("a", "Hi")]
  have hfile : Gives "a"
      (((FileTree.empty ["w"]).put ["w", "a"] (.file "Hi".toUTF8)).source (some "/w"))
      (some "Hi") := .file (by cbv)
  exact ⟨⟨hmemory, ((parseSource_agrees hmemory {} none).1 "Hi" (by decide)).2.mpr (by decide)⟩,
    hfile, ((parseSource_agrees hfile {} none).1 "Hi" rfl).2.mpr (by decide)⟩

theorem parseSource_ne_parseText_unnamed :
    Gives "" (Memory.insertAll {} [("", "Hi")]).source (some "Hi") ∧
      locationOf (parseSource {} (Memory.insertAll {} [("", "Hi")]).source none "") = some "" ∧
      locationOf (parseText {} none "" "Hi") = some "<inline>" ∧
      parseSource {} (Memory.insertAll {} [("", "Hi")]).source none "" ≠
        parseText {} none "" "Hi" := by
  have hsource : locationOf (parseSource {} (Memory.insertAll {} [("", "Hi")]).source none "") =
      some "" := by cbv
  have htext : locationOf (parseText {} none "" "Hi") = some "<inline>" := by cbv
  refine ⟨.memory [("", "Hi")], hsource, htext, fun h => ?_⟩
  rw [h, htext] at hsource
  exact absurd hsource (by decide)

end PromptFiles
