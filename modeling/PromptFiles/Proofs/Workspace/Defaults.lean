import Mathlib
import PromptFiles.Proofs.Config.Loaded
import PromptFiles.Proofs.Prompt.Advisory
import PromptFiles.Workspace.Log

/-!
# Default settings over a run

The settings after a run are those that the last steps which set them asked for: `settings_run`.
A parse leaves them alone, and it depends on them only through the mode in effect
(`reply_query`), while the flag decides on the advisory and on nothing else (`events_query`). So
the steps that change the settings can be left out of a run that only parses with explicit modes
(`run_filter`).
-/

namespace PromptFiles.Workspace

open Log (Event)

-- ---------------------------------------------------------------------------
-- Steps that set the defaults
-- ---------------------------------------------------------------------------

def Step.setsDefaults : Step → Bool
  | .setMode _ | .setModeText _ | .skipMetadata | .setWarning _ | .configure _ _ => true
  | _ => false

def withDefaults (w : Workspace) (settings : Settings) (options : LoadOptions) : Workspace :=
  { w with settings, options }

theorem below_withDefaults (w : Workspace) (path : String)
    (change : FileTree → Except FileTree.Fault FileTree) (settings : Settings)
    (options : LoadOptions) :
    ((w.withDefaults settings options).below path change).1 =
      (w.below path change).1.withDefaults settings options := by
  simp only [below, withDefaults]
  split
  · rename_i tree _
    cases change tree <;> simp [withTree]
  · rfl

/-- The other steps do the same under any defaults, and leave them as they are. -/
theorem step_withDefaults (hs : s.setsDefaults = false) (w : Workspace) (settings : Settings)
    (options : LoadOptions) :
    ((w.withDefaults settings options).step s).1 = (w.step s).1.withDefaults settings options := by
  cases s with
  | write path bytes => exact below_withDefaults w path _ settings options
  | makeLink target path => exact below_withDefaults w path _ settings options
  | makeDirectory path =>
    simp only [step, withDefaults]
    split <;> rfl
  | setMode | setModeText | skipMetadata | setWarning | configure => cases hs
  | _ => rfl

theorem step_setsDefaults (hs : s.setsDefaults = true) (w : Workspace) :
    ∃ settings options, (w.step s).1 = w.withDefaults settings options := by
  cases s with
  | setModeText text =>
    simp only [step]
    split
    · exact ⟨_, w.options, rfl⟩
    · exact ⟨w.settings, w.options, rfl⟩
  | configure path inForce =>
    simp only [step]
    split
    · cases inForce with
      | false => exact ⟨w.settings, w.options, rfl⟩
      | true => exact ⟨_, _, rfl⟩
    · exact ⟨w.settings, w.options, rfl⟩
  | setMode | skipMetadata | setWarning => exact ⟨_, w.options, rfl⟩
  | _ => cases hs

/-- Without the steps that set the defaults a run comes to the same but for the defaults. -/
theorem run_filter (w : Workspace) (settings : Settings) (options : LoadOptions)
    (steps : List Step) : ∃ settings' options',
      (w.run steps).1 =
        ((w.withDefaults settings options).run (steps.filter (!·.setsDefaults))).1.withDefaults
          settings' options' := by
  induction steps generalizing w settings options with
  | nil => exact ⟨w.settings, w.options, rfl⟩
  | cons s rest ih =>
    cases hs : s.setsDefaults with
    | true =>
      obtain ⟨settings', options', hstep⟩ := step_setsDefaults hs w
      have hrun : (w.run (s :: rest)).1 = ((w.step s).1.run rest).1 := rfl
      rw [List.filter_cons_of_neg (by simp [hs]), hrun, hstep]
      exact ih (w.withDefaults settings' options') settings options
    | false =>
      have hrun : (w.run (s :: rest)).1 = ((w.step s).1.run rest).1 := rfl
      obtain ⟨settings', options', h⟩ := ih (w.step s).1 settings options
      rw [← step_withDefaults hs] at h
      refine ⟨settings', options', ?_⟩
      rw [List.filter_cons_of_pos (by simp [hs]), hrun, h]
      rfl

-- ---------------------------------------------------------------------------
-- What is asked for
-- ---------------------------------------------------------------------------

/-- The default mode that a step asks for, none if it fails or asks for no mode. -/
def modeAsked (w : Workspace) : Step → Option Mode
  | .setMode mode => some mode
  | .setModeText text => Mode.parse? text
  | .skipMetadata => some .ignore
  | .configure path true => (Config.load w.tree w.environment path).toOption.bind (·.metadata.mode)
  | _ => none

def warningAsked (w : Workspace) : Step → Option Bool
  | .setWarning warnOnIgnored => some warnOnIgnored
  | .configure path true =>
    (Config.load w.tree w.environment path).toOption.map (·.metadata.warnOnIgnored)
  | _ => none

def history (w : Workspace) : List Step → List (Workspace × Step)
  | [] => []
  | s :: rest => (w, s) :: (w.step s).1.history rest

/-- The last of what the steps of a run ask for. -/
def lastAsked (w : Workspace) (asked : Workspace → Step → Option α) (steps : List Step) :
    Option α :=
  ((w.history steps).filterMap fun e => asked e.1 e.2).getLast?

theorem settings_step (w : Workspace) (s : Step) :
    (w.step s).1.settings = ⟨(w.modeAsked s).getD w.settings.mode,
      (w.warningAsked s).getD w.settings.warnOnIgnored⟩ := by
  cases hs : s.setsDefaults with
  | false =>
    have hkept : (w.step s).1.settings = w.settings := by
      rw [show w.step s = (w.withDefaults w.settings w.options).step s from rfl,
        step_withDefaults hs]
      rfl
    rw [hkept]
    cases s <;> first | rfl | cases hs
  | true =>
    cases s with
    | setMode | skipMetadata | setWarning => rfl
    | setModeText text =>
      simp only [step, Settings.withModeText?, modeAsked]
      cases Mode.parse? text <;> rfl
    | configure path inForce =>
      simp only [step]
      cases inForce with
      | false => cases Config.load w.tree w.environment path <;> rfl
      | true =>
        simp only [modeAsked, warningAsked]
        cases Config.load w.tree w.environment path <;> rfl
    | _ => cases hs

/-- A value that each step keeps, or replaces by what it asks for. -/
theorem run_lastAsked (get : Workspace → α) (asked : Workspace → Step → Option α)
    (hstep : ∀ w s, get (w.step s).1 = (asked w s).getD (get w)) (w : Workspace)
    (steps : List Step) :
    get (w.run steps).1 = (w.lastAsked asked steps).getD (get w) := by
  induction steps generalizing w with
  | nil => rfl
  | cons s rest ih =>
    show get ((w.step s).1.run rest).1 = _
    rw [ih, hstep, lastAsked, lastAsked, history, List.filterMap_cons]
    cases asked w s with
    | none => rfl
    | some a => rw [List.getLast?_cons, Option.getD_some, Option.getD_some]

def Reply.isFailure : Reply → Bool
  | .invalidMode _ | .fault _ | .promptError _ | .configError _ => true
  | _ => false

theorem asked_of_failure {w : Workspace} (h : (w.step s).2.isFailure = true) :
    w.modeAsked s = none ∧ w.warningAsked s = none := by
  cases s with
  | setModeText text =>
    simp only [step, Settings.withModeText?, modeAsked] at h ⊢
    cases hmode : Mode.parse? text with
    | none => exact ⟨rfl, rfl⟩
    | some mode =>
      rw [hmode] at h
      cases h
  | configure path inForce =>
    cases inForce with
    | false => exact ⟨rfl, rfl⟩
    | true =>
      simp only [step, modeAsked, warningAsked] at h ⊢
      cases hload : Config.load w.tree w.environment path with
      | error e => exact ⟨rfl, rfl⟩
      | ok c =>
        rw [hload] at h
        cases h
  | setMode | skipMetadata | setWarning => cases h
  | _ => exact ⟨rfl, rfl⟩

-- ---------------------------------------------------------------------------
-- Parses
-- ---------------------------------------------------------------------------

/-- What can be parsed, in an explicit mode or in the default one. -/
inductive Query where
  | text (id content : String)
  | kept (id : String)
  | file (root : Option String) (id : String)
  | files (options : LoadOptions) (paths : List String)

namespace Query

def step : Query → Option Mode → Step
  | .text id content, mode => .parse mode id content
  | .kept id, mode => .parseKept mode id
  | .file root id, mode => .load root mode id
  | .files options paths, mode => .loadAll { options with mode } paths

def texts (q : Query) (w : Workspace) (mode : Mode) : List (String × String) :=
  match q with
  | .text id content => [(namedSource id, content)]
  | .kept id => w.memory.source.texts [id]
  | .file root id => (w.tree.source root).texts [id]
  | .files options paths =>
    match collect w.tree options paths with
    | .ok found => (w.tree.source none).texts (opened w.tree mode found)
    | .error _ => []

def loadedEvents (q : Query) (w : Workspace) (mode : Mode) : List Event :=
  match q with
  | .files options paths =>
    match loadPrompts {} w.tree { options with mode := some mode } paths with
    | .ok ps => [.loadedPrompts ps.length]
    | .error _ => []
  | _ => []

end Query

theorem collect_mode (t : FileTree) (options : LoadOptions) (mode : Option Mode)
    (paths : List String) : collect t { options with mode } paths = collect t options paths := by
  have hafter (pattern : Glob.Pattern) (found : List String) :
      collectAfter t pattern { options with mode } found paths =
        collectAfter t pattern options found paths := by
    induction paths generalizing found with
    | nil => rfl
    | cons path rest ih => simp only [collectAfter, ih]
  simp only [collect, hafter]

theorem loadPrompts_mode (settings : Settings) (t : FileTree) (options : LoadOptions)
    (mode : Option Mode) (paths : List String) :
    loadPrompts settings t { options with mode } paths =
      loadPrompts {} t { options with mode := some (settings.resolve mode) } paths := by
  simp only [loadPrompts, collect_mode]
  rfl

/-- The reply to a parse rests with what there is to parse and with the mode in effect. -/
theorem reply_query {w w' : Workspace} {mode mode' : Option Mode} (q : Query)
    (htree : w.tree = w'.tree) (hmemory : w.memory = w'.memory)
    (hmode : w.settings.resolve mode = w'.settings.resolve mode') :
    (w.step (q.step mode)).2 = (w'.step (q.step mode')).2 := by
  cases q with
  | text id text => simp only [Query.step, step, parseText, hmode]
  | kept id => simp only [Query.step, step, parseSource, hmemory, hmode]
  | file root id => simp only [Query.step, step, parseSource, htree, hmode]
  | files options paths =>
    have hload : loadPrompts w.settings w.tree { options with mode } paths =
        loadPrompts w'.settings w'.tree { options with mode := mode' } paths := by
      rw [loadPrompts_mode, htree, hmode, ← loadPrompts_mode]
    simp only [Query.step, step, hload]

theorem step_query (w : Workspace) (q : Query) (mode : Option Mode) :
    (w.step (q.step mode)).1 = w := by
  cases q <;> rfl

theorem events_query (w : Workspace) (q : Query) (mode : Option Mode) :
    w.events (q.step mode) =
      parsesEvents w.settings (w.settings.resolve mode) (q.texts w (w.settings.resolve mode)) ++
        q.loadedEvents w (w.settings.resolve mode) := by
  cases q with
  | text id text => simp [Query.step, events, Query.texts, Query.loadedEvents, parsesEvents]
  | kept id | file root id =>
    simp [Query.step, events, Query.texts, Query.loadedEvents, sourceEvents_eq]
  | files options paths =>
    simp only [Query.step, events, loadedEvents, Query.texts, Query.loadedEvents, collect_mode,
      filesEvents_eq]
    rw [loadPrompts_mode w.settings]
    cases hcollect : collect w.tree options paths with
    | ok files => rfl
    | error e =>
      have hload (mode : Option Mode) :
          loadPrompts {} w.tree { options with mode } paths = .error e := by
        simp only [loadPrompts, collect_mode, hcollect]
        rfl
      rw [hload]
      rfl

theorem level_loadedEvents {q : Query} {w : Workspace} (h : e ∈ q.loadedEvents w mode) :
    e.level = .debug := by
  cases q with
  | files options paths =>
    simp only [Query.loadedEvents] at h
    split at h
    · rw [List.mem_singleton.mp h]
      rfl
    · cases h
  | _ => cases h

theorem warnings_query (w : Workspace) (q : Query) (mode : Option Mode) :
    (w.events (q.step mode)).filter (·.level == .warn) =
      ((q.texts w (w.settings.resolve mode)).filter fun e =>
        advised w.settings (w.settings.resolve mode) e.2).map fun e => .ignoredHeader e.1 := by
  have hloaded : (q.loadedEvents w (w.settings.resolve mode)).filter (·.level == .warn) = [] := by
    rw [List.filter_eq_nil_iff]
    intro e he
    rw [level_loadedEvents he]
    decide
  rw [events_query, List.filter_append, warnings_parses, hloaded, List.append_nil]

theorem rest_query (w : Workspace) (q : Query) (mode : Option Mode) :
    (w.events (q.step mode)).filter (·.level != .warn) =
      (q.texts w (w.settings.resolve mode)).flatMap
          (fun e => otherEvents (w.settings.resolve mode) e.1 e.2) ++
        q.loadedEvents w (w.settings.resolve mode) := by
  have hloaded : (q.loadedEvents w (w.settings.resolve mode)).filter (·.level != .warn) =
      q.loadedEvents w (w.settings.resolve mode) := by
    rw [List.filter_eq_self]
    intro e he
    rw [level_loadedEvents he]
    decide
  rw [events_query, List.filter_append, rest_parses, hloaded]

-- ---------------------------------------------------------------------------
-- Runs
-- ---------------------------------------------------------------------------

/-- The settings after any run, from any workspace. The default mode is the last that was asked
for and the flag the last that was, where a configuration asks for a mode only if its file does,
and asks for the advisory if its file says nothing of it. What fails changes neither, and no parse
does. A parse with an explicit mode does not depend on the settings at all, nor on the steps that
set them before; one without is that with the default mode. The flag makes no difference but for
the advisory, which is given once for every text that it is due for. -/
theorem settings_run (w : Workspace) (steps : List Step) :
    (w.run steps).1.settings =
        ⟨(w.lastAsked modeAsked steps).getD w.settings.mode,
          (w.lastAsked warningAsked steps).getD w.settings.warnOnIgnored⟩ ∧
      (∀ modeText, (Settings.initial modeText).warnOnIgnored = true) ∧
      (∀ s, (w.step s).2.isFailure = true → (w.step s).1.settings = w.settings) ∧
      (∀ path inForce e, Config.load w.tree w.environment path = .error e →
        w.step (.configure path inForce) = (w, .configError e)) ∧
      (∀ path c, Config.load w.tree w.environment path = .ok c →
        ∃ source f, Config.Found w.tree w.environment path source f ∧ f.version = 1 ∧
          c.metadata = f.metadata) ∧
      (∀ text f, Config.parse? text = some f →
        Config.ReadAs (Config.metadataMember? text "mode" 0) (fun n => (Config.mode? n).map some)
            none f.metadata.mode ∧
          Config.ReadAs (Config.metadataMember? text "warn_on_ignored" 1) Config.boolean? true
            f.metadata.warnOnIgnored) ∧
      ∀ q : Query,
        (∀ mode, (w.step (q.step mode)).1 = w) ∧
        (∀ mode settings, ({ w with settings }.step (q.step (some mode))).2 =
          (w.step (q.step (some mode))).2) ∧
        (∀ mode, ((w.run steps).1.step (q.step (some mode))).2 =
          ((w.run (steps.filter (!·.setsDefaults))).1.step (q.step (some mode))).2) ∧
        w.step (q.step none) = w.step (q.step (some w.settings.mode)) ∧
        w.events (q.step none) = w.events (q.step (some w.settings.mode)) ∧
        ∀ mode,
          (∀ flag, let w' := { w with settings := w.settings.withWarning flag }
            (w'.step (q.step mode)).2 = (w.step (q.step mode)).2 ∧
              (w'.events (q.step mode)).filter (·.level != .warn) =
                (w.events (q.step mode)).filter (·.level != .warn)) ∧
          let inEffect := w.settings.resolve mode
          (w.events (q.step mode)).filter (·.level == .warn) =
            ((q.texts w inEffect).filter fun e => advised w.settings inEffect e.2).map
              fun e => .ignoredHeader e.1 := by
  refine ⟨?_, fun _ => rfl, fun s h => ?_, fun path inForce e h => ?_, fun path c h => ?_,
    fun text f h => Config.parse?_metadata h, fun q => ⟨step_query w q, fun mode settings => ?_,
      fun mode => ?_, ?_, ?_, fun mode => ⟨fun flag => ⟨?_, ?_⟩, ?_⟩⟩⟩
  · have hmode := run_lastAsked (·.settings.mode) modeAsked
      (fun w s => congrArg Settings.mode (settings_step w s)) w steps
    have hwarning := run_lastAsked (·.settings.warnOnIgnored) warningAsked
      (fun w s => congrArg Settings.warnOnIgnored (settings_step w s)) w steps
    rw [← hmode, ← hwarning]
  · obtain ⟨hmode, hwarning⟩ := asked_of_failure h
    rw [settings_step, hmode, hwarning]
    rfl
  · simp only [step, h]
  · obtain ⟨source, f, hfound, hfile⟩ := Config.load_eq_ok_iff.mp h
    obtain ⟨hversion, -, hmetadata, -⟩ := Config.ofFile_eq_ok hfile
    exact ⟨source, f, hfound, hversion, hmetadata⟩
  · exact reply_query q rfl rfl rfl
  · obtain ⟨settings, options, hrun⟩ := run_filter w w.settings w.options steps
    rw [hrun]
    exact reply_query q rfl rfl rfl
  · exact Prod.ext ((step_query w q _).trans (step_query w q _).symm) (reply_query q rfl rfl rfl)
  · rw [events_query, events_query]
    rfl
  · exact reply_query q rfl rfl rfl
  · rw [rest_query, rest_query]
    rfl
  · exact warnings_query w q mode

theorem settings_run_configured :
    let config := "version = 1\n[metadata]\nwarn_on_ignored = true\n"
    let tree := (FileTree.empty ["w"]).put ["w", "c"] (.file config.toUTF8)
    let w : Workspace := { tree }
    let steps : List Step := [.setWarning false, .setModeText " IGNORE ",
      .configure (some "c") true, .configure (some "d") true, .setModeText "none"]
    (w.run steps).1.settings = ⟨.ignore, true⟩ ∧
      ((w.run steps).1.step (.setModeText "none")).2.isFailure = true ∧
      ((w.run steps).1.step (.setModeText "none")).1.settings = ⟨.ignore, true⟩ ∧
      ((w.run steps).1.events (.parse none "a" "---\nHi")).filter (·.level == .warn) =
        [.ignoredHeader "a"] := by
  intro config tree
  have hload : Config.load tree {} (some "c") = .ok ⟨some "c", {}, {}, {}⟩ := by
    have hthere : tree.exists? "c" = true := by cbv
    have hread : tree.readText "c" = .ok config := by cbv
    have hparse : Config.parse? config = some {} := by decide +kernel
    exact Config.load_eq_ok_iff.mpr ⟨some "c", {}, .file rfl hthere hread hparse, rfl⟩
  have hmissing : Config.load tree {} (some "d") = .error (.notFound "d") := by
    have hthere : tree.exists? "d" = false := by cbv
    simp [Config.load, hthere]
  clear_value tree
  intro w steps
  obtain ⟨hsettings, -⟩ := settings_run w steps
  have hignore : Mode.parse? " IGNORE " = some .ignore := by decide +kernel
  have hnone : Mode.parse? "none" = none := by decide +kernel
  have hafter : (w.run steps).1.settings = ⟨.ignore, true⟩ := by
    rw [hsettings]
    simp [w, steps, lastAsked, history, step, withSettings, withConfig, Settings.withModeText?,
      modeAsked, warningAsked, hload, hmissing, hignore, hnone, Except.toOption]
  obtain ⟨-, -, hfailed, -, -, -, hquery⟩ := settings_run (w.run steps).1 []
  obtain ⟨-, -, -, -, -, hlogged⟩ := hquery (.text "a" "---\nHi")
  have hfailure : ((w.run steps).1.step (.setModeText "none")).2.isFailure = true := by
    simp [step, Settings.withModeText?, hnone, Reply.isFailure]
  refine ⟨hafter, hfailure, (hfailed _ hfailure).trans hafter, ?_⟩
  rw [show Step.parse none "a" "---\nHi" = (Query.text "a" "---\nHi").step none from rfl,
    (hlogged none).2, hafter]
  have hdue : advised ⟨.ignore, true⟩ .ignore "---\nHi" = true := by decide
  simp [Query.texts, Settings.resolve, hdue, namedSource]

end PromptFiles.Workspace
