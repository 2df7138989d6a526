import PromptFiles.Command.Run
import PromptFiles.Proofs.FirstError
import PromptFiles.Proofs.Prompt.Located

/-!
# Checking and loading

Checking goes through all the files that were collected, and loading them stops at the first that
fails. Both parse a file in the same way, so loading succeeds if no file fails the check, with the
prompts that the check has passed, and otherwise with the error of the first failure:
`runCheck_agrees`.
-/

namespace PromptFiles

theorem path_loadPrompt {path : String} (h : loadPrompt settings t mode path = .ok p) :
    p.path = path := by
  obtain ⟨-, text, -, htext⟩ := parseSource_eq_ok_iff.mp h
  have hlocation := locationOf_parseContent (settings.resolve mode) path text
  rw [htext] at hlocation
  exact Option.some.inj hlocation

namespace Command

-- ---------------------------------------------------------------------------
-- Verdicts
-- ---------------------------------------------------------------------------

theorem result_verdicts (s : Started) (t : FileTree) (mode : Option Mode) (files : List String) :
    (verdicts s t mode files).map (·.result) = files.map (loadPrompt s.settings t mode) := by
  simp [verdicts]

theorem path_verdicts (s : Started) (t : FileTree) (mode : Option Mode) (files : List String) :
    (verdicts s t mode files).map (·.path) = files := by
  simp [verdicts, Function.comp_def]

theorem failures_eq_zero_iff {report : List Verdict} :
    failures report = 0 ↔ ∃ ps : List Prompt, report.map (·.result) = ps.map .ok := by
  rw [exists_map_ok_iff, failures, List.countP_eq_zero]
  simp [Verdict.passed]

theorem failures_verdicts (s : Started) (t : FileTree) (mode : Option Mode) (files : List String) :
    failures (verdicts s t mode files) = 0 ↔
      ∃ ps, files.mapM (loadPrompt s.settings t mode) = .ok ps := by
  rw [failures_eq_zero_iff, result_verdicts]
  simp only [mapM_eq_ok_iff]

theorem verdicts_of_ok {s : Started} {t : FileTree} {mode : Option Mode} {files : List String}
    {ps : List Prompt} (h : files.mapM (loadPrompt s.settings t mode) = .ok ps) :
    verdicts s t mode files = ps.map fun p => ⟨p.path, .ok p⟩ := by
  rw [mapM_eq_ok_iff] at h
  induction files generalizing ps with
  | nil =>
    cases ps with
    | nil => rfl
    | cons p ps => cases h
  | cons file rest ih =>
    cases ps with
    | nil => cases h
    | cons p ps =>
      obtain ⟨hp, hps⟩ := List.cons.inj h
      rw [verdicts, List.map_cons, List.map_cons, ← verdicts, ih hps, hp, path_loadPrompt hp]

theorem verdicts_of_error {s : Started} {t : FileTree} {mode : Option Mode} {files : List String}
    (h : files.mapM (loadPrompt s.settings t mode) = .error e) :
    ∃ before file after, verdicts s t mode files = before ++ ⟨file, .error e⟩ :: after ∧
      ∀ v ∈ before, v.passed = true := by
  obtain ⟨before, file, after, rfl, hbefore, hfile⟩ := mapM_eq_error h
  refine ⟨verdicts s t mode before, file, verdicts s t mode after, ?_, fun v hv => ?_⟩
  · simp [verdicts, hfile]
  · obtain ⟨other, hother, rfl⟩ := List.mem_map.mp hv
    exact hbefore other hother

-- ---------------------------------------------------------------------------
-- Starting
-- ---------------------------------------------------------------------------

theorem start_of_load {t : FileTree} (hload : Config.load t env path = .ok c)
    (hlog : c.logging.file = none) :
    ∃ s, start t env path = (t, .ok s) ∧ s.config = c ∧
      s.settings = c.apply (.initial (env.get? Settings.modeVariable)) := by
  simp only [start, hload, hlog]
  exact ⟨_, rfl, rfl, rfl⟩

-- ---------------------------------------------------------------------------
-- The check
-- ---------------------------------------------------------------------------

theorem tree_runCheck (s : Started) (t : FileTree) (r : CheckRequest) :
    (runCheck s t r).tree = t := by
  simp only [runCheck]
  split <;> rfl

theorem loadPrompts_of_error {options : LoadOptions} {t : FileTree}
    (h : collect t options paths = .error e) (settings : Settings) :
    loadPrompts settings t options paths = .error e := by
  rw [loadPrompts, h]
  rfl

theorem loadPrompts_of_ok {options : LoadOptions} {t : FileTree}
    (h : collect t options paths = .ok files) (settings : Settings) :
    loadPrompts settings t options paths = files.mapM (loadPrompt settings t options.mode) := by
  rw [loadPrompts, h]
  rfl

theorem runCheck_of_error {s : Started} {t : FileTree} {r : CheckRequest}
    (h : collect t (r.options s.config) r.paths = .error e) :
    runCheck s t r = s.finish t [] (.error e.message) := by
  simp only [runCheck, h]

theorem runCheck_of_nothing {s : Started} {t : FileTree} {r : CheckRequest}
    (h : collect t (r.options s.config) r.paths = .ok []) :
    runCheck s t r = s.finish t [] (.ok ["(no prompt files found)"]) := by
  simp only [runCheck, h]

theorem runCheck_of_files {s : Started} {t : FileTree} {r : CheckRequest} (hne : files ≠ [])
    (h : collect t (r.options s.config) r.paths = .ok files) :
    let report := verdicts s t (r.options s.config).mode files
    (runCheck s t r).status = (if failures report = 0 then 0 else 1) ∧
      (runCheck s t r).output = reportLines report := by
  cases files with
  | nil => exact absurd rfl hne
  | cons file rest => constructor <;> simp only [runCheck, h]

/-- The check and the loading of the same paths with the same options, and the command line that
asks for the check. -/
theorem runCheck_agrees (s : Started) (t : FileTree) (r : CheckRequest) :
    let options := r.options s.config
    let load := loadPrompts s.settings t options r.paths
    let o := runCheck s t r
    o.tree = t ∧
    (∀ e, collect t options r.paths = .error e →
      load = .error e ∧ o.status = 1 ∧ o.output = [] ∧
        o.errors = s.log [] ++ ["Error: " ++ e.message]) ∧
    (collect t options r.paths = .ok [] →
      load = .ok [] ∧ o.status = 0 ∧ o.output = ["(no prompt files found)"]) ∧
    (∀ files, files ≠ [] → collect t options r.paths = .ok files → ∃ report : List Verdict,
      report.map (·.path) = files ∧
      (∀ v ∈ report, v.result = loadPrompt s.settings t options.mode v.path) ∧
      o.output = report.flatMap (·.lines) ++
        ["-- " ++ Number.numeral report.length ++ " checked, " ++
          Number.numeral (report.countP (!·.passed)) ++ " failed --"] ∧
      (∀ ps, load = .ok ps → o.status = 0 ∧ ps.map (·.path) = files ∧
        report.map (·.lines) = ps.map fun p =>
          ["OK   " ++ p.path ++ " (" ++ Number.numeral p.placeholders.length ++
            " placeholders)"]) ∧
      ∀ e, load = .error e → o.status = 1 ∧ ∃ before v after, report = before ++ v :: after ∧
        (∀ u ∈ before, u.passed = true) ∧
        v.lines = ["FAIL " ++ v.path, "     [" ++ e.kind ++ "] " ++ e.message]) ∧
    (∀ t₀ env today arguments path, Invocation.parse arguments = .ok ⟨path, .check r⟩ →
      start t₀ env path = (t, .ok s) → run t₀ env today arguments = o) ∧
    ∀ env path c, Config.load t env path = .ok c → c.logging.file = none →
      ∃ s', start t env path = (t, .ok s') ∧ s'.config = c ∧
        s'.settings = c.apply (.initial (env.get? Settings.modeVariable)) := by
  intro options load o
  refine ⟨tree_runCheck s t r, fun e he => ?_, fun hnone => ?_, fun files hne hfiles => ?_,
    fun t₀ env today arguments path hparse hstart => ?_, fun env path c => start_of_load⟩
  · rw [show o = _ from runCheck_of_error he]
    exact ⟨loadPrompts_of_error he s.settings, rfl, rfl, rfl⟩
  · rw [show o = _ from runCheck_of_nothing hnone]
    exact ⟨loadPrompts_of_ok hnone s.settings, rfl, rfl⟩
  · have hload : load = _ := loadPrompts_of_ok hfiles s.settings
    obtain ⟨hstatus, houtput⟩ := runCheck_of_files hne hfiles
    refine ⟨verdicts s t options.mode files, path_verdicts s t options.mode files, fun v hv => ?_,
      houtput, fun ps hps => ?_, fun e he => ?_⟩
    · obtain ⟨file, -, rfl⟩ := List.mem_map.mp hv
      rfl
    · rw [hload] at hps
      have hpassed := (failures_verdicts s t options.mode files).mpr ⟨ps, hps⟩
      refine ⟨hstatus.trans (if_pos hpassed), ?_, ?_⟩
      · rw [← path_verdicts s t options.mode files, verdicts_of_ok hps, List.map_map]
        rfl
      · rw [verdicts_of_ok hps, List.map_map]
        rfl
    · rw [hload] at he
      have hfailed : ¬failures (verdicts s t options.mode files) = 0 := by
        rw [failures_verdicts, he]
        simp
      obtain ⟨before, file, after, hreport, hbefore⟩ := verdicts_of_error he
      exact ⟨hstatus.trans (if_neg hfailed), before, ⟨file, .error e⟩, after, hreport, hbefore,
        rfl⟩
  · show run t₀ env today arguments = runCheck s t r
    simp only [run, hparse, Invocation.run, hstart, Invocation.proceed]

theorem runCheck_agrees_unterminated :
    let t := ((FileTree.empty ["w"]).put ["w", "a"] (.file "Hi \x7bx\x7d".toUTF8)).put
      ["w", "b"] (.file "---\nx".toUTF8)
    let s : Started := ⟨⟨none, {}, {}, {}⟩, {}, .ofText "" (.ofSetting "info"), []⟩
    let r : CheckRequest := { paths := ["a", "b", "a"] }
    collect t (r.options s.config) r.paths = .ok ["a", "b", "a"] ∧
      loadPrompts {} t (r.options s.config) r.paths = .error (.malformedHeader "b") ∧
      (runCheck s t r).status = 1 ∧
      ∃ report : List Verdict, report.map (·.path) = ["a", "b", "a"] ∧
        ∃ before v after, report = before ++ v :: after ∧ (∀ u ∈ before, u.passed = true) ∧
          v.lines = ["FAIL " ++ v.path,
            "     [malformed-header] " ++ (PromptError.malformedHeader "b").message] := by
  intro t s r
  obtain ⟨-, -, -, hfiles, -⟩ := runCheck_agrees s t r
  have hcollect : collect t (r.options s.config) r.paths = .ok ["a", "b", "a"] := by cbv
  have hload : loadPrompts {} t (r.options s.config) r.paths =
      .error (.malformedHeader "b") := by cbv
  obtain ⟨report, hpaths, -, -, -, herror⟩ := hfiles _ (by simp) hcollect
  obtain ⟨hstatus, before, v, after, hreport, hbefore, hlines⟩ := herror _ hload
  exact ⟨hcollect, hload, hstatus, report, hpaths, before, v, after, hreport, hbefore, hlines⟩

end Command

end PromptFiles
