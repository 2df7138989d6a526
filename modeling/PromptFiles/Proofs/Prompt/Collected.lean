import PromptFiles.Proofs.Command.Checked

/-!
# Collected files

Without a limit the files of several paths stand one after the other, unless the walk through one of
them fails. With a limit the loop looks at the count after each path; since it only grows, that is
the same as looking once at the end, or where a walk fails. Files are parsed only when all are
collected, and then up to the first that fails: `collect_concatenates`.
-/

namespace PromptFiles

-- ---------------------------------------------------------------------------
-- From the files found so far
-- ---------------------------------------------------------------------------

section
variable (t : FileTree) (pattern : Glob.Pattern) (opts : LoadOptions)

theorem collectAfter_append (found before after : List String) :
    collectAfter t pattern opts found (before ++ after) =
      (collectAfter t pattern opts found before).bind
        (collectAfter t pattern opts · after) := by
  induction before generalizing found with
  | nil => rfl
  | cons path rest ih =>
    rw [List.cons_append, collectAfter, collectAfter]
    cases collectOne t pattern opts.recursive path with
    | error e => rfl
    | ok files =>
      simp only [bind, Except.bind]
      split
      · split
        · rfl
        · exact ih _
      · exact ih _

theorem collectAfter_unlimited (h : opts.maxFiles = none) (found paths : List String) :
    collectAfter t pattern opts found paths =
      (paths.mapM (collectOne t pattern opts.recursive)).map (found ++ ·.flatten) := by
  induction paths generalizing found with
  | nil => simp [collectAfter, Except.map, pure, Except.pure]
  | cons path rest ih =>
    rw [collectAfter, List.mapM_cons]
    cases collectOne t pattern opts.recursive path with
    | error e => rfl
    | ok files =>
      simp only [bind, Except.bind, h]
      rw [ih]
      cases rest.mapM (collectOne t pattern opts.recursive) with
      | error e => rfl
      | ok lists => simp [Except.map, pure, Except.pure]

/-- By induction along the paths, with no more files than the limit found so far. -/
theorem collectAfter_limited {found paths : List String} {lists : List (List String)}
    (h : opts.maxFiles = some limit) (hfound : found.length ≤ limit)
    (hpaths : paths.mapM (collectOne t pattern opts.recursive) = .ok lists) :
    collectAfter t pattern opts found paths =
      if (found ++ lists.flatten).length ≤ limit then .ok (found ++ lists.flatten)
      else .error (.tooManyFiles limit) := by
  rw [mapM_eq_ok_iff] at hpaths
  induction paths generalizing found lists with
  | nil =>
    cases lists with
    | nil => simp [collectAfter, hfound]
    | cons files lists => cases hpaths
  | cons path rest ih =>
    cases lists with
    | nil => cases hpaths
    | cons files lists =>
      obtain ⟨hfiles, hlists⟩ := List.cons.inj hpaths
      rw [collectAfter, hfiles, List.flatten_cons, ← List.append_assoc]
      simp only [bind, Except.bind, h]
      split
      · rename_i hover
        -- The files of the other paths can only make it more.
        rw [if_neg]
        rw [List.length_append]
        omega
      · rename_i hunder
        exact ih (by omega) hlists

end

-- ---------------------------------------------------------------------------
-- Several paths
-- ---------------------------------------------------------------------------

theorem collect_of_pattern (t : FileTree) (opts : LoadOptions) {pattern : Glob.Pattern}
    (h : Glob.Pattern.parse opts.glob = .ok pattern) (paths : List String) :
    collect t opts paths = collectAfter t pattern opts [] paths := by
  rw [collect, h]

theorem collect_of_noPattern (t : FileTree) (opts : LoadOptions) {cause : Glob.PatternError}
    (h : Glob.Pattern.parse opts.glob = .error cause) (paths : List String) :
    collect t opts paths = .error (.invalidPattern opts.glob cause) := by
  rw [collect, h]

section

variable (t : FileTree) {opts : LoadOptions} {pattern : Glob.Pattern} {paths : List String}
  (h : Glob.Pattern.parse opts.glob = .ok pattern)
include h

theorem collect_eq_mapM (paths : List String) : collect t { opts with maxFiles := none } paths =
    (paths.mapM (collectOne t pattern opts.recursive)).map List.flatten := by
  rw [collect_of_pattern t { opts with maxFiles := none } h, collectAfter_unlimited _ _ _ rfl]
  rfl

theorem collect_single (path : String) : collect t { opts with maxFiles := none } [path] =
    collectOne t pattern opts.recursive path := by
  rw [collect_eq_mapM t h, List.mapM_cons]
  cases collectOne t pattern opts.recursive path with
  | error e => rfl
  | ok files => simp [Except.map, bind, Except.bind, pure, Except.pure]

theorem collect_unlimited (paths : List String) : collect t { opts with maxFiles := none } paths =
    (paths.mapM fun path => collect t { opts with maxFiles := none } [path]).map List.flatten := by
  rw [collect_eq_mapM t h, funext (collect_single t h)]

theorem collect_limited {files : List String} (limit : Nat)
    (hfiles : collect t { opts with maxFiles := none } paths = .ok files) :
    collect t { opts with maxFiles := some limit } paths =
      if files.length ≤ limit then .ok files else .error (.tooManyFiles limit) := by
  rw [collect_eq_mapM t h, map_eq_ok_iff] at hfiles
  obtain ⟨lists, hlists, rfl⟩ := hfiles
  rw [collect_of_pattern t { opts with maxFiles := some limit } h]
  exact collectAfter_limited t pattern _ rfl (Nat.zero_le limit) hlists

/-- A path on which the walk fails counts unless there are too many files before it. -/
theorem collect_limited_error {e : PromptError} (limit : Nat)
    (he : collect t { opts with maxFiles := none } paths = .error e) :
    ∃ before path after files, paths = before ++ path :: after ∧
      collect t { opts with maxFiles := none } before = .ok files ∧
      collect t { opts with maxFiles := none } [path] = .error e ∧
      collect t { opts with maxFiles := some limit } paths =
        if files.length ≤ limit then .error e else .error (.tooManyFiles limit) := by
  rw [collect_eq_mapM t h, map_eq_error_iff] at he
  obtain ⟨before, path, after, rfl, hbefore, hpath⟩ := mapM_eq_error he
  obtain ⟨lists, hlists⟩ := exists_mapM_ok hbefore
  refine ⟨before, path, after, lists.flatten, rfl, ?_, ?_, ?_⟩
  · rw [collect_eq_mapM t h, hlists]
    rfl
  · rw [collect_single t h, hpath]
  · have hfound : ([] : List String).length ≤ limit := Nat.zero_le limit
    have hcollected :=
      collectAfter_limited t pattern { opts with maxFiles := some limit } rfl hfound hlists
    rw [collect_of_pattern t { opts with maxFiles := some limit } h, collectAfter_append,
      hcollected, List.nil_append]
    split
    · simp only [Except.bind, collectAfter, hpath, bind]
    · rfl

end

theorem collect_append (t : FileTree) (opts : LoadOptions) (paths more : List String) :
    collect t { opts with maxFiles := none } (paths ++ more) = do
      let files ← collect t { opts with maxFiles := none } paths
      let others ← collect t { opts with maxFiles := none } more
      return files ++ others := by
  cases h : Glob.Pattern.parse opts.glob with
  | error cause =>
    simp only [collect_of_noPattern t { opts with maxFiles := none } h]
    rfl
  | ok pattern =>
    simp only [collect_eq_mapM t h, List.mapM_append]
    cases paths.mapM (collectOne t pattern opts.recursive) with
    | error e => rfl
    | ok lists =>
      cases more.mapM (collectOne t pattern opts.recursive) with
      | error e => rfl
      | ok others => simp [Except.map, bind, Except.bind, pure, Except.pure]

/-- The files that are collected, with a limit and without one, and the prompts that are loaded.
Without a limit the files of each path follow those of the paths before it: those discovered in it
if it is a directory, and any other path itself. A limit changes nothing but that more files are an
error, which comes before a walk that fails on a later path. Errors of collecting come before those
of parsing, of which the first counts. -/
theorem collect_concatenates (t : FileTree) (opts : LoadOptions) :
    let unlimited : LoadOptions := { opts with maxFiles := none }
    (∀ pattern, Glob.Pattern.parse opts.glob = .ok pattern →
      (∀ path, t.isDirectory path = false → collect t unlimited [path] = .ok [path]) ∧
      (∀ path, t.isDirectory path = true →
        collect t unlimited [path] = discover t path pattern opts.recursive) ∧
      (∀ paths, collect t unlimited paths =
        (paths.mapM fun path => collect t unlimited [path]).map List.flatten) ∧
      ∀ limit paths,
        (∀ files, collect t unlimited paths = .ok files →
          collect t { opts with maxFiles := some limit } paths =
            if files.length ≤ limit then .ok files else .error (.tooManyFiles limit)) ∧
        ∀ e, collect t unlimited paths = .error e → ∃ before path after files,
          paths = before ++ path :: after ∧ collect t unlimited before = .ok files ∧
          collect t unlimited [path] = .error e ∧
          collect t { opts with maxFiles := some limit } paths =
            if files.length ≤ limit then .error e else .error (.tooManyFiles limit)) ∧
    (∀ paths more, collect t unlimited (paths ++ more) = do
      let files ← collect t unlimited paths
      let others ← collect t unlimited more
      return files ++ others) ∧
    (∀ cause, Glob.Pattern.parse opts.glob = .error cause → ∀ paths,
      collect t opts paths = .error (.invalidPattern opts.glob cause)) ∧
    ∀ settings paths,
      (∀ e, collect t opts paths = .error e → loadPrompts settings t opts paths = .error e) ∧
      ∀ files, collect t opts paths = .ok files →
        (∀ ps, loadPrompts settings t opts paths = .ok ps ↔
          files.map (loadPrompt settings t opts.mode) = ps.map .ok) ∧
        ∀ e, loadPrompts settings t opts paths = .error e ↔
          ∃ before file after, files = before ++ file :: after ∧
            (∀ other ∈ before, (loadPrompt settings t opts.mode other).isOk = true) ∧
            loadPrompt settings t opts.mode file = .error e := by
  intro unlimited
  refine ⟨fun pattern h => ⟨fun path hpath => ?_, fun path hpath => ?_, collect_unlimited t h,
      fun limit paths => ⟨fun files => collect_limited t h limit,
        fun e => collect_limited_error t h limit⟩⟩,
    collect_append t opts, fun cause => collect_of_noPattern t opts,
    fun settings paths => ⟨fun e he => ?_, fun files h => ?_⟩⟩
  · rw [collect_single t h, collectOne, hpath, if_neg Bool.false_ne_true]
  · rw [collect_single t h, collectOne, if_pos hpath]
  · exact Command.loadPrompts_of_error he settings
  · rw [Command.loadPrompts_of_ok h settings]
    exact ⟨fun ps => mapM_eq_ok_iff, fun e => mapM_eq_error_iff⟩

theorem collect_concatenates_twice :
    let t := (((FileTree.empty ["w"]).put ["w", "d"] .directory).put
      ["w", "d", "b.txt"] (.file "B".toUTF8)).put ["w", "d", "a.txt"] (.file "A".toUTF8)
    let opts : LoadOptions := { maxFiles := some 4 }
    let unlimited : LoadOptions := { opts with maxFiles := none }
    collect t unlimited ["d"] = .ok ["d/a.txt", "d/b.txt"] ∧
      collect t unlimited ["x", "d"] = .ok ["x", "d/a.txt", "d/b.txt"] ∧
      collect t unlimited ["d", "x", "d"] =
        .ok ["d/a.txt", "d/b.txt", "x", "d/a.txt", "d/b.txt"] ∧
      collect t opts ["d", "x", "d"] = .error (.tooManyFiles 4) ∧
      loadPrompts {} t opts ["d", "x", "d"] = .error (.tooManyFiles 4) := by
  intro t opts unlimited
  obtain ⟨hparsed, happend, -, hload⟩ := collect_concatenates t opts
  have hone : collect t unlimited ["d"] = .ok ["d/a.txt", "d/b.txt"] := by cbv
  obtain ⟨pattern, hpattern⟩ : ∃ pattern, Glob.Pattern.parse opts.glob = .ok pattern := by
    cases h : Glob.Pattern.parse opts.glob with
    | ok pattern => exact ⟨pattern, rfl⟩
    | error cause =>
      rw [collect_of_noPattern t unlimited h] at hone
      cases hone
  obtain ⟨hfile, -, -, hlimit⟩ := hparsed pattern hpattern
  have htwo : collect t unlimited ["x", "d"] = .ok ["x", "d/a.txt", "d/b.txt"] := by
    refine (happend ["x"] ["d"]).trans ?_
    rw [hfile "x" (by cbv), hone]
    rfl
  have hthree : collect t unlimited ["d", "x", "d"] =
      .ok ["d/a.txt", "d/b.txt", "x", "d/a.txt", "d/b.txt"] := by
    refine (happend ["d"] ["x", "d"]).trans ?_
    rw [hone, htwo]
    rfl
  have hover := (hlimit 4 ["d", "x", "d"]).1 _ hthree
  exact ⟨hone, htwo, hthree, hover, (hload {} _).1 _ hover⟩

end PromptFiles
