import PromptFiles.Proofs.Command.Checked
import PromptFiles.Proofs.Command.Reminder
import PromptFiles.Proofs.Config.Loaded
import PromptFiles.Proofs.Prompt.Kept

/-!
# Making prompt files

A new file is refused if its path leads to anything. That is found out before the directories
above the file are made, and a path with two dots may lead to a file only once they are there. So
a file that was there is written over in this one case, and in no other: `files_kept`.
-/

namespace PromptFiles.Command

open FrontMatter (serialize)

variable {t : FileTree} {today : Calendar.Date} {r : NewRequest}

def NewRequest.text (r : NewRequest) (today : Calendar.Date) : String :=
  serialize (r.metadata today) (r.body.getD defaultBody)

-- ---------------------------------------------------------------------------
-- The command
-- ---------------------------------------------------------------------------

/-- Unless files may be written over, nothing is saved if the path leads to anything. -/
theorem tree_runNew (s : Started) (t : FileTree) (today : Calendar.Date)
    (hnew : r.overwrite = false) :
    (runNew s t today r).tree = t ∨ t.exists? r.file = false ∧ (runNew s t today r).tree =
      (save t r.file (r.metadata today) (r.body.getD defaultBody)).1 := by
  cases hthere : t.exists? r.file with
  | true =>
    rw [runNew, if_pos (by simp [hthere, hnew])]
    exact .inl rfl
  | false =>
    rw [runNew, if_neg (by simp [hthere])]
    refine .inr ⟨rfl, ?_⟩
    dsimp only
    split
    · rename_i hsave
      rw [hsave]
      rfl
    · rename_i hsave
      rw [hsave]
      rfl

theorem runNew_kept (s : Started) (today : Calendar.Date) (hnew : r.overwrite = false)
    (hfile : t.lookup place = some (.file bytes)) :
    (runNew s t today r).tree.lookup place = some (.file bytes) ∨ t.LeadsLater r.file place ∧
      (runNew s t today r).tree.lookup place = some (.file (r.text today).toUTF8) := by
  rcases tree_runNew s t today hnew with hsame | ⟨hmissing, htree⟩
  · rw [hsame]
    exact .inl hfile
  rw [htree]
  rcases hsave : save t r.file (r.metadata today) (r.body.getD defaultBody) with ⟨t', e | ⟨⟩⟩
  · exact .inl (((save_error hsave).lookup place).file_iff.mpr hfile)
  · obtain ⟨t₁, written, hmade, hplace, rfl⟩ := writePrompt_ok (save_ok hsave)
    by_cases hsame : place = written
    · rw [hsame]
      exact .inr ⟨⟨hmissing, t₁, hmade, hplace⟩,
        FileTree.lookup_put_self (FileTree.admits_of_writePlace hplace) _⟩
    · exact .inl ((FileTree.keptAt_put hmade hplace hsame _).file_iff.mpr hfile)

/-- A file that the path leads to once the directories above it are made is written over. -/
theorem lookup_runNew (s : Started) (today : Calendar.Date) (h : t.LeadsLater r.file place)
    (hb : Text.allBlank (r.body.getD defaultBody) = false) :
    (runNew s t today r).tree.lookup place = some (.file (r.text today).toUTF8) := by
  obtain ⟨t₁, hmade, hplace⟩ := h.later
  rw [runNew_eq s (by simp [h.missing]) (save_eq hb (r.metadata today) hmade hplace)]
  exact FileTree.lookup_put_self (FileTree.admits_of_writePlace hplace) _

theorem run_create (today : Calendar.Date) {config : Option String}
    (hparse : Invocation.parse arguments = .ok ⟨config, .create r⟩)
    (hlog : ∀ c, Config.load t env config = .ok c → c.logging.file = none) :
    ((∃ e, Config.load t env config = .error e) ∧ (run t env today arguments).tree = t) ∨
      ∃ s, run t env today arguments = runNew s t today r := by
  simp only [run, hparse, Invocation.run]
  cases hload : Config.load t env config with
  | error e =>
    refine .inl ⟨⟨e, rfl⟩, ?_⟩
    simp only [start, hload, Invocation.fail, reduceCtorEq, if_false]
  | ok c =>
    obtain ⟨s, hstart, -⟩ := start_of_load hload (hlog c hload)
    exact .inr ⟨s, by simp only [hstart, Invocation.proceed]⟩

-- ---------------------------------------------------------------------------
-- What was there
-- ---------------------------------------------------------------------------

/-- A save touches the one file that its path leads to, or none if it fails. A new file that may
not be written over touches no file that was there, except one that its path leads to only once
the directories above it are made. -/
theorem files_kept (t : FileTree) :
    (∀ path m body, Text.allBlank body = true →
      save t path m body = (t, .error (.emptyContent path))) ∧
    (∀ path m body t' e, save t path m body = (t', .error e) → t.Grown t') ∧
    (∀ path body t' e, saveText t path body = (t', .error e) → t.Grown t') ∧
    (∀ path m body t', save t path m body = (t', .ok ()) →
      t.Written t' path (serialize m body)) ∧
    (∀ path body t', saveText t path body = (t', .ok ()) →
      t.Written t' path (serialize {} body)) ∧
    ∀ env today arguments config (r : NewRequest),
      Invocation.parse arguments = .ok ⟨config, .create r⟩ → r.overwrite = false →
      (∀ c, Config.load t env config = .ok c → c.logging.file = none) →
      ∀ place bytes, t.lookup place = some (.file bytes) →
        let after := (run t env today arguments).tree.lookup place
        (after = some (.file bytes) ∨
          t.LeadsLater r.file place ∧ after = some (.file (r.text today).toUTF8)) ∧
        (t.LeadsLater r.file place → (∃ c, Config.load t env config = .ok c) →
          Text.allBlank (r.body.getD defaultBody) = false →
          after = some (.file (r.text today).toUTF8)) ∧
        (t.LeadsLater r.file place →
          (t.makeParents r.file).1 ≠ t ∧ (t.Closed → ".." ∈ Path.pieces r.file)) := by
  refine ⟨fun path m body hb => save_blank hb t path m, fun _ _ _ _ _ => save_error,
    fun _ _ _ _ => writePrompt_error, fun _ _ _ _ h => writePrompt_written (save_ok h),
    fun _ _ _ => writePrompt_written, ?_⟩
  intro env today arguments config r hparse hnew hlog place bytes hfile after
  have hthere : t.lookup place ≠ none := by simp [hfile]
  refine ⟨?_, fun hlater ⟨c, hload⟩ hb => ?_,
    fun hlater => ⟨hlater.makeParents_ne hthere, fun hclosed => hlater.two_dots hclosed hthere⟩⟩
  · rcases run_create today hparse hlog with ⟨-, htree⟩ | ⟨s, hrun⟩
    · exact .inl ((congrArg (·.lookup place) htree).trans hfile)
    · simp only [after, hrun]
      exact runNew_kept s today hnew hfile
  · rcases run_create today hparse hlog with ⟨⟨e, herror⟩, -⟩ | ⟨s, hrun⟩
    · rw [herror] at hload
      cases hload
    · simp only [after, hrun]
      exact lookup_runNew s today hlater hb

theorem files_kept_below :
    let t := (FileTree.empty ["w"]).put ["w", "b"] (.file "old".toUTF8)
    let today := (Calendar.Date.ofParts? 2024 2 29).get (by decide)
    let arguments := ["new", "a/b", "--body", "Hi"]
    let r : NewRequest := { file := "a/b", body := some "Hi" }
    save t "b" {} " \n" = (t, .error (.emptyContent "b")) ∧
      (∃ t', save t "b/c" {} "Hi" = (t', .error (.io "b" .alreadyExists)) ∧ t.Grown t') ∧
      (∃ t', save t "b" {} "Hi" = (t', .ok ()) ∧ t.Written t' "b" (serialize {} "Hi")) ∧
      Invocation.parse arguments = .ok ⟨none, .create r⟩ ∧ r.overwrite = false ∧
      (∃ c, Config.load t {} none = .ok c ∧ c.logging.file = none) ∧ t.Closed ∧
      (run t {} today arguments).tree.lookup ["w", "b"] = some (.file "old".toUTF8) := by
  intro t today arguments r
  obtain ⟨hblank, herror, -, hwritten, -, hnew⟩ := files_kept t
  have hfailed : save t "b/c" {} "Hi" = (t, .error (.io "b" .alreadyExists)) := by cbv
  have hsaved : save t "b" {} "Hi" =
      (t.put ["w", "b"] (.file (serialize {} "Hi").toUTF8), .ok ()) :=
    save_eq (by decide) _ (by cbv) (by cbv)
  have hparse : Invocation.parse arguments = .ok ⟨none, .create r⟩ := by cbv
  have hload : Config.load t {} none = .ok ⟨none, {}, {}, {}⟩ :=
    Config.load_eq_ok_iff.mpr
      ⟨none, {}, .none rfl (Config.exists?_defaultPath (by cbv) (by cbv)), rfl⟩
  have hlog : ∀ c, Config.load t {} none = .ok c → c.logging.file = none := fun c hc => by
    cases hload.symm.trans hc
    rfl
  have hclosed : ((FileTree.empty ["w"]).put (["w"] ++ ["b"]) (.file "old".toUTF8)).Closed :=
    FileTree.closed_put (FileTree.closed_empty _) (by cbv)
      ⟨by simp, fun entry hentry => by cases hentry⟩ _
  refine ⟨hblank _ _ _ (by decide), ⟨t, hfailed, herror _ _ _ _ _ hfailed⟩,
    ⟨_, hsaved, hwritten _ _ _ _ hsaved⟩, hparse, rfl, ⟨_, hload, rfl⟩, hclosed, ?_⟩
  obtain ⟨hkept | ⟨hlater, -⟩, -, hdots⟩ :=
    hnew {} today arguments none r hparse rfl hlog ["w", "b"] "old".toUTF8 (by cbv)
  · exact hkept
  · have hpieces : Path.pieces r.file = ["a", "b"] := by decide +kernel
    have htwo := (hdots hlater).2 hclosed
    rw [hpieces] at htwo
    exact absurd htwo (by decide)

theorem files_kept_twoDots :
    let t := (FileTree.empty ["w"]).put ["w", "b"] (.file "old".toUTF8)
    let today := (Calendar.Date.ofParts? 2024 2 29).get (by decide)
    let arguments := ["new", "a/../b", "--body", "Hi"]
    let r : NewRequest := { file := "a/../b", body := some "Hi" }
    Invocation.parse arguments = .ok ⟨none, .create r⟩ ∧ r.overwrite = false ∧
      (∃ c, Config.load t {} none = .ok c ∧ c.logging.file = none) ∧
      t.lookup ["w", "b"] = some (.file "old".toUTF8) ∧
      (run t {} today arguments).tree.lookup ["w", "b"] ≠ some (.file "old".toUTF8) := by
  intro t today arguments r
  have hparse : Invocation.parse arguments = .ok ⟨none, .create r⟩ := by cbv
  have hload : Config.load t {} none = .ok ⟨none, {}, {}, {}⟩ :=
    Config.load_eq_ok_iff.mpr
      ⟨none, {}, .none rfl (Config.exists?_defaultPath (by cbv) (by cbv)), rfl⟩
  have hfile : t.lookup ["w", "b"] = some (.file "old".toUTF8) := by cbv
  have hlater : t.LeadsLater r.file ["w", "b"] :=
    FileTree.leadsLater_twoDots (by cbv) (by cbv) hfile
  refine ⟨hparse, rfl, ⟨_, hload, rfl⟩, hfile, ?_⟩
  rcases run_create today hparse fun c hc => by
    cases hload.symm.trans hc
    rfl with ⟨⟨e, he⟩, -⟩ | ⟨s, hrun⟩
  · cases hload.symm.trans he
  · rw [hrun, lookup_runNew s today hlater (by decide)]
    intro hsame
    have htext : r.text today = "old" :=
      String.toByteArray_inj.mp (FileTree.Entry.file.inj (Option.some.inj hsame))
    exact absurd htext (by decide +kernel)

end PromptFiles.Command
