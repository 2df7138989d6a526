import PromptFiles.Proofs.Command.Checked
import PromptFiles.Proofs.FileTree.Named
import PromptFiles.Workspace.Step

/-!
# Trees that are reached

What every single change to a tree preserves is preserved by whatever is done in a workspace:
`run_preserved`. So everything in its tree stays in a directory, and every entry has a name. The
tree of a new workspace has only directories in it, so no workspace ever has a loose entry.
-/

namespace PromptFiles

variable {t : FileTree} {P : FileTree → Prop}

open FileTree (Preserved)

-- ---------------------------------------------------------------------------
-- Saving
-- ---------------------------------------------------------------------------

section
variable (hP : Preserved P) (h : P t)
include hP h

theorem writePrompt_preserved (path : String) (m : Metadata) (body : String) :
    P (writePrompt t path m body).1 := by
  unfold writePrompt
  split
  · exact hP.makeParents h ‹_›
  · rename_i hmade
    have hmade := hP.makeParents h hmade
    split
    · exact hP.writeBytes hmade ‹_›
    · exact hmade

theorem save_preserved (path : String) (m : Metadata) (body : String) :
    P (save t path m body).1 := by
  unfold save
  split
  · exact writePrompt_preserved hP h path _ _
  · exact h

end

-- ---------------------------------------------------------------------------
-- Commands
-- ---------------------------------------------------------------------------

namespace Command

theorem tree_finish (s : Started) (t : FileTree) (events : List Log.Event)
    (result : Except String (List String)) : (s.finish t events result).tree = t := by
  cases result <;> rfl

theorem tree_onPrompt (s : Started) (t : FileTree) (file : String) (mode : Option Mode)
    (report : Prompt → Except PromptError (List String)) :
    (onPrompt s t file mode report).tree = t :=
  tree_finish s t _ _

section
variable (hP : Preserved P) (h : P t)
include hP h

theorem openLog_preserved (file : String) : P (openLog t file).1 := by
  unfold openLog
  split
  · exact hP.makeParents h ‹_›
  · rename_i hmade
    have hmade := hP.makeParents h hmade
    split
    · exact hP.touch hmade ‹_›
    · exact hmade

theorem start_preserved (env : Environment) (config : Option String) :
    P (start t env config).1 := by
  unfold start
  split
  · exact h
  · rename_i c _
    cases hfile : c.logging.file with
    | none => exact h
    | some file =>
      have hopened := openLog_preserved hP h file
      dsimp only
      split <;> rename_i heq <;> rw [heq] at hopened <;> exact hopened

theorem runNew_preserved (s : Started) (today : Calendar.Date) (r : NewRequest) :
    P (runNew s t today r).tree := by
  have hsaved := save_preserved hP h r.file (r.metadata today) (r.body.getD defaultBody)
  unfold runNew
  split
  · exact h
  · dsimp only
    split <;> rename_i heq <;> rw [heq] at hsaved <;> rw [tree_finish] <;> exact hsaved

/-- Of the commands themselves only `new` changes the tree. -/
theorem proceed_preserved (i : Invocation) (s : Started) (env : Environment)
    (today : Calendar.Date) : P (i.proceed s t env today).tree := by
  obtain ⟨config, action⟩ := i
  have hsame {o : Outcome} (ho : o.tree = t) : P o.tree := by rwa [ho]
  cases action with
  | doctor => exact hsame (tree_finish s t _ _)
  | view | placeholders | format => exact hsame (tree_onPrompt s t _ _ _)
  | check r => exact hsame (tree_runCheck s t r)
  | create r => exact runNew_preserved hP h s today r

theorem run_preserved (env : Environment) (today : Calendar.Date) (arguments : List String) :
    P (run t env today arguments).tree := by
  unfold run
  split
  · rename_i i _
    have hstarted := start_preserved hP h env i.config
    unfold Invocation.run
    split
    · rename_i e heq
      rw [heq] at hstarted
      cases e with
      | config cause =>
        unfold Invocation.fail
        dsimp only
        split <;> exact hstarted
      | log => exact hstarted
    · rename_i heq
      rw [heq] at hstarted
      exact proceed_preserved hP hstarted i _ env today
  all_goals exact h

end

end Command

-- ---------------------------------------------------------------------------
-- Workspaces
-- ---------------------------------------------------------------------------

namespace Workspace

section
variable {w : Workspace} (hP : Preserved P) (h : P w.tree)
include hP h

theorem below_preserved (path : String) {change : FileTree → Except FileTree.Fault FileTree}
    (hchange : ∀ t t', P t → change t = .ok t' → P t') : P (w.below path change).1.tree := by
  unfold below
  split
  · rename_i t₁ hmade
    have hmade := hP.makeParents h hmade
    cases hchanged : change t₁ with
    | ok t₂ => exact hchange t₁ t₂ hmade hchanged
    | error e => exact hmade
  · exact hP.makeParents h ‹_›

theorem step_preserved (s : Step) : P (w.step s).1.tree := by
  cases s with
  | write path bytes =>
    exact below_preserved hP h path fun _ _ h hwrite => hP.writeBytes h hwrite
  | makeLink target path =>
    exact below_preserved hP h path fun _ _ h hlink => hP.makeLink h hlink
  | makeDirectory path =>
    have hmade := hP.makeAll h (Path.withAncestors path)
    simp only [step, FileTree.makeDirectories]
    split <;> rename_i heq <;> rw [heq] at hmade <;> exact hmade
  | save path m body => exact save_preserved hP h path m body
  | saveText path body => exact writePrompt_preserved hP h path {} body
  | command env today arguments => exact Command.run_preserved hP h env today arguments
  | setModeText text =>
    simp only [step]
    split <;> exact h
  | configure path inForce =>
    simp only [step]
    split
    · cases inForce <;> exact h
    · exact h
  | _ => exact h

end

theorem run_preserved (hP : Preserved P) {w : Workspace} (h : P w.tree) (steps : List Step) :
    P (w.run steps).1.tree := by
  induction steps generalizing w with
  | nil => exact h
  | cons s rest ih => exact ih (step_preserved hP h s)

theorem closed_run {w : Workspace} (hclosed : w.tree.Closed) (steps : List Step) :
    (w.run steps).1.tree.Closed :=
  run_preserved FileTree.preserved_closed hclosed steps

theorem named_run {w : Workspace} (hnamed : w.tree.Named) (steps : List Step) :
    (w.run steps).1.tree.Named :=
  run_preserved FileTree.preserved_named hnamed steps

end Workspace

end PromptFiles
