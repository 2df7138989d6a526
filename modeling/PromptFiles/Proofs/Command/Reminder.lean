import PromptFiles.Command.Run
import PromptFiles.Proofs.Prompt.Saved

/-!
# What is to be filled in

After a prompt file is made, the command names the required fields that are lacking. They are
counted on the metadata in memory, before anything is written. Strict mode counts them on what it
reads of the file, and finds the same ones: `parseText_strict_serialize`.
-/

namespace PromptFiles.Command

open FrontMatter (serialize)

def madeReport (file : String) : List String :=
  ["OK   " ++ programName ++ " new", "path: " ++ file]

def reminderLine (fields : List String) : String :=
  "fill in before strict loading: " ++ ", ".intercalate fields

theorem runNew_eq (s : Started) {t : FileTree} {today : Calendar.Date} {r : NewRequest}
    (hnew : (t.exists? r.file && !r.overwrite) = false)
    (hsave : save t r.file (r.metadata today) (r.body.getD defaultBody) = (t', .ok ())) :
    runNew s t today r = s.finish t' [.savedPrompt r.file] (.ok (madeReport r.file ++
      if (r.metadata today).missingRequired = [] then []
      else [reminderLine (r.metadata today).missingRequired])) := by
  rw [runNew, if_neg (by simp [hnew])]
  simp only [hsave]
  rfl

theorem runNew_saved {r : NewRequest} (h : (runNew s t today r).status = 0) :
    save t r.file (r.metadata today) (r.body.getD defaultBody) =
        ((runNew s t today r).tree, .ok ()) ∧
      (runNew s t today r).output = madeReport r.file ++
        if (r.metadata today).missingRequired = [] then []
        else [reminderLine (r.metadata today).missingRequired] := by
  cases hnew : t.exists? r.file && !r.overwrite with
  | true =>
    rw [runNew, if_pos hnew] at h
    cases h
  | false =>
    cases hsave : save t r.file (r.metadata today) (r.body.getD defaultBody) with
    | mk t' saved =>
      cases saved with
      | error e =>
        rw [runNew, if_neg (by simp [hnew])] at h
        simp only [hsave] at h
        cases h
      | ok _ =>
        rw [runNew_eq s hnew hsave]
        exact ⟨rfl, rfl⟩

theorem loadPrompt_runNew {r : NewRequest} (hm : (r.metadata today).ReadsAs t')
    (h : (runNew s t today r).status = 0) (settings : Settings) :
    ((runNew s t today r).output = madeReport r.file ∧
        ∃ p, loadPrompt settings (runNew s t today r).tree (some .strict) r.file = .ok p) ∨
      ∃ fields ≠ [], (runNew s t today r).output = madeReport r.file ++ [reminderLine fields] ∧
        loadPrompt settings (runNew s t today r).tree (some .strict) r.file =
          .error (.invalidMetadata r.file (.incomplete fields)) := by
  obtain ⟨hsave, houtput⟩ := runNew_saved h
  obtain ⟨hb, htarget⟩ := target?_save hsave
  rw [loadPrompt_eq htarget, houtput]
  by_cases hmissing : (r.metadata today).missingRequired = []
  · rw [if_pos hmissing, List.append_nil]
    exact .inl ⟨rfl, parseContent_serialize_complete hm hb hmissing r.file⟩
  · rw [if_neg hmissing]
    exact .inr ⟨_, hmissing, rfl, parseContent_serialize_incomplete hm hmissing _ r.file⟩

/-- Strict mode takes what was written for metadata exactly when they lack no required field. It
refuses all other metadata for the fields they lack, in order. So a new file that was made without
a reminder is loaded in strict mode, and one with a reminder is refused for the fields named
there. -/
theorem parseText_strict_serialize {m : Metadata} (hm : m.ReadsAs t)
    (hb : Text.allBlank body = false) (settings : Settings) (id : String) :
    ((∃ p, parseText settings (some .strict) id (serialize m body) = .ok p) ↔
      m.missingRequired = []) ∧
    (m.missingRequired ≠ [] → parseText settings (some .strict) id (serialize m body) =
      .error (.invalidMetadata (namedSource id) (.incomplete m.missingRequired))) ∧
    m.missingRequired.Pairwise (· < ·) ∧ (∀ name, name ∈ m.missingRequired ↔ m.Lacks name) ∧
    ∀ s tree today (r : NewRequest) t', (r.metadata today).ReadsAs t' →
      (runNew s tree today r).status = 0 →
      ((runNew s tree today r).output = madeReport r.file ∧
          ∃ p, loadPrompt settings (runNew s tree today r).tree (some .strict) r.file = .ok p) ∨
        ∃ fields ≠ [], (runNew s tree today r).output = madeReport r.file ++ [reminderLine fields] ∧
          loadPrompt settings (runNew s tree today r).tree (some .strict) r.file =
            .error (.invalidMetadata r.file (.incomplete fields)) := by
  have hrefused (hmissing : m.missingRequired ≠ []) :
      parseText settings (some .strict) id (serialize m body) =
        .error (.invalidMetadata (namedSource id) (.incomplete m.missingRequired)) :=
    parseContent_serialize_incomplete hm hmissing body (namedSource id)
  refine ⟨⟨fun ⟨p, hp⟩ => ?_, fun hcomplete => ?_⟩, hrefused, m.sorted_missingRequired,
    fun _ => Metadata.mem_missingRequired, fun _ _ _ _ _ => ?_⟩
  · refine Decidable.byContradiction fun hmissing => ?_
    rw [hrefused hmissing] at hp
    cases hp
  · exact parseContent_serialize_complete hm hb hcomplete (namedSource id)
  · exact fun hr h => loadPrompt_runNew hr h settings

theorem parseText_strict_serialize_draft :
    let m : Metadata :=
      { title := some "\u2003 ", version := some "1",
        extra := [("score", .float .nan), ("sub", .table [("a", .string "x")])] }
    let s : Started := ⟨⟨none, {}, {}, {}⟩, {}, ⟨[]⟩, []⟩
    let tree := FileTree.empty ["w"]
    let today := (Calendar.Date.ofParts? 2024 2 29).get (by decide)
    let r : NewRequest :=
      { file := "a", title := some "T", description := some "D", version := some "1" }
    (∃ t, m.ReadsAs t) ∧
      parseText {} (some .strict) "" (serialize m "Hi") =
        .error (.invalidMetadata "<inline>" (.incomplete ["description", "title"])) ∧
      (∃ t, (r.metadata today).ReadsAs t) ∧ (runNew s tree today r).status = 0 ∧
      ∃ p, loadPrompt {} (runNew s tree today r).tree (some .strict) "a" = .ok p := by
  intro m s tree today r
  have hm : ∃ t, m.ReadsAs t := by decide +kernel
  have hr : ∃ t, (r.metadata today).ReadsAs t := by decide +kernel
  have hsave : save tree "a" (r.metadata today) defaultBody =
      (tree.put ["w", "a"] (.file (serialize (r.metadata today) defaultBody).toUTF8), .ok ()) :=
    save_eq (by decide) _ (by cbv) (by cbv)
  have hrun := runNew_eq s (r := r) (by cbv) hsave
  have hstatus : (runNew s tree today r).status = 0 := by rw [hrun]; rfl
  obtain ⟨t, ht⟩ := hm
  obtain ⟨t', ht'⟩ := hr
  have hbody : Text.allBlank "Hi" = false := by decide
  obtain ⟨-, hrefused, -, -, hnew⟩ := parseText_strict_serialize ht hbody {} ""
  refine ⟨⟨t, ht⟩, hrefused (by decide), ⟨t', ht'⟩, hstatus, ?_⟩
  rcases hnew s tree today r t' ht' hstatus with ⟨-, hloaded⟩ | ⟨fields, -, hreminded, -⟩
  · exact hloaded
  · have hreport : (runNew s tree today r).output = madeReport "a" := by rw [hrun]; rfl
    rw [hreport] at hreminded
    cases hreminded

end PromptFiles.Command
