import PromptFiles.Prompt.Parse
import PromptFiles.Proofs.Text.Margin

/-!
# Bodies of prompts

The body of a prompt has lost its margin and the blank characters at its ends, and both
are gone for good: `normalBody_parsed`.
-/

namespace PromptFiles

theorem toList_normalBody (body : String) :
    (normalBody body).toList = Text.trim (Text.dedent body.toList) := by
  rw [normalBody, Text.trimmed, Text.dedented, String.toList_ofList, String.toList_ofList]

theorem trimmed_normalBody (body : String) : Text.trimmed (normalBody body) = normalBody body := by
  rw [← String.toList_inj, Text.trimmed, String.toList_ofList, toList_normalBody, Text.trim_trim]

theorem dedented_normalBody (body : String) :
    Text.dedented (normalBody body) = normalBody body := by
  rw [← String.toList_inj, Text.dedented, String.toList_ofList, toList_normalBody,
    Text.dedent_trim (Text.tidy_dedent body.toList)]

theorem normalBody_normalBody (body : String) : normalBody (normalBody body) = normalBody body := by
  conv => lhs; rw [normalBody]
  rw [dedented_normalBody, trimmed_normalBody]

theorem normalBody_newline (body : String) : normalBody ("\n" ++ body) = normalBody body := by
  have htext : ("\n" ++ body).toList = '\n' :: body.toList := by simp
  rw [← String.toList_inj, toList_normalBody, toList_normalBody, htext, Text.dedent_newline]
  exact Text.trim_blank_append Text.isBlank_newline _

theorem normalBody_notBlank (h : Text.allBlank body = false) :
    Text.allBlank (normalBody body) = false := by
  obtain ⟨c, hc, hb⟩ := List.all_eq_false.mp h
  have hb : Text.isBlank c = false := by simpa using hb
  rw [Text.allBlank, toList_normalBody]
  exact List.all_eq_false.mpr ⟨c, Text.mem_trim (Text.mem_dedent hc hb) hb, by simp [hb]⟩

theorem exists_ok {x : Except ε α} (h : x.isOk = true) : ∃ a, x = .ok a := by
  cases x with
  | error e => cases h
  | ok a => exact ⟨a, rfl⟩

theorem create_ok (h : Text.allBlank body = false) (path : String) (m : Metadata) :
    Prompt.create path m body = .ok ⟨path, m, body, h⟩ := by
  rw [Prompt.create, Prompt.ofParts?, dif_pos h]

theorem create_eq_ok_iff : Prompt.create path m body = .ok p ↔
    ∃ h : Text.allBlank body = false, p = ⟨path, m, body, h⟩ := by
  constructor
  · intro h
    by_cases hb : Text.allBlank body = false
    · rw [create_ok hb] at h
      cases h
      exact ⟨hb, rfl⟩
    · rw [Prompt.create, Prompt.ofParts?, dif_neg hb] at h
      cases h
  · rintro ⟨h, rfl⟩
    exact create_ok h path m

theorem parseContent_eq_ok_iff {id : String} : parseContent mode id text = .ok p ↔
    Text.allBlank text = false ∧ ∃ m body, readParts mode id text = .ok (m, body) ∧
      ∃ h : Text.allBlank (normalBody body) = false,
        p = ⟨id, m.titled id, normalBody body, h⟩ := by
  unfold parseContent
  cases hb : Text.allBlank text with
  | true => simp
  | false =>
    cases hr : readParts mode id text with
    | error e => simp
    | ok parts =>
      obtain ⟨m, body⟩ := parts
      simp only [Bool.false_eq_true, ↓reduceIte, create_eq_ok_iff, true_and]
      constructor
      · rintro ⟨h, rfl⟩
        exact ⟨m, body, rfl, h, rfl⟩
      · rintro ⟨m', body', hparts, h, rfl⟩
        cases hparts
        exact ⟨h, rfl⟩

/-- In every mode the body of a parsed prompt is as the normal form leaves it. -/
theorem normalBody_parsed {id : String} (h : parseContent mode id text = .ok p) :
    normalBody p.body = p.body := by
  obtain ⟨-, m, body, -, hb, rfl⟩ := parseContent_eq_ok_iff.mp h
  exact normalBody_normalBody body

end PromptFiles
