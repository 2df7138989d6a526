import PromptFiles.Proofs.Prompt.Located
import PromptFiles.Proofs.Prompt.Modes
import PromptFiles.Proofs.Prompt.Resave
import PromptFiles.Prompt.Save

/-!
# Saved prompts in strict mode

What was saved is what is read under the same path: `target?_save`. Strict mode takes a saved
prompt whose metadata lack no required field, and of any other it names the fields that are
lacking (`parseContent_serialize_complete` and `parseContent_serialize_incomplete`). A field that
is absent is written as an empty text, and both count as lacking.
-/

namespace PromptFiles

open FrontMatter (filled serialize split_serialize_whole)

-- ---------------------------------------------------------------------------
-- Required fields
-- ---------------------------------------------------------------------------

theorem missingRequired_filled (m : Metadata) (extra : Toml.Table) :
    (filled m extra).missingRequired = m.missingRequired := by
  have hrequired : (filled m extra).required =
      m.required.map fun e => (e.1, some (e.2.getD "")) := rfl
  rw [Metadata.missingRequired, hrequired, List.filter_map, List.map_map]
  simp only [Function.comp_def, blankField_filled, Metadata.missingRequired]

theorem readParts_strict_readsAs {m : Metadata} (hm : m.ReadsAs t) (body id : String) :
    readParts .strict id (serialize m body) =
      if m.missingRequired = [] then
        .ok (filled m (t.filter fun e => !Metadata.standardFields.contains e.1), "\n" ++ body)
      else .error (.invalidMetadata id (.incomplete m.missingRequired)) := by
  rw [readParts_header (by decide) (split_serialize_whole hm.no_delimiter body),
    FrontMatter.decode_strict (decode_readsAs hm), FrontMatter.check_strict,
    missingRequired_filled]
  split <;> rfl

theorem parseContent_serialize_complete {m : Metadata} (hm : m.ReadsAs t)
    (hb : Text.allBlank body = false) (hcomplete : m.missingRequired = []) (id : String) :
    ∃ p, parseContent .strict id (serialize m body) = .ok p := by
  have hparts := readParts_strict_readsAs hm body id
  rw [if_pos hcomplete] at hparts
  have hbody : Text.allBlank (normalBody ("\n" ++ body)) = false := by
    rw [normalBody_newline]
    exact normalBody_notBlank hb
  exact ⟨_, parseContent_eq_ok_iff.mpr
    ⟨serialize_notBlank m body, _, _, hparts, hbody, rfl⟩⟩

theorem parseContent_serialize_incomplete {m : Metadata} (hm : m.ReadsAs t)
    (hmissing : m.missingRequired ≠ []) (body id : String) :
    parseContent .strict id (serialize m body) =
      .error (.invalidMetadata id (.incomplete m.missingRequired)) := by
  have hparts := readParts_strict_readsAs hm body id
  rw [if_neg hmissing] at hparts
  exact parseContent_error (serialize_notBlank m body) hparts

-- ---------------------------------------------------------------------------
-- Files
-- ---------------------------------------------------------------------------

theorem target?_writePrompt {path : String} (h : writePrompt t path m body = (t', .ok ())) :
    t'.target? path = some (.file (serialize m body).toUTF8) := by
  unfold writePrompt at h
  split at h
  · cases h
  · split at h
    · cases h
      exact FileTree.target?_writeText ‹_›
    · cases h

theorem save_eq {path : String} (hb : Text.allBlank body = false) (m : Metadata)
    (hparents : t.makeParents path = (t', .ok ())) (hplace : t'.writePlace path = .ok place) :
    save t path m body = (t'.put place (.file (serialize m body).toUTF8), .ok ()) := by
  have hwrite (text : String) :
      t'.writeText path text = .ok (t'.put place (.file text.toUTF8)) := by
    rw [FileTree.writeText, FileTree.writeBytes, hplace, Except.map]
  rw [save, create_ok hb]
  simp only [savePrompt, writePrompt, hparents, hwrite]

theorem target?_save {path : String} (h : save t path m body = (t', .ok ())) :
    Text.allBlank body = false ∧ t'.target? path = some (.file (serialize m body).toUTF8) := by
  unfold save at h
  split at h
  · rename_i hp
    obtain ⟨hb, rfl⟩ := create_eq_ok_iff.mp hp
    exact ⟨hb, target?_writePrompt h⟩
  · cases h

end PromptFiles
