import PromptFiles.Config.Basic
import PromptFiles.Proofs.FileTree.Walks

/-!
# What a loaded configuration says

A configuration that loads is the default one, if none was asked for and there is none, or else
that of a file which was read and parsed, and its version is 1: `load_eq_ok_iff`. Its settings for
metadata are those of the keys in the file, and a key that is left out is not the same as one that
cannot be read: `parse?_metadata`.
-/

namespace PromptFiles.Config

open Toml (Node)

variable {t : FileTree} {env : Environment}

-- ---------------------------------------------------------------------------
-- Files
-- ---------------------------------------------------------------------------

inductive Found (t : FileTree) (env : Environment) (path : Option String) :
    Option String → File → Prop where
  | none : path = none → t.exists? (defaultPath env) = false → Found t env path none {}
  | file : path.getD (defaultPath env) = place → t.exists? place = true →
      t.readText place = .ok text → parse? text = some f → Found t env path (some place) f

theorem exists?_defaultPath (hat : t.lookup t.current = some .directory)
    (hnone : t.lookup (t.current ++ ["~"]) = none) : t.exists? (defaultPath {}) = false := by
  have hpath : defaultPath {} = "~/.config/textprompts/config.toml" := by decide +kernel
  have hpieces : Path.pieces "~/.config/textprompts/config.toml" =
      ["~", ".config", "textprompts", "config.toml"] := by decide +kernel
  have hresolve : t.resolve true "~/.config/textprompts/config.toml" = .error .notFound :=
    FileTree.resolve_beyond (by decide +kernel) (by decide +kernel) hpieces (by simp)
      (by decide +kernel) hat hnone
  rw [hpath, FileTree.exists?, FileTree.target?, hresolve]
  rfl

theorem ofFile_eq_ok {source : Option String} (h : ofFile env source f = .ok c) :
    f.version = 1 ∧ c.source = source ∧ c.metadata = f.metadata ∧ c.loading = f.loading := by
  unfold ofFile at h
  split at h
  · cases h
  · rename_i hversion
    have hversion := Decidable.not_not.mp hversion
    split at h
    · cases h
      exact ⟨hversion, rfl, rfl, rfl⟩
    · split at h
      · cases h
        exact ⟨hversion, rfl, rfl, rfl⟩
      · cases h

/-- A file that is missing, unreadable or no configuration is never loaded. -/
theorem load_eq_ok_iff {path : Option String} :
    load t env path = .ok c ↔
      ∃ source f, Found t env path source f ∧ ofFile env source f = .ok c := by
  constructor
  · intro h
    simp only [load] at h
    split at h
    · rename_i hthere
      split at h
      · cases h
      · rename_i hpath
        have hpath : path = none := by simpa using hpath
        subst hpath
        exact ⟨none, {}, .none rfl (by simpa using hthere), h⟩
    · rename_i hthere
      split at h
      · cases h
      · split at h
        · cases h
        · exact ⟨_, _, .file rfl (by simpa using hthere) ‹_› ‹_›, h⟩
  · rintro ⟨source, f, hfound, h⟩
    cases hfound with
    | none hpath hnone =>
      subst hpath
      simp [load, hnone, h]
    | file hplace hthere hread hparse =>
      subst hplace
      simp [load, hthere, hread, hparse, h]

-- ---------------------------------------------------------------------------
-- Settings
-- ---------------------------------------------------------------------------

def ReadAs (member : Option Node) (decode : Node → Option α) (default value : α) : Prop :=
  (member = none ∧ value = default) ∨ ∃ node, member = some node ∧ decode node = some value

theorem optional_eq_some_iff {node : Node} {decode : Node → Option α} {default value : α} :
    optional node key index decode default = some value ↔
      ReadAs (member? node key index) decode default value := by
  unfold optional ReadAs
  cases member? node key index <;> simp [eq_comm]

theorem metadata?_eq_some (h : metadata? node = some m) :
    ReadAs (member? node "mode" 0) (fun n => (mode? n).map some) none m.mode ∧
      ReadAs (member? node "warn_on_ignored" 1) boolean? true m.warnOnIgnored := by
  unfold metadata? at h
  split at h
  · simp only [Option.bind_eq_bind, Option.bind_eq_some_iff, Option.pure_def] at h
    obtain ⟨mode, hmode, warn, hwarn, hm⟩ := h
    cases hm
    exact ⟨optional_eq_some_iff.mp hmode, optional_eq_some_iff.mp hwarn⟩
  · cases h

/-- What a file has under a key of its metadata table, or in the place of the key. -/
def metadataMember? (text key : String) (index : Nat) : Option Node :=
  ((Toml.Reader.entries? text).bind fun entries => member? (.braces entries) "metadata" 1).bind
    (member? · key index)

theorem parse?_metadata (h : parse? text = some f) :
    ReadAs (metadataMember? text "mode" 0) (fun n => (mode? n).map some) none f.metadata.mode ∧
      ReadAs (metadataMember? text "warn_on_ignored" 1) boolean? true f.metadata.warnOnIgnored := by
  unfold parse? at h
  obtain ⟨entries, hentries, h⟩ := Option.bind_eq_some_iff.mp h
  simp only [ofEntries?] at h
  split at h
  · simp only [Option.bind_eq_bind, Option.bind_eq_some_iff, Option.pure_def] at h
    obtain ⟨version, -, metadata, hmetadata, loading, -, logging, -, hf⟩ := h
    cases hf
    simp only [metadataMember?, hentries, Option.bind_some]
    rcases optional_eq_some_iff.mp hmetadata with ⟨hnone, rfl⟩ | ⟨node, hnode, hdecode⟩
    · rw [hnone]
      exact ⟨.inl ⟨rfl, rfl⟩, .inl ⟨rfl, rfl⟩⟩
    · rw [hnode]
      exact metadata?_eq_some hdecode
  · cases h

end PromptFiles.Config
