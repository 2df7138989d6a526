import PromptFiles.Proofs.FrontMatter.Header

/-!
# Decoded metadata

Whatever the keys of the header, no standard key is among the other keys of the metadata:
`extra_decode`. Strict decoding is allowing decoding with one check after it (`decode_strict`),
and the check names the required fields that are lacking (`mem_missingRequired`).
-/

namespace PromptFiles

/-- A required field that is absent or blank. -/
def Metadata.Lacks (m : Metadata) (name : String) : Prop :=
  ∃ value, (name, value) ∈ m.required ∧ ∀ s, value = some s → Text.allBlank s = true

theorem Metadata.mem_missingRequired {m : Metadata} : name ∈ m.missingRequired ↔ m.Lacks name := by
  have hblank (value : Option String) :
      blankField value = true ↔ ∀ s, value = some s → Text.allBlank s = true := by
    cases value <;> simp [blankField]
  simp only [missingRequired, List.mem_map, List.mem_filter, hblank, Lacks]
  constructor
  · rintro ⟨⟨n, value⟩, ⟨hmem, hvalue⟩, rfl⟩
    exact ⟨value, hmem, hvalue⟩
  · rintro ⟨value, hmem, hvalue⟩
    exact ⟨(name, value), ⟨hmem, hvalue⟩, rfl⟩

theorem Metadata.sorted_missingRequired (m : Metadata) :
    m.missingRequired.Pairwise (· < ·) := by
  have hrequired : (m.required.map Prod.fst).Pairwise (· < ·) := by
    simp only [required, List.map_cons, List.map_nil]
    decide
  exact hrequired.sublist (List.filter_sublist.map Prod.fst)

namespace FrontMatter

open Toml (Table)
open Metadata (standardFields)

theorem bind_ok {x : Except ε α} {f : α → Except ε β} :
    x >>= f = .ok b ↔ ∃ a, x = .ok a ∧ f a = .ok b := by
  cases x <;> simp [bind, Except.bind]

theorem enter_error (m : Metadata) (hk : k ∈ textFields) (hv : stringOf? v = none) :
    enter m k v = .error (.invalidField k) := by
  simp only [textFields, List.mem_cons, List.not_mem_nil, or_false] at hk
  rcases hk with rfl | rfl | rfl | rfl <;> simp [enter, textField, hv, Except.map]

theorem extra_enter (h : enter m k v = .ok m') :
    m'.extra = m.extra ++ [(k, v)].filter fun e => !standardFields.contains e.1 := by
  by_cases hv : k ∈ textFields → (stringOf? v).isSome = true
  · rw [enter_eq m hv] at h
    cases h
    rfl
  · obtain ⟨hk, hnone⟩ := Classical.not_imp.mp hv
    rw [enter_error m hk (by simpa using hnone)] at h
    cases h

theorem extra_enterAll {t : Table} (h : enterAll m t = .ok m') :
    m'.extra = m.extra ++ t.filter fun e => !standardFields.contains e.1 := by
  induction t generalizing m with
  | nil =>
    cases h
    simp
  | cons e rest ih =>
    obtain ⟨k, v⟩ := e
    rw [enterAll, bind_ok] at h
    obtain ⟨next, he, hrest⟩ := h
    rw [ih hrest, extra_enter he, List.append_assoc, ← List.filter_append, List.singleton_append]

theorem check_allow (m : Metadata) : check .allow m = .ok m := by
  simp [check]

theorem check_eq_ok (h : check mode m = .ok m') : m' = m := by
  unfold check at h
  split at h
  · cases h
  · cases h
    rfl

theorem check_strict (m : Metadata) :
    check .strict m =
      if m.missingRequired = [] then .ok m else .error (.incomplete m.missingRequired) := by
  by_cases hm : m.missingRequired = [] <;> simp [check, hm]

theorem decode_eq_ok_iff : decode mode header = .ok m ↔
    ∃ t, Toml.Reader.table? header = some t ∧ enterAll {} t = .ok m ∧ check mode m = .ok m := by
  unfold decode
  cases Toml.Reader.table? header with
  | none => simp
  | some t =>
    simp only [decodeTable, bind_ok, Option.some.injEq, exists_eq_left']
    constructor
    · rintro ⟨entered, he, hc⟩
      obtain rfl := check_eq_ok hc
      exact ⟨he, hc⟩
    · rintro ⟨he, hc⟩
      exact ⟨m, he, hc⟩

theorem decode_strict (h : decode .allow header = .ok m) :
    decode .strict header = check .strict m := by
  obtain ⟨t, ht, he, -⟩ := decode_eq_ok_iff.mp h
  simp [decode, ht, decodeTable, he, bind, Except.bind]

theorem decode_allow (h : decode .strict header = .ok m) : decode .allow header = .ok m := by
  obtain ⟨t, ht, he, -⟩ := decode_eq_ok_iff.mp h
  exact decode_eq_ok_iff.mpr ⟨t, ht, he, check_allow m⟩

theorem extra_decode (h : decode mode header = .ok m) :
    ∀ key ∈ m.extra.keys, key ∉ standardFields := by
  obtain ⟨t, -, he, -⟩ := decode_eq_ok_iff.mp h
  intro key hkey
  rw [extra_enterAll he] at hkey
  obtain ⟨e, hmem, rfl⟩ := List.mem_map.mp hkey
  simpa using (List.mem_filter.mp hmem).2

end FrontMatter

end PromptFiles
