import PromptFiles.Proofs.Toml.Tables
import PromptFiles.Toml.Reader

/-!
# Keys of a document

A key that is there is never added again: it is refused, or the table under it is extended in its
place, or it is moved to the end. So the table that a text denotes has each key once,
`nodup_table?`. The proof follows the document as it is built, entry by entry and section by
section. Which table it is can be found out by comparing with it, `table?_of_same`.
-/

namespace PromptFiles.Toml

namespace Node

def Distinct (es : Entries) : Prop :=
  (es.map Prod.fst).Nodup

-- ---------------------------------------------------------------------------
-- One key
-- ---------------------------------------------------------------------------

theorem Entries.find?_eq_none {es : Entries} : es.find? key = none ↔ key ∉ es.map Prod.fst := by
  induction es with
  | nil => simp [find?]
  | cons e rest ih =>
    obtain ⟨k, n⟩ := e
    unfold find?
    split <;> simp_all

theorem Entries.map_fst_replace (key : String) (node : Node) (es : Entries) :
    (es.replace key node).map Prod.fst = es.map Prod.fst := by
  induction es with
  | nil => rfl
  | cons e rest ih =>
    obtain ⟨k, n⟩ := e
    unfold replace
    split
    · rfl
    · rw [List.map_cons, List.map_cons, ih]

theorem Entries.erase_sublist (key : String) (es : Entries) : (es.erase key).Sublist es := by
  induction es with
  | nil => exact List.Sublist.refl _
  | cons e rest ih =>
    obtain ⟨k, n⟩ := e
    unfold erase
    split
    · exact List.sublist_cons_self _ _
    · exact ih.cons_cons _

theorem Entries.find?_erase {es : Entries} (h : Distinct es) : (es.erase key).find? key = none := by
  induction es with
  | nil => rfl
  | cons e rest ih =>
    obtain ⟨k, n⟩ := e
    obtain ⟨hk, hrest⟩ : k ∉ rest.map Prod.fst ∧ Distinct rest := List.nodup_cons.mp h
    unfold erase
    split
    · rename_i he
      rw [he]
      exact find?_eq_none.mpr hk
    · rename_i hne
      rw [find?, if_neg hne]
      exact ih hrest

/-- What may become of a table when something is put under a key: the key is added, its table is
extended in place, or it is moved to the end. -/
inductive Puts (key : String) (es : Entries) : Entries → Prop
  | added : es.find? key = none → Puts key es (es ++ [(key, node)])
  | replaced : Puts key es (es.replace key node)
  | moved : Puts key es (es.erase key ++ [(key, node)])

theorem Distinct.concat (h : Distinct es) (hnone : es.find? key = none) (node : Node) :
    Distinct (es ++ [(key, node)]) := by
  rw [Distinct, List.map_append]
  refine List.nodup_append.mpr ⟨h, List.pairwise_singleton _ key, ?_⟩
  rintro k hk k' hk' rfl
  rw [List.map_singleton, List.mem_singleton] at hk'
  obtain rfl : k = key := hk'
  exact Entries.find?_eq_none.mp hnone hk

theorem Distinct.puts (h : Distinct es) (hputs : Puts key es es') : Distinct es' := by
  cases hputs with
  | added hnone => exact h.concat hnone _
  | replaced => rwa [Distinct, Entries.map_fst_replace]
  | moved =>
    have herased : Distinct (es.erase key) :=
      h.sublist ((Entries.erase_sublist key es).map Prod.fst)
    exact herased.concat (Entries.find?_erase h) _

-- ---------------------------------------------------------------------------
-- Entries and headers
-- ---------------------------------------------------------------------------

theorem puts_addEntry {path : List String} (h : addEntry node path es = some es') :
    ∃ key, Puts key es es' := by
  unfold addEntry at h
  split at h
  · cases h
  · split at h
    · cases h
    · rename_i hnone
      cases h
      exact ⟨_, .added (by simpa using hnone)⟩
  · rename_i key path hpath
    refine ⟨key, ?_⟩
    split at h
    · rename_i hnone
      obtain ⟨t, -, rfl⟩ := Option.map_eq_some_iff.mp h
      exact .added hnone
    · obtain ⟨t, -, rfl⟩ := Option.map_eq_some_iff.mp h
      exact .replaced
    · split at h
      · cases h
      · obtain ⟨t, -, rfl⟩ := Option.map_eq_some_iff.mp h
        exact .replaced
    · split at h
      · cases h
      · obtain ⟨ts, -, rfl⟩ := Option.map_eq_some_iff.mp h
        exact .replaced
    · cases h

theorem puts_defineTable (h : defineTable key entries es = some es') : Puts key es es' := by
  unfold defineTable at h
  split at h
  · rename_i hnone
    obtain ⟨t, -, rfl⟩ := Option.map_eq_some_iff.mp h
    exact .added hnone
  · obtain ⟨t, -, rfl⟩ := Option.map_eq_some_iff.mp h
    exact .moved
  · cases h

theorem puts_appendTable (h : appendTable key entries es = some es') : Puts key es es' := by
  unfold appendTable at h
  split at h
  · rename_i hnone
    obtain ⟨t, -, rfl⟩ := Option.map_eq_some_iff.mp h
    exact .added hnone
  · obtain ⟨t, -, rfl⟩ := Option.map_eq_some_iff.mp h
    exact .replaced
  · cases h

/-- Along a path only the table under its first key changes. -/
theorem puts_updateAt {path : List String} (h : updateAt f path es = some es') :
    (path = [] ∧ f es = some es') ∨ ∃ key, Puts key es es' := by
  unfold updateAt at h
  split at h
  · exact .inl ⟨rfl, h⟩
  · rename_i key path
    refine .inr ⟨key, ?_⟩
    split at h
    · rename_i hnone
      obtain ⟨t, -, rfl⟩ := Option.map_eq_some_iff.mp h
      exact .added hnone
    · obtain ⟨t, -, rfl⟩ := Option.map_eq_some_iff.mp h
      exact .replaced
    · obtain ⟨ts, -, rfl⟩ := Option.map_eq_some_iff.mp h
      exact .replaced
    · cases h

theorem puts_place {s : Section} (h : s.place es = some es') : ∃ key, Puts key es es' := by
  unfold Section.place at h
  split at h
  · cases h
  · rename_i key parents _
    rcases puts_updateAt h with ⟨-, hadd⟩ | hputs
    · refine ⟨key, ?_⟩
      split at hadd
      · exact puts_appendTable hadd
      · exact puts_defineTable hadd
    · exact hputs

-- ---------------------------------------------------------------------------
-- The document
-- ---------------------------------------------------------------------------

theorem distinct_foldlM {f : Entries → α → Option Entries}
    (hf : ∀ es a es', f es a = some es' → ∃ key, Puts key es es') {l : List α} {es : Entries}
    (h : l.foldlM f es = some es') (hes : Distinct es) : Distinct es' := by
  induction l generalizing es with
  | nil =>
    cases h
    exact hes
  | cons a l ih =>
    rw [List.foldlM_cons] at h
    obtain ⟨next, hnext, hrest⟩ := Option.bind_eq_some_iff.mp h
    obtain ⟨key, hputs⟩ := hf es a next hnext
    exact ih hrest (hes.puts hputs)

theorem distinct_toEntries? {d : Document} (h : d.toEntries? = some es) : Distinct es := by
  obtain ⟨root, hroot, hsections⟩ := Option.bind_eq_some_iff.mp h
  refine distinct_foldlM (fun _ _ _ => puts_place) hsections ?_
  exact distinct_foldlM (fun _ _ _ => puts_addEntry) hroot List.nodup_nil

theorem keys_toTable? {es : Entries} {t : Table} (h : toTable? es = some t) :
    t.keys = es.map Prod.fst := by
  induction es generalizing t with
  | nil =>
    cases h
    rfl
  | cons e rest ih =>
    obtain ⟨key, node⟩ := e
    rw [toTable?] at h
    obtain ⟨v, -, h⟩ := Option.bind_eq_some_iff.mp h
    obtain ⟨t', ht', h⟩ := Option.bind_eq_some_iff.mp h
    cases h
    rw [Table.keys, List.map_cons, List.map_cons, ← ih ht', Table.keys]

end Node

theorem Reader.nodup_table? (h : table? text = some t) : t.keys.Nodup := by
  obtain ⟨es, hes, ht⟩ := Option.bind_eq_some_iff.mp h
  obtain ⟨statements, -, hes⟩ := Option.bind_eq_some_iff.mp hes
  rw [Node.keys_toTable? ht]
  exact Node.distinct_toEntries? hes

-- ---------------------------------------------------------------------------
-- Comparing tables
-- ---------------------------------------------------------------------------

/-- A value that is the same as no other one. -/
def Value.IsExact (v : Value) : Prop :=
  ∀ w, v.same w = true → w = v

theorem Value.isExact_string (s : String) : (Value.string s).IsExact := by
  intro w h
  cases w <;> simp_all [Value.same]

theorem Value.isExact_integer (i : Int64) : (Value.integer i).IsExact := by
  intro w h
  cases w <;> simp_all [Value.same]

theorem Value.isExact_datetime (d : Datetime) : (Value.datetime d).IsExact := by
  intro w h
  cases w <;> simp_all [Value.same]

theorem Table.eq_of_sameItems {t t' : Table} (ht : ∀ e ∈ t, e.2.IsExact) (hkeys : t'.keys = t.keys)
    (h : Value.sameItems (t.map Prod.snd) (t'.map Prod.snd) = true) : t' = t := by
  induction t generalizing t' with
  | nil => exact List.map_eq_nil_iff.mp hkeys
  | cons e t ih =>
    cases t' with
    | nil => cases hkeys
    | cons e' t' =>
      obtain ⟨he, ht⟩ := List.forall_mem_cons.mp ht
      obtain ⟨hkey, hkeys⟩ := List.cons.inj hkeys
      obtain ⟨hv, h⟩ := Bool.and_eq_true_iff.mp h
      rw [ih ht hkeys h, Prod.ext hkey (he _ hv)]

/-- To find out which table a text denotes it is enough to compare keys and values. -/
theorem Reader.table?_of_same {t : Table} (ht : ∀ e ∈ t, e.2.IsExact)
    (h : ((Reader.table? text).any fun t' =>
      t'.keys == t.keys && Value.sameItems (t.map Prod.snd) (t'.map Prod.snd)) = true) :
    Reader.table? text = some t := by
  cases hread : Reader.table? text with
  | none =>
    rw [hread] at h
    cases h
  | some t' =>
    rw [hread, Option.any_some, Bool.and_eq_true, beq_iff_eq] at h
    rw [Table.eq_of_sameItems ht h.1 h.2]

end PromptFiles.Toml
