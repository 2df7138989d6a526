/-!
# Up to the first error

A list is gone through up to the first element that has an error, which is then the error of the
whole: `mapM_eq_ok_iff` and `mapM_eq_error_iff`.
-/

namespace PromptFiles

theorem map_eq_ok_iff {f : α → β} {r : Except ε α} {b : β} :
    r.map f = .ok b ↔ ∃ a, r = .ok a ∧ f a = b := by
  cases r <;> simp [Except.map]

theorem map_eq_error_iff {f : α → β} {r : Except ε α} {e : ε} :
    r.map f = .error e ↔ r = .error e := by
  cases r <;> simp [Except.map]

theorem mapM_eq_ok_iff {f : α → Except ε β} {l : List α} {bs : List β} :
    l.mapM f = .ok bs ↔ l.map f = bs.map .ok := by
  induction l generalizing bs with
  | nil => cases bs <;> simp [pure, Except.pure]
  | cons a l ih =>
    rw [List.mapM_cons, List.map_cons]
    cases ha : f a with
    | error e => cases bs <;> simp [bind, Except.bind]
    | ok b =>
      cases bs with
      | nil => cases l.mapM f <;> simp [bind, Except.bind, pure, Except.pure]
      | cons b' bs =>
        rw [List.map_cons, List.cons.injEq, ← ih]
        cases l.mapM f <;> simp [bind, Except.bind, pure, Except.pure]

theorem mapM_eq_error {f : α → Except ε β} {l : List α} {e : ε} (h : l.mapM f = .error e) :
    ∃ before a after, l = before ++ a :: after ∧ (∀ b ∈ before, (f b).isOk = true) ∧
      f a = .error e := by
  induction l with
  | nil => cases h
  | cons a l ih =>
    rw [List.mapM_cons] at h
    cases ha : f a with
    | error e' =>
      rw [ha] at h
      cases h
      exact ⟨[], a, l, rfl, by simp, ha⟩
    | ok b =>
      rw [ha] at h
      cases hl : l.mapM f with
      | ok bs =>
        rw [hl] at h
        cases h
      | error e' =>
        rw [hl] at h
        cases h
        obtain ⟨before, a', after, rfl, hbefore, ha'⟩ := ih hl
        refine ⟨a :: before, a', after, rfl, ?_, ha'⟩
        rintro c (_ | ⟨_, hc⟩)
        · rw [ha]
          rfl
        · exact hbefore c hc

theorem exists_map_ok_iff {results : List (Except ε β)} :
    (∃ bs : List β, results = bs.map .ok) ↔ ∀ r ∈ results, r.isOk = true := by
  constructor
  · rintro ⟨bs, rfl⟩ r hr
    obtain ⟨b, -, rfl⟩ := List.mem_map.mp hr
    rfl
  · intro h
    induction results with
    | nil => exact ⟨[], rfl⟩
    | cons r rest ih =>
      obtain ⟨bs, rfl⟩ := ih fun r hr => h r (List.mem_cons_of_mem _ hr)
      have hr := h r List.mem_cons_self
      cases r with
      | ok b => exact ⟨b :: bs, rfl⟩
      | error e => cases hr

theorem exists_mapM_ok {f : α → Except ε β} {l : List α} (h : ∀ a ∈ l, (f a).isOk = true) :
    ∃ bs, l.mapM f = .ok bs := by
  obtain ⟨bs, hbs⟩ := exists_map_ok_iff.mpr (List.forall_mem_map.mpr h)
  exact ⟨bs, mapM_eq_ok_iff.mpr hbs⟩

theorem mapM_of_error {f : α → Except ε β} {before : List α} {a : α} {e : ε}
    (hbefore : ∀ b ∈ before, (f b).isOk = true) (ha : f a = .error e) (after : List α) :
    (before ++ a :: after).mapM f = .error e := by
  induction before with
  | nil =>
    rw [List.nil_append, List.mapM_cons, ha]
    rfl
  | cons b before ih =>
    have hb := hbefore b List.mem_cons_self
    rw [List.cons_append, List.mapM_cons, ih fun c hc => hbefore c (List.mem_cons_of_mem _ hc)]
    cases hfb : f b with
    | ok _ => rfl
    | error _ =>
      rw [hfb] at hb
      cases hb

theorem mapM_eq_error_iff {f : α → Except ε β} {l : List α} {e : ε} :
    l.mapM f = .error e ↔ ∃ before a after, l = before ++ a :: after ∧
      (∀ b ∈ before, (f b).isOk = true) ∧ f a = .error e := by
  refine ⟨mapM_eq_error, ?_⟩
  rintro ⟨before, a, after, rfl, hbefore, ha⟩
  exact mapM_of_error hbefore ha after

end PromptFiles
