import Jayvee.Foundation.Exec

/-! # Programs that report their failures

The store is the list of what was reported so far. -/

namespace Jayvee.Foundation

namespace Exec

variable {γ ε α β : Type} {Q : γ → Prop}

/-- Only entries with `Q` are reported, and the result, where there is one, has the property. -/
def Adds (Q : γ → Prop) (G : α → Prop) (m : Exec (List γ) ε α) : Prop :=
  ∀ s r t, m s = some (r, t) →
    ∃ log, t = s ++ log ∧ (∀ entry ∈ log, Q entry) ∧ ∀ a, r = .ok a → G a

/-- Only entries with `Q` are reported, and the result is a failure if and only if there is
such an entry. -/
def ReportsIff (Q : γ → Prop) (F : α → Prop) (m : Exec (List γ) ε α) : Prop :=
  ∀ s r t, m s = some (r, t) →
    ∃ log, t = s ++ log ∧ (∀ entry ∈ log, Q entry) ∧ ∀ a, r = .ok a → (F a ↔ log ≠ [])

/-- Everything in `s` is also in `t`. -/
def Kept (s t : List γ) : Prop :=
  s ⊆ t

instance : Std.Refl (Kept (γ := γ)) :=
  ⟨List.Subset.refl⟩

instance : IsTrans (List γ) Kept :=
  ⟨fun _ _ _ => List.Subset.trans⟩

/-! ## Results with a property -/

namespace Adds

variable {F : α → Prop} {G : β → Prop}

theorem pure {a : α} (h : F a) : Adds Q F (pure a : Exec (List γ) ε α) := by
  intro s r t hrun
  cases hrun
  exact ⟨[], by simp, by simp, fun b hb => by cases hb; exact h⟩

theorem bind {m : Exec (List γ) ε α} {f : α → Exec (List γ) ε β} (hm : ReportsIff Q F m)
    (hf : ∀ a, Adds Q G (f a)) : Adds Q G (m >>= f) := by
  intro s r t hrun
  rcases bind_eq_some_iff.mp hrun with ⟨a, u, hfirst, hsecond⟩ | ⟨e, hfirst, rfl⟩
  · obtain ⟨log, rfl, hlog, _⟩ := hm s _ u hfirst
    obtain ⟨log', rfl, hlog', hresult⟩ := hf a _ r t hsecond
    refine ⟨log ++ log', by simp, fun entry hentry => ?_, hresult⟩
    exact (List.mem_append.mp hentry).elim (hlog entry) (hlog' entry)
  · obtain ⟨log, rfl, hlog, _⟩ := hm s _ t hfirst
    exact ⟨log, rfl, hlog, fun a h => by cases h⟩

end Adds

/-! ## Failures -/

namespace ReportsIff

variable {F : α → Prop} {G : β → Prop}

theorem pure {a : α} (h : ¬ F a) : ReportsIff Q F (pure a : Exec (List γ) ε α) := by
  intro s r t hrun
  cases hrun
  exact ⟨[], by simp, by simp, fun b hb => by cases hb; simpa using h⟩

theorem throw (e : ε) : ReportsIff Q F (throw e : Exec (List γ) ε α) := by
  intro s r t hrun
  cases hrun
  exact ⟨[], by simp, by simp, fun b hb => by cases hb⟩

theorem ofExcept {r : Except ε α} (h : ∀ a, r = .ok a → ¬ F a) :
    ReportsIff Q F (ofExcept r : Exec (List γ) ε α) := by
  intro s r' t hrun
  cases hrun
  exact ⟨[], by simp, by simp, fun a ha => by simpa using h a ha⟩

theorem report {entry : γ} (h : Q entry) :
    ReportsIff Q (fun _ => True) (modify (fun s => s ++ [entry]) : Exec (List γ) ε Unit) := by
  intro s r t hrun
  cases hrun
  exact ⟨[entry], rfl, by simpa using h, by simp⟩

theorem ite {c : Prop} [Decidable c] {m m' : Exec (List γ) ε α} (hm : c → ReportsIff Q F m)
    (hm' : ¬ c → ReportsIff Q F m') : ReportsIff Q F (if c then m else m') := by
  split
  · exact hm ‹_›
  · exact hm' ‹_›

/-- A failure of the first part is one of the whole program. -/
theorem bind {m : Exec (List γ) ε α} {f : α → Exec (List γ) ε β} (hm : ReportsIff Q F m)
    (hf : ∀ a, ¬ F a → ReportsIff Q G (f a)) (hfail : ∀ a, F a → Adds Q G (f a)) :
    ReportsIff Q G (m >>= f) := by
  intro s r t hrun
  rcases bind_eq_some_iff.mp hrun with ⟨a, u, hfirst, hsecond⟩ | ⟨e, hfirst, rfl⟩
  · obtain ⟨log, rfl, hlog, hfailed⟩ := hm s _ u hfirst
    by_cases ha : F a
    · obtain ⟨log', rfl, hlog', hresult⟩ := hfail a ha _ r t hsecond
      refine ⟨log ++ log', by simp, fun entry hentry => ?_, fun b hb => ?_⟩
      · exact (List.mem_append.mp hentry).elim (hlog entry) (hlog' entry)
      · have hne : log ≠ [] := (hfailed a rfl).mp ha
        exact iff_of_true (hresult b hb) (by simp [hne])
    · have hnil : log = [] := by
        by_contra hne
        exact ha ((hfailed a rfl).mpr hne)
      subst hnil
      simpa using hf a ha _ r t hsecond
  · obtain ⟨log, rfl, hlog, _⟩ := hm s _ t hfirst
    exact ⟨log, rfl, hlog, fun a h => by cases h⟩

/-- What was reported before stays reported. -/
theorem moves {m : Exec (List γ) ε α} (h : ReportsIff Q F m) : Moves Kept m := by
  intro s r t hrun
  obtain ⟨log, rfl, _⟩ := h s r t hrun
  exact List.subset_append_left s log

end ReportsIff

theorem Yields.kept {m : Exec (List γ) ε α} {r : Except ε α} (h : Yields m r) : Moves Kept m := by
  obtain ⟨log, hlog⟩ := h
  intro s r t hrun
  cases (hlog s).symm.trans hrun
  exact List.subset_append_left s log

/-! ## Passed checks -/

theorem Moves.forEach_of_mem {R : γ → γ → Prop} [Std.Refl R] [IsTrans γ R] {xs : List β}
    {body : β → Exec γ ε Unit} (h : ∀ x ∈ xs, Moves R (body x)) :
    Moves R (Exec.forEach xs body) := by
  induction xs with
  | nil => exact Moves.pure ()
  | cons x xs ih =>
      rw [List.forall_mem_cons] at h
      exact Moves.bind h.1 fun _ => ih h.2

/-- Some run of the check returns `a` and ends without an entry that is forbidden. -/
def Passes (Q : γ → Prop) (m : Exec (List γ) ε α) (a : α) : Prop :=
  ∃ s t, m s = some (.ok a, t) ∧ ∀ entry ∈ t, ¬ Q entry

namespace Passes

theorem not_report {entry : γ} (hentry : Q entry) :
    ¬ Passes Q (modify (fun s => s ++ [entry]) : Exec (List γ) ε Unit) () := by
  rintro ⟨s, t, hrun, hno⟩
  cases hrun
  exact hno entry (by simp) hentry

/-- A check that is passed consists of checks that are, if none withdraws an entry. -/
theorem bind {m : Exec (List γ) ε α} {f : α → Exec (List γ) ε β} {b : β}
    (h : Passes Q (m >>= f) b) (hf : ∀ a, Moves Kept (f a)) :
    ∃ a, Passes Q m a ∧ Passes Q (f a) b := by
  obtain ⟨s, t, hrun, hno⟩ := h
  obtain ⟨a, u, hfirst, hsecond⟩ := bind_eq_ok_iff.mp hrun
  have hkept : u ⊆ t := hf a u _ t hsecond
  exact ⟨a, ⟨s, u, hfirst, fun entry hentry => hno entry (hkept hentry)⟩, u, t, hsecond, hno⟩

/-- The last part of a check that is passed. -/
theorem bind_last {m : Exec (List γ) ε α} {f : α → Exec (List γ) ε β} {b : β}
    (h : Passes Q (m >>= f) b) : ∃ a s t, m s = some (.ok a, t) ∧ Passes Q (f a) b := by
  obtain ⟨s, t, hrun, hno⟩ := h
  obtain ⟨a, u, hfirst, hsecond⟩ := bind_eq_ok_iff.mp hrun
  exact ⟨a, s, u, hfirst, u, t, hsecond, hno⟩

theorem forEach {xs : List β} {body : β → Exec (List γ) ε Unit}
    (h : Passes Q (Exec.forEach xs body) ()) (hbody : ∀ x ∈ xs, Moves Kept (body x)) :
    ∀ x ∈ xs, Passes Q (body x) () := by
  induction xs with
  | nil => simp
  | cons x xs ih =>
      rw [List.forall_mem_cons] at hbody
      rw [forEach_cons] at h
      obtain ⟨_, hfirst, hrest⟩ := h.bind fun _ => Moves.forEach_of_mem hbody.2
      rw [List.forall_mem_cons]
      exact ⟨hfirst, ih hrest hbody.2⟩

end Passes

end Exec

end Jayvee.Foundation
