import Mathlib.Logic.Basic

/-! # Runs of operations

A system with states `S` and operations `A`, each of which yields the next state or fails.
A run stops at the first operation that fails. -/

namespace Jayvee.Foundation

variable {S A E : Type} (step : S → A → Except E S)

/-- `P` holds of every state that the run of `operations` from `s` reaches. -/
def EveryState (P : S → Prop) : (s : S) → (operations : List A) → Prop
  | s, [] => P s
  | s, operation :: operations =>
      P s ∧ ∀ t, step s operation = .ok t → EveryState P t operations

/-- `P` holds of every state and operation that the run of `operations` from `s` makes a step
with. -/
def EveryStep (P : S → A → Prop) : (s : S) → (operations : List A) → Prop
  | _, [] => True
  | s, operation :: operations =>
      ∀ t, step s operation = .ok t → P s operation ∧ EveryStep P t operations

variable {step} {P Q : S → Prop} {C : S → A → Prop}

theorem EveryState.head {s : S} {operations : List A} (h : EveryState step P s operations) :
    P s := by
  cases operations with
  | nil => exact h
  | cons operation operations => exact h.1

/-- If a step keeps `P` exactly under a condition, and `Q` wherever it keeps `P`, then `P` holds
in every state of a run exactly if every step of the run meets the condition. -/
theorem everyState_iff_everyStep {s : S} {operations : List A} (hP : P s) (hQ : Q s)
    (hstep : ∀ s t, ∀ operation ∈ operations, P s → Q s → step s operation = .ok t →
      (P t ↔ C s operation) ∧ (P t → Q t)) :
    EveryState step P s operations ↔ EveryStep step C s operations := by
  induction operations generalizing s with
  | nil => simp [EveryState, EveryStep, hP]
  | cons operation operations ih =>
      have hrest : ∀ s t, ∀ later ∈ operations, P s → Q s → step s later = .ok t →
          (P t ↔ C s later) ∧ (P t → Q t) :=
        fun s t later hlater => hstep s t later (List.mem_cons_of_mem _ hlater)
      constructor
      · rintro ⟨_, h⟩ t ht
        obtain ⟨hiff, hkeeps⟩ := hstep s t operation List.mem_cons_self hP hQ ht
        have hPt := (h t ht).head
        exact ⟨hiff.mp hPt, (ih hPt (hkeeps hPt) hrest).mp (h t ht)⟩
      · intro h
        refine ⟨hP, fun t ht => ?_⟩
        obtain ⟨hiff, hkeeps⟩ := hstep s t operation List.mem_cons_self hP hQ ht
        obtain ⟨hC, hsteps⟩ := h t ht
        have hPt := hiff.mpr hC
        exact (ih hPt (hkeeps hPt) hrest).mpr hsteps

/-! ## Runs of changes -/

/-- The `operations` lead from one state to another, where an operation may lead to several. -/
inductive Leads (change : A → S → S → Prop) : (operations : List A) → S → S → Prop where
  | nil (s : S) : Leads change [] s s
  | cons {operation : A} {operations : List A} {s t u : S} (hchange : change operation s t)
      (hrest : Leads change operations t u) : Leads change (operation :: operations) s u

section Leads

variable {change : A → S → S → Prop} {operations : List A} {s u : S}

theorem Leads.split {earlier later : List A} (h : Leads change (earlier ++ later) s u) :
    ∃ t, Leads change earlier s t ∧ Leads change later t u := by
  induction earlier generalizing s with
  | nil => exact ⟨s, .nil s, h⟩
  | cons operation earlier ih =>
      obtain _ | ⟨hchange, hrest⟩ := h
      obtain ⟨t, hearlier, hlater⟩ := ih hrest
      exact ⟨t, .cons hchange hearlier, hlater⟩

/-- What every operation keeps is kept. -/
theorem Leads.keeps (h : Leads change operations s u)
    (hkeeps : ∀ operation ∈ operations, ∀ s t, change operation s t → P s → P t) (hs : P s) :
    P u := by
  induction h with
  | nil => exact hs
  | cons hchange _ ih =>
      rw [List.forall_mem_cons] at hkeeps
      exact ih hkeeps.2 (hkeeps.1 _ _ hchange hs)

end Leads

end Jayvee.Foundation
