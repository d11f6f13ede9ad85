import Mathlib.Order.WellFoundedSet
import Mathlib.Logic.Relation
import Mathlib.Logic.Relator

/-! # Directed graphs -/

namespace Jayvee.Foundation

open Relation

variable {α : Type*} {r : α → α → Prop}

/-- No vertex reaches itself by one or more edges. -/
def Acyclic (r : α → α → Prop) : Prop :=
  ∀ a, ¬ TransGen r a a

/-- A vertex that no edge enters. -/
def IsSource (r : α → α → Prop) (a : α) : Prop :=
  ∀ b, ¬ r b a

/-- `b` is reached by zero or more edges from a vertex of `s`. -/
def ReachableFrom (r : α → α → Prop) (s : Set α) (b : α) : Prop :=
  ∃ a ∈ s, ReflTransGen r a b

/-- At most one vertex has an edge to `a`. -/
def InDegreeAtMostOne (r : α → α → Prop) (a : α) : Prop :=
  ∀ b c, r b a → r c a → b = c

/-! ## Acyclic graphs -/

theorem not_acyclic_iff : ¬ Acyclic r ↔ ∃ a, TransGen r a a := by
  simp [Acyclic]

/-- A numbering that every edge increases excludes cycles. -/
theorem acyclic_of_rank (rank : α → ℕ) (h : ∀ a b, r a b → rank a < rank b) :
    Acyclic r := by
  have hlt : ∀ a b, TransGen r a b → rank a < rank b := by
    intro a b hab
    induction hab with
    | single hab => exact h _ _ hab
    | tail _ hbc ih => exact ih.trans (h _ _ hbc)
  exact fun a ha => (hlt a a ha).false

theorem Acyclic.swap (h : Acyclic r) : Acyclic (Function.swap r) :=
  fun a ha => h a (transGen_swap.mp ha)

/-- In an acyclic graph where finitely many vertices have a successor, every backward path
ends. -/
theorem Acyclic.wellFounded (h : Acyclic r) (hfin : {a | ∃ b, r a b}.Finite) :
    WellFounded r := by
  have : IsStrictOrder α (TransGen r) :=
    { irrefl := h, trans := fun _ _ _ => TransGen.trans }
  have hon : {a | ∃ b, r a b}.WellFoundedOn (TransGen r) := hfin.wellFoundedOn
  have hacc : ∀ a ∈ {a | ∃ b, r a b}, Acc r a := by
    intro a ha
    refine hon.induction ha fun a _ ih => ?_
    exact Acc.intro a fun b hba => ih b ⟨a, hba⟩ (.single hba)
  exact ⟨fun a => Acc.intro a fun b hba => hacc b ⟨a, hba⟩⟩

/-- A vertex from which every path ends is on no cycle. -/
theorem not_transGen_of_acc {a : α} (h : Acc (Function.swap r) a) : ¬ TransGen r a a := by
  intro ha
  have hacc : Acc (TransGen (Function.swap r)) a := h.transGen
  clear h
  induction hacc with
  | intro a _ ih => exact ih a (transGen_swap.mpr ha) ha

/-- Every vertex of a graph without infinite backward paths is reached from a source. -/
theorem reachableFrom_source (h : WellFounded r) (a : α) :
    ReachableFrom r {s | IsSource r s} a := by
  induction a using h.induction with
  | _ a ih =>
      by_cases hsource : IsSource r a
      · exact ⟨a, hsource, .refl⟩
      · obtain ⟨b, hba⟩ : ∃ b, r b a := by simpa [IsSource] using hsource
        obtain ⟨s, hs, hsb⟩ := ih b hba
        exact ⟨s, hs, hsb.tail hba⟩

/-! ## Graphs in which at most one edge enters each vertex -/

/-- The only predecessor of a vertex on a cycle lies on that cycle. -/
private theorem transGen_of_edge {a b : α} (hdeg : InDegreeAtMostOne r a) (hba : r b a)
    (ha : TransGen r a a) : TransGen r b b := by
  obtain ⟨c, hac, hca⟩ := TransGen.tail'_iff.mp ha
  obtain rfl : b = c := hdeg b c hba hca
  exact TransGen.head' hba hac

/-- Walking backwards from a cycle never leaves it, so a vertex reached from a source is on
no cycle. -/
theorem not_transGen_of_reachableFrom (hdeg : ∀ a, InDegreeAtMostOne r a) {a : α}
    (hreach : ReachableFrom r {s | IsSource r s} a) : ¬ TransGen r a a := by
  obtain ⟨s, hs, hsa⟩ := hreach
  intro ha
  have hcycle : TransGen r s s := by
    clear hs
    induction hsa using ReflTransGen.head_induction_on with
    | refl => exact ha
    | head hab _ ih => exact transGen_of_edge (hdeg _) hab ih
  obtain ⟨c, _, hcs⟩ := TransGen.tail'_iff.mp hcycle
  exact hs c hcs

/-! ## Graphs in which at most one edge leaves each vertex -/

/-- The path from `a` comes back to a vertex that it has passed. -/
def LeadsToCycle (r : α → α → Prop) (a : α) : Prop :=
  ∃ b, ReflTransGen r a b ∧ TransGen r b b

section Functional

variable {a b : α}

theorem reflTransGen_iff_of_stuck (hstuck : ∀ c, ¬ r a c) : ReflTransGen r a b ↔ b = a := by
  constructor
  · intro h
    cases h.cases_head with
    | inl heq => exact heq.symm
    | inr hstep =>
        obtain ⟨c, hac, _⟩ := hstep
        exact (hstuck c hac).elim
  · rintro rfl
    exact .refl

theorem not_transGen_of_stuck (hstuck : ∀ c, ¬ r a c) : ¬ TransGen r a b := by
  intro h
  obtain ⟨c, hac, _⟩ := TransGen.head'_iff.mp h
  exact hstuck c hac

theorem not_leadsToCycle_of_stuck (hstuck : ∀ c, ¬ r a c) : ¬ LeadsToCycle r a := by
  rintro ⟨b, hab, hcycle⟩
  rw [(reflTransGen_iff_of_stuck hstuck).mp hab] at hcycle
  exact not_transGen_of_stuck hstuck hcycle

section Step

variable (hfun : Relator.RightUnique r) {next : α} (hstep : r a next)
include hfun hstep

theorem transGen_iff_of_step : TransGen r a b ↔ ReflTransGen r next b := by
  constructor
  · intro h
    obtain ⟨c, hac, hcb⟩ := TransGen.head'_iff.mp h
    rwa [hfun hstep hac]
  · exact TransGen.head' hstep

theorem reflTransGen_iff_of_step : ReflTransGen r a b ↔ b = a ∨ ReflTransGen r next b := by
  rw [reflTransGen_iff_eq_or_transGen, transGen_iff_of_step hfun hstep]

/-- The path either closes at its first vertex or goes on to a cycle from the second one. -/
theorem leadsToCycle_iff_of_step :
    LeadsToCycle r a ↔ ReflTransGen r next a ∨ LeadsToCycle r next := by
  constructor
  · rintro ⟨b, hab, hcycle⟩
    rcases (reflTransGen_iff_of_step hfun hstep).mp hab with rfl | hnext
    · exact .inl ((transGen_iff_of_step hfun hstep).mp hcycle)
    · exact .inr ⟨b, hnext, hcycle⟩
  · rintro (hback | hnext)
    · exact ⟨a, .refl, TransGen.head' hstep hback⟩
    · obtain ⟨b, hb, hcycle⟩ := hnext
      exact ⟨b, hb.head hstep, hcycle⟩

end Step

/-- A path with an end does not close. -/
theorem not_leadsToCycle_of_reaches_stuck (hfun : Relator.RightUnique r)
    (hreach : ReflTransGen r a b) (hstuck : ∀ c, ¬ r b c) : ¬ LeadsToCycle r a := by
  induction hreach using ReflTransGen.head_induction_on with
  | refl => exact not_leadsToCycle_of_stuck hstuck
  | head hstep hreach ih =>
      rw [leadsToCycle_iff_of_step hfun hstep, not_or]
      refine ⟨fun hback => ih ?_, ih⟩
      exact ⟨_, .refl, TransGen.tail' hback hstep⟩

end Functional

/-! ## Edges that avoid a set -/

/-- An edge to a vertex outside of the set. -/
def Avoiding (r : α → α → Prop) (s : Set α) (a b : α) : Prop :=
  r a b ∧ b ∉ s

section Avoiding

variable {s t : Set α} {a : α}

theorem Avoiding.anti (hst : s ⊆ t) {b : α} (h : Avoiding r t a b) : Avoiding r s a b :=
  ⟨h.1, fun hb => h.2 (hst hb)⟩

/-- A path that avoids the larger set avoids the smaller one. -/
theorem reflTransGen_avoiding_anti (hst : s ⊆ t) {b : α}
    (h : ReflTransGen (Avoiding r t) a b) : ReflTransGen (Avoiding r s) a b := by
  induction h with
  | refl => exact .refl
  | tail _ hbc ih => exact ih.tail (hbc.anti hst)

/-- If every path from the added vertices ends, no path becomes endless by avoiding less. -/
theorem acc_avoiding_of_larger (hadded : ∀ b ∈ t, b ∉ s → Acc (Function.swap (Avoiding r s)) b)
    (h : Acc (Function.swap (Avoiding r t)) a) : Acc (Function.swap (Avoiding r s)) a := by
  induction h with
  | intro a _ ih =>
      refine Acc.intro a fun b hab => ?_
      by_cases hb : b ∈ t
      · exact hadded b hb hab.2
      · exact ih b ⟨hab.1, hb⟩

end Avoiding

end Jayvee.Foundation
