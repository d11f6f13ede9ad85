import Jayvee.Foundation.Digraph
import Mathlib.Data.List.Nodup
import Mathlib.Data.List.Pairwise

/-! # Walks that enter every vertex once -/

namespace Jayvee.Foundation

open Relation

variable {α : Type*} (successors : α → List α)

/-- `b` is listed among the successors of `a`. -/
def Edge (a b : α) : Prop :=
  b ∈ successors a

/-- A cycle can be reached from `start`. -/
def ReachesCycle (start : α) : Prop :=
  ∃ a, ReflTransGen (Edge successors) start a ∧ TransGen (Edge successors) a a

/-- Two different places in the lists of successors that can be reached from `start` hold the
same vertex. -/
def ReachesJoin (start : α) : Prop :=
  ∃ (a b : α) (i j : Nat) (c : α), ReflTransGen (Edge successors) start a ∧
    ReflTransGen (Edge successors) start b ∧
    (successors a)[i]? = some c ∧ (successors b)[j]? = some c ∧ (a, i) ≠ (b, j)

/-- The record of a walk from `starts`, where the vertices `before` have been entered already:
the vertices it enters, and those it meets again. -/
structure Walk (starts before entered repeated : List α) : Prop where
  met : (starts ++ entered.flatMap successors).Perm (entered ++ repeated)
  nodup : (before ++ entered).Nodup
  repeated_mem : ∀ a ∈ repeated, a ∈ before ++ entered
  reachable : ∀ a ∈ entered, ∃ s ∈ starts, ReflTransGen (Edge successors) s a

namespace Walk

variable {successors} {a : α} {starts starts' before entered entered' repeated repeated' : List α}

/-! ## The steps of a walk -/

theorem nil (h : before.Nodup) : Walk successors [] before [] [] :=
  ⟨.refl _, by simpa using h, by simp, by simp⟩

/-- A vertex that was entered before. -/
theorem again (h : before.Nodup) (ha : a ∈ before) : Walk successors [a] before [] [a] :=
  ⟨.refl _, by simpa using h, by simpa using ha, by simp⟩

/-- Entering a vertex, the walk goes on with all its successors. -/
theorem enter (h : Walk successors (successors a) (before ++ [a]) entered repeated) :
    Walk successors [a] before (a :: entered) repeated := by
  refine ⟨?_, by simpa using h.nodup, by simpa using h.repeated_mem, ?_⟩
  · rw [List.flatMap_cons, List.cons_append, List.nil_append, List.cons_append]
    exact h.met.cons a
  · intro b hb
    refine ⟨a, by simp, ?_⟩
    rcases List.mem_cons.mp hb with rfl | hb
    · exact .refl
    · obtain ⟨s, hs, hsb⟩ := h.reachable b hb
      exact hsb.head hs

/-- One walk after the other. -/
theorem append (h : Walk successors starts before entered repeated)
    (h' : Walk successors starts' (before ++ entered) entered' repeated') :
    Walk successors (starts ++ starts') before (entered ++ entered') (repeated ++ repeated') := by
  refine ⟨?_, by simpa using h'.nodup, ?_, ?_⟩
  · classical
    rw [List.perm_iff_count]
    intro a
    have hcount := h.met.count_eq a
    have hcount' := h'.met.count_eq a
    simp only [List.flatMap_append, List.count_append] at hcount hcount' ⊢
    omega
  · intro a ha
    rcases List.mem_append.mp ha with ha | ha
    · exact List.mem_append.mpr ((List.mem_append.mp (h.repeated_mem a ha)).imp_right
        (List.mem_append_left _))
    · simpa using h'.repeated_mem a ha
  · intro a ha
    rcases List.mem_append.mp ha with ha | ha
    · obtain ⟨s, hs, hsa⟩ := h.reachable a ha
      exact ⟨s, List.mem_append_left _ hs, hsa⟩
    · obtain ⟨s, hs, hsa⟩ := h'.reachable a ha
      exact ⟨s, List.mem_append_right _ hs, hsa⟩

/-! ## What a walk has met -/

section Complete

variable {start : α} (h : Walk successors [start] [] entered repeated)
include h

theorem mem_entered_of_met (ha : a ∈ [start] ++ entered.flatMap successors) : a ∈ entered := by
  rcases List.mem_append.mp (h.met.mem_iff.mp ha) with ha | ha
  · exact ha
  · simpa using h.repeated_mem a ha

/-- A walk from one vertex enters exactly what can be reached. -/
theorem mem_entered_iff : a ∈ entered ↔ ReflTransGen (Edge successors) start a := by
  constructor
  · intro ha
    obtain ⟨s, hs, hsa⟩ := h.reachable a ha
    cases List.mem_singleton.mp hs
    exact hsa
  · intro ha
    induction ha with
    | refl => exact h.mem_entered_of_met (by simp)
    | tail _ hbc ih =>
        exact h.mem_entered_of_met
          (List.mem_append_right _ (List.mem_flatMap.mpr ⟨_, ih, hbc⟩))

/-- Something is met again exactly if something has two predecessors, or the start has one. -/
theorem repeated_eq_nil_iff_nodup :
    repeated = [] ↔ ([start] ++ entered.flatMap successors).Nodup := by
  rw [h.met.nodup_iff]
  constructor
  · rintro rfl
    simpa using h.nodup
  · intro hnodup
    apply List.eq_nil_iff_forall_not_mem.mpr
    intro a ha
    have hentered : a ∈ entered := by simpa using h.repeated_mem a ha
    exact List.disjoint_of_nodup_append hnodup hentered ha

section Nodup

variable (hnodup : ([start] ++ entered.flatMap successors).Nodup)
include hnodup

omit h in
theorem not_mem_successors (ha : a ∈ entered) : start ∉ successors a := by
  intro hstart
  apply List.disjoint_of_nodup_append hnodup (List.mem_singleton.mpr rfl)
  exact List.mem_flatMap.mpr ⟨a, ha, hstart⟩

omit h in
theorem eq_of_mem_successors {b c : α} (hb : b ∈ entered) (hc : c ∈ entered)
    (hab : a ∈ successors b) (hac : a ∈ successors c) : b = c := by
  have hpairwise := (List.nodup_flatMap.mp (List.nodup_append.mp hnodup).2.1).2
  by_contra hne
  have : Std.Symm (Function.onFun List.Disjoint successors) := ⟨fun _ _ h => h.symm⟩
  exact hpairwise.forall hb hc hne hab hac

/-- Without repetitions, what can be reached is a tree. -/
theorem not_transGen_of_nodup (ha : ReflTransGen (Edge successors) start a) :
    ¬ TransGen (Edge successors) a a := by
  let r (b c : α) : Prop := b ∈ entered ∧ Edge successors b c
  have hreach : ∀ b, ReflTransGen (Edge successors) start b → ReflTransGen r start b := by
    intro b hb
    induction hb with
    | refl => exact .refl
    | tail hb hbc ih => exact ih.tail ⟨h.mem_entered_iff.mpr hb, hbc⟩
  have hdeg : ∀ b, InDegreeAtMostOne r b := by
    intro b c d hc hd
    exact eq_of_mem_successors hnodup hc.1 hd.1 hc.2 hd.2
  have hsource : IsSource r start := fun b hb => not_mem_successors hnodup hb.1 hb.2
  intro hcycle
  have hcycle' : ∀ b, TransGen (Edge successors) a b → TransGen r a b := by
    intro b hb
    induction hb with
    | single hab => exact .single ⟨h.mem_entered_iff.mpr ha, hab⟩
    | tail hb hbc ih => exact ih.tail ⟨h.mem_entered_iff.mpr (ha.trans hb.to_reflTransGen), hbc⟩
  exact not_transGen_of_reachableFrom hdeg ⟨start, hsource, hreach a ha⟩ (hcycle' a hcycle)

theorem not_reachesJoin_of_nodup : ¬ ReachesJoin successors start := by
  rintro ⟨a, b, i, j, c, ha, hb, hi, hj, hne⟩
  have ha' := h.mem_entered_iff.mpr ha
  obtain rfl : a = b := eq_of_mem_successors hnodup ha' (h.mem_entered_iff.mpr hb)
    (List.mem_of_getElem? hi) (List.mem_of_getElem? hj)
  have hsuccessors := (List.nodup_flatMap.mp (List.nodup_append.mp hnodup).2.1).1 a ha'
  have hlt := (List.getElem?_eq_some_iff.mp hi).1
  have hij : i = j := (List.getElem?_inj hlt hsuccessors).mp (hi.trans hj.symm)
  exact hne (by rw [hij])

end Nodup

theorem reaches_of_not_nodup (hnodup : ¬ ([start] ++ entered.flatMap successors).Nodup) :
    ReachesCycle successors start ∨ ReachesJoin successors start := by
  by_cases hstart : start ∈ entered.flatMap successors
  · obtain ⟨a, ha, hmem⟩ := List.mem_flatMap.mp hstart
    exact .inl ⟨start, .refl, TransGen.tail' (h.mem_entered_iff.mp ha) hmem⟩
  · have hflat : ¬ (entered.flatMap successors).Nodup := fun hflat =>
      hnodup (List.nodup_cons.mpr ⟨hstart, hflat⟩)
    rw [List.nodup_flatMap, not_and_or] at hflat
    right
    rcases hflat with hsuccessors | hpairwise
    · -- twice among the successors of one vertex
      obtain ⟨a, ha, hdouble⟩ : ∃ a ∈ entered, ¬ (successors a).Nodup := by simpa using hsuccessors
      simp only [List.nodup_iff_getElem?_ne_getElem?, not_forall, not_not] at hdouble
      obtain ⟨i, j, hij, hj, heq⟩ := hdouble
      have hreach := h.mem_entered_iff.mp ha
      refine ⟨a, a, i, j, (successors a)[j], hreach, hreach, ?_, by simp, ?_⟩
      · rw [heq, List.getElem?_eq_getElem hj]
      · intro hpair
        have := congrArg Prod.snd hpair
        dsimp only at this
        omega
    · -- among the successors of two different vertices
      by_contra hjoin
      apply hpairwise
      apply List.Nodup.pairwise_of_forall_ne (by simpa using h.nodup)
      intro a ha b hb hne c hca hcb
      obtain ⟨i, hi⟩ := List.mem_iff_getElem?.mp hca
      obtain ⟨j, hj⟩ := List.mem_iff_getElem?.mp hcb
      apply hjoin
      exact ⟨a, b, i, j, c, h.mem_entered_iff.mp ha, h.mem_entered_iff.mp hb, hi, hj,
        fun hpair => hne (congrArg Prod.fst hpair)⟩

/-- A walk meets a vertex again exactly if it can reach a cycle or a join. -/
theorem repeated_ne_nil_iff :
    repeated ≠ [] ↔ ReachesCycle successors start ∨ ReachesJoin successors start := by
  rw [Ne, h.repeated_eq_nil_iff_nodup]
  constructor
  · exact h.reaches_of_not_nodup
  · rintro (⟨a, ha, hcycle⟩ | hjoin) hnodup
    · exact h.not_transGen_of_nodup hnodup ha hcycle
    · exact h.not_reachesJoin_of_nodup hnodup hjoin

end Complete

end Walk

end Jayvee.Foundation
