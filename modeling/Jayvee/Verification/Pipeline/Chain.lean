import Jayvee.Verification.Pipeline.TopologicalSorting

/-! # Pipelines that are a single chain -/

namespace Jayvee.PipelineWrapper

open Foundation

section Single

variable {pipesContainer : PipesContainer} {pipeline : PipeDefinition}
variable (hpipes : pipesContainer.pipes = [pipeline])

include hpipes

/-! ## A single pipe definition -/

theorem mem_allPipes_single {pipe : PipeWrapper} :
    pipe ∈ (construct pipesContainer).allPipes ↔ pipe.astNode = pipeline := by
  simp [construct, hpipes, PipeWrapper.mem_wrapAll]

theorem canBeWrapped_single_iff :
    canBeWrapped pipesContainer = true ↔ ∀ i, i + 1 < pipeline.blocks.length →
      ∃ a b, pipeline.blocks[i]? = some (some a) ∧ pipeline.blocks[i + 1]? = some (some b) := by
  simp only [canBeWrapped, hpipes, List.all_cons, List.all_nil, Bool.and_true, List.all_eq_true,
    List.mem_range, PipeWrapper.canBeWrapped_iff]
  constructor
  · intro h i hi
    exact h i (by omega)
  · intro h i hi
    exact h i (by omega)

/-- The pipes connect each block with the next one. -/
theorem pipe_single_iff {a b : BlockId} :
    (construct pipesContainer).Pipe a b ↔
      ∃ i, pipeline.blocks[i]? = some (some a) ∧ pipeline.blocks[i + 1]? = some (some b) := by
  constructor
  · intro h
    obtain ⟨pipe, hpipe, rfl, rfl⟩ := h
    have hnode := (mem_allPipes_single hpipes).mp hpipe
    have hfrom := pipe.from_resolves
    have hto := pipe.to_resolves
    rw [hnode] at hfrom hto
    exact ⟨pipe.chainIndex, hfrom, hto⟩
  · intro h
    obtain ⟨i, ha, hb⟩ := h
    exact ⟨⟨pipeline, i, a, b, ha, hb⟩, (mem_allPipes_single hpipes).mpr rfl, rfl, rfl⟩

end Single

section Chain

variable {pipesContainer : PipesContainer} {chain : List BlockId}
variable (hpipes : pipesContainer.pipes = [⟨chain.map some⟩])

include hpipes

/-! ## Chains of resolved blocks -/

theorem canBeWrapped_chain : canBeWrapped pipesContainer = true := by
  apply (canBeWrapped_single_iff hpipes).mpr
  intro i hi
  have hlt : i + 1 < chain.length := by simpa using hi
  exact ⟨chain[i], chain[i + 1], by simp, by simp [hlt]⟩

theorem length_allPipes_chain : (construct pipesContainer).allPipes.length ≤ chain.length := by
  have hlength := List.length_filterMap_le (PipeWrapper.wrap ⟨chain.map some⟩)
    (List.range ((chain.map some).length - 1))
  simp only [List.length_range, List.length_map] at hlength
  simp only [construct, hpipes, List.flatMap_cons, List.flatMap_nil, List.append_nil,
    PipeWrapper.wrapAll, List.length_map]
  omega

theorem pipe_chain_iff {a b : BlockId} :
    (construct pipesContainer).Pipe a b ↔
      ∃ i, chain[i]? = some a ∧ chain[i + 1]? = some b := by
  simp [pipe_single_iff hpipes]

theorem occurs_chain_iff (hlength : 2 ≤ chain.length) {block : BlockId} :
    (construct pipesContainer).Occurs block ↔ block ∈ chain := by
  constructor
  · intro h
    rcases h.cases with ⟨b, h⟩ | ⟨a, h⟩
    · obtain ⟨i, hi, _⟩ := (pipe_chain_iff hpipes).mp h
      exact List.mem_of_getElem? hi
    · obtain ⟨i, _, hi⟩ := (pipe_chain_iff hpipes).mp h
      exact List.mem_of_getElem? hi
  · intro h
    obtain ⟨i, hi, rfl⟩ := List.mem_iff_getElem.mp h
    -- every block but the last has a next one, and the last one has a previous one
    by_cases hlast : i + 1 < chain.length
    · have hpipe : (construct pipesContainer).Pipe chain[i] chain[i + 1] :=
        (pipe_chain_iff hpipes).mpr ⟨i, by simp, by simp [hlast]⟩
      exact hpipe.occurs_from
    · have hprevious : i - 1 + 1 = i := by omega
      have hpipe : (construct pipesContainer).Pipe chain[i - 1] chain[i] :=
        (pipe_chain_iff hpipes).mpr ⟨i - 1, by simp, by simp [hprevious]⟩
      exact hpipe.occurs_to

section Nodup

variable (hnodup : chain.Nodup)

include hnodup

theorem idxOf_of_pipe_chain {a b : BlockId} (h : (construct pipesContainer).Pipe a b) :
    chain.idxOf b = chain.idxOf a + 1 := by
  obtain ⟨i, ha, hb⟩ := (pipe_chain_iff hpipes).mp h
  obtain ⟨hi, rfl⟩ := List.getElem?_eq_some_iff.mp ha
  obtain ⟨hi', rfl⟩ := List.getElem?_eq_some_iff.mp hb
  rw [hnodup.idxOf_getElem, hnodup.idxOf_getElem]

theorem acyclic_chain : Acyclic (construct pipesContainer).Pipe := by
  apply acyclic_of_rank fun block => chain.idxOf block
  intro a b h
  have hidx := idxOf_of_pipe_chain hpipes hnodup h
  omega

omit hnodup in
theorem nodup_allPipes_chain : (construct pipesContainer).allPipes.Nodup := by
  have hpipe : PipeWrapper.wrapAll ⟨chain.map some⟩ = (construct pipesContainer).allPipes := by
    simp [construct, hpipes]
  rw [← hpipe]
  apply List.Nodup.filterMap ?_ List.nodup_range
  intro i j pipe hi hj
  rw [← ((PipeWrapper.wrap_eq_some_iff _ i pipe).mp hi).2,
    ((PipeWrapper.wrap_eq_some_iff _ j pipe).mp hj).2]

/-- The position of a block tells which pipe leads to it. -/
theorem wrap_of_ingoing_chain {block : BlockId} {pipe : PipeWrapper}
    (h : pipe ∈ (construct pipesContainer).getIngoingPipes block) :
    PipeWrapper.wrap ⟨chain.map some⟩ (chain.idxOf block - 1) = some pipe := by
  obtain ⟨hmem, rfl⟩ := mem_getIngoingPipes.mp h
  have hnode := (mem_allPipes_single hpipes).mp hmem
  have hto := pipe.to_resolves
  simp only [hnode, List.getElem?_map, Option.map_eq_some_iff, Option.some.injEq,
    exists_eq_right] at hto
  obtain ⟨hi, hget⟩ := List.getElem?_eq_some_iff.mp hto
  refine (PipeWrapper.wrap_eq_some_iff _ _ _).mpr ⟨hnode, ?_⟩
  rw [← hget, hnodup.idxOf_getElem, Nat.add_sub_cancel]

theorem atMostOneIngoingPipe_chain : (construct pipesContainer).AtMostOneIngoingPipe := by
  intro block
  have hfiltered : ((construct pipesContainer).getIngoingPipes block).Nodup :=
    (nodup_allPipes_chain hpipes).filter _
  have hwrap : ∀ pipe ∈ (construct pipesContainer).getIngoingPipes block,
      PipeWrapper.wrap ⟨chain.map some⟩ (chain.idxOf block - 1) = some pipe :=
    fun _ h => wrap_of_ingoing_chain hpipes hnodup h
  cases hingoing : (construct pipesContainer).getIngoingPipes block with
  | nil => simp
  | cons p rest =>
      rw [hingoing] at hwrap hfiltered
      cases rest with
      | nil => simp
      | cons q rest =>
          have heq : p = q :=
            Option.some.inj ((hwrap p (by simp)).symm.trans (hwrap q (by simp)))
          simp [heq] at hfiltered

omit hnodup in
/-- A chain without two blocks has no pipes. -/
theorem sorting_eq_nil_chain (hlength : ¬ 2 ≤ chain.length) {sorted : List BlockId}
    (hsorted : (construct pipesContainer).IsTopologicalSorting sorted) : sorted = [] := by
  have hnone : ∀ a b, ¬ (construct pipesContainer).Pipe a b := by
    intro a b hpipe
    obtain ⟨i, _, hi⟩ := (pipe_chain_iff hpipes).mp hpipe
    have hlt := (List.getElem?_eq_some_iff.mp hi).1
    omega
  apply List.eq_nil_iff_forall_not_mem.mpr
  intro block hblock
  cases ((hsorted.mem_iff block).mp hblock).cases with
  | inl h => exact hnone block _ h.choose_spec
  | inr h => exact hnone _ block h.choose_spec

/-- The only sorting of a chain is the chain itself. -/
theorem sorting_chain (hlength : 2 ≤ chain.length) {sorted : List BlockId}
    (hsorted : (construct pipesContainer).IsTopologicalSorting sorted) : sorted = chain := by
  have hperm : sorted.Perm chain := by
    apply (List.perm_ext_iff_of_nodup hsorted.nodup hnodup).mpr
    intro block
    rw [hsorted.mem_iff, occurs_chain_iff hpipes hlength]
  -- both lists are increasing in the position in `sorted`
  have hchain : chain.Pairwise fun a b => sorted.idxOf a < sorted.idxOf b := by
    have htrans : IsTrans BlockId fun a b => sorted.idxOf a < sorted.idxOf b :=
      ⟨fun _ _ _ => Nat.lt_trans⟩
    apply List.isChain_iff_pairwise.mp
    apply List.isChain_iff_getElem.mpr
    intro i hi
    apply hsorted.parent_before_child
    exact (pipe_chain_iff hpipes).mpr ⟨i, by simp, by simp [hi]⟩
  have hself : sorted.Pairwise fun a b => sorted.idxOf a < sorted.idxOf b := by
    apply List.pairwise_iff_getElem.mpr
    intro i j hi hj hij
    rw [hsorted.nodup.idxOf_getElem, hsorted.nodup.idxOf_getElem]
    exact hij
  apply List.Perm.eq_of_pairwise ?_ hself hchain hperm
  intro a b _ _ hab hba
  omega

end Nodup

end Chain

end Jayvee.PipelineWrapper
