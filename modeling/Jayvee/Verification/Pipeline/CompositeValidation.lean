import Jayvee.Verification.Pipeline.Chain
import Jayvee.Verification.Pipeline.Validation

/-! # Validated composite block types -/

namespace Jayvee

open Foundation Relation

/-! ## Checks only add diagnostics -/

theorem markPipe_moves (ast : Ast) (pipesFromParents marked : List PipeWrapper)
    (pipe : PipeWrapper) :
    Exec.Moves StillReported (markPipe ast pipesFromParents marked pipe) := by
  apply Exec.Moves.ite (Exec.Moves.pure _)
  exact Exec.Moves.bind (accept_moves _ _ _) fun _ => Exec.Moves.pure _

theorem checkIngoingPipes_moves (ast : Ast) (pipesFromParents marked : List PipeWrapper) :
    Exec.Moves StillReported (checkIngoingPipes ast pipesFromParents marked) := by
  apply Exec.Moves.ite ?_ (Exec.Moves.pure _)
  exact Exec.Moves.foldlM (markPipe_moves ast pipesFromParents) _ _

theorem doCheckMultipleBlockInputs_moves (ast : Ast) (this : PipelineWrapper) (fuel : Nat)
    (marked : List PipeWrapper) (block : BlockId) :
    Exec.Moves StillReported (doCheckMultipleBlockInputs ast this fuel marked block) := by
  induction fuel generalizing marked block with
  | zero => exact Exec.Moves.diverge
  | succ fuel ih =>
      apply Exec.Moves.bind (checkIngoingPipes_moves ast _ _)
      intro marked'
      exact Exec.Moves.foldlM ih _ _

theorem checkMultipleBlockInputs_moves (props : JayveeValidationProps) (fuel : Nat)
    (pipesContainer : PipesContainer) :
    Exec.Moves StillReported (checkMultipleBlockInputs props fuel pipesContainer) := by
  apply Exec.Moves.ite ?_ (Exec.Moves.pure _)
  apply Exec.Moves.bind (Exec.Moves.ofExcept _)
  intro this
  apply Exec.Moves.bind ?_ fun _ => Exec.Moves.pure _
  exact Exec.Moves.foldlM (doCheckMultipleBlockInputs_moves props.ast this fuel) _ _

theorem checkExactlyOnePipeline_moves (blockType : CompositeBlockTypeDefinition) :
    Exec.Moves StillReported (checkExactlyOnePipeline blockType) := by
  apply Exec.Moves.ite ?_ (Exec.Moves.pure _)
  exact Exec.Moves.forEach fun pipe => accept_moves _ _ _

theorem checkDefinedBlocksAreUsedInComposite_moves (props : JayveeValidationProps)
    (blockType : CompositeBlockTypeDefinition) :
    Exec.Moves StillReported (checkDefinedBlocksAreUsedInComposite props blockType) := by
  apply Exec.Moves.ite ?_ (Exec.Moves.pure _)
  apply Exec.Moves.bind (Exec.Moves.ofExcept _)
  intro this
  apply Exec.Moves.forEach
  intro block
  apply Exec.Moves.ite ?_ (Exec.Moves.pure _)
  apply Exec.Moves.bind (warnAboutUnconnected_moves _ _ _ _)
  exact fun _ => warnAboutUnconnected_moves _ _ _ _

/-! ## Composite block types without errors -/

/-- The checks of the pipelines of the block type report no error either. -/
theorem CompositeReportsNoError.checks {props : JayveeValidationProps}
    {blockType : CompositeBlockTypeDefinition} (h : CompositeReportsNoError props blockType) :
    ∃ fuel start diagnostics has one inputs,
      checkHasPipeline blockType start = some (.ok (), has) ∧
      checkExactlyOnePipeline blockType has = some (.ok (), one) ∧
      checkMultipleBlockInputs props fuel (.compositeBlockType blockType) one =
        some (.ok (), inputs) ∧
      has ⊆ one ∧ one ⊆ inputs ∧ inputs ⊆ diagnostics ∧
      ∀ d ∈ diagnostics, d.severity ≠ .error := by
  obtain ⟨fuel, diagnostics, hvalidate, hnone⟩ := h
  unfold validateCompositeBlockTypeDefinition at hvalidate
  obtain ⟨_, start, _, hvalidate⟩ := Exec.bind_eq_ok_iff.mp hvalidate
  obtain ⟨_, has, hhas, hvalidate⟩ := Exec.bind_eq_ok_iff.mp hvalidate
  obtain ⟨_, one, hone, hvalidate⟩ := Exec.bind_eq_ok_iff.mp hvalidate
  obtain ⟨_, inputs, hinputs, hused⟩ := Exec.bind_eq_ok_iff.mp hvalidate
  exact ⟨fuel, start, diagnostics, has, one, inputs, hhas, hone, hinputs,
    checkExactlyOnePipeline_moves blockType _ _ _ hone,
    checkMultipleBlockInputs_moves props fuel _ _ _ _ hinputs,
    checkDefinedBlocksAreUsedInComposite_moves props blockType _ _ _ hused, hnone⟩

theorem CompositeReportsNoError.pipes_eq {props : JayveeValidationProps}
    {blockType : CompositeBlockTypeDefinition} (h : CompositeReportsNoError props blockType) :
    ∃ pipeline, blockType.pipes = [pipeline] := by
  obtain ⟨_, start, diagnostics, has, one, inputs, hhas, hone, _, hle, hle', hle'', hnone⟩ :=
    h.checks
  have hkept : ∀ d ∈ one, d.severity ≠ .error :=
    fun d hd => hnone d (hle'' (hle' hd))
  cases hpipes : blockType.pipes with
  | nil =>
      simp only [checkHasPipeline, hpipes, List.length_nil, if_true] at hhas
      cases hhas
      exact (hkept _ (hle (List.mem_append_right _ List.mem_cons_self)) rfl).elim
  | cons pipeline rest =>
      cases rest with
      | nil => exact ⟨pipeline, rfl⟩
      | cons second rest =>
          have hmany : blockType.pipes.length > 1 := by simp [hpipes]
          rw [checkExactlyOnePipeline, if_pos hmany, hpipes, Exec.forEach_cons] at hone
          obtain ⟨_, next, hfirst, hrest⟩ := Exec.bind_eq_ok_iff.mp hone
          cases hfirst
          have hlater := Exec.Moves.forEach (R := StillReported)
            (fun pipe => accept_moves _ _ { node := .pipe pipe }) _ _ _ hrest
          exact (hkept _ (hlater (List.mem_append_right _ List.mem_cons_self)) rfl).elim

/-! ## The sorting of the inner blocks -/

section Single

variable {pipesContainer : PipesContainer} {pipeline : PipeDefinition}

/-- If a single pipe definition has a starting block, all its blocks are reached from there. -/
theorem PipelineWrapper.reachable_of_single (hpipes : pipesContainer.pipes = [pipeline])
    (hcan : PipelineWrapper.canBeWrapped pipesContainer = true) {start : BlockId}
    (hstart : start ∈ (PipelineWrapper.construct pipesContainer).getStartingBlocks)
    {block : BlockId} (hblock : (PipelineWrapper.construct pipesContainer).Occurs block) :
    (PipelineWrapper.construct pipesContainer).Reachable block := by
  have hresolved := (PipelineWrapper.canBeWrapped_single_iff hpipes).mp hcan
  obtain ⟨hoccurs, hsource⟩ := PipelineWrapper.mem_getStartingBlocks.mp hstart
  have hfirst : pipeline.blocks[0]? = some (some start) := by
    obtain ⟨b, hpipe⟩ | ⟨a, hpipe⟩ := hoccurs.cases
    · obtain ⟨i, hi, hi'⟩ := (PipelineWrapper.pipe_single_iff hpipes).mp hpipe
      cases i with
      | zero => exact hi
      | succ i =>
          have hlt := (List.getElem?_eq_some_iff.mp hi).1
          obtain ⟨parent, _, hparent, _⟩ := hresolved i hlt
          exact (hsource parent ((PipelineWrapper.pipe_single_iff hpipes).mpr
            ⟨i, hparent, hi⟩)).elim
    · exact (hsource a hpipe).elim
  have hpath : ∀ (i : Nat) (b : BlockId), pipeline.blocks[i]? = some (some b) →
      (PipelineWrapper.construct pipesContainer).Reachable b := by
    intro i
    induction i with
    | zero =>
        intro b hb
        rw [hfirst] at hb
        cases hb
        exact ⟨start, hstart, .refl⟩
    | succ i ih =>
        intro b hb
        have hlt := (List.getElem?_eq_some_iff.mp hb).1
        obtain ⟨a, _, ha, _⟩ := hresolved i hlt
        exact (ih a ha).pipe ((PipelineWrapper.pipe_single_iff hpipes).mpr ⟨i, ha, hb⟩)
  obtain ⟨b, hpipe⟩ | ⟨a, hpipe⟩ := hblock.cases
  · obtain ⟨i, hi, _⟩ := (PipelineWrapper.pipe_single_iff hpipes).mp hpipe
    exact hpath i block hi
  · obtain ⟨i, _, hi⟩ := (PipelineWrapper.pipe_single_iff hpipes).mp hpipe
    exact hpath (i + 1) block hi

end Single

/-- Without a starting block, the sorting ends at once. -/
theorem PipelineWrapper.sorting_of_no_start {this : PipelineWrapper}
    (hstarts : this.getStartingBlocks = []) {fuel : Nat} (hfuel : 0 < fuel) :
    this.getBlocksInTopologicalSorting fuel = some
      (if this.allPipes.length = 0 then .ok [] else .error
        (.assertionError s!"The pipeline {this.astNode.name} is expected to have no cycles")) := by
  obtain ⟨fuel, rfl⟩ : ∃ k, fuel = k + 1 := ⟨fuel - 1, by omega⟩
  rw [getBlocksInTopologicalSorting, hstarts, whileLoop_of_none rfl]
  rfl

/-- The sorting of the inner blocks of a validated composite block type ends. -/
theorem CompositeReportsNoError.sorting_ends {props : JayveeValidationProps}
    {blockType : CompositeBlockTypeDefinition} (h : CompositeReportsNoError props blockType)
    {this : PipelineWrapper}
    (hwrap : PipelineWrapper.wrap (.compositeBlockType blockType) = .ok this) :
    ∃ result, (∀ fuel, 2 * this.allPipes.length < fuel →
        this.getBlocksInTopologicalSorting fuel = some result) ∧
      ∀ sorted, result = .ok sorted → ∀ block ∈ sorted, this.Occurs block := by
  obtain ⟨pipeline, hpipes⟩ := h.pipes_eq
  obtain ⟨fuel, _, diagnostics, _, _, inputs, _, _, hinputs, _, _, hle, hnone⟩ := h.checks
  obtain ⟨hcan, hthis⟩ := PipelineWrapper.wrap_eq_ok_iff.mp hwrap
  have hcontainer : (PipesContainer.compositeBlockType blockType).pipes = [pipeline] := hpipes
  cases hstarts : this.getStartingBlocks with
  | nil =>
      refine ⟨_, fun fuel hfuel => PipelineWrapper.sorting_of_no_start hstarts (by omega), ?_⟩
      intro sorted hsorted block hblock
      split at hsorted
      · cases hsorted
        cases hblock
      · cases hsorted
  | cons start others =>
      have hingoing : this.AtMostOneIngoingPipe := by
        intro block
        by_cases hoccurs : this.Occurs block
        · have hreachable : this.Reachable block := by
            subst hthis
            exact PipelineWrapper.reachable_of_single hcontainer hcan
              (hstarts ▸ List.mem_cons_self) hoccurs
          exact (reachable_of_checkMultipleBlockInputs hinputs
            (fun d hd => hnone d (hle hd)) hwrap hreachable).2
        · rw [PipelineWrapper.getIngoingPipes_of_not_occurs hoccurs]
          simp
      obtain ⟨result, hresult, hsorted, hthrows⟩ :=
        PipelineWrapper.getBlocksInTopologicalSorting_spec hingoing.noEqualPipes
      refine ⟨result, hresult, ?_⟩
      intro sorted hok block hblock
      by_cases hacyclic : Acyclic this.Pipe
      · obtain ⟨sorted', hok', hsorting⟩ := hsorted hacyclic
        rw [hok] at hok'
        cases hok'
        exact (hsorting.mem_iff block).mp hblock
      · obtain ⟨message, herror⟩ := hthrows hacyclic
        rw [hok] at herror
        cases herror

end Jayvee
