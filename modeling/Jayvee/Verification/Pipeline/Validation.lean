import Jayvee.Verification.Evaluation.Termination
import Jayvee.Verification.Pipeline.MultipleInputs
import Jayvee.Verification.Pipeline.TopologicalSorting

/-! # Validated pipelines -/

namespace Jayvee

open Foundation Relation

/-! ## Checks only add diagnostics -/

/-- Everything in `diagnostics` is also in `diagnostics'`. -/
def StillReported (diagnostics diagnostics' : List Diagnostic) : Prop :=
  diagnostics ⊆ diagnostics'

instance : Std.Refl StillReported :=
  ⟨List.Subset.refl⟩

instance : IsTrans (List Diagnostic) StillReported :=
  ⟨fun _ _ _ => List.Subset.trans⟩

theorem accept_moves (severity : Severity) (message : String) (info : DiagnosticInfo) :
    Exec.Moves StillReported (accept severity message info) :=
  fun diagnostics => Exec.Post.modify (List.subset_append_left diagnostics _)

theorem warnAboutUnconnected_moves (isConnected : Bool) (neighbours : List BlockId)
    (side : String) (block : BlockId) :
    Exec.Moves StillReported (warnAboutUnconnected isConnected neighbours side block) :=
  Exec.Moves.ite (accept_moves _ _ _) (Exec.Moves.pure ())

theorem doCheckDefinedBlockIsUsed_moves (props : JayveeValidationProps)
    (pipelineWrapper : PipelineWrapper) (block : BlockId) :
    Exec.Moves StillReported (doCheckDefinedBlockIsUsed props pipelineWrapper block) := by
  refine Exec.Moves.ite ?_ (Exec.Moves.pure ())
  refine Exec.Moves.bind
    (Exec.Agrees.reads fun _ => BlockTypeWrapper.wrap_agrees _ _ _).moves fun blockType => ?_
  refine Exec.Moves.bind (warnAboutUnconnected_moves _ _ _ _) fun _ => ?_
  exact warnAboutUnconnected_moves _ _ _ _

theorem checkDefinedBlocksAreUsed_moves (props : JayveeValidationProps)
    (pipeline : PipelineDefinition) :
    Exec.Moves StillReported (checkDefinedBlocksAreUsed props pipeline) := by
  refine Exec.Moves.ite ?_ (Exec.Moves.pure ())
  refine Exec.Moves.bind (Exec.Moves.ofExcept _) fun pipelineWrapper => ?_
  exact Exec.Moves.forEach (doCheckDefinedBlockIsUsed_moves props pipelineWrapper)

/-! ## Pipelines without errors -/

/-- The validation of `pipeline` ends without an error. -/
def ReportsNoError (props : JayveeValidationProps) (pipeline : PipelineDefinition) : Prop :=
  ∃ fuel diagnostics, validatePipelineDefinition props fuel pipeline [] =
    some (.ok (), diagnostics) ∧ ∀ d ∈ diagnostics, d.severity ≠ .error

/-- The part of the validation that looks at the pipes reports no error either. -/
theorem ReportsNoError.checkMultipleBlockInputs {props : JayveeValidationProps}
    {pipeline : PipelineDefinition} (h : ReportsNoError props pipeline) :
    ∃ fuel before after, Jayvee.checkMultipleBlockInputs props fuel (.pipeline pipeline) before =
      some (.ok (), after) ∧ ∀ d ∈ after, d.severity ≠ .error := by
  obtain ⟨fuel, diagnostics, hvalidate, hnone⟩ := h
  unfold validatePipelineDefinition at hvalidate
  obtain ⟨_, _, _, hvalidate⟩ := Exec.bind_eq_ok_iff.mp hvalidate
  obtain ⟨_, _, _, hvalidate⟩ := Exec.bind_eq_ok_iff.mp hvalidate
  obtain ⟨_, _, _, hvalidate⟩ := Exec.bind_eq_ok_iff.mp hvalidate
  obtain ⟨_, _, _, hvalidate⟩ := Exec.bind_eq_ok_iff.mp hvalidate
  obtain ⟨_, before, _, hvalidate⟩ := Exec.bind_eq_ok_iff.mp hvalidate
  obtain ⟨_, after, hinputs, hused⟩ := Exec.bind_eq_ok_iff.mp hvalidate
  have hkept : after ⊆ diagnostics := checkDefinedBlocksAreUsed_moves props pipeline _ _ _ hused
  exact ⟨fuel, before, after, hinputs, fun d hd => hnone d (hkept hd)⟩

/-- The validation of a composite block type ends without an error. -/
def CompositeReportsNoError (props : JayveeValidationProps)
    (blockType : CompositeBlockTypeDefinition) : Prop :=
  ∃ fuel diagnostics, validateCompositeBlockTypeDefinition props fuel blockType [] =
    some (.ok (), diagnostics) ∧ ∀ d ∈ diagnostics, d.severity ≠ .error

variable {this : PipelineWrapper}

/-- If the check of the pipes reports no error, what can be reached from a starting block is a
forest. -/
theorem reachable_of_checkMultipleBlockInputs {props : JayveeValidationProps} {fuel : Nat}
    {pipesContainer : PipesContainer} {before after : List Diagnostic}
    (hinputs : checkMultipleBlockInputs props fuel pipesContainer before = some (.ok (), after))
    (hnone : ∀ d ∈ after, d.severity ≠ .error)
    (hwrap : PipelineWrapper.wrap pipesContainer = .ok this) {block : BlockId}
    (hblock : this.Reachable block) :
    ¬ TransGen this.Pipe block block ∧ (this.getIngoingPipes block).length ≤ 1 := by
  rw [checkMultipleBlockInputs_of_wrap hwrap] at hinputs
  obtain ⟨marked, _, hwalk, hafter⟩ := Exec.bind_eq_ok_iff.mp hinputs
  cases hafter
  constructor
  · intro hcycle
    exact no_reachable_cycle_of_returns hwalk ⟨block, hblock, hcycle⟩
  · by_contra hmany
    obtain ⟨pipe, _, _, hreported⟩ :=
      checkMultipleBlockInputsFrom_spec hwalk hblock (Nat.lt_of_not_le hmany)
    exact hnone _ hreported rfl

theorem ReportsNoError.reachable {props : JayveeValidationProps} {pipeline : PipelineDefinition}
    (h : ReportsNoError props pipeline)
    (hwrap : PipelineWrapper.wrap (.pipeline pipeline) = .ok this) {block : BlockId}
    (hblock : this.Reachable block) :
    ¬ TransGen this.Pipe block block ∧ (this.getIngoingPipes block).length ≤ 1 := by
  obtain ⟨fuel, before, after, hinputs, hnone⟩ := h.checkMultipleBlockInputs
  exact reachable_of_checkMultipleBlockInputs hinputs hnone hwrap hblock

/-! ## Scheduling -/

/-- The pipes of `pipeline` are a forest, which the topological sorting accepts. -/
def Schedulable (pipeline : PipelineDefinition) : Prop :=
  ∃ this, PipelineWrapper.wrap (.pipeline pipeline) = .ok this ∧ Acyclic this.Pipe ∧
    this.AtMostOneIngoingPipe ∧
    ∃ fuel sorted, ∀ fuel' ≥ fuel, this.getBlocksInTopologicalSorting fuel' = some (.ok sorted)

/-- A path that ends in a block of some pipe starts in a block of some pipe. -/
theorem PipelineWrapper.Occurs.of_path {a b : BlockId} (hb : this.Occurs b)
    (hpath : ReflTransGen this.Pipe a b) : this.Occurs a := by
  rcases ReflTransGen.cases_head hpath with rfl | ⟨c, hac, _⟩
  · exact hb
  · exact hac.occurs_from

/-- In an acyclic pipeline, every block of a pipe is reached from a starting block. -/
theorem PipelineWrapper.Occurs.reachable (hacyclic : Acyclic this.Pipe) {block : BlockId}
    (hblock : this.Occurs block) : this.Reachable block := by
  have hwf : WellFounded this.Pipe := hacyclic.wellFounded finite_from
  obtain ⟨start, hsource, hpath⟩ := reachableFrom_source hwf block
  exact ⟨start, mem_getStartingBlocks.mpr ⟨hblock.of_path hpath, hsource⟩, hpath⟩

theorem schedulable_of_reachable {props : JayveeValidationProps} {pipeline : PipelineDefinition}
    (h : ReportsNoError props pipeline)
    (hwrap : PipelineWrapper.wrap (.pipeline pipeline) = .ok this)
    (hreachable : ∀ block, this.Occurs block → this.Reachable block) :
    Schedulable pipeline := by
  have hacyclic : Acyclic this.Pipe := by
    intro block hcycle
    obtain ⟨next, hnext, _⟩ := TransGen.head'_iff.mp hcycle
    exact (h.reachable hwrap (hreachable block hnext.occurs_from)).1 hcycle
  have hingoing : this.AtMostOneIngoingPipe := by
    intro block
    by_cases hoccurs : this.Occurs block
    · exact (h.reachable hwrap (hreachable block hoccurs)).2
    · simp [PipelineWrapper.getIngoingPipes_of_not_occurs hoccurs]
  obtain ⟨result, hresult, hsorted, _⟩ :=
    PipelineWrapper.getBlocksInTopologicalSorting_spec hingoing.noEqualPipes
  obtain ⟨sorted, rfl, _⟩ := hsorted hacyclic
  exact ⟨this, hwrap, hacyclic, hingoing, _, sorted, fun fuel' hfuel => hresult fuel' hfuel⟩

/-- A pipeline that validates can be scheduled exactly if its references resolve and every
block of a pipe is reached from a starting block. -/
theorem validated_schedulable_iff (props : JayveeValidationProps) (pipeline : PipelineDefinition)
    (h : ReportsNoError props pipeline) :
    Schedulable pipeline ↔
      PipelineWrapper.canBeWrapped (.pipeline pipeline) = true ∧
      ∀ block, (PipelineWrapper.construct (.pipeline pipeline)).Occurs block →
        (PipelineWrapper.construct (.pipeline pipeline)).Reachable block := by
  constructor
  · rintro ⟨this, hwrap, hacyclic, _, _⟩
    obtain ⟨hcan, rfl⟩ := PipelineWrapper.wrap_eq_ok_iff.mp hwrap
    exact ⟨hcan, fun block hblock => hblock.reachable hacyclic⟩
  · rintro ⟨hcan, hreachable⟩
    exact schedulable_of_reachable h (PipelineWrapper.wrap_eq_ok_iff.mpr ⟨hcan, rfl⟩) hreachable

/-- An extractor `a`, a loader `b` and two transformers `c` and `d`. -/
def etlAst : Ast where
  valuetypes := []
  constraints := []
  transforms := []
  blocks := [⟨"a", some 0, []⟩, ⟨"b", some 1, []⟩, ⟨"c", some 2, []⟩, ⟨"d", some 2, []⟩]
  blockTypes := [
    .builtin ⟨"Extractor", [⟨"default", some "None"⟩], [⟨"default", some "Table"⟩], []⟩,
    .builtin ⟨"Loader", [⟨"default", some "Table"⟩], [⟨"default", some "None"⟩], []⟩,
    .builtin ⟨"Transformer", [⟨"default", some "Table"⟩], [⟨"default", some "Table"⟩], []⟩]

def etlProps : JayveeValidationProps :=
  { sampleProps with ast := etlAst }

/-- `a -> c -> d -> b;` -/
def etlPipeline : PipelineDefinition where
  name := "Etl"
  blocks := [0, 1, 2, 3]
  pipes := [⟨[some 0, some 2, some 3, some 1]⟩]
  transforms := []
  valueTypes := []
  constraints := []

/-- `a -> b; c -> d -> c;` -/
def detachedCyclePipeline : PipelineDefinition :=
  { etlPipeline with pipes := [⟨[some 0, some 1]⟩, ⟨[some 2, some 3, some 2]⟩] }

theorem validated_schedulable_etlPipeline :
    Schedulable etlPipeline ↔
      PipelineWrapper.canBeWrapped (.pipeline etlPipeline) = true ∧
      ∀ block, (PipelineWrapper.construct (.pipeline etlPipeline)).Occurs block →
        (PipelineWrapper.construct (.pipeline etlPipeline)).Reachable block :=
  validated_schedulable_iff etlProps etlPipeline ⟨4, [], rfl, by simp⟩

theorem not_schedulable_detachedCyclePipeline :
    ¬ ∀ (props : JayveeValidationProps) (pipeline : PipelineDefinition),
      ReportsNoError props pipeline → Schedulable pipeline := by
  intro h
  obtain ⟨this, hwrap, hacyclic, _⟩ :=
    h etlProps detachedCyclePipeline ⟨2, [], rfl, by simp⟩
  obtain ⟨_, rfl⟩ := PipelineWrapper.wrap_eq_ok_iff.mp hwrap
  let detachedCycle := PipelineWrapper.construct (.pipeline detachedCyclePipeline)
  have hpipe : ∀ a b, b ∈ detachedCycle.getChildBlocks a → detachedCycle.Pipe a b :=
    fun _ _ => PipelineWrapper.mem_getChildBlocks.mp
  exact hacyclic 2 (.tail (.single (hpipe 2 3 (by decide))) (hpipe 3 2 (by decide)))

end Jayvee
