import Jayvee.Verification.Execution.IoTypes
import Jayvee.Verification.Execution.Unfolding

/-! # Well-typed runs of pipelines -/

namespace Jayvee

open Foundation ExecutionContext Relation

variable {δ : Type} {ioTypeOf : δ → IOType} {ast : Ast}

/-! ## All blocks of a pipeline -/

theorem PipelineWrapper.isTopologicalSorting_of_eq_some {this : PipelineWrapper}
    (hpipes : this.NoEqualPipes) {fuel : Nat} {sorted : List BlockId}
    (h : this.getBlocksInTopologicalSorting fuel = some (.ok sorted)) :
    this.IsTopologicalSorting sorted := by
  obtain ⟨result, hresult, hsorted, hthrows⟩ := getBlocksInTopologicalSorting_spec hpipes
  have hmore := hresult (max fuel (2 * this.allPipes.length + 1)) (by omega)
  rw [getBlocksInTopologicalSorting_mono (le_max_left _ _) h] at hmore
  cases hmore
  by_cases hacyclic : Acyclic this.Pipe
  · obtain ⟨_, hok, hsorting⟩ := hsorted hacyclic
    cases hok
    exact hsorting
  · obtain ⟨_, herror⟩ := hthrows hacyclic
    cases herror

variable {plain checked : BlockId → Except JsError (BlockExecutor δ)}

/-- A failure-free run of the blocks only uses executors on inputs that they take. -/
theorem executeBlocks_agrees (hdisciplined : DisciplinedExecutors plain)
    (hagree : ExecutorsAgree ioTypeOf ast plain checked) {pipesContainer : PipesContainer}
    {this : PipelineWrapper} (hthis : PipelineWrapper.construct pipesContainer = this)
    {initialInputValue : Option (IOTypeImplementation δ)}
    (hingoing : PipelineWrapper.canBeWrapped pipesContainer = true → this.AtMostOneIngoingPipe)
    (hlinks : ∀ a b, this.Pipe a b → LinkFits ast a b)
    (hsources : ∀ sorted, this.IsTopologicalSorting sorted → ∀ block ∈ sorted,
      IsSource this.Pipe block → Takes ioTypeOf ast block
        (if sorted.head? = some block then initialInputValue.getD .NONE else .NONE))
    {fuel : Nat} {s t : ExecutionContext δ}
    {outcome : Except JsError (Result (List (ExecutionOrderItem δ)))}
    (hrun : executeBlocks plain fuel pipesContainer initialInputValue s = some (outcome, t))
    (hnone : NoBlockFails s t) :
    executeBlocks checked fuel pipesContainer initialInputValue s = some (outcome, t) ∧
      WellTypedOutcome ioTypeOf ast this outcome := by
  cases hwrap : PipelineWrapper.wrap pipesContainer with
  | error error =>
      rw [executeBlocks, hwrap] at hrun ⊢
      cases hrun
      exact ⟨rfl, by rintro result ⟨⟩⟩
  | ok wrapper =>
      obtain ⟨hcan, rfl⟩ := PipelineWrapper.wrap_eq_ok_iff.mp hwrap
      subst hthis
      have hingoing := hingoing hcan
      cases hsorting :
        (PipelineWrapper.construct pipesContainer).getBlocksInTopologicalSorting fuel with
      | none =>
          rw [executeBlocks, hwrap, Exec.bind_of_ok (Exec.ofExcept_apply _ _), hsorting] at hrun
          cases hrun
      | some result =>
          cases result with
          | error error =>
              rw [executeBlocks, hwrap, Exec.bind_of_ok (Exec.ofExcept_apply _ _), hsorting]
                at hrun ⊢
              cases hrun
              exact ⟨rfl, by rintro result ⟨⟩⟩
          | ok sorted =>
              have hsorted :=
                PipelineWrapper.isTopologicalSorting_of_eq_some hingoing.noEqualPipes hsorting
              rw [executeBlocks_of_sorted hwrap hsorting] at hrun ⊢
              have hblocks : ([] : List (ExecutionOrderItem δ)).map ExecutionOrderItem.block ++
                  (sorted.map fun block => (⟨block, some .NONE⟩ : ExecutionOrderItem δ)).map
                    ExecutionOrderItem.block = sorted := map_block_initial sorted
              exact executeOrder_agrees hdisciplined hagree hsorted hingoing hlinks
                (hsources sorted hsorted) hblocks (List.forall_mem_nil _) hrun hnone

/-! ## Composite blocks -/

/-- The inner blocks form a chain whose ends have the io types of the ports. -/
structure WiredComposite (ast : Ast) (blockType : CompositeBlockTypeDefinition)
    (chain : List BlockId) : Prop where
  pipes_eq : blockType.pipes = [⟨chain.map some⟩]
  names_nodup : (chain.map ast.blockName).Nodup
  links : ∀ i a b, chain[i]? = some a → chain[i + 1]? = some b → LinkFits ast a b
  input : ∀ first, chain.head? = some first →
    blockInputType ast first = portType blockType.inputs
  output : ∀ last, chain.getLast? = some last →
    blockOutputType ast last = portType blockType.outputs

section Composite

variable {services : ExecutionServices} {blockType : CompositeBlockTypeDefinition}
variable {chain : List BlockId}

/-- Only the first block of a chain is without a parent, and it takes the initial input. -/
theorem WiredComposite.takes_source (hwired : WiredComposite ast blockType chain)
    {input : IOTypeImplementation δ}
    (hinput : portType blockType.inputs = some (input.ioType ioTypeOf)) {sorted : List BlockId}
    (hsorted : (PipelineWrapper.construct
      (.compositeBlockType blockType)).IsTopologicalSorting sorted) {block : BlockId}
    (hblock : block ∈ sorted)
    (hsource : IsSource (PipelineWrapper.construct (.compositeBlockType blockType)).Pipe block) :
    Takes ioTypeOf ast block
      (if sorted.head? = some block then (some input).getD .NONE else .NONE) := by
  have hcontainer : (PipesContainer.compositeBlockType blockType).pipes = [⟨chain.map some⟩] :=
    hwired.pipes_eq
  have hnodup : chain.Nodup := List.Nodup.of_map _ hwired.names_nodup
  by_cases htwo : 2 ≤ chain.length
  · obtain rfl : sorted = chain :=
      PipelineWrapper.sorting_chain hcontainer hnodup htwo hsorted
    obtain ⟨i, hi, rfl⟩ := List.mem_iff_getElem.mp hblock
    cases i with
    | succ i =>
        have hpipe : (PipelineWrapper.construct (.compositeBlockType blockType)).Pipe
            sorted[i] sorted[i + 1] :=
          (PipelineWrapper.pipe_chain_iff hcontainer).mpr ⟨i, by simp, by simp [hi]⟩
        exact (hsource _ hpipe).elim
    | zero =>
        have hhead : sorted.head? = some sorted[0] := by
          rw [List.head?_eq_getElem?, List.getElem?_eq_getElem hi]
        rw [if_pos hhead]
        exact (hwired.input _ hhead).trans hinput
  · rw [PipelineWrapper.sorting_eq_nil_chain hcontainer htwo hsorted] at hblock
    cases hblock

theorem WiredComposite.executeBlocks_agrees (hwired : WiredComposite ast blockType chain)
    (hdisciplined : DisciplinedExecutors plain)
    (hagree : ExecutorsAgree ioTypeOf ast plain checked) {input : IOTypeImplementation δ}
    (hinput : portType blockType.inputs = some (input.ioType ioTypeOf)) {fuel : Nat}
    {s t : ExecutionContext δ} {outcome : Except JsError (Result (List (ExecutionOrderItem δ)))}
    (hrun : executeBlocks plain fuel (.compositeBlockType blockType) (some input) s =
      some (outcome, t)) (hnone : NoBlockFails s t) :
    executeBlocks checked fuel (.compositeBlockType blockType) (some input) s =
        some (outcome, t) ∧
      WellTypedOutcome ioTypeOf ast (.construct (.compositeBlockType blockType)) outcome := by
  have hcontainer : (PipesContainer.compositeBlockType blockType).pipes = [⟨chain.map some⟩] :=
    hwired.pipes_eq
  have hnodup : chain.Nodup := List.Nodup.of_map _ hwired.names_nodup
  apply Jayvee.executeBlocks_agrees hdisciplined hagree rfl
    (fun _ => PipelineWrapper.atMostOneIngoingPipe_chain hcontainer hnodup) ?_ ?_ hrun hnone
  · intro a b hpipe
    obtain ⟨i, ha, hb⟩ := (PipelineWrapper.pipe_chain_iff hcontainer).mp hpipe
    exact hwired.links i a b ha hb
  · intro sorted hsorted block hblock hsource
    exact hwired.takes_source hinput hsorted hblock hsource

theorem executeInnerBlocks_congr {create create' : BlockId → Except JsError (BlockExecutor δ)}
    {fuel : Nat} {body : List PropertyAssignment} {input : IOTypeImplementation δ}
    {s bound : ExecutionContext δ}
    (hadd : addVariablesToContext services body blockType.properties s = some (.ok (), bound))
    (hblocks : executeBlocks create fuel (.compositeBlockType blockType) (some input) bound =
      executeBlocks create' fuel (.compositeBlockType blockType) (some input) bound) :
    executeInnerBlocks services create fuel blockType body input s =
      executeInnerBlocks services create' fuel blockType body input s := by
  unfold executeInnerBlocks recordAbort Exec.tryCatch
  rw [Exec.bind_of_ok hadd, Exec.bind_of_ok hadd, Exec.bind_apply, Exec.bind_apply, hblocks]

/-- What a run of the inner blocks consists of. -/
theorem executeInnerBlocks_eq_some
    {create : BlockId → Except JsError (BlockExecutor δ)} {fuel : Nat}
    {body : List PropertyAssignment} {input : IOTypeImplementation δ} {s t : ExecutionContext δ}
    {outcome : Except JsError (Result (List (ExecutionOrderItem δ)))}
    (hrun : executeInnerBlocks services create fuel blockType body input s = some (outcome, t)) :
    (∃ error bound, addVariablesToContext services body blockType.properties s =
      some (.error error, bound) ∧ outcome = .error error ∧
      t = { bound with history.aborts := bound.history.aborts + 1 }) ∨
    ∃ bound after, addVariablesToContext services body blockType.properties s =
        some (.ok (), bound) ∧
      executeBlocks create fuel (.compositeBlockType blockType) (some input) bound =
        some (outcome, after) ∧
      bound.history.failures = s.history.failures ∧
      t.history.failures = after.history.failures := by
  obtain ⟨⟨added, bound⟩, hadd⟩ :=
    (addVariablesToContext_ends blockType.properties : Exec.Ends
      (addVariablesToContext services body blockType.properties : ExecM δ Unit)) s
  have hbound := (addVariablesToContext_binds services _ _ _ _ _ hadd).1.failures_eq
  cases added with
  | error error =>
      have hinner : executeInnerBlocks services create fuel blockType body input s =
          some (.error error, { bound with history.aborts := bound.history.aborts + 1 }) :=
        Exec.tryCatch_of_error (Exec.bind_of_error hadd)
      rw [hinner] at hrun
      cases hrun
      exact .inl ⟨error, bound, hadd, rfl, rfl⟩
  | ok added =>
      refine .inr ⟨bound, ?_⟩
      cases hexecute : executeBlocks create fuel (.compositeBlockType blockType) (some input)
          bound with
      | none =>
          have hdiverges : executeInnerBlocks services create fuel blockType body input s = none :=
            Exec.tryCatch_of_none ((Exec.bind_of_ok hadd).trans (Exec.bind_of_none hexecute))
          rw [hdiverges] at hrun
          cases hrun
      | some executed =>
          obtain ⟨result, after⟩ := executed
          refine ⟨after, hadd, ?_⟩
          cases result with
          | error error =>
              have hinner : executeInnerBlocks services create fuel blockType body input s =
                  some (.error error, { after with history.aborts := after.history.aborts + 1 }) :=
                Exec.tryCatch_of_error ((Exec.bind_of_ok hadd).trans (Exec.bind_of_error hexecute))
              rw [hinner] at hrun
              cases hrun
              exact ⟨rfl, hbound, rfl⟩
          | ok result =>
              have hunbinds : Unbinds (blockType.properties.map BlockTypeProperty.name)
                (removeVariablesFromContext blockType.properties : ExecM δ Unit) := Unbinds.forEach
              obtain ⟨removed, hremove, hremoved, _⟩ := hunbinds after
              have hinner : executeInnerBlocks services create fuel blockType body input s =
                  some (.ok result, removed) :=
                Exec.tryCatch_of_ok ((Exec.bind_of_ok hadd).trans
                  ((Exec.bind_of_ok hexecute).trans (Exec.bind_of_ok hremove)))
              rw [hinner] at hrun
              cases hrun
              exact ⟨rfl, hbound, hremoved.failures_eq⟩

theorem executeInnerBlocks_agrees (hdisciplined : DisciplinedExecutors plain)
    (hagree : ExecutorsAgree ioTypeOf ast plain checked)
    (hwired : WiredComposite ast blockType chain) {input : IOTypeImplementation δ}
    (hinput : portType blockType.inputs = some (input.ioType ioTypeOf)) {fuel : Nat}
    {body : List PropertyAssignment} {s t : ExecutionContext δ}
    {outcome : Except JsError (Result (List (ExecutionOrderItem δ)))}
    (hrun : executeInnerBlocks services plain fuel blockType body input s = some (outcome, t))
    (hnone : NoBlockFails s t) :
    executeInnerBlocks services checked fuel blockType body input s = some (outcome, t) ∧
      WellTypedOutcome ioTypeOf ast (.construct (.compositeBlockType blockType)) outcome := by
  obtain ⟨error, bound, hadd, rfl, rfl⟩ | ⟨bound, after, hadd, hexecute, hbound, hafter⟩ :=
    executeInnerBlocks_eq_some hrun
  · refine ⟨Exec.tryCatch_of_error (Exec.bind_of_error hadd), ?_⟩
    rintro result ⟨⟩
  · have hnone' : NoBlockFails bound after := by
      unfold NoBlockFails at hnone ⊢
      omega
    obtain ⟨hchecked, houtcome⟩ :=
      hwired.executeBlocks_agrees hdisciplined hagree hinput hexecute hnone'
    refine ⟨?_, houtcome⟩
    rw [executeInnerBlocks_congr hadd (hchecked.trans hexecute.symm), hrun]

/-- With values of the right types for all inner blocks, the value of the composite block is
the one of the last block. -/
theorem WiredComposite.gives_of_find (hwired : WiredComposite ast blockType chain)
    {order : List (ExecutionOrderItem δ)}
    (horder : (PipelineWrapper.construct (.compositeBlockType blockType)).IsTopologicalSorting
      (order.map ExecutionOrderItem.block))
    (htyped : ∀ item ∈ order, WellTypedItem ioTypeOf ast item) {item : ExecutionOrderItem δ}
    (hfind : findBlockExecutionResult ast ⟨chain.map some⟩ order = some item) :
    ∃ value, item.value = some value ∧
      portType blockType.outputs = some (value.ioType ioTypeOf) := by
  have hcontainer : (PipesContainer.compositeBlockType blockType).pipes = [⟨chain.map some⟩] :=
    hwired.pipes_eq
  have hnodup : chain.Nodup := List.Nodup.of_map _ hwired.names_nodup
  by_cases htwo : 2 ≤ chain.length
  · have hblocks := PipelineWrapper.sorting_chain hcontainer hnodup htwo horder
    rw [findBlockExecutionResult_chain hwired.names_nodup hblocks] at hfind
    obtain ⟨value, hvalue, hgives⟩ := htyped item (List.mem_of_getLast? hfind)
    have hlast : chain.getLast? = some item.block := by
      rw [← hblocks, List.getLast?_map, hfind]
      rfl
    exact ⟨value, hvalue, (hwired.output _ hlast).symm.trans hgives⟩
  · -- without pipes, nothing was executed
    have hnone := PipelineWrapper.sorting_eq_nil_chain hcontainer htwo horder
    rw [List.map_eq_nil_iff.mp hnone] at hfind
    cases hfind

/-- What a composite block makes of its inner blocks does not change the context. -/
theorem doExecuteComposite_eq_some {create : BlockId → Except JsError (BlockExecutor δ)}
    {fuel : Nat} {body : List PropertyAssignment} {input : IOTypeImplementation δ}
    {s t : ExecutionContext δ} {pipeline : PipeDefinition}
    (hpipes : blockType.pipes = [pipeline])
    {result : Except JsError (Result (Option (IOTypeImplementation δ)))}
    (hrun : doExecuteComposite services create fuel blockType body input s = some (result, t)) :
    ∃ outcome, executeInnerBlocks services create fuel blockType body input s =
        some (outcome, t) ∧
      result = compositeOutcome services.ast blockType pipeline outcome := by
  cases hinner : executeInnerBlocks services create fuel blockType body input s with
  | none =>
      rw [doExecuteComposite, Exec.bind_of_none hinner] at hrun
      cases hrun
  | some inner =>
      obtain ⟨outcome, after⟩ := inner
      have hdo := doExecuteComposite_of_inner hpipes hinner
      rw [hdo] at hrun
      cases hrun
      exact ⟨outcome, rfl, rfl⟩

/-- The executor of a composite block keeps to its ports if its inner blocks keep to theirs. -/
theorem doExecuteComposite_agrees (hdisciplined : DisciplinedExecutors plain)
    (hagree : ExecutorsAgree ioTypeOf services.ast plain checked)
    (hwired : WiredComposite services.ast blockType chain) (fuel : Nat)
    (body : List PropertyAssignment) :
    TypedAgreement (fun value => portType blockType.inputs = some (value.ioType ioTypeOf))
      (fun value => portType blockType.outputs = some (value.ioType ioTypeOf))
      (doExecuteComposite services plain fuel blockType body)
      (doExecuteComposite services checked fuel blockType body) := by
  constructor
  · intro input s result t hinput hrun hnone
    obtain ⟨outcome, hinner, rfl⟩ := doExecuteComposite_eq_some hwired.pipes_eq hrun
    exact doExecuteComposite_of_inner hwired.pipes_eq
      (executeInnerBlocks_agrees hdisciplined hagree hwired hinput hinner hnone).1
  · intro input s result t hinput hrun hnone
    obtain ⟨outcome, hinner, hresult⟩ := doExecuteComposite_eq_some hwired.pipes_eq hrun
    have houtcome := (executeInnerBlocks_agrees hdisciplined hagree hwired hinput hinner hnone).2
    cases outcome with
    | error error => cases hresult
    | ok inner =>
        obtain ⟨order, rfl, horder, htyped⟩ := houtcome _ rfl
        rw [compositeOutcome] at hresult
        split at hresult
        · cases hresult
        · rename_i item hfind
          cases hresult
          exact hwired.gives_of_find horder htyped hfind

end Composite

/-! ## Every nesting -/

section Create

variable {services : ExecutionServices} {blockExecutors : BlockExecutors δ}
variable {types : ExecutorTypes}

/-- The executors have the io types of the block types that they are registered for. -/
def DeclaredTypes (ast : Ast) (types : ExecutorTypes) (blockExecutors : BlockExecutors δ) :
    Prop :=
  ∀ blockType ∈ ast.blockTypes, (getExecutorForBlockType blockExecutors blockType.name).isSome →
    portType blockType.inputs = some (types.inputType blockType.name) ∧
    portType blockType.outputs = some (types.outputType blockType.name)

/-- A builtin executor is only used on inputs of its type. -/
theorem doExecute_agrees {blockType : ReferenceableBlockTypeDefinition}
    {blockExecutor : BuiltinBlockExecutor δ} (hhonours : HonoursTypes ioTypeOf types blockExecutors)
    (hget : getExecutorForBlockType blockExecutors blockType.name = some blockExecutor)
    (hinput : portType blockType.inputs = some (types.inputType blockType.name))
    (houtput : portType blockType.outputs = some (types.outputType blockType.name)) :
    TypedAgreement (fun value => portType blockType.inputs = some (value.ioType ioTypeOf))
      (fun value => portType blockType.outputs = some (value.ioType ioTypeOf))
      (blockExecutor.doExecute services)
      ((blockExecutor.checked ioTypeOf (types.inputType blockType.name)).doExecute services) := by
  constructor
  · intro input s outcome t htakes hrun _
    have hioType : input.ioType ioTypeOf = types.inputType blockType.name :=
      Option.some.inj (htakes.symm.trans hinput)
    rw [BuiltinBlockExecutor.doExecute] at hrun ⊢
    simpa only [BuiltinBlockExecutor.checked, if_pos hioType] using hrun
  · intro input s result t htakes hrun _
    have hioType : input.ioType ioTypeOf = types.inputType blockType.name :=
      Option.some.inj (htakes.symm.trans hinput)
    obtain ⟨value, rfl, hvalue⟩ := hhonours _ _ hget services s.history.clock input s result t
      hioType hrun
    exact ⟨value, rfl, houtput.trans (congrArg some hvalue.symm)⟩

/-- What is created for a block, with executors that agree for its inner blocks. -/
theorem createBlockExecutor_agrees_step {nesting : Nat}
    (hwired : ∀ blockType, .composite blockType ∈ services.ast.blockTypes →
      ∃ chain, WiredComposite services.ast blockType chain)
    (hdeclared : DeclaredTypes services.ast types blockExecutors)
    (hhonours : HonoursTypes ioTypeOf types blockExecutors)
    (hagree : ExecutorsAgree ioTypeOf services.ast
      (createBlockExecutor services blockExecutors nesting)
      (createBlockExecutor services (checkedExecutors ioTypeOf types blockExecutors) nesting))
    (block : BlockId) :
    (∃ error, createBlockExecutor services blockExecutors (nesting + 1) block = .error error ∧
      createBlockExecutor services (checkedExecutors ioTypeOf types blockExecutors) (nesting + 1)
        block = .error error) ∨
    ∃ plain checked, createBlockExecutor services blockExecutors (nesting + 1) block = .ok plain ∧
      createBlockExecutor services (checkedExecutors ioTypeOf types blockExecutors) (nesting + 1)
        block = .ok checked ∧
      TypedAgreement (Takes ioTypeOf services.ast block) (Gives ioTypeOf services.ast block) plain
        checked := by
  cases hblock : services.ast.blocks[block]? with
  | none =>
      simp only [createBlockExecutor, hblock]
      exact .inl ⟨_, rfl, rfl⟩
  | some definition =>
      cases htype : services.ast.blockTypeOf block with
      | none =>
          simp only [createBlockExecutor, hblock, htype]
          exact .inl ⟨_, rfl, rfl⟩
      | some blockType =>
          have htakes : Takes ioTypeOf services.ast block =
              fun value => portType blockType.inputs = some (value.ioType ioTypeOf) := by
            funext value
            rw [Takes, blockInputType, htype, Option.bind_some]
          have hgives : Gives ioTypeOf services.ast block =
              fun value => portType blockType.outputs = some (value.ioType ioTypeOf) := by
            funext value
            rw [Gives, blockOutputType, htype, Option.bind_some]
          have hchecked := getExecutor_checkedExecutors ioTypeOf types blockExecutors blockType.name
          rw [htakes, hgives]
          cases hget : getExecutorForBlockType blockExecutors blockType.name with
          | some blockExecutor =>
              rw [hget, Option.map_some] at hchecked
              obtain ⟨hinput, houtput⟩ :=
                hdeclared blockType (mem_blockTypes htype) (by rw [hget]; rfl)
              simp only [createBlockExecutor, hblock, htype, hget, hchecked]
              refine .inr ⟨_, _, rfl, rfl, ?_⟩
              exact (doExecute_agrees hhonours hget hinput houtput).executeWith services
          | none =>
              rw [hget, Option.map_none] at hchecked
              cases blockType with
              | builtin blockType =>
                  simp only [createBlockExecutor, hblock, htype, hget, hchecked]
                  exact .inl ⟨_, rfl, rfl⟩
              | composite blockType =>
                  simp only [createBlockExecutor, hblock, htype, hget, hchecked]
                  obtain ⟨chain, hchain⟩ := hwired blockType (mem_blockTypes htype)
                  cases getInputType blockType with
                  | error error => exact .inl ⟨error, rfl, rfl⟩
                  | ok inputType =>
                      cases getOutputType blockType with
                      | error error => exact .inl ⟨error, rfl, rfl⟩
                      | ok outputType =>
                          refine .inr ⟨_, _, rfl, rfl, ?_⟩
                          exact (doExecuteComposite_agrees
                            (createBlockExecutor_disciplined services blockExecutors nesting)
                            hagree hchain nesting definition.body).executeWith services

/-- However deep the composite blocks are nested. -/
theorem createBlockExecutor_agrees
    (hwired : ∀ blockType, .composite blockType ∈ services.ast.blockTypes →
      ∃ chain, WiredComposite services.ast blockType chain)
    (hdeclared : DeclaredTypes services.ast types blockExecutors)
    (hhonours : HonoursTypes ioTypeOf types blockExecutors) (nesting : Nat) :
    ExecutorsAgree ioTypeOf services.ast (createBlockExecutor services blockExecutors nesting)
      (createBlockExecutor services (checkedExecutors ioTypeOf types blockExecutors) nesting) := by
  induction nesting with
  | zero =>
      constructor
      · rintro block error ⟨⟩
      · rintro block _ ⟨⟩
        refine ⟨_, rfl, ?_, ?_⟩
        · rintro input s outcome t _ ⟨⟩
        · rintro input s result t _ ⟨⟩
  | succ nesting ih =>
      have hstep := createBlockExecutor_agrees_step hwired hdeclared hhonours ih
      constructor
      · intro block error herror
        obtain ⟨error', hplain, hchecked⟩ | ⟨_, _, hplain, _⟩ := hstep block
        · rw [hplain] at herror
          rwa [← herror]
        · rw [hplain] at herror
          cases herror
      · intro block blockExecutor hok
        obtain ⟨_, hplain, _⟩ | ⟨plain, checked, hplain, hchecked, hagreement⟩ := hstep block
        · rw [hplain] at hok
          cases hok
        · rw [hplain] at hok
          cases hok
          exact ⟨checked, hchecked, hagreement⟩

end Create

/-! ## Validated programs -/

section Program

variable {props : JayveeValidationProps} {pipeline : PipelineDefinition}

/-- The pipes of the pipeline and of all composite block types. -/
def DefinesPipe (ast : Ast) (pipeline : PipelineDefinition) (pipe : PipeDefinition) : Prop :=
  pipe ∈ pipeline.pipes ∨
    ∃ blockType, .composite blockType ∈ ast.blockTypes ∧ pipe ∈ blockType.pipes

/-- The validation accepts the program: its pipeline and all pipes, whose blocks have types that are
complete. -/
structure ValidatedProgram (props : JayveeValidationProps) (pipeline : PipelineDefinition) :
    Prop where
  validated : ReportsNoError props pipeline
  pipes : ∀ pipe, DefinesPipe props.ast pipeline pipe → PipeReportsNoError props pipe
  resolved : ∀ pipe, DefinesPipe props.ast pipeline pipe → ∀ block, some block ∈ pipe.blocks →
    BlockTypeWrapper.canBeWrapped (props.ast.blockTypeOf block) = true

/-- What the validation does not ensure: there are no cycles, blocks without a parent take no input,
and the inner blocks of composite block types form chains whose ends have the io types of the
ports. -/
structure WiredProgram (ast : Ast) (pipeline : PipelineDefinition) : Prop where
  acyclic : Acyclic (PipelineWrapper.construct (.pipeline pipeline)).Pipe
  sources : ∀ block, (PipelineWrapper.construct (.pipeline pipeline)).Occurs block →
    IsSource (PipelineWrapper.construct (.pipeline pipeline)).Pipe block →
    blockInputType ast block = some .none
  composites : ∀ blockType, .composite blockType ∈ ast.blockTypes →
    ∃ chain : List BlockId, blockType.pipes = [⟨chain.map some⟩] ∧
      (chain.map ast.blockName).Nodup ∧
      (∀ first, chain.head? = some first →
        blockInputType ast first = portType blockType.inputs) ∧
      ∀ last, chain.getLast? = some last →
        blockOutputType ast last = portType blockType.outputs

/-- Neighbours in a pipe have the same io type. -/
theorem ValidatedProgram.linkFits (h : ValidatedProgram props pipeline) {pipe : PipeDefinition}
    (hpipe : DefinesPipe props.ast pipeline pipe) {i : Nat} {a b : BlockId}
    (ha : pipe.blocks[i]? = some (some a)) (hb : pipe.blocks[i + 1]? = some (some b)) :
    LinkFits props.ast a b := by
  let link : PipeWrapper := ⟨pipe, i, a, b, ha, hb⟩
  have hlink : link.astNode = pipe := rfl
  exact (h.pipes pipe hpipe).linkFits hlink (h.resolved pipe hpipe a (List.mem_of_getElem? ha))
    (h.resolved pipe hpipe b (List.mem_of_getElem? hb))

theorem ValidatedProgram.linkFits_of_pipe (h : ValidatedProgram props pipeline) {a b : BlockId}
    (hpipe : (PipelineWrapper.construct (.pipeline pipeline)).Pipe a b) :
    LinkFits props.ast a b := by
  obtain ⟨link, hlink, rfl, rfl⟩ := hpipe
  obtain ⟨pipe, hmem, hwrapped⟩ := List.mem_flatMap.mp hlink
  have hnode := (PipeWrapper.mem_wrapAll pipe link).mp hwrapped
  have hdefined : DefinesPipe props.ast pipeline link.astNode := by
    rw [hnode]
    exact .inl hmem
  exact h.linkFits hdefined link.from_resolves link.to_resolves

theorem ValidatedProgram.wiredComposite (h : ValidatedProgram props pipeline)
    (hwired : WiredProgram props.ast pipeline) {blockType : CompositeBlockTypeDefinition}
    (hblockType : .composite blockType ∈ props.ast.blockTypes) :
    ∃ chain, WiredComposite props.ast blockType chain := by
  obtain ⟨chain, hpipes, hnames, hinput, houtput⟩ := hwired.composites blockType hblockType
  have hdefined : DefinesPipe props.ast pipeline ⟨chain.map some⟩ :=
    .inr ⟨blockType, hblockType, by rw [hpipes]; exact List.mem_singleton.mpr rfl⟩
  refine ⟨chain, hpipes, hnames, fun i a b ha hb => ?_, hinput, houtput⟩
  have hfrom : (chain.map some)[i]? = some (some a) := by rw [List.getElem?_map, ha]; rfl
  have hto : (chain.map some)[i + 1]? = some (some b) := by rw [List.getElem?_map, hb]; rfl
  exact h.linkFits hdefined hfrom hto

theorem ValidatedProgram.atMostOneIngoingPipe (h : ValidatedProgram props pipeline)
    (hwired : WiredProgram props.ast pipeline)
    (hcan : PipelineWrapper.canBeWrapped (.pipeline pipeline) = true) :
    (PipelineWrapper.construct (.pipeline pipeline)).AtMostOneIngoingPipe := by
  have hwrap := PipelineWrapper.wrap_eq_ok_iff.mpr ⟨hcan, rfl⟩
  intro block
  by_cases hoccurs : (PipelineWrapper.construct (.pipeline pipeline)).Occurs block
  · exact (h.validated.reachable hwrap (hoccurs.reachable hwired.acyclic)).2
  · simp [PipelineWrapper.getIngoingPipes_of_not_occurs hoccurs]

end Program

/-- As long as no block fails, the blocks of a validated and wired program only get inputs of the io
type that they are declared to take, on every level: executors that check the type of their input
before anything else run in the same way. Every block has a value of its output type in the
end. -/
theorem executeBlocks_checkedExecutors (props : JayveeValidationProps)
    (pipeline : PipelineDefinition) (services : ExecutionServices)
    (ioTypeOf : δ → IOType) (types : ExecutorTypes) (blockExecutors : BlockExecutors δ)
    (nesting fuel : Nat) (context context' : ExecutionContext δ)
    (outcome : Except JsError (Result (List (ExecutionOrderItem δ))))
    (hast : services.ast = props.ast) (hvalidated : ValidatedProgram props pipeline)
    (hwired : WiredProgram props.ast pipeline)
    (hdeclared : DeclaredTypes props.ast types blockExecutors)
    (hhonours : HonoursTypes ioTypeOf types blockExecutors)
    (hrun : executeBlocks (createBlockExecutor services blockExecutors nesting) fuel
      (.pipeline pipeline) none context = some (outcome, context'))
    (hnone : NoBlockFails context context') :
    executeBlocks (createBlockExecutor services
        (checkedExecutors ioTypeOf types blockExecutors) nesting) fuel (.pipeline pipeline) none
        context = some (outcome, context') ∧
      WellTypedOutcome ioTypeOf props.ast (.construct (.pipeline pipeline)) outcome := by
  rw [← hast] at hdeclared
  have hcomposites : ∀ blockType, .composite blockType ∈ services.ast.blockTypes →
      ∃ chain, WiredComposite services.ast blockType chain := by
    rw [hast]
    exact fun blockType => hvalidated.wiredComposite hwired
  have hagree := createBlockExecutor_agrees hcomposites hdeclared hhonours nesting
  rw [hast] at hagree
  apply executeBlocks_agrees (createBlockExecutor_disciplined services blockExecutors nesting)
    hagree rfl (hvalidated.atMostOneIngoingPipe hwired) (fun a b => hvalidated.linkFits_of_pipe) ?_ hrun
    hnone
  intro sorted hsorted block hblock hsource
  have hinput := hwired.sources block ((hsorted.mem_iff block).mp hblock) hsource
  rw [Option.getD_none, ite_self]
  exact hinput

/-- An extractor `a`, a loader `b` and a block `twice` that is composed of the transformers `c` and
`d`. -/
def nestedAst : Ast where
  valuetypes := []
  constraints := []
  transforms := []
  blocks := [⟨"a", some 0, []⟩, ⟨"b", some 1, []⟩, ⟨"twice", some 3, []⟩, ⟨"c", some 2, []⟩,
    ⟨"d", some 2, []⟩]
  blockTypes := [
    .builtin ⟨"Extractor", [⟨"default", some "None"⟩], [⟨"default", some "Table"⟩], []⟩,
    .builtin ⟨"Loader", [⟨"default", some "Table"⟩], [⟨"default", some "None"⟩], []⟩,
    .builtin ⟨"Transformer", [⟨"default", some "Table"⟩], [⟨"default", some "Table"⟩], []⟩,
    .composite ⟨"Twice", [⟨"default", some "Table"⟩], [⟨"default", some "Table"⟩], [], [3, 4],
      [⟨[some 3, some 4]⟩]⟩]

/-- `a -> twice -> b;` -/
def nestedPipeline : PipelineDefinition where
  name := "Nested"
  blocks := [0, 1, 2]
  pipes := [⟨[some 0, some 2, some 1]⟩]
  transforms := []
  valueTypes := []
  constraints := []

def nestedProps : JayveeValidationProps :=
  { sampleProps with ast := nestedAst }

def nestedTypes : ExecutorTypes where
  inputType name := if name = "Extractor" then .none else .table
  outputType name := if name = "Loader" then .none else .table

/-- The loader outputs `NONE`, the other blocks output a table. -/
def nestedExecutors : BlockExecutors Unit :=
  ["Extractor", "Loader", "Transformer"].map fun name =>
    (name, fun _ _ => .return (.ok (some (if name = "Loader" then .NONE else .value ()))))

theorem eq_of_lookup_map {α : Type} {names : List String} {f : String → α} {name : String} {x : α}
    (h : (names.map fun name => (name, f name)).lookup name = some x) : x = f name := by
  induction names with
  | nil => cases h
  | cons first names ih =>
      rw [List.map_cons, List.lookup_cons] at h
      cases hname : name == first with
      | false =>
          rw [hname] at h
          exact ih h
      | true =>
          rw [hname] at h
          rw [beq_iff_eq.mp hname]
          exact (Option.some.inj h).symm

theorem nestedExecutors_honourTypes :
    HonoursTypes (fun _ => .table) nestedTypes nestedExecutors := by
  intro name blockExecutor hget services clock input context result context' _ hrun
  have hname : blockExecutor = fun _ _ =>
      .return (.ok (some (if name = "Loader" then .NONE else .value ()))) :=
    eq_of_lookup_map hget
  subst hname
  cases hrun
  refine ⟨_, rfl, ?_⟩
  by_cases hloader : name = "Loader"
  · simp [hloader, nestedTypes, IOTypeImplementation.ioType]
  · simp [hloader, nestedTypes, IOTypeImplementation.ioType]

theorem nestedExecutors_declaredTypes :
    DeclaredTypes nestedAst nestedTypes nestedExecutors := by
  intro blockType hblockType hget
  simp only [nestedAst, List.mem_cons, List.not_mem_nil, or_false] at hblockType
  rcases hblockType with rfl | rfl | rfl | rfl
  · exact ⟨rfl, rfl⟩
  · exact ⟨rfl, rfl⟩
  · exact ⟨rfl, rfl⟩
  · cases hget

theorem validatedProgram_nested : ValidatedProgram nestedProps nestedPipeline := by
  have hpipes : ∀ pipe, DefinesPipe nestedAst nestedPipeline pipe →
      pipe = ⟨[some 0, some 2, some 1]⟩ ∨ pipe = ⟨[some 3, some 4]⟩ := by
    intro pipe hpipe
    rcases hpipe with hpipe | ⟨blockType, hblockType, hpipe⟩
    · exact .inl (List.mem_singleton.mp hpipe)
    · simp only [nestedAst, List.mem_cons, reduceCtorEq, false_or, List.not_mem_nil, or_false,
        ReferenceableBlockTypeDefinition.composite.injEq] at hblockType
      subst hblockType
      exact .inr (List.mem_singleton.mp hpipe)
  refine ⟨⟨4, [], rfl, by simp⟩, ?_, ?_⟩
  · intro pipe hpipe
    rcases hpipes pipe hpipe with rfl | rfl
    · exact ⟨[], rfl, by simp⟩
    · exact ⟨[], rfl, by simp⟩
  · intro pipe hpipe block hblock
    rcases hpipes pipe hpipe with rfl | rfl
    · simp only [List.mem_cons, Option.some.injEq, List.not_mem_nil, or_false] at hblock
      rcases hblock with rfl | rfl | rfl <;> rfl
    · simp only [List.mem_cons, Option.some.injEq, List.not_mem_nil, or_false] at hblock
      rcases hblock with rfl | rfl <;> rfl

theorem wiredProgram_nested : WiredProgram nestedAst nestedPipeline := by
  have hcontainer : (PipesContainer.pipeline nestedPipeline).pipes =
      [⟨[0, 2, 1].map some⟩] := rfl
  refine ⟨PipelineWrapper.acyclic_chain hcontainer (by decide), ?_, ?_⟩
  · intro block hoccurs hsource
    have hmem := (PipelineWrapper.occurs_chain_iff hcontainer (by decide)).mp hoccurs
    have hpipe : ∀ a b, b ∈ (PipelineWrapper.construct
        (.pipeline nestedPipeline)).getChildBlocks a → ¬ block = b :=
      fun a b hb heq => hsource a (PipelineWrapper.mem_getChildBlocks.mp (heq ▸ hb))
    simp only [List.mem_cons, List.not_mem_nil, or_false] at hmem
    rcases hmem with rfl | rfl | rfl
    · rfl
    · exact (hpipe 0 2 (by decide) rfl).elim
    · exact (hpipe 2 1 (by decide) rfl).elim
  · intro blockType hblockType
    simp only [nestedAst, List.mem_cons, reduceCtorEq, false_or, List.not_mem_nil, or_false,
      ReferenceableBlockTypeDefinition.composite.injEq] at hblockType
    subst hblockType
    refine ⟨[3, 4], rfl, by decide, ?_, ?_⟩
    · rintro first ⟨⟩
      rfl
    · rintro last ⟨⟩
      rfl

theorem executeBlocks_checkedExecutors_nested :
    ∃ outcome context',
      executeBlocks (createBlockExecutor (sampleServices nestedAst) nestedExecutors 5) 7
        (.pipeline nestedPipeline) none stepContext = some (outcome, context') ∧
      executeBlocks (createBlockExecutor (sampleServices nestedAst)
          (checkedExecutors (fun _ => .table) nestedTypes nestedExecutors) 5) 7
          (.pipeline nestedPipeline) none stepContext = some (outcome, context') ∧
        WellTypedOutcome (fun _ => .table) nestedAst (.construct (.pipeline nestedPipeline))
          outcome :=
  ⟨_, _, rfl, executeBlocks_checkedExecutors nestedProps nestedPipeline (sampleServices nestedAst)
    (fun _ => .table) nestedTypes nestedExecutors 5 7 stepContext _ _ rfl validatedProgram_nested
    wiredProgram_nested nestedExecutors_declaredTypes nestedExecutors_honourTypes rfl rfl⟩

end Jayvee
