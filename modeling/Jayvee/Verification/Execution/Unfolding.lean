import Jayvee.Verification.Execution.CompositeChain
import Jayvee.Verification.Execution.StackBalance
import Jayvee.Verification.Pipeline.CompositeValidation

/-! # The unfolding of composite blocks -/

namespace Jayvee

open Foundation ExecutionContext

variable {δ : Type}

/-! ## Programs without composite blocks end -/

theorem ends_scoped : Scoped fun _ (m : ExecM δ _) => Exec.Ends m where
  reads h := h.ends
  bind := Exec.Ends.bind
  setValueForValueKeyword _ := Exec.Ends.modify _
  deleteValueForValueKeyword := Exec.Ends.modify _
  node hm hf := by
    apply Exec.Ends.bind (Exec.Ends.modify _)
    intro _
    apply Exec.Ends.bind hm
    exact fun a => Exec.Ends.bind (exitNode_ends _) fun _ => hf a
  scope hadd _ hremove hm := by
    apply Exec.Ends.tryCatch
    · apply Exec.Ends.bind hadd
      intro _
      apply Exec.Ends.bind hm
      intro a
      apply Exec.Ends.bind ?_ fun _ => Exec.Ends.pure a
      intro s
      obtain ⟨t, ht, _⟩ := hremove s
      exact ⟨_, ht⟩
    · exact fun e => Exec.Ends.bind (Exec.Ends.modify _) fun _ => Exec.Ends.throw e

/-! ## Composite blocks inside of composite blocks -/

section Contains

variable (services : ExecutionServices) (blockExecutors : BlockExecutors δ)

/-- `block` is executed by the executor of a composite block type. -/
structure IsComposite (block : BlockId) (blockType : CompositeBlockTypeDefinition) : Prop where
  blockType_eq : services.ast.blockTypeOf block = some (.composite blockType)
  no_builtin : getExecutorForBlockType blockExecutors blockType.name = none
  input : (getInputType blockType).isOk
  output : (getOutputType blockType).isOk

/-- `inner` is one of the sorted blocks of the pipeline of a composite block type. -/
def Schedules (blockType : CompositeBlockTypeDefinition) (inner : BlockId) : Prop :=
  ∃ this fuel sorted, PipelineWrapper.wrap (.compositeBlockType blockType) = .ok this ∧
    this.getBlocksInTopologicalSorting fuel = some (.ok sorted) ∧ inner ∈ sorted

/-- `outer` is a composite block that has `inner` executed. -/
def Contains (inner outer : BlockId) : Prop :=
  ∃ blockType, IsComposite services blockExecutors outer blockType ∧ Schedules blockType inner

/-- There is no endless nesting of composite blocks below `block`. -/
def UnfoldsFinitely (block : BlockId) : Prop :=
  Acc (Contains services blockExecutors) block

/-- The execution of `block` ends, with an outcome that does not depend on the bound on the
nesting. -/
def ExecutionTerminates (block : BlockId) : Prop :=
  ∀ inputValue context, ∃ out nesting₀, ∀ nesting ≥ nesting₀,
    executeBlock (createBlockExecutor services blockExecutors nesting) (some inputValue) block
      context = some out

/-- With the given bound on the nesting, the executor of `block` always ends. -/
def EndsWithin (nesting : Nat) (block : BlockId) : Prop :=
  ∀ nesting' ≥ nesting, ∀ blockExecutor,
    createBlockExecutor services blockExecutors nesting' block = .ok blockExecutor →
    ∀ inputValue, Exec.Ends (blockExecutor inputValue)

/-- Every composite block type is validated without an error. -/
def AllValidated (props : JayveeValidationProps) (ast : Ast) : Prop :=
  ∀ blockType, .composite blockType ∈ ast.blockTypes → CompositeReportsNoError props blockType

end Contains

/-! ## Everything that createBlockExecutor can do -/

section Create

variable {services : ExecutionServices} {blockExecutors : BlockExecutors δ}

theorem createBlockExecutor_of_composite {block : BlockId}
    {blockType : CompositeBlockTypeDefinition}
    (h : IsComposite services blockExecutors block blockType) :
    ∃ definition, ∀ nesting, createBlockExecutor services blockExecutors (nesting + 1) block =
      .ok (createCompositeBlockExecutor services
        (createBlockExecutor services blockExecutors nesting) nesting blockType definition) := by
  obtain ⟨htype, hnone, hinput, houtput⟩ := h
  have hbuiltin : getExecutorForBlockType blockExecutors
      (ReferenceableBlockTypeDefinition.composite blockType).name = none := hnone
  cases hblock : services.ast.blocks[block]? with
  | none => simp [Ast.blockTypeOf, hblock] at htype
  | some definition =>
      refine ⟨definition, fun nesting => ?_⟩
      cases hi : getInputType blockType with
      | error error => simp [hi, Except.isOk, Except.toBool] at hinput
      | ok inputType =>
          cases ho : getOutputType blockType with
          | error error => simp [ho, Except.isOk, Except.toBool] at houtput
          | ok outputType =>
              simp only [createBlockExecutor, hblock, htype, hbuiltin, hi, ho]
              rfl

/-- A block that is not composite is created with the same outcome for every nesting, and its
executor ends. -/
theorem createBlockExecutor_of_not_composite {block : BlockId}
    (h : ∀ blockType, ¬ IsComposite services blockExecutors block blockType) :
    ∃ created : Except JsError (BlockExecutor δ),
      (∀ blockExecutor, created = .ok blockExecutor →
        ∀ inputValue, Exec.Ends (blockExecutor inputValue)) ∧
      ∀ nesting, createBlockExecutor services blockExecutors (nesting + 1) block = created := by
  refine ⟨createBlockExecutor services blockExecutors 1 block, ?_, ?_⟩
  · intro blockExecutor hcreate input
    unfold createBlockExecutor at hcreate
    split at hcreate
    · split at hcreate
      · cases hcreate
        exact ends_scoped.executeWith services (ends_scoped.builtin services _ _)
      · rename_i htype hbuiltin
        obtain ⟨_, hinput, hcreate⟩ := except_bind_eq_ok_iff.mp hcreate
        obtain ⟨_, houtput, _⟩ := except_bind_eq_ok_iff.mp hcreate
        exact (h _ ⟨htype, hbuiltin, by rw [hinput]; rfl, by rw [houtput]; rfl⟩).elim
      · cases hcreate
    · cases hcreate
  · intro nesting
    unfold createBlockExecutor
    split
    · split
      · rfl
      · rename_i composite htype hbuiltin
        cases hinput : getInputType composite with
        | error error => rfl
        | ok inputType =>
            cases houtput : getOutputType composite with
            | error error => rfl
            | ok outputType =>
                exact (h _ ⟨htype, hbuiltin, by rw [hinput]; rfl, by rw [houtput]; rfl⟩).elim
      · rfl
    · rfl

/-! ## Finite unfolding ends -/

theorem getBlocksInTopologicalSorting_mono {this : PipelineWrapper} {fuel fuel' : Nat}
    (hle : fuel ≤ fuel') {result : Except JsError (List BlockId)}
    (h : this.getBlocksInTopologicalSorting fuel = some result) :
    this.getBlocksInTopologicalSorting fuel' = some result := by
  obtain ⟨state, hloop, hstate⟩ := Option.map_eq_some_iff.mp h
  rw [PipelineWrapper.getBlocksInTopologicalSorting, whileLoop_mono hle hloop]
  exact congrArg some hstate

theorem executeBlocks_ends {props : JayveeValidationProps}
    {blockType : CompositeBlockTypeDefinition} (h : CompositeReportsNoError props blockType)
    {createBlockExecutor : BlockId → Except JsError (BlockExecutor δ)}
    (hends : ∀ block, Schedules blockType block →
      ∀ blockExecutor, createBlockExecutor block = .ok blockExecutor →
      ∀ inputValue, Exec.Ends (blockExecutor inputValue))
    {fuel : Nat} (hfuel : 2 *
      (PipelineWrapper.construct (.compositeBlockType blockType)).allPipes.length < fuel)
    (initialInputValue : Option (IOTypeImplementation δ)) :
    Exec.Ends (executeBlocks createBlockExecutor fuel (.compositeBlockType blockType)
      initialInputValue) := by
  apply Exec.Ends.ofExcept_bind
  intro this hwrap
  obtain ⟨result, hresult, _⟩ := h.sorting_ends hwrap
  have hthis := (PipelineWrapper.wrap_eq_ok_iff.mp hwrap).2
  have hsorting := hresult fuel (hthis ▸ hfuel)
  rw [hsorting]
  apply Exec.Ends.ofExcept_bind
  intro sorted hsorted
  apply executeOrder_ends
  intro blockData hmem
  obtain ⟨block, hblock, rfl⟩ := List.mem_map.mp hmem
  exact hends block ⟨this, fuel, sorted, hwrap, hsorted ▸ hsorting, hblock⟩

theorem createCompositeBlockExecutor_ends
    {createBlockExecutor : BlockId → Except JsError (BlockExecutor δ)} {fuel : Nat}
    {blockType : CompositeBlockTypeDefinition}
    (hends : ∀ input, Exec.Ends (executeBlocks createBlockExecutor fuel
      (.compositeBlockType blockType) (some input)))
    (definition : BlockDefinition) (input : IOTypeImplementation δ) :
    Exec.Ends (createCompositeBlockExecutor services createBlockExecutor fuel blockType definition
      input) := by
  apply ends_scoped.executeWith
  apply Exec.Ends.bind
  · exact ends_scoped.scope (addVariablesToContext_ends _)
      (addVariablesToContext_binds services _ _) Unbinds.forEach (hends input)
  · intro executionResult
    cases executionResult with
    | error details => exact Exec.Ends.pure _
    | ok executionOrder =>
        apply Exec.Ends.bind (getPipeline_reads blockType).ends
        intro pipeline
        split
        · exact Exec.Ends.throw _
        · exact Exec.Ends.pure _

theorem mem_blockTypes {ast : Ast} {block : BlockId}
    {blockType : ReferenceableBlockTypeDefinition} (h : ast.blockTypeOf block = some blockType) :
    blockType ∈ ast.blockTypes := by
  simp only [Ast.blockTypeOf, Option.bind_eq_bind, Option.bind_eq_some_iff] at h
  obtain ⟨_, _, _, _, hget⟩ := h
  exact List.mem_of_getElem? hget

theorem Schedules.occurs {props : JayveeValidationProps}
    {blockType : CompositeBlockTypeDefinition} {block : BlockId}
    (h : Schedules blockType block) (hvalid : CompositeReportsNoError props blockType) :
    (PipelineWrapper.construct (.compositeBlockType blockType)).Occurs block := by
  obtain ⟨this, fuel, sorted, hwrap, hsorting, hblock⟩ := h
  obtain ⟨result, hresult, hoccurs⟩ := hvalid.sorting_ends hwrap
  have hmore := hresult (max fuel (2 * this.allPipes.length + 1)) (by omega)
  rw [getBlocksInTopologicalSorting_mono (by omega) hsorting] at hmore
  rw [← (PipelineWrapper.wrap_eq_ok_iff.mp hwrap).2]
  exact hoccurs sorted (Option.some.inj hmore).symm block hblock

/-- The blocks at the ends of the pipes. -/
def connectedBlocks (this : PipelineWrapper) : List BlockId :=
  this.allPipes.map PipeWrapper.from ++ this.allPipes.map PipeWrapper.to

theorem mem_connectedBlocks_iff {this : PipelineWrapper} {block : BlockId} :
    block ∈ connectedBlocks this ↔ this.Occurs block := by
  simp only [connectedBlocks, List.mem_append, List.mem_map, PipelineWrapper.Occurs]
  constructor
  · intro h
    obtain ⟨pipe, hpipe, hfrom⟩ | ⟨pipe, hpipe, hto⟩ := h
    · exact ⟨pipe, hpipe, .inl hfrom⟩
    · exact ⟨pipe, hpipe, .inr hto⟩
  · intro h
    obtain ⟨pipe, hpipe, hfrom | hto⟩ := h
    · exact .inl ⟨pipe, hpipe, hfrom⟩
    · exact .inr ⟨pipe, hpipe, hto⟩

/-- The induction is over the nesting of the blocks; a bound for a composite block is one for
all of its inner blocks and for their sorting. -/
theorem UnfoldsFinitely.endsWithin {props : JayveeValidationProps}
    (hvalidated : AllValidated props services.ast) {block : BlockId}
    (h : UnfoldsFinitely services blockExecutors block) :
    ∃ nesting, EndsWithin services blockExecutors nesting block := by
  induction h with
  | intro block _ ih =>
      by_cases hcomposite : ∃ blockType, IsComposite services blockExecutors block blockType
      · obtain ⟨blockType, hblockType⟩ := hcomposite
        obtain ⟨definition, hcreate⟩ := createBlockExecutor_of_composite hblockType
        let this := PipelineWrapper.construct (.compositeBlockType blockType)
        have hvalid := hvalidated blockType (mem_blockTypes hblockType.blockType_eq)
        obtain ⟨inner, hinner⟩ := Exec.exists_fuel_forall_mem
          (P := fun nesting inner => Schedules blockType inner →
            EndsWithin services blockExecutors nesting inner)
          (fun m n block hle hm hscheduled nesting hn => hm hscheduled nesting (hle.trans hn))
          (connectedBlocks this) fun inner _ => by
            by_cases hscheduled : Schedules blockType inner
            · obtain ⟨nesting, hends⟩ := ih inner ⟨blockType, hblockType, hscheduled⟩
              exact ⟨nesting, fun _ => hends⟩
            · exact ⟨0, fun h => (hscheduled h).elim⟩
        refine ⟨max inner (2 * this.allPipes.length + 1) + 1, ?_⟩
        intro nesting hle blockExecutor hok input
        obtain ⟨nesting, rfl⟩ : ∃ k, nesting = k + 1 := ⟨nesting - 1, by omega⟩
        cases (hcreate nesting).symm.trans hok
        apply createCompositeBlockExecutor_ends
        intro input
        apply executeBlocks_ends hvalid
        · intro block hscheduled blockExecutor hok
          exact hinner block (mem_connectedBlocks_iff.mpr (hscheduled.occurs hvalid)) hscheduled
            nesting (by omega) blockExecutor hok
        · show 2 * this.allPipes.length < nesting
          omega
      · obtain ⟨created, hends, hcreate⟩ :=
          createBlockExecutor_of_not_composite (not_exists.mp hcomposite)
        refine ⟨1, ?_⟩
        intro nesting hle blockExecutor hok input
        obtain ⟨nesting, rfl⟩ := Nat.exists_eq_add_of_le' hle
        exact hends blockExecutor ((hcreate nesting).symm.trans hok) input

/-! ## More fuel does not change an outcome -/

/-- Where the execution of a block with the first executors ends, it has the same outcome with
the second ones. -/
def ExecutorsApproximate (create create' : BlockId → Except JsError (BlockExecutor δ)) : Prop :=
  ∀ inputValue block, Exec.Approximates (executeBlock create (some inputValue) block)
    (executeBlock create' (some inputValue) block)

section Approximate

variable {create create' : BlockId → Except JsError (BlockExecutor δ)}

theorem executeOrder_approximates (h : ExecutorsApproximate create create')
    (this : PipelineWrapper) (initialInputValue : Option (IOTypeImplementation δ))
    (isFirstBlock : Bool) (finished remaining : List (ExecutionOrderItem δ)) :
    Exec.Approximates
      (executeOrder create this initialInputValue isFirstBlock finished remaining)
      (executeOrder create' this initialInputValue isFirstBlock finished remaining) := by
  induction remaining generalizing isFirstBlock finished with
  | nil => exact Exec.Approximates.refl _
  | cons blockData remaining ih =>
      apply Exec.Approximates.bind (Exec.Approximates.refl _)
      intro _
      apply Exec.Approximates.bind (h _ _)
      intro result
      cases result with
      | error details => exact Exec.Approximates.refl _
      | ok value =>
          exact Exec.Approximates.bind (Exec.Approximates.refl _) fun _ => ih _ _

theorem executeBlocks_approximates (h : ExecutorsApproximate create create') {fuel fuel' : Nat}
    (hle : fuel ≤ fuel') (pipesContainer : PipesContainer)
    (initialInputValue : Option (IOTypeImplementation δ)) :
    Exec.Approximates (executeBlocks create fuel pipesContainer initialInputValue)
      (executeBlocks create' fuel' pipesContainer initialInputValue) := by
  apply Exec.Approximates.bind (Exec.Approximates.refl _)
  intro this
  cases hsorting : this.getBlocksInTopologicalSorting fuel with
  | none => exact Exec.Approximates.diverge _
  | some result =>
      rw [getBlocksInTopologicalSorting_mono hle hsorting]
      apply Exec.Approximates.bind (Exec.Approximates.refl _)
      exact fun sorted => executeOrder_approximates h _ _ _ _ _

theorem createCompositeBlockExecutor_approximates (h : ExecutorsApproximate create create')
    {fuel fuel' : Nat} (hle : fuel ≤ fuel') (blockType : CompositeBlockTypeDefinition)
    (definition : BlockDefinition) (input : IOTypeImplementation δ) :
    Exec.Approximates
      (createCompositeBlockExecutor services create fuel blockType definition input)
      (createCompositeBlockExecutor services create' fuel' blockType definition input) := by
  apply Exec.Approximates.bind ?_ fun _ => Exec.Approximates.refl _
  apply Exec.Approximates.bind ?_ fun _ => Exec.Approximates.refl _
  apply Exec.Approximates.tryCatch
  apply Exec.Approximates.bind (Exec.Approximates.refl _)
  intro _
  exact Exec.Approximates.bind (executeBlocks_approximates h hle _ _) fun _ =>
    Exec.Approximates.refl _

theorem executeBlock_approximates {block : BlockId} {blockExecutor blockExecutor' :
      BlockExecutor δ} (hcreate : create block = .ok blockExecutor)
    (hcreate' : create' block = .ok blockExecutor')
    (h : ∀ input, Exec.Approximates (blockExecutor input) (blockExecutor' input))
    (inputValue : IOTypeImplementation δ) :
    Exec.Approximates (executeBlock create (some inputValue) block)
      (executeBlock create' (some inputValue) block) := by
  intro context out hrun
  rw [executeBlock_of_ok hcreate] at hrun
  rw [executeBlock_of_ok hcreate']
  obtain ⟨inner, hinner, hout⟩ := Option.map_eq_some_iff.mp hrun
  rw [h inputValue _ _ hinner]
  exact congrArg some hout

theorem executeBlock_approximates_of_eq {block : BlockId} (h : create block = create' block)
    (inputValue : IOTypeImplementation δ) :
    Exec.Approximates (executeBlock create (some inputValue) block)
      (executeBlock create' (some inputValue) block) := by
  unfold executeBlock
  rw [h]
  exact Exec.Approximates.refl _

end Approximate

/-- A bound on the nesting that suffices may be increased. -/
theorem createBlockExecutor_approximates {nesting nesting' : Nat} (hle : nesting ≤ nesting') :
    ExecutorsApproximate (createBlockExecutor services blockExecutors nesting)
      (createBlockExecutor services blockExecutors nesting') := by
  induction nesting generalizing nesting' with
  | zero =>
      intro inputValue block context out hrun
      rw [executeBlock_of_ok rfl] at hrun
      cases hrun
  | succ nesting ih =>
      obtain ⟨nesting', rfl⟩ : ∃ k, nesting' = k + 1 := ⟨nesting' - 1, by omega⟩
      have happroximate := ih (show nesting ≤ nesting' by omega)
      intro inputValue block
      by_cases hcomposite : ∃ blockType, IsComposite services blockExecutors block blockType
      · obtain ⟨blockType, hblockType⟩ := hcomposite
        obtain ⟨definition, hcreate⟩ := createBlockExecutor_of_composite hblockType
        apply executeBlock_approximates (hcreate _) (hcreate _)
        exact createCompositeBlockExecutor_approximates happroximate (by omega) _ _
      · obtain ⟨created, _, hcreate⟩ :=
          createBlockExecutor_of_not_composite (not_exists.mp hcomposite)
        exact executeBlock_approximates_of_eq ((hcreate _).trans (hcreate _).symm) inputValue

theorem UnfoldsFinitely.executionTerminates {props : JayveeValidationProps}
    (hvalidated : AllValidated props services.ast) {block : BlockId}
    (h : UnfoldsFinitely services blockExecutors block) :
    ExecutionTerminates services blockExecutors block := by
  obtain ⟨nesting, hends⟩ := h.endsWithin hvalidated
  intro inputValue context
  have hrun : ∃ out, executeBlock (createBlockExecutor services blockExecutors (nesting + 1))
      (some inputValue) block context = some out := by
    cases hcreate : createBlockExecutor services blockExecutors (nesting + 1) block with
    | error error => exact ⟨_, executeBlock_of_error hcreate _⟩
    | ok blockExecutor =>
        rw [executeBlock_of_ok hcreate]
        obtain ⟨out, hout⟩ := hends (nesting + 1) (by omega) blockExecutor hcreate inputValue
          (executionStarted context)
        exact ⟨_, congrArg (Option.map _) hout⟩
  obtain ⟨out, hout⟩ := hrun
  refine ⟨out, nesting + 1, ?_⟩
  intro nesting' hle
  exact createBlockExecutor_approximates hle inputValue block context out hout

/-! ## What ends without a failure unfolds finitely -/

/-- Some execution of `block` ends without a failure on any level. -/
def EndsWithoutFailure (create : BlockId → Except JsError (BlockExecutor δ))
    (block : BlockId) : Prop :=
  ∃ inputValue context out context',
    executeBlock create (some inputValue) block context = some (out, context') ∧
    NoBlockFails context context'

/-- The loop goes on to the next block unless an execution has failed. -/
theorem executeOrder_executes {create : BlockId → Except JsError (BlockExecutor δ)}
    (hcreate : DisciplinedExecutors create) {this : PipelineWrapper}
    {initialInputValue : Option (IOTypeImplementation δ)} {isFirstBlock : Bool}
    {finished remaining : List (ExecutionOrderItem δ)} {context context' : ExecutionContext δ}
    {result : Result (List (ExecutionOrderItem δ))}
    (hrun : executeOrder create this initialInputValue isFirstBlock finished remaining context =
      some (.ok result, context')) (hnone : NoBlockFails context context') :
    ∀ blockData ∈ remaining, EndsWithoutFailure create blockData.block := by
  induction remaining generalizing isFirstBlock finished context with
  | nil => simp
  | cons blockData remaining ih =>
      unfold executeOrder at hrun
      dsimp only at hrun
      rw [Exec.bind_of_ok (enterNode_eq _ context)] at hrun
      obtain ⟨blockResult, middle, hblock, hrun⟩ := Exec.bind_eq_ok_iff.mp hrun
      have heffect := executionEffect_of_executeBlock hcreate hblock
      have hfirst : context.history.failures ≤ middle.history.failures :=
        heffect.stackEffect.failures_le
      cases blockResult with
      | error details =>
          cases hrun
          have hfailed : context.history.failures < context'.history.failures :=
            heffect.failed rfl
          unfold NoBlockFails at hnone
          omega
      | ok value =>
          obtain ⟨_, left, hexit, hrun⟩ := Exec.bind_eq_ok_iff.mp hrun
          have hleft : left.history.failures = middle.history.failures := by
            rcases exitNode_eq_some hexit with ⟨_, _, h⟩ | ⟨_, ⟨_, h⟩, _⟩
            · rw [h]
            · cases h
          have hrest := (executeOrder_disciplined hcreate this initialInputValue false _ remaining
            _ _ _ hrun).1.failures_le
          unfold NoBlockFails at hnone
          intro other hother
          rcases List.mem_cons.mp hother with rfl | hother
          · have hsame : NoBlockFails context middle := by unfold NoBlockFails; omega
            exact ⟨_, _, _, _, hblock, hsame⟩
          · exact ih hrun (by unfold NoBlockFails; omega) other hother

theorem executeBlocks_executes
    {create : BlockId → Except JsError (BlockExecutor δ)} (hcreate : DisciplinedExecutors create)
    {fuel : Nat} {blockType : CompositeBlockTypeDefinition}
    {initialInputValue : Option (IOTypeImplementation δ)} {context context' : ExecutionContext δ}
    {result : Result (List (ExecutionOrderItem δ))}
    (hrun : executeBlocks create fuel (.compositeBlockType blockType) initialInputValue context =
      some (.ok result, context')) (hnone : NoBlockFails context context') {block : BlockId}
    (hblock : Schedules blockType block) : EndsWithoutFailure create block := by
  obtain ⟨this, fuel', sorted, hwrap, hsorting, hmem⟩ := hblock
  rw [executeBlocks, hwrap, Exec.bind_of_ok (Exec.ofExcept_apply _ _)] at hrun
  cases hsorting' : this.getBlocksInTopologicalSorting fuel with
  | none =>
      simp only [hsorting'] at hrun
      cases hrun
  | some result' =>
      simp only [hsorting'] at hrun
      have hsame := getBlocksInTopologicalSorting_mono (le_max_left fuel fuel') hsorting'
      rw [getBlocksInTopologicalSorting_mono (le_max_right fuel fuel') hsorting] at hsame
      cases hsame
      rw [Exec.bind_of_ok (Exec.ofExcept_apply _ _)] at hrun
      exact executeOrder_executes hcreate hrun hnone ⟨block, some .NONE⟩
        (List.mem_map.mpr ⟨block, hmem, rfl⟩)

/-- The executor of a composite block ends without a failure only after all its blocks have. -/
theorem createCompositeBlockExecutor_executes
    {create : BlockId → Except JsError (BlockExecutor δ)} (hcreate : DisciplinedExecutors create)
    {fuel : Nat} {blockType : CompositeBlockTypeDefinition} {definition : BlockDefinition}
    {input : IOTypeImplementation δ} {context context' : ExecutionContext δ}
    {result : Result (Option (IOTypeImplementation δ))}
    (hrun : createCompositeBlockExecutor services create fuel blockType definition input context =
      some (.ok result, context')) (hnone : NoBlockFails context context') {block : BlockId}
    (hblock : Schedules blockType block) : EndsWithoutFailure create block := by
  obtain ⟨returned, executed, hdo, hlog⟩ := Exec.bind_eq_ok_iff.mp hrun
  have hexecuted : context' = executed := by
    cases returned with
    | error details =>
        cases hlog
        rfl
    | ok value => exact ((logBlockResult_reads services value).bind fun _ => .pure _).same hlog
  obtain ⟨innerResult, inner, hinner, hvalue⟩ := Exec.bind_eq_ok_iff.mp hdo
  have hinnerSame : executed = inner := by
    cases innerResult with
    | error details =>
        cases hvalue
        rfl
    | ok order =>
        refine Exec.Reads.same ((getPipeline_reads blockType).bind fun pipeline => ?_) hvalue
        split
        · exact .throw _
        · exact .pure _
  rw [hexecuted, hinnerSame] at hnone
  obtain ⟨_, hok, hinner⟩ | ⟨_, _, hr, _⟩ := recordAbort_eq_some hinner
  · cases hok
    obtain ⟨_, added, hadd, hinner⟩ := Exec.bind_eq_ok_iff.mp hinner
    obtain ⟨_, ran, hblocks, hinner⟩ := Exec.bind_eq_ok_iff.mp hinner
    have hunbinds : Unbinds (blockType.properties.map BlockTypeProperty.name)
        (removeVariablesFromContext blockType.properties : ExecM δ Unit) := Unbinds.forEach
    obtain ⟨removed, hremove, hremoved, _⟩ := hunbinds ran
    have hadded := (addVariablesToContext_binds services _ _ _ _ _ hadd).1.failures_eq
    rw [Exec.bind_of_ok hremove] at hinner
    cases hinner
    have hremovedEq := hremoved.failures_eq
    refine executeBlocks_executes hcreate hblocks ?_ hblock
    unfold NoBlockFails at hnone ⊢
    omega
  · cases hr

/-- The induction is over the bound on the nesting. -/
theorem unfoldsFinitely_of_ends {nesting : Nat} {block : BlockId}
    (h : EndsWithoutFailure (createBlockExecutor services blockExecutors nesting) block) :
    UnfoldsFinitely services blockExecutors block := by
  induction nesting generalizing block with
  | zero =>
      obtain ⟨inputValue, context, out, context', hrun, _⟩ := h
      rw [executeBlock_of_ok rfl] at hrun
      cases hrun
  | succ nesting ih =>
      constructor
      intro inner hinner
      obtain ⟨blockType, hcomposite, hscheduled⟩ := hinner
      obtain ⟨definition, hcreate⟩ := createBlockExecutor_of_composite hcomposite
      obtain ⟨inputValue, context, out, context', hrun, hnone⟩ := h
      rw [executeBlock_of_ok (hcreate nesting)] at hrun
      obtain ⟨⟨outcome, after⟩, hexecuted, hout⟩ := Option.map_eq_some_iff.mp hrun
      cases hout
      have hdisciplined := createBlockExecutor_disciplined services blockExecutors
      have hle := (hdisciplined (nesting + 1) block _ (hcreate nesting) inputValue _ _ _
        hexecuted).1.failures_le
      have hstarted : (executionStarted context).history.failures = context.history.failures :=
        rfl
      cases outcome with
      | error error =>
          have hfailures : after.history.failures + 1 = context.history.failures := hnone
          omega
      | ok result =>
          refine ih (createCompositeBlockExecutor_executes (hdisciplined nesting) hexecuted ?_
            hscheduled)
          have hle' : after.history.failures ≤ context.history.failures :=
            (Nat.le_add_right _ _).trans_eq hnone
          unfold NoBlockFails
          omega

end Create

/-- With validated composite block types, a block whose composite blocks do not contain each
other endlessly is executed to its end. Conversely, no execution ends without a failure unless
the composite blocks below unfold finitely. -/
theorem executionTerminates_of_unfoldsFinitely (services : ExecutionServices)
    (blockExecutors : BlockExecutors δ) (props : JayveeValidationProps)
    (hvalidated : AllValidated props services.ast) (block : BlockId) :
    (UnfoldsFinitely services blockExecutors block →
      ExecutionTerminates services blockExecutors block) ∧
    ∀ nesting, EndsWithoutFailure (createBlockExecutor services blockExecutors nesting) block →
      UnfoldsFinitely services blockExecutors block :=
  ⟨UnfoldsFinitely.executionTerminates hvalidated, fun _ => unfoldsFinitely_of_ends⟩

/-- `Loop` has the pipeline `input -> start -> again -> output`, where `again` is a block of type
`again`. -/
def loopType : CompositeBlockTypeDefinition where
  name := "Loop"
  inputs := [⟨"default", some "Table"⟩]
  outputs := [⟨"default", some "Table"⟩]
  properties := []
  blocks := [0, 1]
  pipes := [⟨[some 0, some 1]⟩]

/-- Block 0 is of a builtin type, block 1 of the type with the index `again`. -/
def loopAst (again : Nat) : Ast where
  valuetypes := []
  constraints := []
  transforms := []
  blocks := [⟨"start", some 0, []⟩, ⟨"again", some again, []⟩, ⟨"loop", some 1, []⟩]
  blockTypes := [
    .builtin ⟨"Step", [⟨"default", some "Table"⟩], [⟨"default", some "Table"⟩], []⟩,
    .composite loopType]

/-- Blocks of type `Step` output their input. -/
def loopExecutors : BlockExecutors Unit :=
  [("Step", fun _ input => .return (.ok (some input)))]

theorem allValidated_loopAst {again : Nat} (hagain : again = 0 ∨ again = 1) :
    AllValidated { sampleProps with ast := loopAst again } (loopAst again) := by
  intro blockType hmem
  have heq : blockType = loopType := by simpa [loopAst] using hmem
  subst heq
  rcases hagain with rfl | rfl
  · exact ⟨4, [], rfl, by simp⟩
  · exact ⟨4, [], rfl, by simp⟩

/-- With two builtin inner blocks, a block of type `Loop` ends. -/
theorem executionTerminates_loop :
    AllValidated { sampleProps with ast := loopAst 0 } (sampleServices (loopAst 0)).ast ∧
    ((UnfoldsFinitely (sampleServices (loopAst 0)) loopExecutors 2 →
      ExecutionTerminates (sampleServices (loopAst 0)) loopExecutors 2) ∧
    ∀ nesting,
      EndsWithoutFailure (createBlockExecutor (sampleServices (loopAst 0)) loopExecutors nesting)
        2 →
      UnfoldsFinitely (sampleServices (loopAst 0)) loopExecutors 2) :=
  ⟨allValidated_loopAst (.inl rfl), executionTerminates_of_unfoldsFinitely
    (sampleServices (loopAst 0)) loopExecutors { sampleProps with ast := loopAst 0 }
    (allValidated_loopAst (.inl rfl)) 2⟩

section Endless

/-- Every execution of a builtin block ends with a value. -/
def BuiltinsYieldValues (services : ExecutionServices) (blockExecutors : BlockExecutors δ) :
    Prop :=
  ∀ name builtin, getExecutorForBlockType blockExecutors name = some builtin →
    ∀ clock input context, ∃ value context',
      (builtin clock input).run services context = some (.ok (.ok (some value)), context')

theorem builtinsYieldValues_loopExecutors (services : ExecutionServices) :
    BuiltinsYieldValues services loopExecutors := by
  intro name builtin hbuiltin clock input context
  by_cases hname : name = "Step"
  · subst hname
    cases hbuiltin
    exact ⟨input, context, rfl⟩
  · simp [getExecutorForBlockType, loopExecutors, List.lookup_cons, beq_eq_false_iff_ne.mpr hname]
      at hbuiltin

section Again

variable {nesting : Nat} (hagain : ∀ (input : IOTypeImplementation Unit) context,
  executeBlock (createBlockExecutor (sampleServices (loopAst 1)) loopExecutors nesting)
    (some input) 1 context = none)
include hagain

theorem executeOrder_loop (this : PipelineWrapper) (input : IOTypeImplementation Unit)
    (context : ExecutionContext Unit) :
    executeOrder (createBlockExecutor (sampleServices (loopAst 1)) loopExecutors nesting) this
      (some input) true [] [⟨0, some .NONE⟩, ⟨1, some .NONE⟩] context = none := by
  unfold executeOrder
  dsimp only
  rw [Exec.bind_of_ok (enterNode_eq _ context)]
  cases nesting with
  | zero => rfl
  | succ nesting =>
      have hstart : ∀ input : IOTypeImplementation Unit, ∃ t,
          executeBlock (createBlockExecutor (sampleServices (loopAst 1)) loopExecutors
            (nesting + 1)) (some input) 0 (entered context (.block 0)) =
              some (.ok (.ok (some input)), t) ∧ t.stack = context.stack ++ [.block 0] :=
        fun input => ⟨_, rfl, rfl⟩
      obtain ⟨t, hrun, hstack⟩ := hstart (useExternalInputValue true (some input)
        (getInputValue this [⟨0, some .NONE⟩, ⟨1, some .NONE⟩] 0))
      rw [List.nil_append, Exec.bind_of_ok hrun]
      have hexit : ∃ u, exitNode (.block 0) t = some (.ok (), u) := by
        rw [exitNode, Exec.bind_of_ok (popNode_apply t)]
        simp [hstack]
      obtain ⟨u, hu⟩ := hexit
      dsimp only
      rw [Exec.bind_of_ok hu]
      unfold executeOrder
      dsimp only
      rw [Exec.bind_of_ok (enterNode_eq _ u)]
      exact Exec.bind_of_none (hagain _ _)

theorem executeBlocks_loop (input : IOTypeImplementation Unit)
    (context : ExecutionContext Unit) :
    executeBlocks (createBlockExecutor (sampleServices (loopAst 1)) loopExecutors nesting)
      nesting (.compositeBlockType loopType) (some input) context = none := by
  obtain ⟨this, hthis, hsorting⟩ : ∃ this,
      PipelineWrapper.wrap (.compositeBlockType loopType) = .ok this ∧
      this.getBlocksInTopologicalSorting 3 = some (.ok [0, 1]) := ⟨_, rfl, rfl⟩
  rw [executeBlocks, hthis, Exec.bind_of_ok (Exec.ofExcept_apply _ _)]
  cases hsorted : this.getBlocksInTopologicalSorting nesting with
  | none => rfl
  | some result =>
      have hsame := getBlocksInTopologicalSorting_mono (le_max_left nesting 3) hsorted
      rw [getBlocksInTopologicalSorting_mono (le_max_right nesting 3) hsorting] at hsame
      cases hsame
      exact executeOrder_loop hagain this input context

end Again

/-- Every nesting is exhausted. -/
theorem executeBlock_loop (nesting : Nat) (input : IOTypeImplementation Unit)
    (context : ExecutionContext Unit) :
    executeBlock (createBlockExecutor (sampleServices (loopAst 1)) loopExecutors nesting)
      (some input) 1 context = none := by
  induction nesting generalizing input context with
  | zero => rfl
  | succ nesting ih =>
      rw [executeBlock_of_ok (show createBlockExecutor (sampleServices (loopAst 1)) loopExecutors
        (nesting + 1) 1 = .ok (createCompositeBlockExecutor _ (createBlockExecutor _ loopExecutors
          nesting) nesting loopType ⟨"again", some 1, []⟩) from rfl)]
      have hinner := executeBlocks_loop ih input (executionStarted context)
      apply Option.map_eq_none_iff.mpr
      apply Exec.bind_of_none
      apply Exec.bind_of_none
      apply Exec.tryCatch_of_none
      exact (Exec.bind_of_ok rfl).trans (Exec.bind_of_none hinner)

/-- A block of type `Loop` inside of `Loop` is executed endlessly. -/
theorem not_executionTerminates_loop :
    ¬ ∀ (services : ExecutionServices) (blockExecutors : BlockExecutors Unit)
      (props : JayveeValidationProps) (block : BlockId)
      (blockType : CompositeBlockTypeDefinition),
      AllValidated props services.ast → BuiltinsYieldValues services blockExecutors →
      services.ast.blockTypeOf block = some (.composite blockType) →
      ExecutionTerminates services blockExecutors block := by
  intro h
  obtain ⟨out, nesting, hout⟩ := h (sampleServices (loopAst 1)) loopExecutors
    { sampleProps with ast := loopAst 1 } 1 loopType (allValidated_loopAst (.inr rfl))
    (builtinsYieldValues_loopExecutors _) rfl .NONE (.construct (.construct ⟨fun _ => none, none⟩))
  cases (executeBlock_loop nesting _ _).symm.trans (hout nesting le_rfl)

end Endless

end Jayvee
