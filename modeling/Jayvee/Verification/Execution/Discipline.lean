import Jayvee.Verification.Execution.Compositional

/-! # The execution is disciplined -/

namespace Jayvee

open Foundation ExecutionContext

variable {δ : Type} (services : ExecutionServices)

/-! ## Discipline, construct by construct -/

theorem disciplined_compositional {R : Variables → Variables → Prop} [Std.Refl R]
    [IsTrans Variables R] : Compositional fun _ (m : ExecM δ _) => Disciplined R m where
  reads := Disciplined.of_reads
  bind := Disciplined.bind
  setValueForValueKeyword _ := Disciplined.modify (fun _ => rfl) (fun _ => rfl) fun _ => rfl
  deleteValueForValueKeyword := Disciplined.modify (fun _ => rfl) (fun _ => rfl) fun _ => rfl
  node := Disciplined.node

theorem disciplined_scoped :
    Scoped fun _ (m : ExecM δ _) => Disciplined VariableEffect m where
  toCompositional := disciplined_compositional
  scope _ hadd hremove hm := Disciplined.scope hadd hm hremove

/-- An executor whose every run is disciplined. -/
def DisciplinedExecutor (blockExecutor : BlockExecutor δ) : Prop :=
  ∀ input, Disciplined VariableEffect (blockExecutor input)

/-! ## One execution of a block -/

/-- The effects of an execution of a block. An error may leave nodes on the stack, but it is
counted. -/
structure ExecutionEffect (s : ExecutionContext δ)
    (result : Result (Option (IOTypeImplementation δ))) (t : ExecutionContext δ) : Prop where
  stackEffect : StackEffect s result.isOk t
  failed : result.isOk = false → s.history.failures < t.history.failures
  variableEffect : VariableEffect (variablesOf s) (variablesOf t)

/-- After a failure that is counted, nothing is promised. -/
theorem StackEffect.counted {s t t' : ExecutionContext δ} {returned : Bool}
    (h : StackEffect s returned t) (hstack : t'.stack = t.stack)
    (hfailures : t'.history.failures = t.history.failures + 1) : StackEffect s false t' := by
  obtain ⟨hgrows, hle, _, _⟩ := h
  refine ⟨by rwa [hstack], by omega, fun heq => ?_, fun hreturned => by cases hreturned⟩
  omega

theorem executionEffect_of_run {s after : ExecutionContext δ} (block : BlockId)
    {inputValue : IOTypeImplementation δ}
    {outcome : Except JsError (Result (Option (IOTypeImplementation δ)))}
    (hstack : StackEffect (executionStarted s) outcome.isOk after)
    (hvariables : VariableEffect (variablesOf s) (variablesOf after)) :
    ExecutionEffect s (caughtResult block outcome)
      (executionRecorded s after block inputValue (caughtResult block outcome)) := by
  obtain ⟨hgrows, hle, hmismatches, hbalanced⟩ := hstack
  have hthrown : StackEffect s false after :=
    ⟨hgrows, hle, hmismatches, fun hreturned => by cases hreturned⟩
  cases outcome with
  | error error =>
      exact ⟨hthrown.counted rfl rfl, fun _ => Nat.lt_succ_of_le hle, hvariables⟩
  | ok result =>
      cases result with
      | error details =>
          exact ⟨hthrown.counted rfl rfl, fun _ => Nat.lt_succ_of_le hle, hvariables⟩
      | ok value =>
          have hreturned : StackEffect s true after := ⟨hgrows, hle, hmismatches, hbalanced⟩
          refine ⟨hreturned.congr rfl rfl rfl, ?_, hvariables⟩
          rintro ⟨⟩

/-! ## The block loop -/

section ExecuteBlocks

variable {createExecutor : BlockId → Except JsError (BlockExecutor δ)}

/-- All executors are disciplined. -/
def DisciplinedExecutors (createExecutor : BlockId → Except JsError (BlockExecutor δ)) :
    Prop :=
  ∀ block blockExecutor, createExecutor block = .ok blockExecutor →
    DisciplinedExecutor blockExecutor

theorem executionEffect_of_executeBlock (h : DisciplinedExecutors createExecutor)
    {inputValue : IOTypeImplementation δ} {block : BlockId} {s t : ExecutionContext δ}
    {result : Result (Option (IOTypeImplementation δ))}
    (hblock : executeBlock createExecutor (some inputValue) block s = some (.ok result, t)) :
    ExecutionEffect s result t := by
  obtain ⟨_, _, hresult, _⟩ | ⟨executor, outcome, after, hcreate, hrun, hresult, rfl⟩ :=
    executeBlock_eq_some hblock
  · cases hresult
  · obtain ⟨hstack, hvariables⟩ := h _ _ hcreate _ _ _ _ hrun
    rw [Except.ok.inj hresult]
    exact executionEffect_of_run block hstack hvariables

theorem executeOrder_disciplined (h : DisciplinedExecutors createExecutor)
    (pipelineWrapper : PipelineWrapper) (initialInputValue : Option (IOTypeImplementation δ))
    (isFirstBlock : Bool) (finished remaining : List (ExecutionOrderItem δ)) :
    Disciplined VariableEffect (executeOrder createExecutor pipelineWrapper initialInputValue isFirstBlock
      finished remaining) := by
  induction remaining generalizing isFirstBlock finished with
  | nil => exact Disciplined.pure _
  | cons blockData remaining ih =>
      intro s r u hr
      unfold executeOrder at hr
      dsimp only at hr
      rw [Exec.bind_of_ok (enterNode_eq _ s)] at hr
      rcases Exec.bind_eq_some_iff.mp hr with ⟨result, _, hblock, hr⟩ | ⟨e, hblock, rfl⟩
      · obtain ⟨hstack, hfailed, hvariables⟩ := executionEffect_of_executeBlock h hblock
        cases result with
        | error details =>
            cases hr
            exact ⟨hstack.failed_of_entered (hfailed rfl), hvariables⟩
        | ok value =>
            rcases Exec.bind_eq_some_iff.mp hr with ⟨_, left, hexit, hr⟩ | ⟨e, hexit, rfl⟩
            · obtain ⟨hstack', hvariables'⟩ := ih _ _ _ _ _ hr
              rw [variablesOf_exitNode hexit] at hvariables'
              exact ⟨(hstack.of_exitNode hexit).trans hstack',
                IsTrans.trans _ _ _ hvariables hvariables'⟩
            · exact ⟨hstack.of_exitNode hexit, by rwa [variablesOf_exitNode hexit]⟩
      · obtain ⟨_, _, _, rfl⟩ | ⟨_, _, _, _, _, hresult, _⟩ := executeBlock_eq_some hblock
        · exact ⟨(StackEffect.refl _ true).thrown_of_entered, refl (variablesOf s)⟩
        · cases hresult

theorem executeBlocks_disciplined (h : DisciplinedExecutors createExecutor) (fuel : Nat)
    (pipesContainer : PipesContainer) (initialInputValue : Option (IOTypeImplementation δ)) :
    Disciplined VariableEffect (executeBlocks createExecutor fuel pipesContainer initialInputValue) := by
  refine Disciplined.bind (Disciplined.ofExcept _) fun pipelineWrapper => ?_
  split
  · exact Disciplined.diverge
  · exact Disciplined.bind (Disciplined.ofExcept _) fun sortedBlocks =>
      executeOrder_disciplined h _ _ _ _ _

end ExecuteBlocks

/-! ## Composite blocks -/

section Composite

theorem addVariablesToContext_binds (body : List PropertyAssignment)
    (properties : List BlockTypeProperty) :
    Binds (properties.map BlockTypeProperty.name)
      (addVariablesToContext services body properties : ExecM δ Unit) := by
  refine Binds.forEach fun property => Binds.of_reads .get fun context => ?_
  exact Binds.of_reads (getValueOfProperty_reads services _ _ _ _)
    (Binds.setValueForReference property.name)

variable {createExecutor : BlockId → Except JsError (BlockExecutor δ)}

theorem executeInnerBlocks_disciplined (h : DisciplinedExecutors createExecutor)
    (fuel : Nat) (blockType : CompositeBlockTypeDefinition) (body : List PropertyAssignment)
    (input : IOTypeImplementation δ) :
    Disciplined VariableEffect (executeInnerBlocks services createExecutor fuel blockType body input) :=
  Disciplined.scope (addVariablesToContext_binds services body blockType.properties)
    (executeBlocks_disciplined h fuel _ _) Unbinds.forEach

theorem getPipeline_reads {σ : Type} (blockType : CompositeBlockTypeDefinition) :
    Exec.Reads (getPipeline blockType : Exec σ JsError PipeDefinition) := by
  unfold getPipeline
  split
  · exact Exec.Reads.pure _
  · exact Exec.Reads.throw _

theorem doExecuteComposite_disciplined (h : DisciplinedExecutors createExecutor)
    (fuel : Nat) (blockType : CompositeBlockTypeDefinition) (body : List PropertyAssignment) :
    DisciplinedExecutor (doExecuteComposite services createExecutor fuel blockType body) := by
  intro input
  refine Disciplined.bind (executeInnerBlocks_disciplined services h fuel blockType body input) ?_
  intro executionResult
  cases executionResult with
  | error details => exact Disciplined.pure _
  | ok executionOrder =>
      refine Disciplined.bind (.of_reads (getPipeline_reads blockType)) fun pipeline => ?_
      split
      · exact Disciplined.throw _
      · exact Disciplined.pure _

/-- Whatever a block does, and however deep its composite blocks are nested. -/
theorem createBlockExecutor_disciplined (blockExecutors : BlockExecutors δ) (fuel : Nat) :
    DisciplinedExecutors (createBlockExecutor services blockExecutors fuel) := by
  induction fuel with
  | zero =>
      rintro block _ ⟨⟩ input
      exact Disciplined.diverge
  | succ fuel ih =>
      intro block blockExecutor hcreate
      unfold createBlockExecutor at hcreate
      split at hcreate
      · split at hcreate
        · cases hcreate
          exact fun _ => disciplined_compositional.executeWith services
            (disciplined_scoped.builtin services _ _)
        · obtain ⟨_, _, hcreate⟩ := except_bind_eq_ok_iff.mp hcreate
          obtain ⟨_, _, hcreate⟩ := except_bind_eq_ok_iff.mp hcreate
          cases hcreate
          exact fun _ => disciplined_compositional.executeWith services
            (doExecuteComposite_disciplined services ih _ _ _ _)
        · cases hcreate
      · cases hcreate

end Composite

end Jayvee
