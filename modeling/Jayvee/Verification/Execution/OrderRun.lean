import Jayvee.Model.BlockExecution

/-! # Runs of the block loop -/

namespace Jayvee

open Foundation ExecutionContext

variable {δ : Type}
variable {createBlockExecutor : BlockId → Except JsError (BlockExecutor δ)}

/-! ## Single steps -/

theorem enterNode_apply (node : StackNode) (context : ExecutionContext δ) :
    enterNode node context = some (.ok (), { context with stack := context.stack ++ [node] }) :=
  rfl

theorem popNode_apply (context : ExecutionContext δ) :
    popNode context = some (.ok context.stack.getLast?,
      { context with stack := context.stack.dropLast }) :=
  rfl

theorem exitNode_eq_some {node : StackNode} {context context' : ExecutionContext δ}
    {r : Except JsError Unit} (h : exitNode node context = some (r, context')) :
    (context.stack.getLast? = some node ∧ r = .ok () ∧
      context' = { context with stack := context.stack.dropLast }) ∨
    (context.stack.getLast? ≠ some node ∧ (∃ error, r = .error error) ∧
      context' = { context with
        stack := context.stack.dropLast
        history.mismatches := context.history.mismatches + 1 }) := by
  rw [exitNode, Exec.bind_of_ok (popNode_apply context)] at h
  split at h
  · rename_i hnode
    cases h
    exact .inl ⟨hnode, rfl, rfl⟩
  · rename_i hnode
    cases h
    exact .inr ⟨hnode, ⟨_, rfl⟩, rfl⟩

/-- The context in which the executor of a block starts. -/
def executionStarted (context : ExecutionContext δ) : ExecutionContext δ :=
  { context with
    history.executions := []
    history.clock := context.history.clock + 1 }

/-- The context after an execution that started in `before` and has led to `after`. -/
def executionRecorded (before after : ExecutionContext δ) (block : BlockId)
    (inputValue : IOTypeImplementation δ) (result : Result (Option (IOTypeImplementation δ))) :
    ExecutionContext δ :=
  { after with
    history.executions := before.history.executions ++
      [⟨block, inputValue, result, after.stack.getLast?⟩]
    history.failures := after.history.failures + if result matches .error _ then 1 else 0 }

/-- What the try block of `executeBlock` makes of the outcome of an executor. -/
def caughtResult (block : BlockId) :
    Except JsError (Result (Option (IOTypeImplementation δ))) →
      Result (Option (IOTypeImplementation δ))
  | .ok result => result
  | .error unexpectedError => .error (unexpectedErrorDetails block unexpectedError)

theorem executeBlock_of_error {inputValue : IOTypeImplementation δ} {block : BlockId}
    {error : JsError} (hcreate : createBlockExecutor block = .error error)
    (context : ExecutionContext δ) :
    executeBlock createBlockExecutor (some inputValue) block context =
      some (.error error, context) := by
  unfold executeBlock
  dsimp only
  rw [hcreate]
  exact Exec.bind_of_error (Exec.ofExcept_apply _ _)

theorem executeBlock_of_ok {inputValue : IOTypeImplementation δ} {block : BlockId}
    {blockExecutor : BlockExecutor δ} (hcreate : createBlockExecutor block = .ok blockExecutor)
    (context : ExecutionContext δ) :
    executeBlock createBlockExecutor (some inputValue) block context =
      (blockExecutor inputValue (executionStarted context)).map fun out =>
        (.ok (caughtResult block out.1),
          executionRecorded context out.2 block inputValue (caughtResult block out.1)) := by
  unfold executeBlock
  dsimp only
  rw [hcreate, Exec.bind_of_ok (Exec.ofExcept_apply _ _), recordExecution,
    Exec.bind_of_ok (Exec.get_apply _), Exec.bind_of_ok (Exec.modify_apply _ _)]
  change (Exec.tryCatch _ _ >>= _) (executionStarted context) = _
  cases hrun : blockExecutor inputValue (executionStarted context) with
  | none => simp [Exec.bind_apply, Exec.tryCatch, hrun]
  | some out =>
      obtain ⟨r, after⟩ := out
      cases r with
      | ok result => rw [Exec.bind_of_ok (Exec.tryCatch_of_ok hrun)]; rfl
      | error error => rw [Exec.bind_of_ok ((Exec.tryCatch_of_error hrun).trans rfl)]; rfl

/-- Everything that the execution of a block can do. -/
theorem executeBlock_eq_some {inputValue : IOTypeImplementation δ} {block : BlockId}
    {context context' : ExecutionContext δ}
    {r : Except JsError (Result (Option (IOTypeImplementation δ)))}
    (h : executeBlock createBlockExecutor (some inputValue) block context =
      some (r, context')) :
    (∃ error, createBlockExecutor block = .error error ∧ r = .error error ∧
      context' = context) ∨
    (∃ blockExecutor outcome after, createBlockExecutor block = .ok blockExecutor ∧
      blockExecutor inputValue (executionStarted context) = some (outcome, after) ∧
      r = .ok (caughtResult block outcome) ∧
      context' = executionRecorded context after block inputValue
        (caughtResult block outcome)) := by
  cases hcreate : createBlockExecutor block with
  | error error =>
      rw [executeBlock_of_error hcreate] at h
      cases h
      exact .inl ⟨error, rfl, rfl, rfl⟩
  | ok blockExecutor =>
      rw [executeBlock_of_ok hcreate] at h
      obtain ⟨⟨outcome, after⟩, hrun, hout⟩ := Option.map_eq_some_iff.mp h
      cases hout
      exact .inr ⟨blockExecutor, outcome, after, rfl, hrun, rfl, rfl⟩

/-! ## The loop -/

/-- The input of `block` when the recorded values are `executionOrder`. -/
def inputOf (pipelineWrapper : PipelineWrapper)
    (initialInputValue : Option (IOTypeImplementation δ)) (isFirstBlock : Bool)
    (executionOrder : List (ExecutionOrderItem δ)) (block : BlockId) : IOTypeImplementation δ :=
  useExternalInputValue isFirstBlock initialInputValue
    (getInputValue pipelineWrapper executionOrder block)

/-- The executions and the outcome of a run of the loop, with the blocks that are finished and
those that remain. -/
inductive OrderRun (createBlockExecutor : BlockId → Except JsError (BlockExecutor δ))
    (pipelineWrapper : PipelineWrapper) (initialInputValue : Option (IOTypeImplementation δ)) :
    (isFirstBlock : Bool) → (finished remaining : List (ExecutionOrderItem δ)) →
    (executions : List (Execution δ)) →
    (outcome : Except JsError (Result (List (ExecutionOrderItem δ)))) → Prop where
  | done {isFirstBlock : Bool} {finished : List (ExecutionOrderItem δ)} :
      OrderRun createBlockExecutor pipelineWrapper initialInputValue isFirstBlock finished [] []
        (.ok (.ok finished))
  /-- The block has no executor. -/
  | noExecutor {isFirstBlock : Bool} {finished remaining : List (ExecutionOrderItem δ)}
      {blockData : ExecutionOrderItem δ} {error : JsError}
      (hcreate : createBlockExecutor blockData.block = .error error) :
      OrderRun createBlockExecutor pipelineWrapper initialInputValue isFirstBlock finished
        (blockData :: remaining) [] (.error error)
  /-- The block returns an error. -/
  | failed {isFirstBlock : Bool} {finished remaining : List (ExecutionOrderItem δ)}
      {blockData : ExecutionOrderItem δ} {execution : Execution δ}
      {details : ExecutionErrorDetails} (hblock : execution.block = blockData.block)
      (hinput : execution.inputValue = inputOf pipelineWrapper initialInputValue isFirstBlock
        (finished ++ blockData :: remaining) blockData.block)
      (hresult : execution.result = .error details) :
      OrderRun createBlockExecutor pipelineWrapper initialInputValue isFirstBlock finished
        (blockData :: remaining) [execution] (.ok (.error details))
  /-- The block returns, but another node is on top of the stack. -/
  | notLeft {isFirstBlock : Bool} {finished remaining : List (ExecutionOrderItem δ)}
      {blockData : ExecutionOrderItem δ} {execution : Execution δ}
      {value : Option (IOTypeImplementation δ)} {error : JsError}
      (hblock : execution.block = blockData.block)
      (hinput : execution.inputValue = inputOf pipelineWrapper initialInputValue isFirstBlock
        (finished ++ blockData :: remaining) blockData.block)
      (hresult : execution.result = .ok value)
      (hnode : execution.currentNode ≠ some (.block blockData.block)) :
      OrderRun createBlockExecutor pipelineWrapper initialInputValue isFirstBlock finished
        (blockData :: remaining) [execution] (.error error)
  /-- The block returns a value or `null`. -/
  | next {isFirstBlock : Bool} {finished remaining : List (ExecutionOrderItem δ)}
      {blockData : ExecutionOrderItem δ} {execution : Execution δ}
      {value : Option (IOTypeImplementation δ)} {executions : List (Execution δ)}
      {outcome : Except JsError (Result (List (ExecutionOrderItem δ)))}
      (hblock : execution.block = blockData.block)
      (hinput : execution.inputValue = inputOf pipelineWrapper initialInputValue isFirstBlock
        (finished ++ blockData :: remaining) blockData.block)
      (hresult : execution.result = .ok value)
      (hnode : execution.currentNode = some (.block blockData.block))
      (hrest : OrderRun createBlockExecutor pipelineWrapper initialInputValue false
        (finished ++ [{ blockData with value := value }]) remaining executions outcome) :
      OrderRun createBlockExecutor pipelineWrapper initialInputValue isFirstBlock finished
        (blockData :: remaining) (execution :: executions) outcome

/-- Everything that the loop can do. -/
theorem orderRun_of_executeOrder {pipelineWrapper : PipelineWrapper}
    {initialInputValue : Option (IOTypeImplementation δ)} {isFirstBlock : Bool}
    {finished remaining : List (ExecutionOrderItem δ)} {context context' : ExecutionContext δ}
    {outcome : Except JsError (Result (List (ExecutionOrderItem δ)))}
    (h : executeOrder createBlockExecutor pipelineWrapper initialInputValue isFirstBlock finished
      remaining context = some (outcome, context')) :
    ∃ executions, context'.history.executions = context.history.executions ++ executions ∧
      OrderRun createBlockExecutor pipelineWrapper initialInputValue isFirstBlock finished
        remaining executions outcome := by
  induction remaining generalizing isFirstBlock finished context with
  | nil =>
      cases h
      exact ⟨[], by simp, .done⟩
  | cons blockData remaining ih =>
      unfold executeOrder at h
      dsimp only at h
      rw [Exec.bind_of_ok (enterNode_apply _ _)] at h
      rcases Exec.bind_eq_some_iff.mp h with ⟨result, _, hblock, h⟩ | ⟨e, hblock, rfl⟩
      · obtain ⟨_, _, hr, _⟩ | ⟨_, outcome', after, _, _, hr, rfl⟩ := executeBlock_eq_some hblock
        · cases hr
        rw [← Except.ok.inj hr] at h
        cases result with
        | error details =>
            cases h
            exact ⟨_, rfl, .failed rfl rfl rfl⟩
        | ok value =>
            rcases Exec.bind_eq_some_iff.mp h with ⟨_, left, hexit, h⟩ | ⟨e, hexit, rfl⟩
            · rcases exitNode_eq_some hexit with ⟨hnode, _, rfl⟩ | ⟨_, ⟨_, hr⟩, _⟩
              · obtain ⟨executions, hmore, hrun⟩ := ih h
                refine ⟨⟨blockData.block, _, .ok value, after.stack.getLast?⟩ :: executions, ?_,
                  .next rfl rfl rfl hnode hrun⟩
                rw [hmore]
                exact List.append_assoc ..
              · cases hr
            · rcases exitNode_eq_some hexit with ⟨_, hr, _⟩ | ⟨hnode, _, rfl⟩
              · cases hr
              · exact ⟨_, rfl, .notLeft rfl rfl rfl hnode⟩
      · obtain ⟨_, hcreate, hr, rfl⟩ | ⟨_, _, _, _, _, hr, _⟩ := executeBlock_eq_some hblock
        · cases hr
          exact ⟨[], by simp, .noExecutor hcreate⟩
        · cases hr

end Jayvee
