import Jayvee.Verification.Execution.DataFlow

/-! # Data flow and the outcomes of the executors

A pipeline respects the data flow as long as its executors hand over values. -/

namespace Jayvee

open Foundation Relation ExecutionContext

variable {δ : Type}

/-! ## Data flow -/

/-- The executions and the outcome of a run follow the pipes. -/
structure RespectsDataFlow (this : PipelineWrapper)
    (initialInputValue : Option (IOTypeImplementation δ)) (executions : List (Execution δ))
    (outcome : Except JsError (Result (List (ExecutionOrderItem δ)))) : Prop where
  executed_once : (executions.map Execution.block).Nodup
  /-- A start block gets the initial input if it is the first block, and `NONE` otherwise. -/
  input_of_start : ∀ before execution after, executions = before ++ execution :: after →
    IsSource this.Pipe execution.block →
    execution.inputValue = if before.isEmpty then initialInputValue.getD .NONE else .NONE
  /-- Every other block comes after its parent and gets the output of its parent. -/
  input_of_parent : ∀ before execution after, executions = before ++ execution :: after →
    ∀ parent, this.Pipe parent execution.block →
    ∃ earlier ∈ before, earlier.block = parent ∧ earlier.result = .ok (some execution.inputValue)
  /-- Behind a block that outputs `null`, nothing is executed and `null` is recorded. -/
  null_skips : ∀ execution ∈ executions, execution.result = .ok none →
    ∀ descendant, TransGen this.Pipe execution.block descendant →
    descendant ∉ executions.map Execution.block ∧
    ∀ order, outcome = .ok (.ok order) → ⟨descendant, none⟩ ∈ order
  /-- The first error ends the run and is its result. -/
  error_stops : ∀ before execution after details, executions = before ++ execution :: after →
    execution.result = .error details → after = [] ∧ outcome = .ok (.error details)
  recorded : ∀ order, outcome = .ok (.ok order) → ∀ execution ∈ executions,
    ∃ value, execution.result = .ok value ∧ ⟨execution.block, value⟩ ∈ order
  /-- Without an error, no block is left out but those behind a block that outputs `null`. -/
  executed_or_skipped : ∀ order, outcome = .ok (.ok order) → ∀ block, this.Occurs block →
    block ∈ executions.map Execution.block ∨
    ∃ execution ∈ executions, execution.result = .ok none ∧
      TransGen this.Pipe execution.block block
  /-- Nothing but the error of a block is an error of the run. -/
  error_of_block : ∀ details, outcome = .ok (.error details) →
    ∃ execution ∈ executions, execution.result = .error details
  not_thrown : ∃ result, outcome = .ok result

/-! ## The outcomes of the executors -/

section Outcomes

variable (createBlockExecutor : BlockId → Except JsError (BlockExecutor δ))
variable (this : PipelineWrapper) (initialInputValue : Option (IOTypeImplementation δ))

/-- The context in which a block has been entered. -/
def blockEntered (block : BlockId) (context : ExecutionContext δ) : ExecutionContext δ :=
  { context with stack := context.stack ++ [.block block] }

/-- Entered in `context` and called with the input, the executor of the block returns `result` and
leaves the context `after`. -/
def BlockReturns (block : BlockId) (inputValue : IOTypeImplementation δ)
    (context : ExecutionContext δ) (result : Result (Option (IOTypeImplementation δ)))
    (after : ExecutionContext δ) : Prop :=
  ∃ blockExecutor outcome, createBlockExecutor block = .ok blockExecutor ∧
    blockExecutor inputValue (executionStarted (blockEntered block context)) =
      some (outcome, after) ∧
    caughtResult block outcome = result

/-- The context in which the block is left. -/
def blockLeft (context after : ExecutionContext δ) (block : BlockId)
    (inputValue : IOTypeImplementation δ) (value : Option (IOTypeImplementation δ)) :
    ExecutionContext δ :=
  { executionRecorded (blockEntered block context) after block inputValue (.ok value) with
    stack := after.stack.dropLast }

/-- What a block is to be called with after the executions `past`: the initial input or `NONE` for
a start block, and otherwise what its parent has output. -/
def IntendedInput (past : List (Execution δ)) (block : BlockId)
    (inputValue : IOTypeImplementation δ) : Prop :=
  IsSource this.Pipe block ∧
      inputValue = (if past.isEmpty then initialInputValue.getD .NONE else .NONE) ∨
    ∃ parent ∈ past, this.Pipe parent.block block ∧ parent.result = .ok (some inputValue)

/-- Called one after the other, each with the input that is intended for it, the executors have the
outcomes `past` and lead from `start` to a context. -/
inductive FlowsTo (start : ExecutionContext δ) :
    (past : List (Execution δ)) → (context : ExecutionContext δ) → Prop where
  | start : FlowsTo start [] start
  | next {past : List (Execution δ)} {context after : ExecutionContext δ} {block : BlockId}
      {inputValue : IOTypeImplementation δ} {value : Option (IOTypeImplementation δ)}
      (hpast : FlowsTo start past context)
      (hinput : IntendedInput this initialInputValue past block inputValue)
      (hreturns : BlockReturns createBlockExecutor block inputValue context (.ok value) after)
      (hnode : after.stack.getLast? = some (.block block)) :
      FlowsTo start (past ++ [⟨block, inputValue, .ok value, some (.block block)⟩])
        (blockLeft context after block inputValue value)

/-- Whenever the blocks that come before `block` have returned: its parent has not output `null`,
it has an executor, and this executor leaves no node on the stack if it returns without error. -/
structure FlowIsUnbroken (sorted : List BlockId) (start : ExecutionContext δ) : Prop where
  not_null : ∀ past block rest context, sorted = past.map Execution.block ++ block :: rest →
    FlowsTo createBlockExecutor this initialInputValue start past context →
    ∀ parent ∈ past, this.Pipe parent.block block → parent.result ≠ .ok none
  has_executor : ∀ past block rest context, sorted = past.map Execution.block ++ block :: rest →
    FlowsTo createBlockExecutor this initialInputValue start past context →
    ∃ blockExecutor, createBlockExecutor block = .ok blockExecutor
  leaves_stack : ∀ past block rest context, sorted = past.map Execution.block ++ block :: rest →
    FlowsTo createBlockExecutor this initialInputValue start past context →
    ∀ inputValue value after, IntendedInput this initialInputValue past block inputValue →
    BlockReturns createBlockExecutor block inputValue context (.ok value) after →
    after.stack.getLast? = some (.block block)

end Outcomes

variable {createBlockExecutor : BlockId → Except JsError (BlockExecutor δ)}
variable {this : PipelineWrapper} {initialInputValue : Option (IOTypeImplementation δ)}

/-! ## Steps of the loop -/

section Steps

variable {isFirstBlock : Bool} {finished remaining : List (ExecutionOrderItem δ)}
variable (blockData : ExecutionOrderItem δ) {context after : ExecutionContext δ}

theorem executeOrder_of_noExecutor {error : JsError}
    (hcreate : createBlockExecutor blockData.block = .error error) :
    executeOrder createBlockExecutor this initialInputValue isFirstBlock finished
        (blockData :: remaining) context =
      some (.error error, blockEntered blockData.block context) := by
  unfold executeOrder
  dsimp only
  rw [Exec.bind_of_ok (enterNode_apply _ _),
    Exec.bind_of_error (executeBlock_of_error hcreate _)]
  rfl

theorem BlockReturns.executeBlock {block : BlockId} {inputValue : IOTypeImplementation δ}
    {result : Result (Option (IOTypeImplementation δ))}
    (h : BlockReturns createBlockExecutor block inputValue context result after) :
    Jayvee.executeBlock createBlockExecutor (some inputValue) block (blockEntered block context) =
      some (.ok result,
        executionRecorded (blockEntered block context) after block inputValue result) := by
  obtain ⟨blockExecutor, outcome, hcreate, hrun, rfl⟩ := h
  rw [executeBlock_of_ok hcreate, hrun]
  rfl

theorem exitNode_of_eq {node : StackNode} (h : context.stack.getLast? = some node) :
    exitNode node context =
      some (.ok (), { context with stack := context.stack.dropLast }) := by
  rw [exitNode, Exec.bind_of_ok (popNode_apply context), if_pos h]
  rfl

theorem exitNode_of_ne {node : StackNode} (h : context.stack.getLast? ≠ some node) :
    ∃ error context', exitNode node context = some (.error error, context') := by
  rw [exitNode, Exec.bind_of_ok (popNode_apply context), if_neg h]
  exact ⟨_, _, rfl⟩

/-- What the loop does when the executor of its first block has returned a value or `null`. -/
theorem executeOrder_of_ok {value : Option (IOTypeImplementation δ)}
    (h : BlockReturns createBlockExecutor blockData.block
      (inputOf this initialInputValue isFirstBlock (finished ++ blockData :: remaining)
        blockData.block) context (.ok value) after) :
    executeOrder createBlockExecutor this initialInputValue isFirstBlock finished
        (blockData :: remaining) context =
      (exitNode (.block blockData.block) >>= fun _ =>
        executeOrder createBlockExecutor this initialInputValue false
          (finished ++ [{ blockData with value := value }]) remaining)
      (executionRecorded (blockEntered blockData.block context) after blockData.block
        (inputOf this initialInputValue isFirstBlock (finished ++ blockData :: remaining)
          blockData.block) (.ok value)) :=
  (Exec.bind_of_ok (enterNode_apply _ _)).trans (Exec.bind_of_ok h.executeBlock)

theorem executeOrder_of_error {details : ExecutionErrorDetails}
    (h : BlockReturns createBlockExecutor blockData.block
      (inputOf this initialInputValue isFirstBlock (finished ++ blockData :: remaining)
        blockData.block) context (.error details) after) :
    executeOrder createBlockExecutor this initialInputValue isFirstBlock finished
        (blockData :: remaining) context =
      some (.ok (.error details),
        executionRecorded (blockEntered blockData.block context) after blockData.block
          (inputOf this initialInputValue isFirstBlock (finished ++ blockData :: remaining)
            blockData.block) (.error details)) :=
  (Exec.bind_of_ok (enterNode_apply _ _)).trans (Exec.bind_of_ok h.executeBlock)

theorem executeOrder_of_notLeft {value : Option (IOTypeImplementation δ)}
    (h : BlockReturns createBlockExecutor blockData.block
      (inputOf this initialInputValue isFirstBlock (finished ++ blockData :: remaining)
        blockData.block) context (.ok value) after)
    (hnode : after.stack.getLast? ≠ some (.block blockData.block)) :
    ∃ error context', executeOrder createBlockExecutor this initialInputValue isFirstBlock finished
        (blockData :: remaining) context = some (.error error, context') := by
  have hexit : ∃ error context', exitNode (.block blockData.block) (executionRecorded
      (blockEntered blockData.block context) after blockData.block
      (inputOf this initialInputValue isFirstBlock (finished ++ blockData :: remaining)
        blockData.block) (.ok value)) = some (.error error, context') := exitNode_of_ne hnode
  obtain ⟨error, context', hexit⟩ := hexit
  exact ⟨error, context', (executeOrder_of_ok blockData h).trans (Exec.bind_of_error hexit)⟩

theorem executeOrder_of_next {value : Option (IOTypeImplementation δ)}
    (h : BlockReturns createBlockExecutor blockData.block
      (inputOf this initialInputValue isFirstBlock (finished ++ blockData :: remaining)
        blockData.block) context (.ok value) after)
    (hnode : after.stack.getLast? = some (.block blockData.block)) :
    executeOrder createBlockExecutor this initialInputValue isFirstBlock finished
        (blockData :: remaining) context =
      executeOrder createBlockExecutor this initialInputValue false
        (finished ++ [{ blockData with value := value }]) remaining
        (blockLeft context after blockData.block
          (inputOf this initialInputValue isFirstBlock (finished ++ blockData :: remaining)
            blockData.block) value) :=
  (executeOrder_of_ok blockData h).trans (Exec.bind_of_ok (exitNode_of_eq hnode))

end Steps

/-! ## Intended inputs -/

section Inputs

variable {finished : List (ExecutionOrderItem δ)} {past : List (Execution δ)} {block : BlockId}

/-- The loop calls a block with the input that is intended for it, if there is one. -/
theorem IntendedInput.inputOf_eq {inputValue : IOTypeImplementation δ}
    (h : IntendedInput this initialInputValue past block inputValue)
    (hingoing : this.AtMostOneIngoingPipe) (hnodup : (past.map Execution.block).Nodup)
    (hrecorded : List.Forall₂ Recorded finished past) (remaining : List (ExecutionOrderItem δ)) :
    inputOf this initialInputValue past.isEmpty (finished ++ remaining) block = inputValue := by
  rcases h with ⟨hsource, rfl⟩ | ⟨parent, hmem, hpipe, hresult⟩
  · exact inputOf_of_source _ _ hsource
  · obtain ⟨execution, hexecution, hblock, value, hvalue, hinput⟩ :=
      @inputOf_of_pipe δ this initialInputValue hingoing finished remaining past hrecorded
        parent.block block hpipe (List.mem_map_of_mem hmem)
    obtain rfl := List.inj_on_of_nodup_map hnodup hexecution hmem hblock
    obtain rfl : some inputValue = value := Except.ok.inj (hresult.symm.trans hvalue)
    exact hinput

/-- There is an intended input, unless the parent has output `null`. -/
theorem intendedInput_inputOf (hingoing : this.AtMostOneIngoingPipe)
    (hrecorded : List.Forall₂ Recorded finished past) (remaining : List (ExecutionOrderItem δ))
    (hparents : ∀ parent, this.Pipe parent block → parent ∈ past.map Execution.block)
    (hnull : ∀ parent ∈ past, this.Pipe parent.block block → parent.result ≠ .ok none) :
    IntendedInput this initialInputValue past block
      (inputOf this initialInputValue past.isEmpty (finished ++ remaining) block) := by
  by_cases hsource : IsSource this.Pipe block
  · exact .inl ⟨hsource, inputOf_of_source _ _ hsource⟩
  · obtain ⟨parent, hpipe⟩ : ∃ parent, this.Pipe parent block := by
      simpa [IsSource] using hsource
    obtain ⟨execution, hmem, rfl, value, hvalue, hinput⟩ :=
      @inputOf_of_pipe δ this initialInputValue hingoing finished remaining past hrecorded
        parent block hpipe (hparents parent hpipe)
    cases value with
    | none => exact (hnull execution hmem hpipe hvalue).elim
    | some value =>
        rw [hinput]
        exact .inr ⟨execution, hmem, hpipe, hvalue⟩

end Inputs

/-! ## The loop along the flow -/

section Flow

variable {start context : ExecutionContext δ} {past : List (Execution δ)} {sorted : List BlockId}

/-- The blocks with the values that they have before the loop. -/
def initialOrder (blocks : List BlockId) : List (ExecutionOrderItem δ) :=
  blocks.map fun block => ⟨block, some .NONE⟩

theorem FlowsTo.history (h : FlowsTo createBlockExecutor this initialInputValue start past context) :
    context.history.executions = start.history.executions ++ past := by
  induction h with
  | start => exact (List.append_nil _).symm
  | @next past context after block inputValue value _ _ _ hnode ih =>
      show context.history.executions ++ [_] = _
      rw [ih, List.append_assoc, hnode]

private theorem isEmpty_append_singleton {α : Type} (xs : List α) (x : α) :
    (xs ++ [x]).isEmpty = false := by
  simp

/-- Where the flow goes, the loop goes. -/
theorem FlowsTo.executeOrder_eq
    (h : FlowsTo createBlockExecutor this initialInputValue start past context)
    (hingoing : this.AtMostOneIngoingPipe) (hnodup : sorted.Nodup) {rest : List BlockId}
    (hsplit : sorted = past.map Execution.block ++ rest) :
    ∃ finished, List.Forall₂ Recorded finished past ∧
      executeOrder createBlockExecutor this initialInputValue true [] (initialOrder sorted) start =
        executeOrder createBlockExecutor this initialInputValue past.isEmpty finished
          (initialOrder rest) context := by
  induction h generalizing rest with
  | start => exact ⟨[], .nil, by rw [hsplit]; rfl⟩
  | @next past context after block inputValue value _ hinput hreturns hnode ih =>
      rw [List.map_append, List.append_assoc] at hsplit
      obtain ⟨finished, hrecorded, heq⟩ := ih hsplit
      have hpast : (past.map Execution.block).Nodup := by
        rw [hsplit] at hnodup
        exact hnodup.of_append_left
      have hinputOf := hinput.inputOf_eq hingoing hpast hrecorded
        (⟨block, some .NONE⟩ :: initialOrder rest)
      refine ⟨finished ++ [⟨block, value⟩], List.rel_append hrecorded (.cons ⟨rfl, rfl⟩ .nil), ?_⟩
      rw [heq]
      subst hinputOf
      have hnext := executeOrder_of_next ⟨block, some .NONE⟩ hreturns hnode
      rw [isEmpty_append_singleton]
      exact hnext

/-- The facts about a run from a place that the flow gets to. -/
structure UnbrokenRun (this : PipelineWrapper) (past executions : List (Execution δ))
    (outcome : Except JsError (Result (List (ExecutionOrderItem δ)))) : Prop where
  not_thrown : ∃ result, outcome = .ok result
  error_of_block : ∀ details, outcome = .ok (.error details) →
    ∃ execution ∈ executions, execution.result = .error details
  not_null : ∀ before execution after, executions = before ++ execution :: after →
    ∀ parent ∈ past ++ before, this.Pipe parent.block execution.block → parent.result ≠ .ok none

theorem FlowIsUnbroken.unbrokenRun
    (h : FlowIsUnbroken createBlockExecutor this initialInputValue sorted start)
    (hends : ExecutionsEnd createBlockExecutor) (hingoing : this.AtMostOneIngoingPipe)
    (hsorted : this.IsTopologicalSorting sorted) (rest : List BlockId)
    (hsplit : sorted = past.map Execution.block ++ rest)
    (hflow : FlowsTo createBlockExecutor this initialInputValue start past context)
    {finished : List (ExecutionOrderItem δ)} (hrecorded : List.Forall₂ Recorded finished past) :
    ∃ outcome context' executions,
      executeOrder createBlockExecutor this initialInputValue past.isEmpty finished
        (initialOrder rest) context = some (outcome, context') ∧
      context'.history.executions = context.history.executions ++ executions ∧
      UnbrokenRun this past executions outcome := by
  induction rest generalizing past context finished with
  | nil =>
      exact ⟨_, _, [], rfl, (List.append_nil _).symm, ⟨_, rfl⟩, by simp, by simp⟩
  | cons block rest ih =>
      have hnull := h.not_null past block rest context hsplit hflow
      obtain ⟨blockExecutor, hcreate⟩ := h.has_executor past block rest context hsplit hflow
      have hparents : ∀ parent, this.Pipe parent block → parent ∈ past.map Execution.block :=
        fun parent hpipe => mem_of_idxOf_lt hsplit (hsorted.parent_before_child parent block hpipe)
      obtain ⟨inputValue, hinputValue⟩ : ∃ inputValue, inputOf this initialInputValue past.isEmpty
          (finished ++ ⟨block, some .NONE⟩ :: initialOrder rest) block = inputValue := ⟨_, rfl⟩
      have hinput : IntendedInput this initialInputValue past block inputValue :=
        hinputValue ▸ intendedInput_inputOf hingoing hrecorded _ hparents hnull
      obtain ⟨⟨outcome, after⟩, hrun⟩ := hends block blockExecutor hcreate inputValue
        (executionStarted (blockEntered block context))
      have hreturns : BlockReturns createBlockExecutor block inputValue context
          (caughtResult block outcome) after := ⟨blockExecutor, outcome, hcreate, hrun, rfl⟩
      cases hresult : caughtResult block outcome with
      | error details =>
          rw [hresult] at hreturns
          have hlast := executeOrder_of_error ⟨block, some .NONE⟩ (hinputValue.symm ▸ hreturns)
          refine ⟨_, _, [_], hlast, rfl, ⟨_, rfl⟩, ?_, ?_⟩
          · rintro _ ⟨⟩
            exact ⟨_, List.mem_singleton.mpr rfl, rfl⟩
          · refine forall_split_cons ?_ (by simp)
            rw [List.append_nil]
            exact hnull
      | ok value =>
          rw [hresult] at hreturns
          have hnode := h.leaves_stack past block rest context hsplit hflow _ _ _ hinput hreturns
          have hnext := executeOrder_of_next ⟨block, some .NONE⟩ (hinputValue.symm ▸ hreturns) hnode
          dsimp only at hnext
          rw [hinputValue] at hnext
          have hitem : List.Forall₂ Recorded [⟨block, value⟩]
              [⟨block, inputValue, .ok value, some (.block block)⟩] := .cons ⟨rfl, rfl⟩ .nil
          obtain ⟨outcome', context', executions, hrest, hexecutions, hfacts⟩ := ih
            (by rw [List.map_append, List.append_assoc]; exact hsplit)
            (hflow.next hinput hreturns hnode) (List.rel_append hrecorded hitem)
          rw [isEmpty_append_singleton] at hrest
          refine ⟨outcome', context', ⟨block, inputValue, .ok value, some (.block block)⟩ :: executions,
            hnext.trans hrest, ?_, hfacts.not_thrown, ?_, ?_⟩
          · rw [hexecutions, (hflow.next hinput hreturns hnode).history, hflow.history]
            simp
          · intro details hdetails
            obtain ⟨execution, hmem, herror⟩ := hfacts.error_of_block details hdetails
            exact ⟨execution, List.mem_cons_of_mem _ hmem, herror⟩
          · refine forall_split_cons ?_ fun before execution after hafter => ?_
            · rw [List.append_nil]
              exact hnull
            · have hlater := hfacts.not_null before execution after hafter
              rw [List.append_assoc] at hlater
              exact hlater

end Flow

/-! ## Complete runs -/

section Complete

variable {sorted : List BlockId} {executions : List (Execution δ)}
variable {outcome : Except JsError (Result (List (ExecutionOrderItem δ)))}

/-- Everything upstream of an executed block was executed. -/
theorem PipelineRun.executed_of_path
    (h : PipelineRun this initialInputValue sorted executions outcome) {ancestor block : BlockId}
    (hpath : ReflTransGen this.Pipe ancestor block)
    (hblock : block ∈ executions.map Execution.block) :
    ancestor ∈ executions.map Execution.block := by
  induction hpath with
  | refl => exact hblock
  | tail _ hpipe ih =>
      refine ih ?_
      obtain ⟨execution, hmem, rfl⟩ := List.mem_map.mp hblock
      obtain ⟨before, after, hsplit⟩ := List.append_of_mem hmem
      obtain ⟨earlier, hearlier, rfl, _⟩ :=
        h.input_of_pipe before execution after hsplit _ hpipe
      exact List.mem_map_of_mem (by simp [hsplit, hearlier])

/-- Without `null` on the way, nothing behind a block that outputs `null` comes up. -/
theorem PipelineRun.not_executed
    (h : PipelineRun this initialInputValue sorted executions outcome) (hnodup : sorted.Nodup)
    (hunbroken : UnbrokenRun this [] executions outcome) {execution : Execution δ}
    (hmem : execution ∈ executions) (hresult : execution.result = .ok none)
    {descendant : BlockId} (hpath : TransGen this.Pipe execution.block descendant) :
    descendant ∉ executions.map Execution.block := by
  intro hdescendant
  obtain ⟨child, hpipe, hrest⟩ := TransGen.head'_iff.mp hpath
  obtain ⟨next, hnext, rfl⟩ := List.mem_map.mp (h.executed_of_path hrest hdescendant)
  obtain ⟨before, after, hsplit⟩ := List.append_of_mem hnext
  obtain ⟨earlier, hearlier, hblock, _⟩ := h.input_of_pipe before next after hsplit _ hpipe
  obtain rfl := List.inj_on_of_nodup_map (h.executed.sublist.nodup hnodup)
    (by simp [hsplit, hearlier]) hmem hblock
  exact hunbroken.not_null before next after hsplit earlier hearlier hpipe hresult

theorem PipelineRun.respectsDataFlow
    (h : PipelineRun this initialInputValue sorted executions outcome)
    (hsorted : this.IsTopologicalSorting sorted)
    (hunbroken : UnbrokenRun this [] executions outcome) :
    RespectsDataFlow this initialInputValue executions outcome := by
  have hall : ∀ order, outcome = .ok (.ok order) → ∀ block, this.Occurs block →
      block ∈ executions.map Execution.block := by
    intro order horder block hblock
    rw [(h.returned order horder).1]
    exact (hsorted.mem_iff block).mpr hblock
  refine ⟨h.executed.sublist.nodup hsorted.nodup, h.input_of_source, ?_, ?_, h.error_last, ?_, ?_,
    hunbroken.error_of_block, hunbroken.not_thrown⟩
  · intro before execution after hsplit parent hpipe
    obtain ⟨earlier, hmem, rfl, value, hresult, hinput⟩ :=
      h.input_of_pipe before execution after hsplit parent hpipe
    refine ⟨earlier, hmem, rfl, ?_⟩
    cases value with
    | none =>
        exact (hunbroken.not_null before execution after hsplit earlier hmem hpipe hresult).elim
    | some value => rw [hresult, hinput, Option.getD_some]
  · intro execution hmem hresult descendant hpath
    have hnot := h.not_executed hsorted.nodup hunbroken hmem hresult hpath
    refine ⟨hnot, fun order horder => (hnot ?_).elim⟩
    obtain ⟨_, _, hpipe⟩ := TransGen.tail'_iff.mp hpath
    exact hall order horder descendant hpipe.occurs_to
  · intro order horder execution hmem
    obtain ⟨item, hitem, hblock, hresult⟩ :
        ∃ item ∈ order, Recorded item execution := by
      obtain ⟨i, hi, rfl⟩ := List.mem_iff_getElem.mp hmem
      have hrecorded := (h.returned order horder).2
      have hlength : i < order.length := hrecorded.length_eq ▸ hi
      exact ⟨order[i], List.getElem_mem hlength, hrecorded.get hlength hi⟩
    exact ⟨item.value, hresult, hblock ▸ hitem⟩
  · exact fun order horder block hblock => .inl (hall order horder block hblock)

/-- A block that comes up and has an executor is executed. -/
theorem OrderRun.executed {isFirstBlock : Bool} {finished remaining : List (ExecutionOrderItem δ)}
    {blockData : ExecutionOrderItem δ}
    (h : OrderRun createBlockExecutor this initialInputValue isFirstBlock finished
      (blockData :: remaining) executions outcome) {blockExecutor : BlockExecutor δ}
    (hcreate : createBlockExecutor blockData.block = .ok blockExecutor) :
    blockData.block ∈ executions.map Execution.block := by
  cases h with
  | noExecutor hcreate' => simp [hcreate] at hcreate'
  | failed hblock => simp [hblock]
  | notLeft hblock => simp [hblock]
  | next hblock => simp [hblock]

theorem RespectsDataFlow.flowIsUnbroken
    (h : RespectsDataFlow this initialInputValue executions outcome)
    (hingoing : this.AtMostOneIngoingPipe) (hsorted : this.IsTopologicalSorting sorted)
    {start context' : ExecutionContext δ}
    (hrun : executeOrder createBlockExecutor this initialInputValue true [] (initialOrder sorted)
      start = some (outcome, context'))
    (hexecutions : context'.history.executions = start.history.executions ++ executions) :
    FlowIsUnbroken createBlockExecutor this initialInputValue sorted start := by
  obtain ⟨returned, hreturned⟩ := h.not_thrown
  have hloop : ∀ past block rest context, sorted = past.map Execution.block ++ block :: rest →
      FlowsTo createBlockExecutor this initialInputValue start past context →
      ∃ finished, List.Forall₂ Recorded finished past ∧
        executeOrder createBlockExecutor this initialInputValue past.isEmpty finished
          (⟨block, some .NONE⟩ :: initialOrder rest) context = some (outcome, context') := by
    intro past block rest context hsplit hflow
    obtain ⟨finished, hrecorded, heq⟩ := hflow.executeOrder_eq hingoing hsorted.nodup hsplit
    exact ⟨finished, hrecorded, heq.symm.trans hrun⟩
  have hexecutor : ∀ past block rest context, sorted = past.map Execution.block ++ block :: rest →
      FlowsTo createBlockExecutor this initialInputValue start past context →
      ∃ blockExecutor, createBlockExecutor block = .ok blockExecutor := by
    intro past block rest context hsplit hflow
    obtain ⟨finished, _, hhere⟩ := hloop past block rest context hsplit hflow
    cases hcreate : createBlockExecutor block with
    | ok blockExecutor => exact ⟨blockExecutor, rfl⟩
    | error error =>
        rw [executeOrder_of_noExecutor ⟨block, some .NONE⟩ hcreate, hreturned] at hhere
        cases hhere
  refine ⟨?_, hexecutor, ?_⟩
  · intro past block rest context hsplit hflow parent hparent hpipe hnull
    obtain ⟨finished, _, hhere⟩ := hloop past block rest context hsplit hflow
    obtain ⟨blockExecutor, hcreate⟩ := hexecutor past block rest context hsplit hflow
    obtain ⟨later, hlater, horder⟩ := orderRun_of_executeOrder hhere
    obtain rfl : executions = past ++ later := by
      rw [hexecutions, hflow.history, List.append_assoc] at hlater
      exact List.append_cancel_left hlater
    have hnot := (h.null_skips parent (List.mem_append_left _ hparent) hnull block (.single hpipe)).1
    rw [List.map_append] at hnot
    exact hnot (List.mem_append_right _ (horder.executed hcreate))
  · intro past block rest context hsplit hflow inputValue value after hinput hreturns
    obtain ⟨finished, hrecorded, hhere⟩ := hloop past block rest context hsplit hflow
    have hpast : (past.map Execution.block).Nodup := by
      have hnodup := hsorted.nodup
      rw [hsplit] at hnodup
      exact hnodup.of_append_left
    have hinputOf := hinput.inputOf_eq hingoing hpast hrecorded
      (⟨block, some .NONE⟩ :: initialOrder rest)
    by_contra hnode
    obtain ⟨error, context'', herror⟩ :=
      executeOrder_of_notLeft ⟨block, some .NONE⟩ (hinputOf.symm ▸ hreturns) hnode
    rw [hhere, hreturned] at herror
    cases herror

end Complete

/-- The run of a pipeline without cycles follows the pipes exactly if its executors, called one
after the other with what their parents output, hand over values and leave the stack as it is. -/
theorem executeBlocks_respectsDataFlow_iff
    (createBlockExecutor : BlockId → Except JsError (BlockExecutor δ))
    (pipesContainer : PipesContainer) (this : PipelineWrapper)
    (initialInputValue : Option (IOTypeImplementation δ)) (context : ExecutionContext δ)
    (hwrap : PipelineWrapper.wrap pipesContainer = .ok this) (hacyclic : Acyclic this.Pipe)
    (hingoing : this.AtMostOneIngoingPipe) (hends : ExecutionsEnd createBlockExecutor) :
    ∃ sorted outcome context' executions, this.IsTopologicalSorting sorted ∧
      (∀ fuel, 2 * this.allPipes.length < fuel →
        this.getBlocksInTopologicalSorting fuel = some (.ok sorted) ∧
        executeBlocks createBlockExecutor fuel pipesContainer initialInputValue context =
          some (outcome, context')) ∧
      context'.history.executions = context.history.executions ++ executions ∧
      (RespectsDataFlow this initialInputValue executions outcome ↔
        FlowIsUnbroken createBlockExecutor this initialInputValue sorted context) := by
  obtain ⟨_, hsorting, hacyclic', _⟩ :=
    PipelineWrapper.getBlocksInTopologicalSorting_spec hingoing.noEqualPipes
  obtain ⟨sorted, rfl, hsorted⟩ := hacyclic' hacyclic
  obtain ⟨⟨outcome, context'⟩, hrun⟩ := executeOrder_ends this initialInputValue true []
    (initialOrder sorted) (fun blockData _ => hends blockData.block) context
  obtain ⟨executions, hexecutions, horder⟩ := orderRun_of_executeOrder hrun
  have hpipeline : PipelineRun this initialInputValue sorted executions outcome := by
    have hfacts := horder.runFacts List.Forall₂.nil rfl
    rw [initialOrder, map_block_initial] at hfacts
    exact hfacts.pipelineRun hingoing hsorted
  refine ⟨sorted, outcome, context', executions, hsorted, fun fuel hfuel => ?_, hexecutions, ?_, ?_⟩
  · exact ⟨hsorting fuel hfuel, by rw [executeBlocks_of_sorted hwrap (hsorting fuel hfuel)]; exact hrun⟩
  · exact fun hrespects => hrespects.flowIsUnbroken hingoing hsorted hrun hexecutions
  · intro hunbroken
    obtain ⟨outcome', context'', executions', hrun', hexecutions', hfacts⟩ :=
      hunbroken.unbrokenRun hends hingoing hsorted sorted rfl .start .nil
    obtain ⟨rfl, rfl⟩ := Prod.mk.inj (Option.some.inj (hrun.symm.trans hrun'))
    obtain rfl := List.append_cancel_left (hexecutions.symm.trans hexecutions')
    exact hpipeline.respectsDataFlow hsorted hfacts

/-! ## Handing over a value -/

/-- Every block has an executor, which returns and leaves the context as it is. -/
def ExecutorsReturn (createBlockExecutor : BlockId → Except JsError (BlockExecutor δ)) : Prop :=
  ∀ block, ∃ blockExecutor, createBlockExecutor block = .ok blockExecutor ∧
    ∀ inputValue context, ∃ result, blockExecutor inputValue context = some (.ok result, context)

theorem ExecutorsReturn.end (h : ExecutorsReturn createBlockExecutor) :
    ExecutionsEnd createBlockExecutor := by
  intro block blockExecutor hcreate inputValue context
  obtain ⟨_, hcreate', hreturns⟩ := h block
  obtain rfl := Except.ok.inj (hcreate.symm.trans hcreate')
  obtain ⟨result, hrun⟩ := hreturns inputValue context
  exact ⟨_, hrun⟩

/-- `a -> b;` -/
def handOverPipeline : PipesContainer :=
  .pipeline {
    name := "HandOver"
    blocks := [0, 1]
    pipes := [⟨[some 0, some 1]⟩]
    transforms := []
    valueTypes := []
    constraints := [] }

/-- The block `a` outputs `outputOfA`, every other block outputs a value. -/
def handOverExecutors (outputOfA : Option (IOTypeImplementation Unit)) (block : BlockId) :
    Except JsError (BlockExecutor Unit) :=
  .ok fun _ => pure (.ok (if block = 0 then outputOfA else some (.value ())))

/-- The context of a document without variables. -/
def handOverContext : ExecutionContext Unit :=
  .construct (.construct ⟨fun _ => none, none⟩)

theorem handOverPipeline_acyclic :
    Acyclic (PipelineWrapper.construct handOverPipeline).Pipe := by
  refine acyclic_of_rank (fun block => block) ?_
  rintro a b ⟨pipe, hpipe, rfl, rfl⟩
  have hlt : ∀ pipe ∈ (PipelineWrapper.construct handOverPipeline).allPipes,
      pipe.from < pipe.to := by decide
  exact hlt pipe hpipe

theorem handOverPipeline_atMostOneIngoingPipe :
    (PipelineWrapper.construct handOverPipeline).AtMostOneIngoingPipe :=
  fun _ => List.length_filter_le ..

theorem handOverExecutors_return (outputOfA : Option (IOTypeImplementation Unit)) :
    ExecutorsReturn (handOverExecutors outputOfA) :=
  fun _ => ⟨_, rfl, fun _ _ => ⟨_, rfl⟩⟩

/-- If `a` outputs a value, every block does, and leaves the stack as it is. -/
theorem handOver_blockReturns {block : BlockId} {inputValue : IOTypeImplementation Unit}
    {context after : ExecutionContext Unit} {result : Result (Option (IOTypeImplementation Unit))}
    (h : BlockReturns (handOverExecutors (some (.value ()))) block inputValue context result after) :
    result = .ok (some (.value ())) ∧ after = executionStarted (blockEntered block context) := by
  obtain ⟨_, _, ⟨⟩, hrun, rfl⟩ := h
  cases hrun
  exact ⟨by simp [caughtResult], rfl⟩

theorem handOver_outputs {start context : ExecutionContext Unit} {past : List (Execution Unit)}
    (h : FlowsTo (handOverExecutors (some (.value ()))) (.construct handOverPipeline) none start past
      context) : ∀ execution ∈ past, execution.result = .ok (some (.value ())) := by
  induction h with
  | start => simp
  | next _ _ hreturns _ ih =>
      intro execution hexecution
      rcases List.mem_append.mp hexecution with hpast | hlast
      · exact ih execution hpast
      · obtain rfl := List.mem_singleton.mp hlast
        exact (handOver_blockReturns hreturns).1

theorem handOver_flowIsUnbroken (sorted : List BlockId) :
    FlowIsUnbroken (handOverExecutors (some (.value ()))) (.construct handOverPipeline) none sorted
      handOverContext := by
  constructor
  case not_null =>
    intro past block rest context _ hflow parent hparent _
    rw [handOver_outputs hflow parent hparent]
    simp
  case has_executor => exact fun _ _ _ _ _ _ => ⟨_, rfl⟩
  case leaves_stack =>
    intro past block rest context _ _ inputValue value after _ hreturns
    rw [(handOver_blockReturns hreturns).2]
    exact List.getLast?_concat

theorem executeBlocks_respectsDataFlow_handOverPipeline :
    ∃ outcome context' executions,
      (∀ fuel, 2 * (PipelineWrapper.construct handOverPipeline).allPipes.length < fuel →
        executeBlocks (handOverExecutors (some (.value ()))) fuel handOverPipeline none
          handOverContext = some (outcome, context')) ∧
      context'.history.executions = [] ++ executions ∧
      RespectsDataFlow (.construct handOverPipeline) none executions outcome := by
  obtain ⟨sorted, outcome, context', executions, _, hrun, hexecutions, hiff⟩ :=
    executeBlocks_respectsDataFlow_iff (handOverExecutors (some (.value ()))) handOverPipeline _
      none handOverContext rfl handOverPipeline_acyclic handOverPipeline_atMostOneIngoingPipe
      (handOverExecutors_return _).end
  exact ⟨outcome, context', executions, fun fuel hfuel => (hrun fuel hfuel).2, hexecutions,
    hiff.mpr (handOver_flowIsUnbroken sorted)⟩

/-- After `a` has output `null`, `b` is executed with `NONE`. -/
theorem not_respectsDataFlow_handOverPipeline :
    ¬ ∀ (createBlockExecutor : BlockId → Except JsError (BlockExecutor Unit))
      (pipesContainer : PipesContainer) (this : PipelineWrapper)
      (initialInputValue : Option (IOTypeImplementation Unit)) (context : ExecutionContext Unit),
      PipelineWrapper.wrap pipesContainer = .ok this → Acyclic this.Pipe →
      this.AtMostOneIngoingPipe → ExecutorsReturn createBlockExecutor →
      ∃ outcome context' executions,
        (∀ fuel, 2 * this.allPipes.length < fuel →
          executeBlocks createBlockExecutor fuel pipesContainer initialInputValue context =
            some (outcome, context')) ∧
        context'.history.executions = context.history.executions ++ executions ∧
        RespectsDataFlow this initialInputValue executions outcome := by
  intro h
  obtain ⟨outcome, context', executions, hrun, hexecutions, hrespects⟩ :=
    h (handOverExecutors none) handOverPipeline _ none handOverContext rfl
      handOverPipeline_acyclic handOverPipeline_atMostOneIngoingPipe (handOverExecutors_return none)
  have hboth : (executeBlocks (handOverExecutors none) 3 handOverPipeline none
      handOverContext).map (fun out => out.2.history.executions) =
      some [⟨0, .NONE, .ok none, some (.block 0)⟩,
        ⟨1, .NONE, .ok (some (.value ())), some (.block 1)⟩] := rfl
  rw [hrun 3 (by decide), Option.map_some, hexecutions] at hboth
  cases hboth
  have hskipped := (hrespects.null_skips _ List.mem_cons_self rfl 1
    (.single (PipelineWrapper.mem_getChildBlocks.mp (by decide)))).1
  exact hskipped (by simp)

end Jayvee
