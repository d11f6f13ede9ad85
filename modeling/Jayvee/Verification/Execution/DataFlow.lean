import Jayvee.Verification.Execution.OrderRun
import Jayvee.Verification.Pipeline.TopologicalSorting

/-! # The flow of data through a pipeline -/

namespace Jayvee

open Foundation Relation

variable {δ : Type} {this : PipelineWrapper} {initialInputValue : Option (IOTypeImplementation δ)}

/-! ## What a run of the loop records -/

/-- The value that is recorded for an execution. -/
def Recorded (item : ExecutionOrderItem δ) (execution : Execution δ) : Prop :=
  item.block = execution.block ∧ execution.result = .ok item.value

/-- The part of a run after the executions `past`, on the blocks that remain. -/
structure RunFacts (this : PipelineWrapper)
    (initialInputValue : Option (IOTypeImplementation δ)) (past : List (Execution δ))
    (blocks : List BlockId) (executions : List (Execution δ))
    (outcome : Except JsError (Result (List (ExecutionOrderItem δ)))) : Prop where
  executed : executions.map Execution.block <+: blocks
  input : ∀ before execution after, executions = before ++ execution :: after →
    ∃ finished remaining, List.Forall₂ Recorded finished (past ++ before) ∧
      execution.inputValue = inputOf this initialInputValue (past ++ before).isEmpty
        (finished ++ remaining) execution.block
  error_last : ∀ before execution after details, executions = before ++ execution :: after →
    execution.result = .error details → after = [] ∧ outcome = .ok (.error details)
  returned : ∀ order, outcome = .ok (.ok order) →
    executions.map Execution.block = blocks ∧ List.Forall₂ Recorded order (past ++ executions)

/-- A property of all elements of a list, each with what stands before and after it. -/
theorem forall_split_cons {α : Type} {P : List α → α → List α → Prop} {a : α}
    {as : List α} (hhead : P [] a as)
    (htail : ∀ before x after, as = before ++ x :: after → P (a :: before) x after) :
    ∀ before x after, a :: as = before ++ x :: after → P before x after := by
  intro before x after hsplit
  rcases List.cons_eq_append_iff.mp hsplit with ⟨rfl, hx⟩ | ⟨before, rfl, htl⟩
  · cases hx
    exact hhead
  · exact htail before x after htl

section Facts

variable {isFirstBlock : Bool} {finished remaining : List (ExecutionOrderItem δ)}
variable {past : List (Execution δ)} {execution : Execution δ} {block : BlockId}

/-- The facts about a run that ends with the execution of its first block. -/
theorem RunFacts.of_last {blocks : List BlockId}
    {outcome : Except JsError (Result (List (ExecutionOrderItem δ)))}
    (hrecorded : List.Forall₂ Recorded finished past) (hblock : execution.block = block)
    (hinput : execution.inputValue = inputOf this initialInputValue past.isEmpty
      (finished ++ remaining) block)
    (herror : ∀ details, execution.result = .error details → outcome = .ok (.error details))
    (houtcome : ∀ order, outcome ≠ .ok (.ok order)) :
    RunFacts this initialInputValue past (block :: blocks) [execution] outcome := by
  refine ⟨by simp [hblock], ?_, ?_, fun order h => (houtcome order h).elim⟩
  · refine forall_split_cons ?_ (by simp)
    exact ⟨finished, remaining, by simpa using hrecorded, by simpa [hblock] using hinput⟩
  · refine fun before execution after details hsplit => ?_
    refine forall_split_cons (P := fun before x after => x.result = .error details →
      after = [] ∧ outcome = .ok (.error details)) ?_ (by simp) before execution after hsplit
    exact fun hresult => ⟨rfl, herror details hresult⟩

/-- The facts about a run that continues after the execution of its first block. -/
theorem RunFacts.of_next {blocks : List BlockId} {executions : List (Execution δ)}
    {outcome : Except JsError (Result (List (ExecutionOrderItem δ)))}
    {value : Option (IOTypeImplementation δ)}
    (hrecorded : List.Forall₂ Recorded finished past) (hblock : execution.block = block)
    (hinput : execution.inputValue = inputOf this initialInputValue past.isEmpty
      (finished ++ remaining) block)
    (hresult : execution.result = .ok value)
    (hrest : RunFacts this initialInputValue (past ++ [execution]) blocks executions outcome) :
    RunFacts this initialInputValue past (block :: blocks) (execution :: executions)
      outcome := by
  refine ⟨?_, ?_, ?_, ?_⟩
  · simpa [hblock] using hrest.executed
  · refine forall_split_cons ?_ fun before later after hsplit => ?_
    · exact ⟨finished, remaining, by simpa using hrecorded, by simpa [hblock] using hinput⟩
    · simpa using hrest.input before later after hsplit
  · refine fun before later after details hsplit => ?_
    refine forall_split_cons (P := fun before x after => x.result = .error details →
      after = [] ∧ outcome = .ok (.error details)) ?_ ?_ before later after hsplit
    · simp [hresult]
    · exact fun before later after hsplit => hrest.error_last before later after details hsplit
  · intro order horder
    obtain ⟨hblocks, hall⟩ := hrest.returned order horder
    exact ⟨by simp [hblock, hblocks], by simpa using hall⟩

end Facts

theorem OrderRun.runFacts
    {createBlockExecutor : BlockId → Except JsError (BlockExecutor δ)} {isFirstBlock : Bool}
    {finished remaining : List (ExecutionOrderItem δ)} {executions : List (Execution δ)}
    {outcome : Except JsError (Result (List (ExecutionOrderItem δ)))}
    (h : OrderRun createBlockExecutor this initialInputValue isFirstBlock finished remaining
      executions outcome)
    {past : List (Execution δ)} (hrecorded : List.Forall₂ Recorded finished past)
    (hfirst : isFirstBlock = past.isEmpty) :
    RunFacts this initialInputValue past (remaining.map ExecutionOrderItem.block) executions
      outcome := by
  induction h generalizing past with
  | done =>
      refine ⟨List.prefix_rfl, by simp, by simp, ?_⟩
      rintro order ⟨⟩
      exact ⟨rfl, by simpa using hrecorded⟩
  | noExecutor => exact ⟨List.nil_prefix, by simp, by simp, by simp⟩
  | failed hblock hinput hresult =>
      refine RunFacts.of_last hrecorded hblock (hfirst ▸ hinput) ?_ (by simp)
      intro details hdetails
      rw [hresult] at hdetails
      cases hdetails
      rfl
  | notLeft hblock hinput hresult hnode =>
      exact RunFacts.of_last hrecorded hblock (hfirst ▸ hinput) (by simp [hresult]) (by simp)
  | next hblock hinput hresult hnode hrest ih =>
      refine RunFacts.of_next hrecorded hblock (hfirst ▸ hinput) hresult (ih ?_ (by simp))
      refine List.rel_append hrecorded (List.Forall₂.cons ⟨hblock.symm, hresult⟩ .nil)

/-! ## Inputs -/

theorem getParentBlocks_of_source {block : BlockId} (h : IsSource this.Pipe block) :
    this.getParentBlocks block = [] :=
  List.eq_nil_iff_forall_not_mem.mpr fun parent hparent =>
    h parent (PipelineWrapper.mem_getParentBlocks.mp hparent)

theorem getParentBlocks_of_pipe (hingoing : this.AtMostOneIngoingPipe) {parent block : BlockId}
    (h : this.Pipe parent block) : this.getParentBlocks block = [parent] := by
  have hmem : parent ∈ this.getParentBlocks block := PipelineWrapper.mem_getParentBlocks.mpr h
  have hlength : (this.getParentBlocks block).length ≤ 1 := by
    simpa [PipelineWrapper.getParentBlocks] using hingoing block
  cases hparents : this.getParentBlocks block with
  | nil => simp [hparents] at hmem
  | cons first others =>
      rw [hparents] at hmem hlength
      obtain rfl : others = [] := by simpa using hlength
      rw [List.mem_singleton.mp hmem]

/-- The recorded value of an executed block is found. -/
theorem find_recorded {finished : List (ExecutionOrderItem δ)} {past : List (Execution δ)}
    (h : List.Forall₂ Recorded finished past) (remaining : List (ExecutionOrderItem δ))
    {block : BlockId} (hblock : block ∈ past.map Execution.block) :
    ∃ item, (finished ++ remaining).find? (fun blockData => blockData.block == block) =
        some item ∧
      ∃ execution ∈ past, execution.block = block ∧ execution.result = .ok item.value := by
  induction h with
  | nil => simp at hblock
  | @cons item execution finished past hitem _ ih =>
      by_cases hhead : item.block = block
      · exact ⟨item, by simp [hhead], execution, by simp, hitem.1.symm.trans hhead, hitem.2⟩
      · have hpast : block ∈ past.map Execution.block := by
          rcases List.mem_cons.mp hblock with rfl | hpast
          · exact (hhead hitem.1).elim
          · exact hpast
        obtain ⟨found, hfind, later, hlater, hfound⟩ := ih hpast
        refine ⟨found, ?_, later, List.mem_cons_of_mem _ hlater, hfound⟩
        rw [List.cons_append, List.find?_cons_of_neg (by simpa using hhead)]
        exact hfind

theorem inputOf_of_source (isFirstBlock : Bool)
    (executionOrder : List (ExecutionOrderItem δ)) {block : BlockId}
    (h : IsSource this.Pipe block) :
    inputOf this initialInputValue isFirstBlock executionOrder block =
      if isFirstBlock then initialInputValue.getD .NONE else .NONE := by
  rw [inputOf, getInputValue, getParentBlocks_of_source h]
  rfl

/-- A block with a parent gets the recorded value of the parent, and `NONE` in place of
`null`. -/
theorem inputOf_of_pipe (hingoing : this.AtMostOneIngoingPipe)
    {finished remaining : List (ExecutionOrderItem δ)} {past : List (Execution δ)}
    (hrecorded : List.Forall₂ Recorded finished past) {parent block : BlockId}
    (hpipe : this.Pipe parent block) (hparent : parent ∈ past.map Execution.block) :
    ∃ execution ∈ past, execution.block = parent ∧ ∃ value, execution.result = .ok value ∧
      inputOf this initialInputValue past.isEmpty (finished ++ remaining) block =
        value.getD .NONE := by
  obtain ⟨item, hfind, execution, hmem, hblock, hresult⟩ :=
    find_recorded hrecorded remaining hparent
  refine ⟨execution, hmem, hblock, item.value, hresult, ?_⟩
  have hnotFirst : past.isEmpty = false := by
    cases past with
    | nil => cases hmem
    | cons _ _ => rfl
  have hinput : getInputValue this (finished ++ remaining) block = item.value.getD .NONE := by
    rw [getInputValue, getParentBlocks_of_pipe hingoing hpipe]
    simp only [List.map_cons, List.map_nil, hfind]
    rfl
  rw [inputOf, hinput, hnotFirst]
  cases item.value.getD .NONE <;> rfl

/-! ## Complete runs -/

/-- What the facts about a complete run say about the graph of the pipeline. -/
structure PipelineRun (this : PipelineWrapper)
    (initialInputValue : Option (IOTypeImplementation δ)) (sorted : List BlockId)
    (executions : List (Execution δ))
    (outcome : Except JsError (Result (List (ExecutionOrderItem δ)))) : Prop where
  executed : executions.map Execution.block <+: sorted
  input_of_source : ∀ before execution after, executions = before ++ execution :: after →
    IsSource this.Pipe execution.block →
    execution.inputValue = if before.isEmpty then initialInputValue.getD .NONE else .NONE
  input_of_pipe : ∀ before execution after, executions = before ++ execution :: after →
    ∀ parent, this.Pipe parent execution.block →
    ∃ earlier ∈ before, earlier.block = parent ∧ ∃ value, earlier.result = .ok value ∧
      execution.inputValue = value.getD .NONE
  error_last : ∀ before execution after details, executions = before ++ execution :: after →
    execution.result = .error details → after = [] ∧ outcome = .ok (.error details)
  returned : ∀ order, outcome = .ok (.ok order) →
    executions.map Execution.block = sorted ∧ List.Forall₂ Recorded order executions

/-- In a sorting, what stands before an element contains its parents. -/
theorem mem_of_idxOf_lt {sorted before after : List BlockId} {parent block : BlockId}
    (hsplit : sorted = before ++ block :: after)
    (hlt : sorted.idxOf parent < sorted.idxOf block) : parent ∈ before := by
  by_contra hnot
  subst hsplit
  have hparent : before.length ≤ (before ++ block :: after).idxOf parent := by
    rw [List.idxOf_append_of_notMem hnot]
    omega
  have hblock : (before ++ block :: after).idxOf block ≤ before.length := by
    by_cases hmem : block ∈ before
    · rw [List.idxOf_append_of_mem hmem]
      exact (List.idxOf_lt_length_of_mem hmem).le
    · rw [List.idxOf_append_of_notMem hmem]
      simp
  omega

theorem RunFacts.pipelineRun {sorted : List BlockId} {executions : List (Execution δ)}
    {outcome : Except JsError (Result (List (ExecutionOrderItem δ)))}
    (h : RunFacts this initialInputValue [] sorted executions outcome)
    (hingoing : this.AtMostOneIngoingPipe) (hsorted : this.IsTopologicalSorting sorted) :
    PipelineRun this initialInputValue sorted executions outcome := by
  refine ⟨h.executed, ?_, ?_, h.error_last, by simpa using h.returned⟩
  · intro before execution after hsplit hsource
    obtain ⟨_, _, _, hinput⟩ := h.input before execution after hsplit
    rw [hinput, inputOf_of_source _ _ hsource, List.nil_append]
  · intro before execution after hsplit parent hpipe
    obtain ⟨finished, remaining, hrecorded, hinput⟩ := h.input before execution after hsplit
    have hparent : parent ∈ before.map Execution.block := by
      obtain ⟨rest, hrest⟩ := h.executed
      have hsplit' : sorted = before.map Execution.block ++ execution.block ::
          (after.map Execution.block ++ rest) := by
        simp [← hrest, hsplit]
      exact mem_of_idxOf_lt hsplit' (hsorted.parent_before_child parent execution.block hpipe)
    rw [List.nil_append] at hrecorded hinput
    obtain ⟨earlier, hmem, hblock, value, hresult, heq⟩ :=
      inputOf_of_pipe hingoing hrecorded hpipe hparent
    exact ⟨earlier, hmem, hblock, value, hresult, hinput.trans heq⟩

/-! ## Running all blocks -/

section Run

variable {createBlockExecutor : BlockId → Except JsError (BlockExecutor δ)}

/-- Every execution of an individual block ends, with a result or a thrown error. -/
def ExecutionsEnd (createBlockExecutor : BlockId → Except JsError (BlockExecutor δ)) : Prop :=
  ∀ block blockExecutor, createBlockExecutor block = .ok blockExecutor →
    ∀ inputValue, Exec.Ends (blockExecutor inputValue)

theorem exitNode_ends (node : StackNode) :
    Exec.Ends (ExecutionContext.exitNode node : ExecM δ Unit) := by
  refine Exec.Ends.bind (fun _ => ⟨_, rfl⟩) fun poppedNode => ?_
  split
  · exact Exec.Ends.pure ()
  · exact Exec.Ends.bind (Exec.Ends.modify _) fun _ => Exec.Ends.throw _

theorem recordExecution_ends {block : BlockId} {inputValue : IOTypeImplementation δ}
    {execute : ExecM δ (Result (Option (IOTypeImplementation δ)))} (h : Exec.Ends execute) :
    Exec.Ends (recordExecution block inputValue execute) := by
  refine Exec.Ends.bind Exec.Ends.get fun before => ?_
  refine Exec.Ends.bind (Exec.Ends.modify _) fun _ => ?_
  refine Exec.Ends.bind h fun result => ?_
  exact Exec.Ends.bind (Exec.Ends.modify _) fun _ => Exec.Ends.pure result

theorem executeBlock_ends {block : BlockId}
    (hends : ∀ blockExecutor, createBlockExecutor block = .ok blockExecutor →
      ∀ inputValue, Exec.Ends (blockExecutor inputValue))
    (inputValue : IOTypeImplementation δ) :
    Exec.Ends (executeBlock createBlockExecutor (some inputValue) block) := by
  refine Exec.Ends.ofExcept_bind fun blockExecutor hcreate => recordExecution_ends ?_
  exact Exec.Ends.tryCatch (hends blockExecutor hcreate inputValue) fun _ => Exec.Ends.pure _

/-- The loop ends if the executions of its blocks do. -/
theorem executeOrder_ends (this : PipelineWrapper)
    (initialInputValue : Option (IOTypeImplementation δ)) (isFirstBlock : Bool)
    (finished remaining : List (ExecutionOrderItem δ))
    (hends : ∀ blockData ∈ remaining, ∀ blockExecutor,
      createBlockExecutor blockData.block = .ok blockExecutor →
      ∀ inputValue, Exec.Ends (blockExecutor inputValue)) :
    Exec.Ends (executeOrder createBlockExecutor this initialInputValue isFirstBlock finished
      remaining) := by
  induction remaining generalizing isFirstBlock finished with
  | nil => exact Exec.Ends.pure _
  | cons blockData remaining ih =>
      rw [List.forall_mem_cons] at hends
      refine Exec.Ends.bind (Exec.Ends.modify _) fun _ => ?_
      refine Exec.Ends.bind (executeBlock_ends hends.1 _) fun result => ?_
      cases result with
      | error details => exact Exec.Ends.pure _
      | ok value => exact Exec.Ends.bind (exitNode_ends _) fun _ => ih _ _ hends.2

theorem map_block_initial (sorted : List BlockId) :
    (sorted.map fun block => (⟨block, some .NONE⟩ : ExecutionOrderItem δ)).map
      ExecutionOrderItem.block = sorted := by
  rw [List.map_map]
  exact List.map_id sorted

theorem executeBlocks_of_sorted {fuel : Nat} {pipesContainer : PipesContainer}
    (hwrap : PipelineWrapper.wrap pipesContainer = .ok this) {sorted : List BlockId}
    (hsorted : this.getBlocksInTopologicalSorting fuel = some (.ok sorted)) :
    executeBlocks createBlockExecutor fuel pipesContainer initialInputValue =
      executeOrder createBlockExecutor this initialInputValue true []
        (sorted.map fun block => ⟨block, some .NONE⟩) := by
  funext context
  rw [executeBlocks, hwrap, Exec.bind_of_ok (Exec.ofExcept_apply _ _), hsorted]
  rfl

/-- A pipeline without cycles in which every block has at most one parent runs to an end. -/
theorem exists_orderRun (hends : ExecutionsEnd createBlockExecutor)
    {pipesContainer : PipesContainer} (hwrap : PipelineWrapper.wrap pipesContainer = .ok this)
    (hacyclic : Acyclic this.Pipe) (hingoing : this.AtMostOneIngoingPipe)
    (initialInputValue : Option (IOTypeImplementation δ)) (context : ExecutionContext δ) :
    ∃ sorted outcome context' executions,
      (∀ fuel, 2 * this.allPipes.length < fuel →
        executeBlocks createBlockExecutor fuel pipesContainer initialInputValue context =
          some (outcome, context')) ∧
      context'.history.executions = context.history.executions ++ executions ∧
      this.IsTopologicalSorting sorted ∧
      OrderRun createBlockExecutor this initialInputValue true []
        (sorted.map fun block => ⟨block, some .NONE⟩) executions outcome := by
  obtain ⟨_, hsorting, hacyclic', _⟩ :=
    PipelineWrapper.getBlocksInTopologicalSorting_spec hingoing.noEqualPipes
  obtain ⟨sorted, rfl, hsorted⟩ := hacyclic' hacyclic
  obtain ⟨⟨outcome, context'⟩, hrun⟩ := executeOrder_ends this initialInputValue true []
    (sorted.map fun block => ⟨block, some .NONE⟩)
    (fun blockData _ => hends blockData.block) context
  obtain ⟨executions, hexecutions, horder⟩ := orderRun_of_executeOrder hrun
  refine ⟨sorted, outcome, context', executions, fun fuel hfuel => ?_, hexecutions, hsorted,
    horder⟩
  rw [executeBlocks_of_sorted hwrap (hsorting fuel hfuel), hrun]

end Run

end Jayvee
