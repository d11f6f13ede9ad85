import Jayvee.Verification.Execution.DataFlow
import Jayvee.Verification.Execution.Properties
import Jayvee.Verification.Pipeline.Chain
import Jayvee.Verification.Pipeline.Validation

/-! # Composite blocks as chains -/

namespace Jayvee

open Foundation ExecutionContext

variable {δ : Type}

/-! ## Plain chains -/

/-- The executions and the value of a chain of blocks: each block gets the output of the one
before it, and the first `null` or error ends the chain without a value. -/
def IsChainRun : (input : IOTypeImplementation δ) → (chain : List BlockId) →
    (executions : List (Execution δ)) → (value : Option (IOTypeImplementation δ)) → Prop
  | input, [], executions, value => executions = [] ∧ value = some input
  | _, _ :: _, [], _ => False
  | input, block :: chain, execution :: executions, value =>
      execution.block = block ∧ execution.inputValue = input ∧
      match execution.result with
      | .ok (some output) => IsChainRun output chain executions value
      | _ => executions = [] ∧ value = none

/-- The block outputs `null` only at the end of the chain, and its own node is on top of the
stack when it returns. -/
structure PassesOn (chain : List BlockId) (execution : Execution δ) : Prop where
  null_last : execution.result = .ok none → chain.getLast? = some execution.block
  on_top : ∀ value, execution.result = .ok value →
    execution.currentNode = some (.block execution.block)

/-! ## The loop over a chain -/

section Loop

variable {createBlockExecutor : BlockId → Except JsError (BlockExecutor δ)}
variable {this : PipelineWrapper} {initialInputValue : Option (IOTypeImplementation δ)}

/-- The value that is found for the last block; `none` if the loop throws. -/
def valueOfLast : Except JsError (Result (List (ExecutionOrderItem δ))) →
    Option (Option (IOTypeImplementation δ))
  | .ok (.ok order) => order.getLast?.map ExecutionOrderItem.value
  | .ok (.error _) => some none
  | .error _ => none

/-- A block behind another one gets the value that was recorded for it. -/
theorem inputOf_next (hingoing : this.AtMostOneIngoingPipe)
    {front rest : List (ExecutionOrderItem δ)} {item next : ExecutionOrderItem δ}
    (hpipe : this.Pipe item.block next.block)
    (hfront : item.block ∉ front.map ExecutionOrderItem.block) :
    inputOf this initialInputValue false (front ++ [item] ++ next :: rest) next.block =
      item.value.getD .NONE := by
  have hfind : (front ++ [item] ++ next :: rest).find?
      (fun blockData => blockData.block == item.block) = some item := by
    have hnone : front.find? (fun blockData => blockData.block == item.block) = none := by
      apply List.find?_eq_none.mpr
      intro other hother heq
      have hblock : other.block = item.block := by simpa using heq
      exact hfront (hblock ▸ List.mem_map_of_mem hother)
    rw [List.append_assoc, List.find?_append, hnone]
    simp
  have hinput : getInputValue this (front ++ [item] ++ next :: rest) next.block =
      item.value.getD .NONE := by
    rw [getInputValue, getParentBlocks_of_pipe hingoing hpipe]
    simp only [List.map_cons, List.map_nil, hfind]
    rfl
  rw [inputOf, hinput]
  cases item.value.getD .NONE <;> rfl

theorem OrderRun.executions_ne_nil {isFirstBlock : Bool}
    {finished remaining : List (ExecutionOrderItem δ)} {blockData : ExecutionOrderItem δ}
    {executions : List (Execution δ)}
    {outcome : Except JsError (Result (List (ExecutionOrderItem δ)))}
    (h : OrderRun createBlockExecutor this initialInputValue isFirstBlock finished
      (blockData :: remaining) executions outcome)
    (hexecutor : ∃ blockExecutor, createBlockExecutor blockData.block = .ok blockExecutor) :
    executions ≠ [] := by
  obtain ⟨blockExecutor, hcreate⟩ := hexecutor
  cases h with
  | noExecutor herror => simp [hcreate] at herror
  | failed => simp
  | notLeft => simp
  | next => simp

theorem getLast?_ne_of_nodup {front rest : List BlockId} {block next : BlockId}
    (hnodup : (front ++ block :: next :: rest).Nodup) :
    (front ++ block :: next :: rest).getLast? ≠ some block := by
  intro hlast
  rw [List.getLast?_append_of_ne_nil _ (by simp), List.getLast?_cons_cons] at hlast
  have hhead : block ∉ next :: rest := (List.nodup_cons.mp (List.nodup_append.mp hnodup).2.1).1
  exact hhead (List.mem_of_getLast? hlast)

/-- In a chain, the output of a block is the input of the next one. -/
theorem inputOf_next_of_chain {chain : List BlockId} (hnodup : chain.Nodup)
    (hpipe : ∀ i a b, chain[i]? = some a → chain[i + 1]? = some b → this.Pipe a b)
    (hingoing : this.AtMostOneIngoingPipe)
    {finished rest : List (ExecutionOrderItem δ)} {item next : ExecutionOrderItem δ}
    (hchain : finished.map ExecutionOrderItem.block ++
      (item :: next :: rest).map ExecutionOrderItem.block = chain) :
    inputOf this initialInputValue false (finished ++ [item] ++ next :: rest) next.block =
      item.value.getD .NONE := by
  apply inputOf_next hingoing
  · apply hpipe finished.length
    · simp [← hchain]
    · simp [← hchain]
  · rw [← hchain] at hnodup
    have hdisjoint := (List.nodup_append.mp hnodup).2.2
    intro hmem
    exact hdisjoint _ hmem _ (by simp) rfl

/-- A run of the loop that returns has recorded a value for every block. -/
theorem OrderRun.map_block_of_returned {sorted : List BlockId}
    {executions : List (Execution δ)}
    {outcome : Except JsError (Result (List (ExecutionOrderItem δ)))}
    (h : OrderRun createBlockExecutor this initialInputValue true []
      (sorted.map fun block => ⟨block, some .NONE⟩) executions outcome)
    {order : List (ExecutionOrderItem δ)} (houtcome : outcome = .ok (.ok order)) :
    order.map ExecutionOrderItem.block = sorted := by
  have hreturned := (h.runFacts List.Forall₂.nil rfl).returned order houtcome
  rw [map_block_initial, List.nil_append] at hreturned
  rw [← hreturned.1]
  exact List.forall₂_eq_eq_eq ▸ List.forall₂_map_left_iff.mpr
    (List.forall₂_map_right_iff.mpr (hreturned.2.imp fun _ _ h => h.1))

/-- A chain is run like a plain chain exactly if every block passes its value on. -/
theorem OrderRun.isChainRun_iff {chain : List BlockId} (hnodup : chain.Nodup)
    (hpipe : ∀ i a b, chain[i]? = some a → chain[i + 1]? = some b → this.Pipe a b)
    (hingoing : this.AtMostOneIngoingPipe)
    (hexecutors : ∀ block ∈ chain, ∃ blockExecutor,
      createBlockExecutor block = .ok blockExecutor)
    {isFirstBlock : Bool} {finished remaining : List (ExecutionOrderItem δ)}
    {executions : List (Execution δ)}
    {outcome : Except JsError (Result (List (ExecutionOrderItem δ)))}
    (h : OrderRun createBlockExecutor this initialInputValue isFirstBlock finished remaining
      executions outcome) (input : IOTypeImplementation δ)
    (hchain : finished.map ExecutionOrderItem.block ++
      remaining.map ExecutionOrderItem.block = chain)
    (hinput : ∀ blockData rest, remaining = blockData :: rest →
      inputOf this initialInputValue isFirstBlock (finished ++ blockData :: rest)
        blockData.block = input)
    (hdone : remaining = [] → finished.getLast?.map ExecutionOrderItem.value =
      some (some input)) :
    (∃ value, valueOfLast outcome = some value ∧
      IsChainRun input (remaining.map ExecutionOrderItem.block) executions value) ↔
    ∀ execution ∈ executions, PassesOn chain execution := by
  induction h generalizing input with
  | done => simp [valueOfLast, IsChainRun, hdone rfl]
  | @noExecutor _ finished remaining blockData error herror =>
      obtain ⟨blockExecutor, hcreate⟩ := hexecutors blockData.block (by simp [← hchain])
      simp [hcreate] at herror
  | @failed _ finished remaining blockData execution details hblock hin hresult =>
      have hfirst : execution.inputValue = input := hin.trans (hinput _ _ rfl)
      constructor
      · intro _ other hother
        rw [List.mem_singleton.mp hother]
        exact ⟨by simp [hresult], by simp [hresult]⟩
      · intro _
        exact ⟨none, rfl, by simp [IsChainRun, hblock, hfirst, hresult]⟩
  | @notLeft _ finished remaining blockData execution value error hblock hin hresult hnode =>
      constructor
      · intro hvalue
        obtain ⟨_, hvalue, _⟩ := hvalue
        cases hvalue
      · intro hall
        have hon := (hall execution (by simp)).on_top value hresult
        rw [hblock] at hon
        exact (hnode hon).elim
  | @next _ finished remaining blockData execution value executions outcome hblock hin hresult
      hnode hrest ih =>
      have hfirst : execution.inputValue = input := hin.trans (hinput _ _ rfl)
      let item : ExecutionOrderItem δ := { blockData with value := value }
      have hchain' : (finished ++ [item]).map ExecutionOrderItem.block ++
          remaining.map ExecutionOrderItem.block = chain := by
        simpa [item] using hchain
      have hon : ∀ v, execution.result = .ok v →
          execution.currentNode = some (.block execution.block) := by
        intro _ _
        rw [hnode, hblock]
      cases value with
      | some output =>
          have hnext := ih output hchain' ?_ (by simp)
          · have hpasses : PassesOn chain execution := ⟨by simp [hresult], hon⟩
            simp only [List.map_cons, IsChainRun, hblock, hfirst, hresult, true_and,
              List.forall_mem_cons, hpasses]
            exact hnext
          · intro next rest hremaining
            subst hremaining
            exact inputOf_next_of_chain hnodup hpipe hingoing hchain
      | none =>
          have hend : ∀ v, IsChainRun input
              (blockData.block :: remaining.map ExecutionOrderItem.block)
              (execution :: executions) v ↔ executions = [] ∧ v = none := by
            intro v
            simp [IsChainRun, hblock, hfirst, hresult]
          cases remaining with
          | nil =>
              have hlast : chain.getLast? = some execution.block := by
                simp [← hchain, hblock]
              cases hrest
              have hpasses : PassesOn chain execution := ⟨fun _ => hlast, hon⟩
              simp [valueOfLast, IsChainRun, hblock, hfirst, hresult, hpasses]
          | cons next rest =>
              have hmore : executions ≠ [] :=
                hrest.executions_ne_nil (hexecutors next.block (by simp [← hchain]))
              constructor
              · intro hvalue
                obtain ⟨v, _, hrun⟩ := hvalue
                exact (hmore ((hend v).mp hrun).1).elim
              · intro hall
                have hlast := (hall execution (by simp)).null_last hresult
                rw [← hchain] at hnodup hlast
                rw [hblock] at hlast
                exact (getLast?_ne_of_nodup hnodup hlast).elim

end Loop

/-! ## The executor of a composite block -/

section Composite

variable {services : ExecutionServices}
variable {createBlockExecutor : BlockId → Except JsError (BlockExecutor δ)}
variable {blockType : CompositeBlockTypeDefinition} {body : List PropertyAssignment}

/-- The executions of the own level are as before. -/
def SameExecutions (s t : ExecutionContext δ) : Prop :=
  t.history.executions = s.history.executions

instance : Std.Refl (SameExecutions (δ := δ)) :=
  ⟨fun _ => rfl⟩

instance : IsTrans (ExecutionContext δ) SameExecutions :=
  ⟨fun _ _ _ h h' => h'.trans h⟩

theorem addVariablesToContext_moves (properties : List BlockTypeProperty) :
    Exec.Moves SameExecutions
      (addVariablesToContext services body properties : ExecM δ Unit) := by
  apply Exec.Moves.forEach
  intro property
  apply Exec.Moves.bind Exec.Reads.get.moves
  intro context
  apply Exec.Moves.bind (getValueOfProperty_reads services _ _ _ _).moves
  intro value s
  exact Exec.Post.modify rfl

theorem addVariablesToContext_ends (properties : List BlockTypeProperty) :
    Exec.Ends (addVariablesToContext services body properties : ExecM δ Unit) := by
  apply Exec.Ends.forEach
  intro property
  apply Exec.Ends.bind Exec.Ends.get
  intro context
  apply Exec.Ends.bind (getValueOfProperty_reads services _ _ _ _).ends
  exact fun value => Exec.Ends.modify _

theorem removeVariablesFromContext_returns (properties : List BlockTypeProperty)
    (context : ExecutionContext δ) :
    ∃ context', removeVariablesFromContext properties context = some (.ok (), context') ∧
      SameExecutions context context' := by
  induction properties generalizing context with
  | nil => exact ⟨context, rfl, rfl⟩
  | cons property properties ih =>
      obtain ⟨context', hrun, hsame⟩ := ih { context with
        evaluationContext := context.evaluationContext.deleteValueForReference property.name }
      exact ⟨context', hrun, hsame⟩

/-- What the composite block makes of the outcome of its inner blocks. -/
def compositeOutcome (ast : Ast) (blockType : CompositeBlockTypeDefinition)
    (pipeline : PipeDefinition) :
    Except JsError (Result (List (ExecutionOrderItem δ))) →
      Except JsError (Result (Option (IOTypeImplementation δ)))
  | .error error => .error error
  | .ok (.error _) => .ok (.ok none)
  | .ok (.ok order) =>
      match findBlockExecutionResult ast pipeline order with
      | none => .error (.assertionError
          s!"No execution result found for composite block {blockType.name}")
      | some item => .ok (.ok item.value)

theorem executeInnerBlocks_of_run {input : IOTypeImplementation δ}
    {context bound : ExecutionContext δ}
    (hadd : addVariablesToContext services body blockType.properties context =
      some (.ok (), bound))
    (outcome : Except JsError (Result (List (ExecutionOrderItem δ))))
    (after : ExecutionContext δ) :
    ∃ context', SameExecutions after context' ∧ ∀ fuel,
      executeBlocks createBlockExecutor fuel (.compositeBlockType blockType) (some input) bound =
        some (outcome, after) →
      executeInnerBlocks services createBlockExecutor fuel blockType body input context =
        some (outcome, context') := by
  cases outcome with
  | error error =>
      refine ⟨{ after with history.aborts := after.history.aborts + 1 }, rfl, ?_⟩
      intro fuel hrun
      apply Exec.tryCatch_of_error
      rw [Exec.bind_of_ok hadd]
      exact Exec.bind_of_error hrun
  | ok result =>
      obtain ⟨removed, hremove, hsame⟩ :=
        removeVariablesFromContext_returns blockType.properties after
      refine ⟨removed, hsame, ?_⟩
      intro fuel hrun
      apply Exec.tryCatch_of_ok
      rw [Exec.bind_of_ok hadd, Exec.bind_of_ok hrun, Exec.bind_of_ok hremove]
      rfl

theorem doExecuteComposite_of_inner {fuel : Nat} {pipeline : PipeDefinition}
    (hpipes : blockType.pipes = [pipeline]) {input : IOTypeImplementation δ}
    {context context' : ExecutionContext δ}
    {outcome : Except JsError (Result (List (ExecutionOrderItem δ)))}
    (hinner : executeInnerBlocks services createBlockExecutor fuel blockType body input
      context = some (outcome, context')) :
    doExecuteComposite services createBlockExecutor fuel blockType body input context =
      some (compositeOutcome services.ast blockType pipeline outcome, context') := by
  unfold doExecuteComposite
  cases outcome with
  | error error => exact Exec.bind_of_error hinner
  | ok result =>
      rw [Exec.bind_of_ok hinner]
      cases result with
      | error details => rfl
      | ok order =>
          have hpipeline : (getPipeline blockType : ExecM δ PipeDefinition) = pure pipeline := by
            simp [getPipeline, hpipes]
          simp only [hpipeline, pure_bind, compositeOutcome]
          cases findBlockExecutionResult services.ast pipeline order <;> rfl

/-- Without values for its properties, the composite block throws. -/
theorem doExecuteComposite_of_add_error {fuel : Nat} {input : IOTypeImplementation δ}
    {context after : ExecutionContext δ} {error : JsError}
    (hadd : addVariablesToContext services body blockType.properties context =
      some (.error error, after)) :
    doExecuteComposite services createBlockExecutor fuel blockType body input context =
      some (.error error, { after with history.aborts := after.history.aborts + 1 }) := by
  apply Exec.bind_of_error
  apply Exec.tryCatch_of_error
  exact Exec.bind_of_error hadd

/-- In a chain of blocks with different names, the last one is found by its name. -/
theorem findBlockExecutionResult_chain {ast : Ast} {chain : List BlockId}
    (hnames : (chain.map ast.blockName).Nodup) {order : List (ExecutionOrderItem δ)}
    (horder : order.map ExecutionOrderItem.block = chain) :
    findBlockExecutionResult ast ⟨chain.map some⟩ order = order.getLast? := by
  induction order using List.reverseRecOn with
  | nil => rfl
  | append_singleton front last _ =>
      subst horder
      have hlast : ((((front ++ [last]).map ExecutionOrderItem.block).map some).getLast?.join).map
          ast.blockName = some (ast.blockName last.block) := by
        simp
      have hfront : front.find? (fun result =>
          some (ast.blockName result.block) == some (ast.blockName last.block)) = none := by
        apply List.find?_eq_none.mpr
        intro item hitem heq
        simp only [List.map_append, List.map_map] at hnames
        have hdisjoint := (List.nodup_append.mp hnames).2.2
        apply hdisjoint (ast.blockName item.block) (by simpa using ⟨item, hitem, rfl⟩)
          (ast.blockName last.block) (by simp)
        simpa using heq
      rw [findBlockExecutionResult, hlast, List.find?_append, hfront]
      simp

theorem compositeOutcome_eq_ok_iff {ast : Ast} {chain : List BlockId}
    (hnames : (chain.map ast.blockName).Nodup)
    {outcome : Except JsError (Result (List (ExecutionOrderItem δ)))}
    (horder : ∀ order, outcome = .ok (.ok order) →
      order.map ExecutionOrderItem.block = chain)
    (value : Option (IOTypeImplementation δ)) :
    compositeOutcome ast blockType ⟨chain.map some⟩ outcome = .ok (.ok value) ↔
      valueOfLast outcome = some value := by
  cases outcome with
  | error error => simp [compositeOutcome, valueOfLast]
  | ok result =>
      cases result with
      | error details => simp [compositeOutcome, valueOfLast]
      | ok order =>
          have hfind := findBlockExecutionResult_chain hnames (horder order rfl)
          simp only [compositeOutcome, valueOfLast, hfind]
          cases order.getLast? <;> simp

/-- The first block of a chain gets the initial input. -/
theorem inputOf_first {chain : List BlockId} (hpipes : blockType.pipes = [⟨chain.map some⟩])
    (hnodup : chain.Nodup) (input : IOTypeImplementation δ)
    (executionOrder : List (ExecutionOrderItem δ)) {block : BlockId}
    (hfirst : chain[0]? = some block) :
    inputOf (.construct (.compositeBlockType blockType)) (some input) true executionOrder block =
      input := by
  have hcontainer : (PipesContainer.compositeBlockType blockType).pipes = [⟨chain.map some⟩] :=
    hpipes
  have hsource : IsSource (PipelineWrapper.construct (.compositeBlockType blockType)).Pipe
      block := by
    intro parent hparent
    have hidx := PipelineWrapper.idxOf_of_pipe_chain hcontainer hnodup hparent
    obtain ⟨hlt, rfl⟩ := List.getElem?_eq_some_iff.mp hfirst
    rw [hnodup.idxOf_getElem] at hidx
    omega
  rw [inputOf_of_source true executionOrder hsource]
  rfl

/-- With at least two blocks, the order of the loop is the chain. -/
theorem OrderRun.innerChainRun_iff {ast : Ast} {chain : List BlockId}
    (hpipes : blockType.pipes = [⟨chain.map some⟩])
    (hnames : (chain.map ast.blockName).Nodup)
    (hexecutors : ∀ block ∈ chain, ∃ blockExecutor,
      createBlockExecutor block = .ok blockExecutor)
    (htwo : 2 ≤ chain.length) {input : IOTypeImplementation δ}
    {executions : List (Execution δ)}
    {outcome : Except JsError (Result (List (ExecutionOrderItem δ)))}
    (horder : OrderRun createBlockExecutor (.construct (.compositeBlockType blockType))
      (some input) true [] (chain.map fun block => ⟨block, some .NONE⟩) executions outcome) :
    (∃ value, compositeOutcome ast blockType ⟨chain.map some⟩ outcome = .ok (.ok value) ∧
      IsChainRun input chain executions value) ↔
    ∀ execution ∈ executions, PassesOn chain execution := by
  have hnodup : chain.Nodup := List.Nodup.of_map _ hnames
  have hcontainer : (PipesContainer.compositeBlockType blockType).pipes = [⟨chain.map some⟩] :=
    hpipes
  have hchain := horder.isChainRun_iff hnodup
    (fun i a b ha hb => (PipelineWrapper.pipe_chain_iff hcontainer).mpr ⟨i, ha, hb⟩)
    (PipelineWrapper.atMostOneIngoingPipe_chain hcontainer hnodup) hexecutors input
    (by rw [map_block_initial]; rfl) ?_ ?_
  · simp only [compositeOutcome_eq_ok_iff hnames fun _ h => horder.map_block_of_returned h]
    rw [map_block_initial] at hchain
    exact hchain
  · intro blockData rest hremaining
    apply inputOf_first hpipes hnodup
    have hblocks := congrArg (List.map ExecutionOrderItem.block) hremaining
    rw [map_block_initial] at hblocks
    simp [hblocks]
  · intro hnone
    have hblocks := congrArg List.length hnone
    simp only [List.length_map, List.length_nil] at hblocks
    omega

/-- The inner blocks are run like a plain chain exactly if there are at least two of them and
all pass their values on. -/
theorem exists_innerChainRun {ast : Ast} {chain : List BlockId}
    (hpipes : blockType.pipes = [⟨chain.map some⟩])
    (hnames : (chain.map ast.blockName).Nodup)
    (hexecutors : ∀ block ∈ chain, ∃ blockExecutor,
      createBlockExecutor block = .ok blockExecutor)
    (hends : ExecutionsEnd createBlockExecutor) (input : IOTypeImplementation δ)
    (context : ExecutionContext δ) :
    ∃ context' executions outcome,
      (∀ fuel, 2 * chain.length < fuel →
        executeBlocks createBlockExecutor fuel (.compositeBlockType blockType) (some input)
          context = some (outcome, context')) ∧
      context'.history.executions = context.history.executions ++ executions ∧
      ((∃ value, compositeOutcome ast blockType ⟨chain.map some⟩ outcome = .ok (.ok value) ∧
          IsChainRun input chain executions value) ↔
        2 ≤ chain.length ∧ ∀ execution ∈ executions, PassesOn chain execution) := by
  have hnodup : chain.Nodup := List.Nodup.of_map _ hnames
  have hcontainer : (PipesContainer.compositeBlockType blockType).pipes = [⟨chain.map some⟩] :=
    hpipes
  have hwrap : PipelineWrapper.wrap (.compositeBlockType blockType) =
      .ok (.construct (.compositeBlockType blockType)) :=
    PipelineWrapper.wrap_eq_ok_iff.mpr ⟨PipelineWrapper.canBeWrapped_chain hcontainer, rfl⟩
  have hlength : (PipelineWrapper.construct (.compositeBlockType blockType)).allPipes.length ≤
      chain.length := PipelineWrapper.length_allPipes_chain hcontainer
  obtain ⟨sorted, outcome, context', executions, hrun, hexecutions, hsorted, horder⟩ :=
    exists_orderRun hends hwrap (PipelineWrapper.acyclic_chain hcontainer hnodup)
      (PipelineWrapper.atMostOneIngoingPipe_chain hcontainer hnodup) (some input) context
  refine ⟨context', executions, outcome, fun fuel hfuel => hrun fuel (by omega),
    hexecutions, ?_⟩
  by_cases htwo : 2 ≤ chain.length
  · obtain rfl : sorted = chain :=
      PipelineWrapper.sorting_chain hcontainer hnodup htwo hsorted
    rw [horder.innerChainRun_iff hpipes hnames hexecutors htwo, and_iff_right htwo]
  · -- without pipes, no block is executed and no result is found
    obtain rfl : sorted = [] := PipelineWrapper.sorting_eq_nil_chain hcontainer htwo hsorted
    cases horder
    simp [compositeOutcome, findBlockExecutionResult, htwo]

end Composite

/-- `composite blocktype Relay { input -> ... -> output; }` with the given inner blocks. -/
def relayType (chain : List BlockId) : CompositeBlockTypeDefinition where
  name := "Relay"
  inputs := [⟨"default", some "Table"⟩]
  outputs := [⟨"default", some "Table"⟩]
  properties := []
  blocks := chain
  pipes := [⟨chain.map some⟩]

def relayAst : Ast where
  valuetypes := []
  constraints := []
  transforms := []
  blocks := [⟨"first", some 0, []⟩, ⟨"second", some 0, []⟩]
  blockTypes := [.builtin
    ⟨"Step", [⟨"default", some "Table"⟩], [⟨"default", some "Table"⟩], []⟩]

/-- Every block outputs its input. -/
def relayExecutors (_ : BlockId) : Except JsError (BlockExecutor Unit) :=
  .ok fun input => pure (.ok (some input))

theorem relayExecutors_end : ExecutionsEnd relayExecutors := by
  intro block blockExecutor hcreate input
  cases hcreate
  exact Exec.Ends.pure _

end Jayvee
