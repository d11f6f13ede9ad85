import Jayvee.Verification.Execution.CompositeChain
import Jayvee.Verification.Execution.Effect

/-! # Values that are passed along a chain

The loop over a chain of blocks, each of which makes a value of the value before and leaves the
variables as they are. -/

namespace Jayvee

open Foundation ExecutionContext

variable {δ : Type}

/-- Wherever it is executed with the variables, the block makes `output` of `input`. -/
def PassesValue (createBlockExecutor : BlockId → Except JsError (BlockExecutor δ))
    (evaluationContext : EvaluationContext) (block : BlockId)
    (input output : IOTypeImplementation δ) : Prop :=
  ∃ blockExecutor, createBlockExecutor block = .ok blockExecutor ∧
    ∀ context : ExecutionContext δ, context.evaluationContext = evaluationContext →
      context.stack.getLast? = some (.block block) →
      ∃ after, blockExecutor input context = some (.ok (.ok (some output)), after) ∧
        after.stack = context.stack ∧ after.evaluationContext = evaluationContext

/-- The values that the blocks of a chain make, one of the other. -/
inductive ChainValues (createBlockExecutor : BlockId → Except JsError (BlockExecutor δ))
    (evaluationContext : EvaluationContext) :
    (input : IOTypeImplementation δ) → (chain : List BlockId) →
      (values : List (IOTypeImplementation δ)) → Prop where
  | nil (input : IOTypeImplementation δ) :
      ChainValues createBlockExecutor evaluationContext input [] []
  | cons {input output : IOTypeImplementation δ} {block : BlockId} {chain : List BlockId}
      {values : List (IOTypeImplementation δ)}
      (hblock : PassesValue createBlockExecutor evaluationContext block input output)
      (hchain : ChainValues createBlockExecutor evaluationContext output chain values) :
      ChainValues createBlockExecutor evaluationContext input (block :: chain) (output :: values)

def chainOrder (chain : List BlockId) (values : List (IOTypeImplementation δ)) :
    List (ExecutionOrderItem δ) :=
  List.zipWith (fun block value => ⟨block, some value⟩) chain values

section Run

variable {createBlockExecutor : BlockId → Except JsError (BlockExecutor δ)}
  {evaluationContext : EvaluationContext} {initialInputValue : Option (IOTypeImplementation δ)}
  {context : ExecutionContext δ} {chain : List BlockId} {input : IOTypeImplementation δ}
  {values : List (IOTypeImplementation δ)}

theorem PassesValue.executeBlock {block : BlockId} {output : IOTypeImplementation δ}
    (h : PassesValue createBlockExecutor evaluationContext block input output)
    (hcontext : context.evaluationContext = evaluationContext)
    (hstack : context.stack.getLast? = some (.block block)) :
    ∃ after, Jayvee.executeBlock createBlockExecutor (some input) block context =
        some (.ok (.ok (some output)), after) ∧
      after.stack = context.stack ∧ after.evaluationContext = evaluationContext := by
  obtain ⟨blockExecutor, hcreate, hpasses⟩ := h
  obtain ⟨after, hrun, hsame, hafter⟩ := hpasses (executionStarted context) hcontext hstack
  refine ⟨executionRecorded context after block input (.ok (some output)), ?_, hsame, hafter⟩
  rw [executeBlock_of_ok hcreate, hrun]
  rfl

theorem ChainValues.values_chainOrder
    (h : ChainValues createBlockExecutor evaluationContext input chain values) :
    (chainOrder chain values).map ExecutionOrderItem.value = values.map some := by
  induction h with
  | nil => rfl
  | cons hblock hchain ih =>
      rw [chainOrder, List.zipWith_cons_cons, List.map_cons, List.map_cons]
      exact congrArg _ ih

/-- The induction is on the values of the blocks that remain. -/
theorem ChainValues.executeOrder {this : PipelineWrapper} (hnodup : chain.Nodup)
    (hpipe : ∀ i a b, chain[i]? = some a → chain[i + 1]? = some b → this.Pipe a b)
    (hingoing : this.AtMostOneIngoingPipe) {isFirstBlock : Bool}
    {finished : List (ExecutionOrderItem δ)} {remaining : List BlockId}
    (h : ChainValues createBlockExecutor evaluationContext input remaining values)
    (hchain : finished.map ExecutionOrderItem.block ++ remaining = chain)
    (hinput : ∀ block blocks, remaining = block :: blocks →
      inputOf this initialInputValue isFirstBlock
        (finished ++ remaining.map fun block => ⟨block, some .NONE⟩) block = input)
    (hcontext : context.evaluationContext = evaluationContext) :
    ∃ after, Jayvee.executeOrder createBlockExecutor this initialInputValue isFirstBlock finished
        (remaining.map fun block => ⟨block, some .NONE⟩) context =
          some (.ok (.ok (finished ++ chainOrder remaining values)), after) ∧
      after.stack = context.stack ∧ after.evaluationContext = evaluationContext := by
  induction h generalizing finished isFirstBlock context with
  | nil input => exact ⟨context, by simp [Jayvee.executeOrder, chainOrder], rfl, hcontext⟩
  | @cons input output block remaining values hblock _ ih =>
      have hentered : (entered context (.block block)).stack.getLast? = some (.block block) := by
        simp [entered]
      obtain ⟨executed, hexecuted, hstack, henv⟩ : ∃ executed,
          Jayvee.executeBlock createBlockExecutor (some input) block
              (entered context (.block block)) = some (.ok (.ok (some output)), executed) ∧
            executed.stack = (entered context (.block block)).stack ∧
            executed.evaluationContext = evaluationContext :=
        hblock.executeBlock (by exact hcontext) hentered
      have hexit : exitNode (.block block) executed =
          some (.ok (), { executed with stack := context.stack }) := by
        rw [exitNode, Exec.bind_of_ok (popNode_apply _), hstack]
        simp [entered]
      let item : ExecutionOrderItem δ := ⟨block, some output⟩
      have hnext : ∀ next blocks, remaining = next :: blocks →
          inputOf this initialInputValue false
            (finished ++ [item] ++ remaining.map fun block => ⟨block, some .NONE⟩) next =
              output := by
        rintro next blocks rfl
        have hblocks : finished.map ExecutionOrderItem.block ++
            (item :: ⟨next, some .NONE⟩ :: blocks.map fun block => ⟨block, some .NONE⟩).map
              ExecutionOrderItem.block = chain := by
          rw [List.map_cons, List.map_cons, map_block_initial]
          exact hchain
        exact inputOf_next_of_chain hnodup hpipe hingoing hblocks
      obtain ⟨after, hafter, hafterStack, hafterEnv⟩ : ∃ after,
          Jayvee.executeOrder createBlockExecutor this initialInputValue false
              (finished ++ [item]) (remaining.map fun block => ⟨block, some .NONE⟩)
              { executed with stack := context.stack } =
            some (.ok (.ok (finished ++ [item] ++ chainOrder remaining values)), after) ∧
          after.stack = context.stack ∧ after.evaluationContext = evaluationContext :=
        ih (by simpa [item] using hchain) hnext henv
      refine ⟨after, ?_, hafterStack, hafterEnv⟩
      have hfirst := hinput block remaining rfl
      rw [List.map_cons] at hfirst
      change useExternalInputValue isFirstBlock initialInputValue
        (getInputValue this _ block) = input at hfirst
      rw [List.map_cons, Jayvee.executeOrder]
      dsimp only
      rw [hfirst, Exec.bind_of_ok (enterNode_eq _ _), Exec.bind_of_ok hexecuted]
      dsimp only
      rw [Exec.bind_of_ok hexit, hafter]
      simp [chainOrder, item]

/-- A pipeline that is a chain of such blocks records their values. -/
theorem ChainValues.executeBlocks {pipesContainer : PipesContainer}
    (hpipes : pipesContainer.pipes = [⟨chain.map some⟩]) (hnodup : chain.Nodup)
    (htwo : 2 ≤ chain.length)
    (h : ChainValues createBlockExecutor evaluationContext (initialInputValue.getD .NONE) chain
      values)
    (hcontext : context.evaluationContext = evaluationContext) :
    ∃ after, (∀ fuel, 2 * chain.length < fuel →
        Jayvee.executeBlocks createBlockExecutor fuel pipesContainer initialInputValue context =
          some (.ok (.ok (chainOrder chain values)), after)) ∧
      after.stack = context.stack ∧ after.evaluationContext = evaluationContext := by
  have hwrap : PipelineWrapper.wrap pipesContainer = .ok (.construct pipesContainer) :=
    PipelineWrapper.wrap_eq_ok_iff.mpr ⟨PipelineWrapper.canBeWrapped_chain hpipes, rfl⟩
  have hingoing := PipelineWrapper.atMostOneIngoingPipe_chain hpipes hnodup
  have hlength := PipelineWrapper.length_allPipes_chain hpipes
  obtain ⟨_, hsorting, hacyclic, _⟩ :=
    PipelineWrapper.getBlocksInTopologicalSorting_spec hingoing.noEqualPipes
  obtain ⟨sorted, rfl, hsorted⟩ := hacyclic (PipelineWrapper.acyclic_chain hpipes hnodup)
  obtain rfl := PipelineWrapper.sorting_chain hpipes hnodup htwo hsorted
  have hfirst : ∀ block blocks, sorted = block :: blocks →
      inputOf (.construct pipesContainer) initialInputValue true
        ([] ++ sorted.map fun block => ⟨block, some .NONE⟩) block =
          initialInputValue.getD .NONE := by
    rintro block blocks rfl
    refine (inputOf_of_source true _ fun parent hparent => ?_).trans (if_pos rfl)
    have hindex := PipelineWrapper.idxOf_of_pipe_chain hpipes hnodup hparent
    rw [List.idxOf_cons_self] at hindex
    cases hindex
  obtain ⟨after, hafter, hstack, henv⟩ := h.executeOrder hnodup
    (fun i a b ha hb => (PipelineWrapper.pipe_chain_iff hpipes).mpr ⟨i, ha, hb⟩) hingoing
    (List.nil_append _) hfirst hcontext
  refine ⟨after, fun fuel hfuel => ?_, hstack, henv⟩
  rw [executeBlocks_of_sorted hwrap (hsorting fuel (by omega)), hafter]
  rfl

end Run

end Jayvee
