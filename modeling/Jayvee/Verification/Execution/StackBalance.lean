import Jayvee.Verification.Execution.Discipline

/-! # The balance of the stack -/

namespace Jayvee

open Foundation ExecutionContext

variable {δ : Type}

/-! ## The balance of the stack -/

/-- The stack is as before if the run returns, and `exitNode` has always found the node that
is left. -/
structure Balanced (context : ExecutionContext δ) (returned : Bool)
    (context' : ExecutionContext δ) : Prop where
  stack_eq : returned = true → context'.stack = context.stack
  exits : context'.history.mismatches = context.history.mismatches

/-- No execution of a block has ended with an error, on whatever level. -/
def NoBlockFails (context context' : ExecutionContext δ) : Prop :=
  context'.history.failures = context.history.failures

theorem executeBlocks_balanced_iff (services : ExecutionServices)
    (blockExecutors : BlockExecutors δ) (nesting fuel : Nat) (pipesContainer : PipesContainer)
    (initialInputValue : Option (IOTypeImplementation δ)) (context context' : ExecutionContext δ)
    (outcome : Except JsError (Result (List (ExecutionOrderItem δ))))
    (hrun : executeBlocks (createBlockExecutor services blockExecutors nesting) fuel
      pipesContainer initialInputValue context = some (outcome, context')) :
    (NoBlockFails context context' → Balanced context outcome.isOk context') ∧
    (outcome.isOk → Balanced context outcome.isOk context' → NoBlockFails context context') := by
  obtain ⟨hstack, _⟩ := executeBlocks_disciplined
    (createBlockExecutor_disciplined services blockExecutors nesting) fuel pipesContainer
    initialInputValue _ _ _ hrun
  constructor
  · intro hnone
    exact ⟨fun hreturned => (hstack.balanced hreturned).mpr hnone, hstack.mismatches_eq hnone⟩
  · intro hreturned hbalanced
    exact (hstack.balanced hreturned).mp (hbalanced.stack_eq hreturned)

/-- `Step` is a builtin block type, and `Twice` is composed of the blocks 2 and 3, which are of
type `Step`. -/
def stepAst : Ast where
  valuetypes := []
  constraints := []
  transforms := []
  blocks := [⟨"first", some 0, []⟩, ⟨"twice", some 1, []⟩, ⟨"once", some 0, []⟩,
    ⟨"again", some 0, []⟩]
  blockTypes := [
    .builtin ⟨"Step", [⟨"default", some "Table"⟩], [⟨"default", some "Table"⟩], []⟩,
    .composite ⟨"Twice", [⟨"default", some "Table"⟩], [⟨"default", some "Table"⟩], [], [2, 3],
      [⟨[some 2, some 3]⟩]⟩]

/-- `first -> twice;` -/
def stepPipeline : PipesContainer :=
  .pipeline ⟨"Steps", [0, 1], [⟨[some 0, some 1]⟩], [], [], []⟩

/-- Blocks of type `Step` output a value, but the execution with the number `failing` returns
an error. -/
def stepExecutors (failing : Nat) : BlockExecutors Unit :=
  [("Step", fun clock _ => .return <|
    if clock = failing then .error ⟨"failed", { node := .block 2 }⟩ else .ok (some (.value ())))]

def stepContext : ExecutionContext Unit :=
  .construct (.construct ⟨fun _ => none, none⟩)

theorem executeBlocks_balanced_stepPipeline :
    ∃ outcome context',
      executeBlocks (createBlockExecutor (sampleServices stepAst) (stepExecutors 0) 4) 4
        stepPipeline none stepContext = some (outcome, context') ∧
      (NoBlockFails stepContext context' → Balanced stepContext outcome.isOk context') ∧
      (outcome.isOk → Balanced stepContext outcome.isOk context' →
        NoBlockFails stepContext context') :=
  ⟨_, _, rfl, executeBlocks_balanced_iff (sampleServices stepAst) (stepExecutors 0) 4 4
    stepPipeline none stepContext _ _ rfl⟩

/-- After `once` has failed inside of `twice`, it is popped in place of `twice`. -/
theorem not_balanced_stepPipeline :
    ¬ ∀ (services : ExecutionServices) (blockExecutors : BlockExecutors Unit)
      (nesting fuel : Nat) (pipesContainer : PipesContainer)
      (initialInputValue : Option (IOTypeImplementation Unit))
      (context context' : ExecutionContext Unit)
      (outcome : Except JsError (Result (List (ExecutionOrderItem Unit)))),
      executeBlocks (createBlockExecutor services blockExecutors nesting) fuel pipesContainer
        initialInputValue context = some (outcome, context') →
      Balanced context outcome.isOk context' := by
  intro h
  have hbalanced := h (sampleServices stepAst) (stepExecutors 3) 4 4 stepPipeline none
    stepContext _ _ rfl
  have hmismatches : 1 = 0 := hbalanced.exits
  omega

/-- An error on the first level only stays on the stack. -/
example : (executeBlocks (createBlockExecutor (sampleServices stepAst) (stepExecutors 1) 4) 4
    stepPipeline none stepContext).map (fun out => (out.1.isOk, out.2.stack)) =
      some (true, [.block 0]) := rfl

end Jayvee
