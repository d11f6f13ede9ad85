import Jayvee.Model.PipelineWrapper
import Jayvee.Model.TransformExecutor

/-! # Execution of blocks -/

namespace Jayvee

open Foundation ExecutionContext

variable {δ : Type}

/-! ## Block executors -/

/-- `execute` of a block executor. -/
abbrev BlockExecutor (δ : Type) : Type :=
  IOTypeImplementation δ → ExecM δ (Result (Option (IOTypeImplementation δ)))

/-- With debugging enabled, only blocks have results. -/
def logBlockResult (services : ExecutionServices)
    (result : Option (IOTypeImplementation δ)) : ExecM δ Unit := do
  if services.isDebugMode && result.isSome then
    match ← getCurrentNode with
    | some (.block _) => return
    | _ => Exec.throw (.assertionError "The expression evaluated to a falsy value")

/-- `AbstractBlockExecutor.execute`. -/
def executeWith (services : ExecutionServices) (doExecute : BlockExecutor δ) :
    BlockExecutor δ := fun input => do
  let executionResult ← doExecute input
  match executionResult with
  | .ok result => do
      logBlockResult services result
      return executionResult
  | .error _ => return executionResult

/-! ## Builtin block executors -/

/-- What the `doExecute` of a builtin block type may do: it computes, and uses the
execution context in the listed ways only. -/
inductive BuiltinProgram (δ : Type) where
  | return (result : Result (Option (IOTypeImplementation δ)))
  | throw (error : JsError)
  | getPropertyValue (propertyName : String) (valueType : ValueType)
      (continuation : Value → BuiltinProgram δ)
  | getOrFailProperty (propertyName : String)
      (continuation : PropertyAssignment → BuiltinProgram δ)
  | isValidValueRepresentation (value : Value) (valueType : ValueType)
      (continuation : Bool → BuiltinProgram δ)
  | executeTransform (transform : TransformId) (columns : String → Option TableColumn)
      (numberOfRows : Nat) (continuation : TransformResult → BuiltinProgram δ)

namespace BuiltinProgram

def run (services : ExecutionServices) :
    BuiltinProgram δ → ExecM δ (Result (Option (IOTypeImplementation δ)))
  | .return result => return result
  | .throw error => Exec.throw error
  | .getPropertyValue propertyName valueType continuation => do
      let value ← ExecutionContext.getPropertyValue services propertyName valueType
      (continuation value).run services
  | .getOrFailProperty propertyName continuation => do
      let property ← ExecutionContext.getOrFailProperty services propertyName
      (continuation property).run services
  | .isValidValueRepresentation value valueType continuation => do
      let isValid ← Jayvee.isValidValueRepresentation services value valueType
      (continuation isValid).run services
  | .executeTransform transform columns numberOfRows continuation => do
      let result ← TransformExecutor.executeTransform services transform columns numberOfRows
      (continuation result).run services

end BuiltinProgram

/-- A builtin executor. It may behave differently each time, as the outside world changes. -/
abbrev BuiltinBlockExecutor (δ : Type) : Type :=
  (clock : Nat) → (input : IOTypeImplementation δ) → BuiltinProgram δ

def BuiltinBlockExecutor.doExecute (services : ExecutionServices)
    (blockExecutor : BuiltinBlockExecutor δ) : BlockExecutor δ := fun input => do
  let context ← Exec.get
  (blockExecutor context.history.clock input).run services

/-! ## Single blocks -/

/-- Runs an executor and records the outcome. Executions inside are on a level of their
own. -/
def recordExecution (block : BlockId) (inputValue : IOTypeImplementation δ)
    (execute : ExecM δ (Result (Option (IOTypeImplementation δ)))) :
    ExecM δ (Result (Option (IOTypeImplementation δ))) := do
  let before ← Exec.get
  Exec.modify fun context =>
    { context with
      history.executions := []
      history.clock := context.history.clock + 1 }
  let result ← execute
  Exec.modify fun context =>
    { context with
      history.executions := before.history.executions ++
        [⟨block, inputValue, result, context.stack.getLast?⟩]
      history.failures := context.history.failures + if result matches .error _ then 1 else 0 }
  return result

/-- The error that is returned in place of a thrown one. -/
def unexpectedErrorDetails (block : BlockId) (unexpectedError : JsError) :
    ExecutionErrorDetails where
  message := s!"An unknown error occurred: {unexpectedError.message}"
  diagnostic := { node := .block block, property := some "name" }

def executeBlock (createBlockExecutor : BlockId → Except JsError (BlockExecutor δ))
    (inputValue : Option (IOTypeImplementation δ)) (block : BlockId) :
    ExecM δ (Result (Option (IOTypeImplementation δ))) := do
  match inputValue with
  | none => return .ok none
  | some inputValue => do
      let blockExecutor ← Exec.ofExcept (createBlockExecutor block)
      recordExecution block inputValue <|
        Exec.tryCatch (blockExecutor inputValue) fun unexpectedError =>
          return .error (unexpectedErrorDetails block unexpectedError)

/-! ## Pipelines -/

structure ExecutionOrderItem (δ : Type) where
  block : BlockId
  value : Option (IOTypeImplementation δ)

/-- The value of the parent, where neither `undefined` nor `null` counts as one. -/
def getInputValue (pipelineWrapper : PipelineWrapper)
    (executionOrder : List (ExecutionOrderItem δ)) (block : BlockId) : IOTypeImplementation δ :=
  let parentData := (pipelineWrapper.getParentBlocks block).map fun parent =>
    executionOrder.find? fun blockData => blockData.block == parent
  (parentData.head?.join.bind ExecutionOrderItem.value).getD .NONE

/-- An initial input replaces the missing input of the first block. -/
def useExternalInputValue (isFirstBlock : Bool)
    (initialInputValue : Option (IOTypeImplementation δ)) :
    (inputValue : IOTypeImplementation δ) → IOTypeImplementation δ
  | .NONE => if isFirstBlock then initialInputValue.getD .NONE else .NONE
  | inputValue => inputValue

section ExecuteBlocks

variable (createBlockExecutor : BlockId → Except JsError (BlockExecutor δ))

/-- The loop over the sorted blocks. -/
def executeOrder (pipelineWrapper : PipelineWrapper)
    (initialInputValue : Option (IOTypeImplementation δ)) (isFirstBlock : Bool) :
    (finished remaining : List (ExecutionOrderItem δ)) →
      ExecM δ (Result (List (ExecutionOrderItem δ)))
  | finished, [] => return .ok finished
  | finished, blockData :: remaining => do
      let block := blockData.block
      let inputValue := useExternalInputValue isFirstBlock initialInputValue
        (getInputValue pipelineWrapper (finished ++ blockData :: remaining) block)
      enterNode (.block block)
      match ← executeBlock createBlockExecutor (some inputValue) block with
      | .error details => return .error details
      | .ok blockResultData => do
          exitNode (.block block)
          executeOrder pipelineWrapper initialInputValue false
            (finished ++ [{ blockData with value := blockResultData }]) remaining

/-- `fuel` bounds the rounds of the topological sorting. -/
def executeBlocks (fuel : Nat) (pipesContainer : PipesContainer)
    (initialInputValue : Option (IOTypeImplementation δ)) :
    ExecM δ (Result (List (ExecutionOrderItem δ))) := do
  let pipelineWrapper ← Exec.ofExcept (PipelineWrapper.wrap pipesContainer)
  match pipelineWrapper.getBlocksInTopologicalSorting fuel with
  | none => Exec.diverge
  | some sorted => do
      let sortedBlocks ← Exec.ofExcept sorted
      executeOrder createBlockExecutor pipelineWrapper initialInputValue true []
        (sortedBlocks.map fun block => ⟨block, some .NONE⟩)

end ExecuteBlocks

end Jayvee
