import Jayvee.Model.BlockTypeWrapper

/-! # The execution context -/

namespace Jayvee

open Foundation

/-! ## What blocks exchange -/

/-- A value that flows through a pipe: the singleton `NONE` or a file, sheet, table, ... -/
inductive IOTypeImplementation (δ : Type) where
  | NONE
  | value (data : δ)
  deriving DecidableEq, Repr

structure ExecutionErrorDetails where
  message : String
  diagnostic : DiagnosticInfo

/-- A returned result, in contrast to a thrown error. -/
abbrev Result (α : Type) : Type :=
  Except ExecutionErrorDetails α

/-! ## The store -/

inductive StackNode where
  | block (block : BlockId)
  | constraint (constraint : ConstraintId)
  | transform (transform : TransformId)
  deriving DecidableEq, Repr

/-- One call of a block executor by `executeBlock`. The result `none` is `null`;
`currentNode` is the top of the stack when the call was over. -/
structure Execution (δ : Type) where
  block : BlockId
  inputValue : IOTypeImplementation δ
  result : Result (Option (IOTypeImplementation δ))
  currentNode : Option StackNode

/-- What statements about runs refer to. The code keeps no such record. -/
structure History (δ : Type) where
  /-- The executions that the running `executeBlocks` has made itself. -/
  executions : List (Execution δ)
  /-- The number of executions so far, of all levels. -/
  clock : Nat
  /-- The number of executions so far whose result was an error. -/
  failures : Nat
  /-- The number of times that the assertion of `exitNode` has failed. -/
  mismatches : Nat
  /-- The names that were given a value. -/
  boundNames : List String
  /-- The number of times that a thrown error has skipped the removal of variables. -/
  aborts : Nat

/-- The part of `ExecutionContext` that changes during a run. -/
structure ExecutionContext (δ : Type) where
  stack : List StackNode
  evaluationContext : EvaluationContext
  history : History δ

abbrev ExecM (δ : Type) (α : Type) : Type :=
  Exec (ExecutionContext δ) JsError α

/-- The part of `ExecutionContext` that stays the same during a run. -/
structure ExecutionServices where
  ast : Ast
  runtime : JsRuntime
  isDebugMode : Bool

def sampleServices (ast : Ast) : ExecutionServices :=
  ⟨ast, sampleRuntime, false⟩

namespace ExecutionContext

variable {δ : Type}

/-- The constructor: nothing has happened yet. -/
def construct (evaluationContext : EvaluationContext) : ExecutionContext δ where
  stack := []
  evaluationContext := evaluationContext
  history := ⟨[], 0, 0, 0, [], 0⟩

/-! ## Entering and leaving nodes -/

def enterNode (node : StackNode) : ExecM δ Unit :=
  Exec.modify fun context => { context with stack := context.stack ++ [node] }

def recordMismatch : ExecM δ Unit :=
  Exec.modify fun context =>
    { context with history.mismatches := context.history.mismatches + 1 }

def popNode : ExecM δ (Option StackNode) := do
  let context ← Exec.get
  Exec.modify fun context => { context with stack := context.stack.dropLast }
  return context.stack.getLast?

def exitNode (node : StackNode) : ExecM δ Unit := do
  let poppedNode ← popNode
  if poppedNode = some node then
    return
  recordMismatch
  Exec.throw (.assertionError "The expression evaluated to a falsy value")

/-- `none` is the pipeline. -/
def getCurrentNode : ExecM δ (Option StackNode) := do
  let context ← Exec.get
  return context.stack.getLast?

/-! ## Variables -/

def setValueForReference (refText : String) (value : Value) : ExecM δ Unit :=
  Exec.modify fun context =>
    { context with
      evaluationContext := context.evaluationContext.setValueForReference refText value
      history.boundNames := context.history.boundNames ++ [refText] }

def deleteValueForReference (refText : String) : ExecM δ Unit :=
  Exec.modify fun context =>
    { context with
      evaluationContext := context.evaluationContext.deleteValueForReference refText }

def setValueForValueKeyword (value : Value) : ExecM δ Unit :=
  Exec.modify fun context =>
    { context with evaluationContext := context.evaluationContext.setValueForValueKeyword value }

def deleteValueForValueKeyword : ExecM δ Unit :=
  Exec.modify fun context =>
    { context with evaluationContext := context.evaluationContext.deleteValueForValueKeyword }

/-! ## Properties -/

/-- The properties in the body of a node; `none` where it is not a property body. -/
def propertyBody (ast : Ast) : Option StackNode → Option (List PropertyAssignment)
  | none => none
  | some (.block block) => ast.blocks[block]?.map BlockDefinition.body
  | some (.constraint constraint) =>
      match ast.constraints[constraint]? with
      | some (.typed _ _ body) => some body
      | _ => none
  | some (.transform _) => none

def getProperty (services : ExecutionServices) (propertyName : String) :
    ExecM δ (Option PropertyAssignment) := do
  let currentNode ← getCurrentNode
  return (propertyBody services.ast currentNode).bind fun properties =>
    properties.find? fun property => property.name == propertyName

def getOrFailProperty (services : ExecutionServices) (propertyName : String) :
    ExecM δ PropertyAssignment := do
  match ← getProperty services propertyName with
  | some property => return property
  | none => Exec.throw (.assertionError "The expression evaluated to a falsy value")

/-- The property specifications of the wrapper of the current node. -/
def getWrapperOfCurrentNode (services : ExecutionServices) :
    ExecM δ (List PropertySpecification) := do
  match ← getCurrentNode with
  | some (.block block) => do
      let wrapper ←
        BlockTypeWrapper.wrap services.ast services.runtime (services.ast.blockTypeOf block)
      return wrapper.properties
  | some (.constraint constraint) =>
      match services.ast.constraints[constraint]? with
      | some (.typed _ type _) => do
          let wrapper ← ConstraintTypeWrapper.wrap services.ast services.runtime type
          return wrapper.properties
      | _ => Exec.throw (.assertionError "The expression evaluated to a falsy value")
  | _ => Exec.throw (.assertionError "The expression evaluated to a falsy value")

def getDefaultPropertyValue (services : ExecutionServices) (propertyName : String)
    (valueType : ValueType) : ExecM δ Value := do
  let properties ← getWrapperOfCurrentNode services
  match (getPropertySpecification properties propertyName).bind
      PropertySpecification.defaultValue with
  | none => Exec.throw (.assertionError "The expression evaluated to a falsy value")
  | some defaultValue => do
      if ← Exec.ofExcept (valueType.isInternalValueRepresentation services.ast defaultValue) then
        return defaultValue
      Exec.throw (.assertionError "The expression evaluated to a falsy value")

def getPropertyValue (services : ExecutionServices) (propertyName : String)
    (valueType : ValueType) : ExecM δ Value := do
  match ← getProperty services propertyName with
  | none => getDefaultPropertyValue services propertyName valueType
  | some property => do
      let context ← Exec.get
      match ← evaluatePropertyValue services.ast services.runtime property
          context.evaluationContext valueType with
      | some propertyValue => return propertyValue
      | none => Exec.throw (.assertionError "The expression evaluated to a falsy value")

end ExecutionContext

end Jayvee
