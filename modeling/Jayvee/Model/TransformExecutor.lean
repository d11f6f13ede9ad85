import Jayvee.Model.ConstraintExecutor

/-! # Transforms -/

namespace Jayvee

open Foundation ExecutionContext

variable {δ : Type}

structure TableColumn where
  values : List Value
  valueType : ValueType

structure PortDetails where
  port : TransformPortDefinition
  valueType : ValueType

structure TransformResult where
  resultingColumn : TableColumn
  rowsToDelete : List Nat

/-- Counts a thrown error that leaves `m`, which binds variables and removes them again. -/
def recordAbort {α : Type} (m : ExecM δ α) : ExecM δ α :=
  Exec.tryCatch m fun error => do
    Exec.modify fun context => { context with history.aborts := context.history.aborts + 1 }
    Exec.throw error

namespace TransformExecutor

/-! ## Ports and output assignments -/

def getPortDetail {σ : Type} (ast : Ast) (port : TransformPortDefinition) :
    Exec σ JsError PortDetails := do
  match ← Exec.ofExcept (ValueType.wrap ast port.valueType) with
  | none => Exec.throw (.assertionError "The expression evaluated to a falsy value")
  | some valueType => return ⟨port, valueType⟩

def getPortDetails {σ : Type} (ast : Ast) (transform : TransformDefinition) (kind : PortKind) :
    Exec σ JsError (List PortDetails) :=
  (transform.ports.filter fun port => port.kind == kind).mapM (getPortDetail ast)

def getInputDetails {σ : Type} (ast : Ast) (transform : TransformDefinition) :
    Exec σ JsError (List PortDetails) :=
  getPortDetails ast transform .from

def getOutputDetails {σ : Type} (ast : Ast) (transform : TransformDefinition) :
    Exec σ JsError PortDetails := do
  match ← getPortDetails ast transform .to with
  | [outputDetails] => return outputDetails
  | _ => Exec.throw (.assertionError "The expression evaluated to a falsy value")

def getOutputAssignment {σ : Type} (transform : TransformDefinition) :
    Exec σ JsError TransformOutputAssignment :=
  match transform.outputAssignments with
  | [outputAssignment] => return outputAssignment
  | _ => Exec.throw (.assertionError "The expression evaluated to a falsy value")

/-! ## Variables of a row -/

def addVariableToContext (columns : String → Option TableColumn) (rowIndex : Nat)
    (inputDetails : PortDetails) : ExecM δ Unit :=
  let variableName := inputDetails.port.name
  match columns variableName with
  | none => Exec.throw (.assertionError "The expression evaluated to a falsy value")
  | some column =>
      match column.values[rowIndex]? with
      | none => Exec.throw (.assertionError "The expression evaluated to a falsy value")
      | some variableValue => setValueForReference variableName variableValue

def addVariablesToContext (inputDetailsList : List PortDetails)
    (columns : String → Option TableColumn) (rowIndex : Nat) : ExecM δ Unit :=
  Exec.forEach inputDetailsList (addVariableToContext columns rowIndex)

def removeVariablesFromContext (inputDetailsList : List PortDetails) : ExecM δ Unit :=
  Exec.forEach inputDetailsList fun inputDetails =>
    deleteValueForReference inputDetails.port.name

/-! ## Rows -/

variable (services : ExecutionServices)

/-- The value of the output assignment; an error counts as no value. -/
def evaluateOutput (transform : TransformDefinition) : ExecM δ (Option Value) :=
  Exec.tryCatch
    (do
      let outputAssignment ← getOutputAssignment transform
      let context ← Exec.get
      evaluateExpressionSilently services.runtime context.evaluationContext
        outputAssignment.expression)
    fun _ => return none

/-- Only values that can be printed may be invalid. -/
def assertPrintable : Value → ExecM δ Unit
  | .string _ | .boolean _ | .number _ => return
  | _ => Exec.throw (.assertionError "The expression evaluated to a falsy value")

/-- The value for one row; `none` if the row is dropped. -/
def evaluateRow (transform : TransformDefinition) (outputDetails : PortDetails) :
    ExecM δ (Option Value) := do
  match ← evaluateOutput services transform with
  | none => return none
  | some newValue => do
      if ← isValidValueRepresentation services newValue outputDetails.valueType then
        return some newValue
      assertPrintable newValue
      return none

def executeRow (transform : TransformDefinition) (columns : String → Option TableColumn)
    (inputDetailsList : List PortDetails) (outputDetails : PortDetails) (rowIndex : Nat) :
    ExecM δ (Option Value) := recordAbort do
  addVariablesToContext inputDetailsList columns rowIndex
  let newValue ← evaluateRow services transform outputDetails
  removeVariablesFromContext inputDetailsList
  return newValue

/-- The loop over the rows from `rowIndex` on. -/
def executeRows (transform : TransformDefinition) (columns : String → Option TableColumn)
    (inputDetailsList : List PortDetails) (outputDetails : PortDetails) :
    (remainingRows : Nat) → (rowIndex : Nat) → (result : TransformResult) →
      ExecM δ TransformResult
  | 0, _, result => return result
  | remainingRows + 1, rowIndex, result => do
      match ← executeRow services transform columns inputDetailsList outputDetails rowIndex with
      | none =>
          executeRows transform columns inputDetailsList outputDetails remainingRows
            (rowIndex + 1) { result with rowsToDelete := result.rowsToDelete ++ [rowIndex] }
      | some newValue =>
          executeRows transform columns inputDetailsList outputDetails remainingRows
            (rowIndex + 1)
            { result with resultingColumn.values := result.resultingColumn.values ++ [newValue] }

/-! ## Execution -/

def doExecuteTransform (transform : TransformDefinition)
    (columns : String → Option TableColumn) (numberOfRows : Nat) : ExecM δ TransformResult := do
  let inputDetailsList ← getInputDetails services.ast transform
  let outputDetails ← getOutputDetails services.ast transform
  executeRows services transform columns inputDetailsList outputDetails numberOfRows 0
    ⟨⟨[], outputDetails.valueType⟩, []⟩

def executeTransform (transform : TransformId) (columns : String → Option TableColumn)
    (numberOfRows : Nat) : ExecM δ TransformResult :=
  match services.ast.transforms[transform]? with
  | none => Exec.throw (.assertionError "The expression evaluated to a falsy value")
  | some definition => do
      enterNode (.transform transform)
      let result ← doExecuteTransform services definition columns numberOfRows
      exitNode (.transform transform)
      return result

end TransformExecutor

end Jayvee
