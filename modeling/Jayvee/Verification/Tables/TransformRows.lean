import Jayvee.Verification.Tables.Transformer

/-! # What a transform computes from the rows of a table -/

namespace Jayvee

open Foundation ExecutionContext

variable {δ : Type}

namespace TransformExecutor

/-! ## Values of a row -/

/-- The value of the output assignment, if it can be evaluated. -/
def outputValue (runtime : JsRuntime) (transform : TransformDefinition)
    (evaluationContext : EvaluationContext) : Option Value :=
  match transform.outputAssignments with
  | [outputAssignment] =>
      match evaluateExpression runtime evaluationContext .lazy outputAssignment.expression [] with
      | some (.ok value, _) => value
      | _ => none
  | _ => none

/-- The value of the output assignment, if it is valid for the type of the output port. -/
def keptValue (services : ExecutionServices) (context : ExecutionContext δ)
    (transform : TransformDefinition) (valueType : ValueType)
    (evaluationContext : EvaluationContext) : Option Value :=
  match outputValue services.runtime transform evaluationContext with
  | none => none
  | some value =>
      match isValidValueRepresentation services value valueType context with
      | some (.ok true, _) => some value
      | _ => none

def IsPrintable : Value → Prop
  | .string _ | .boolean _ | .number _ => True
  | _ => False

/-- The ports of the row have the values of their columns, all other variables are as they were. -/
def rowContext (columns : String → Option TableColumn) (inputDetailsList : List PortDetails)
    (rowIndex : Nat) (evaluationContext : EvaluationContext) : EvaluationContext :=
  { evaluationContext with
    variableValues := fun name =>
      if name ∈ inputDetailsList.map fun inputDetails => inputDetails.port.name then
        (columns name).bind fun column => column.values[rowIndex]?
      else
        evaluationContext.variableValues name }

/-! ## A single row -/

section Rows

variable {services : ExecutionServices} {provider : RuntimeParameterProvider}
  {context current : ExecutionContext δ} {transform : TransformDefinition}
  {columns : String → Option TableColumn} {inputDetailsList : List PortDetails}
  {outputDetails : PortDetails} {rowIndex : Nat}

theorem evaluateOutput_eq :
    evaluateOutput services transform current =
      some (.ok (outputValue services.runtime transform current.evaluationContext), current) := by
  unfold evaluateOutput outputValue getOutputAssignment
  rcases transform.outputAssignments with _ | ⟨outputAssignment, _ | ⟨_, _⟩⟩
  · rfl
  · obtain ⟨⟨result, diagnostics⟩, hresult⟩ :=
      evaluateExpression_ends services.runtime current.evaluationContext .lazy
        outputAssignment.expression []
    have hsilent : (evaluateExpressionSilently services.runtime current.evaluationContext
        outputAssignment.expression : ExecM δ (Option Value)) current = some (result, current) := by
      rw [evaluateExpressionSilently, Exec.isolate, hresult]
      rfl
    simp only [hresult]
    cases result with
    | ok value => exact Exec.tryCatch_of_ok hsilent
    | error e => exact Exec.tryCatch_of_error hsilent
  · rfl

/-- An outcome of the check in one context is the outcome in all that have its parameters. -/
theorem keptValue_eq {value : Value} {valueType : ValueType} {isValid : Bool}
    (hvalue : outputValue services.runtime transform current.evaluationContext = some value)
    (hcheck : isValidValueRepresentation services value valueType context =
      some (.ok isValid, context)) :
    keptValue services context transform valueType current.evaluationContext =
      if isValid then some value else none := by
  rw [keptValue, hvalue]
  simp only [hcheck]
  cases isValid <;> rfl

theorem assertPrintable_eq {value : Value} (h : IsPrintable value) :
    assertPrintable value current = some (.ok (), current) := by
  cases value with
  | string | boolean | number => rfl
  | _ => cases h

/-- A row is dropped unless its value can be evaluated and is valid. -/
theorem evaluateRow_eq (hclosed : ClosedDefinitions services.ast) (h : Idle provider context)
    (hcurrent : Idle provider current)
    (hcheck : ∀ value,
      outputValue services.runtime transform current.evaluationContext = some value →
      ∃ isValid after, isValidValueRepresentation services value outputDetails.valueType context =
        some (.ok isValid, after))
    (hprintable : ∀ value,
      outputValue services.runtime transform current.evaluationContext = some value →
      keptValue services context transform outputDetails.valueType current.evaluationContext =
        none → IsPrintable value) :
    evaluateRow services transform outputDetails current =
      some (.ok (keptValue services context transform outputDetails.valueType
        current.evaluationContext), current) := by
  rw [evaluateRow, Exec.bind_of_ok evaluateOutput_eq]
  cases hvalue : outputValue services.runtime transform current.evaluationContext with
  | none =>
      rw [keptValue, hvalue]
      rfl
  | some value =>
      obtain ⟨isValid, after, hvalid⟩ := hcheck value hvalue
      obtain rfl := visitValueRepresentation_eq_ok h.keyword hvalid
      have hkept := keptValue_eq hvalue hvalid
      have hvalid' := visitValueRepresentation_of_idle hclosed h hcurrent hvalid
      rw [hkept]
      refine (Exec.bind_of_ok hvalid').trans ?_
      cases isValid with
      | true => rfl
      | false => exact Exec.bind_of_ok (assertPrintable_eq (hprintable value hvalue hkept))

/-! ## Binding the variables of a row -/

/-- While the rows are processed, only the variables of the ports change. -/
structure RowState (names : List String) (start current : ExecutionContext δ) : Prop where
  stack : current.stack = start.stack
  parameters : SameParameters start.evaluationContext current.evaluationContext
  others : ∀ name ∉ names, current.evaluationContext.variableValues name =
    start.evaluationContext.variableValues name

theorem RowState.refl (names : List String) (start : ExecutionContext δ) :
    RowState names start start :=
  ⟨rfl, ⟨rfl, rfl⟩, fun _ _ => rfl⟩

theorem addVariablesToContext_eq (current : ExecutionContext δ)
    (hvalues : ∀ inputDetails ∈ inputDetailsList, ∃ column value,
      columns inputDetails.port.name = some column ∧ column.values[rowIndex]? = some value) :
    ∃ bound, addVariablesToContext inputDetailsList columns rowIndex current =
        some (.ok (), bound) ∧ bound.stack = current.stack ∧
      bound.evaluationContext =
        rowContext columns inputDetailsList rowIndex current.evaluationContext := by
  induction inputDetailsList generalizing current with
  | nil => exact ⟨current, rfl, rfl, rfl⟩
  | cons inputDetails inputDetailsList ih =>
      rw [List.forall_mem_cons] at hvalues
      obtain ⟨⟨column, value, hcolumn, hvalue⟩, hrest⟩ := hvalues
      let next : ExecutionContext δ :=
        { current with
          evaluationContext :=
            current.evaluationContext.setValueForReference inputDetails.port.name value
          history.boundNames := current.history.boundNames ++ [inputDetails.port.name] }
      have hfirst : addVariableToContext columns rowIndex inputDetails current =
          some (.ok (), next) := by
        rw [addVariableToContext]
        simp only [hcolumn, hvalue]
        rfl
      obtain ⟨bound, hbound, hstack, henv⟩ := ih next hrest
      refine ⟨bound, (Exec.bind_of_ok hfirst).trans hbound, hstack, henv.trans ?_⟩
      simp only [rowContext, next, EvaluationContext.setValueForReference, List.map_cons,
        List.mem_cons]
      congr 1
      funext name
      by_cases hname : name = inputDetails.port.name
      · simp [hname, hcolumn, hvalue]
      · simp [hname]

theorem removeVariablesFromContext_eq (inputDetailsList : List PortDetails)
    (current : ExecutionContext δ) :
    ∃ removed, removeVariablesFromContext inputDetailsList current = some (.ok (), removed) ∧
      RowState (inputDetailsList.map fun inputDetails => inputDetails.port.name) current
        removed := by
  induction inputDetailsList generalizing current with
  | nil => exact ⟨current, rfl, .refl _ _⟩
  | cons inputDetails inputDetailsList ih =>
      let next : ExecutionContext δ :=
        { current with
          evaluationContext :=
            current.evaluationContext.deleteValueForReference inputDetails.port.name }
      obtain ⟨removed, hremoved, hstate⟩ := ih next
      refine ⟨removed, hremoved, hstate.stack,
        ⟨hstate.parameters.provider, hstate.parameters.keyword⟩, fun name hname => ?_⟩
      rw [List.map_cons, List.mem_cons, not_or] at hname
      rw [hstate.others name hname.2]
      simp [next, EvaluationContext.deleteValueForReference, hname.1]

/-- The variables of a row do not depend on the rows before it. -/
theorem RowState.rowContext_eq {start : ExecutionContext δ}
    (h : RowState (inputDetailsList.map fun inputDetails => inputDetails.port.name) start
      current) :
    rowContext columns inputDetailsList rowIndex current.evaluationContext =
      rowContext columns inputDetailsList rowIndex start.evaluationContext := by
  obtain ⟨hprovider, hkeyword⟩ := h.parameters
  rw [rowContext, rowContext, hprovider, hkeyword]
  congr 1
  funext name
  by_cases hname : name ∈ inputDetailsList.map fun inputDetails => inputDetails.port.name
  · rw [if_pos hname, if_pos hname]
  · rw [if_neg hname, if_neg hname, h.others name hname]

end Rows

/-! ## The loop over the rows -/

section Loop

variable {services : ExecutionServices} {provider : RuntimeParameterProvider}
  {context start current : ExecutionContext δ} {transform : TransformDefinition}
  {columns : String → Option TableColumn} {inputDetailsList : List PortDetails}
  {outputDetails : PortDetails} {rowIndex : Nat}

/-- What is needed to process a row: each port has a value, the check of the output value does
not raise an error, and an invalid value can be printed. -/
structure RowReady (services : ExecutionServices) (context start : ExecutionContext δ)
    (transform : TransformDefinition) (columns : String → Option TableColumn)
    (inputDetailsList : List PortDetails) (outputDetails : PortDetails) (rowIndex : Nat) :
    Prop where
  values : ∀ inputDetails ∈ inputDetailsList, ∃ column value,
    columns inputDetails.port.name = some column ∧ column.values[rowIndex]? = some value
  checked : ∀ value, outputValue services.runtime transform
      (rowContext columns inputDetailsList rowIndex start.evaluationContext) = some value →
    ∃ isValid after, isValidValueRepresentation services value outputDetails.valueType context =
      some (.ok isValid, after)
  printable : ∀ value, outputValue services.runtime transform
      (rowContext columns inputDetailsList rowIndex start.evaluationContext) = some value →
    keptValue services context transform outputDetails.valueType
      (rowContext columns inputDetailsList rowIndex start.evaluationContext) = none →
    IsPrintable value

theorem executeRow_eq (hclosed : ClosedDefinitions services.ast) (h : Idle provider context)
    (hstart : Idle provider start)
    (hcurrent : RowState (inputDetailsList.map fun inputDetails => inputDetails.port.name) start
      current)
    (hready : RowReady services context start transform columns inputDetailsList outputDetails
      rowIndex) :
    ∃ after, executeRow services transform columns inputDetailsList outputDetails rowIndex
        current = some (.ok (keptValue services context transform outputDetails.valueType
          (rowContext columns inputDetailsList rowIndex start.evaluationContext)), after) ∧
      RowState (inputDetailsList.map fun inputDetails => inputDetails.port.name) start after := by
  obtain ⟨bound, hadd, hstack, henv⟩ := addVariablesToContext_eq current hready.values
  rw [hcurrent.rowContext_eq] at henv
  have hbound : Idle provider bound := by
    constructor
    · rw [henv]
      exact hstart.provider
    · rw [henv]
      exact hstart.keyword
  have hrow := evaluateRow_eq hclosed h hbound (henv ▸ hready.checked) (henv ▸ hready.printable)
  obtain ⟨after, hremove, hafter⟩ := removeVariablesFromContext_eq inputDetailsList bound
  refine ⟨after, ?_, ?_⟩
  · refine Exec.tryCatch_of_ok ?_
    rw [Exec.bind_of_ok hadd, Exec.bind_of_ok hrow, Exec.bind_of_ok hremove, henv]
    rfl
  · refine ⟨hafter.stack.trans (hstack.trans hcurrent.stack), ⟨?_, ?_⟩, fun name hname => ?_⟩
    · rw [hafter.parameters.provider, henv]
      rfl
    · rw [hafter.parameters.keyword, henv]
      rfl
    · rw [hafter.others name hname, henv]
      exact if_neg hname

/-- The rows that are kept give the values of the new column, the others are to be deleted. -/
theorem executeRows_eq (hclosed : ClosedDefinitions services.ast) (h : Idle provider context)
    (hstart : Idle provider start) (current : ExecutionContext δ)
    (hcurrent : RowState (inputDetailsList.map fun inputDetails => inputDetails.port.name) start
      current)
    {keep : Nat → Option Value}
    (hkeep : ∀ i, keep i = keptValue services context transform outputDetails.valueType
      (rowContext columns inputDetailsList i start.evaluationContext))
    {remainingRows : Nat} (initial : TransformResult)
    (hready : ∀ i, rowIndex ≤ i → i < rowIndex + remainingRows →
      RowReady services context start transform columns inputDetailsList outputDetails i) :
    ∃ after, executeRows services transform columns inputDetailsList outputDetails remainingRows
        rowIndex initial current = some (.ok {
          resultingColumn := { initial.resultingColumn with
            values := initial.resultingColumn.values ++
              (List.range' rowIndex remainingRows).filterMap keep }
          rowsToDelete := initial.rowsToDelete ++
            (List.range' rowIndex remainingRows).filter fun i => (keep i).isNone }, after) ∧
      RowState (inputDetailsList.map fun inputDetails => inputDetails.port.name) start after := by
  induction remainingRows generalizing rowIndex initial current with
  | zero => exact ⟨current, by simp [executeRows], hcurrent⟩
  | succ remainingRows ih =>
      obtain ⟨next, hrow, hnext⟩ := executeRow_eq hclosed h hstart hcurrent
        (hready rowIndex le_rfl (by omega))
      rw [← hkeep] at hrow
      have hrest : ∀ i, rowIndex + 1 ≤ i → i < rowIndex + 1 + remainingRows →
          RowReady services context start transform columns inputDetailsList outputDetails i :=
        fun i hle hlt => hready i (by omega) (by omega)
      rw [executeRows, Exec.bind_of_ok hrow]
      cases hvalue : keep rowIndex with
      | none =>
          obtain ⟨after, hafter, hstate⟩ := ih next hnext _ hrest
          refine ⟨after, hafter.trans ?_, hstate⟩
          simp [List.range'_succ, hvalue]
      | some newValue =>
          obtain ⟨after, hafter, hstate⟩ := ih next hnext _ hrest
          refine ⟨after, hafter.trans ?_, hstate⟩
          simp [List.range'_succ, hvalue]

end Loop

/-! ## The whole transform -/

/-- The details of the ports of a kind: their value types can be wrapped. -/
structure IsPortDetails (ast : Ast) (transform : TransformDefinition) (kind : PortKind)
    (detailsList : List PortDetails) : Prop where
  ports : detailsList.map PortDetails.port = transform.ports.filter fun port => port.kind == kind
  valueTypes : ∀ details ∈ detailsList,
    ValueType.wrap ast details.port.valueType = .ok (some details.valueType)

theorem mapM_getPortDetail {σ : Type} {ast : Ast} {detailsList : List PortDetails}
    (h : ∀ details ∈ detailsList,
      ValueType.wrap ast details.port.valueType = .ok (some details.valueType)) (s : σ) :
    (detailsList.map PortDetails.port).mapM (getPortDetail ast) s = some (.ok detailsList, s) := by
  induction detailsList with
  | nil => rfl
  | cons details detailsList ih =>
      rw [List.forall_mem_cons] at h
      have hdetail : getPortDetail ast details.port s = some (.ok details, s) := by
        rw [getPortDetail, h.1]
        rfl
      rw [List.map_cons, List.mapM_cons, Exec.bind_of_ok hdetail, Exec.bind_of_ok (ih h.2)]
      rfl

theorem IsPortDetails.getPortDetails {σ : Type} {ast : Ast} {transform : TransformDefinition}
    {kind : PortKind} {detailsList : List PortDetails}
    (h : IsPortDetails ast transform kind detailsList) (s : σ) :
    TransformExecutor.getPortDetails ast transform kind s = some (.ok detailsList, s) := by
  rw [TransformExecutor.getPortDetails, ← h.ports]
  exact mapM_getPortDetail h.valueTypes s

theorem IsPortDetails.getOutputDetails {σ : Type} {ast : Ast} {transform : TransformDefinition}
    {outputDetails : PortDetails} (h : IsPortDetails ast transform .to [outputDetails]) (s : σ) :
    TransformExecutor.getOutputDetails ast transform s = some (.ok outputDetails, s) :=
  Exec.bind_of_ok (h.getPortDetails s)

/-- The result of a transform: the values of the rows that are kept, and the other rows. -/
def keptResult (outputDetails : PortDetails) (keep : Nat → Option Value) (numberOfRows : Nat) :
    TransformResult where
  resultingColumn := ⟨(List.range numberOfRows).filterMap keep, outputDetails.valueType⟩
  rowsToDelete := (List.range numberOfRows).filter fun i => (keep i).isNone

/-- The stack is as before, and of the variables only those of the ports may have changed. -/
theorem executeTransform_rowState {services : ExecutionServices}
    {provider : RuntimeParameterProvider} {context : ExecutionContext δ}
    (hclosed : ClosedDefinitions services.ast) (h : Idle provider context)
    {transformId : TransformId} {transform : TransformDefinition}
    (htransform : services.ast.transforms[transformId]? = some transform)
    {columns : String → Option TableColumn} {inputDetailsList : List PortDetails}
    {outputDetails : PortDetails} {numberOfRows : Nat}
    (hinput : IsPortDetails services.ast transform .from inputDetailsList)
    (houtput : IsPortDetails services.ast transform .to [outputDetails])
    {keep : Nat → Option Value}
    (hkeep : ∀ i, keep i = keptValue services context transform outputDetails.valueType
      (rowContext columns inputDetailsList i context.evaluationContext))
    (hready : ∀ i, i < numberOfRows →
      RowReady services context context transform columns inputDetailsList outputDetails i) :
    ∃ after, executeTransform services transformId columns numberOfRows context =
        some (.ok (keptResult outputDetails keep numberOfRows), after) ∧
      RowState (inputDetailsList.map fun inputDetails => inputDetails.port.name) context
        after := by
  have hentered : Idle provider (entered context (.transform transformId)) :=
    ⟨h.provider, h.keyword⟩
  have hrowsReady : ∀ i, 0 ≤ i → i < 0 + numberOfRows →
      RowReady services context (entered context (.transform transformId)) transform columns
        inputDetailsList outputDetails i := by
    intro i _ hlt
    obtain ⟨hvalues, hchecked, hprintable⟩ := hready i (by omega)
    exact ⟨hvalues, hchecked, hprintable⟩
  obtain ⟨after, hrows, hstate⟩ := executeRows_eq hclosed h hentered
    (entered context (.transform transformId)) (.refl _ _) hkeep
    ⟨⟨[], outputDetails.valueType⟩, []⟩ hrowsReady
  have hexecute : doExecuteTransform services transform columns numberOfRows
      (entered context (.transform transformId)) =
        some (.ok (keptResult outputDetails keep numberOfRows), after) := by
    rw [doExecuteTransform, getInputDetails, Exec.bind_of_ok (hinput.getPortDetails _),
      Exec.bind_of_ok (houtput.getOutputDetails _), hrows, keptResult]
    simp [List.range_eq_range']
  have hexit : exitNode (.transform transformId) after =
      some (.ok (), { after with stack := after.stack.dropLast }) := by
    rw [exitNode, Exec.bind_of_ok (popNode_apply _), hstate.stack]
    simp [entered]
  refine ⟨{ after with stack := after.stack.dropLast }, ?_, ?_, hstate.parameters,
    hstate.others⟩
  · rw [executeTransform]
    simp only [htransform]
    rw [Exec.bind_of_ok (enterNode_eq _ _), Exec.bind_of_ok hexecute, Exec.bind_of_ok hexit]
    rfl
  · simp [hstate.stack, entered]

theorem executeTransform_eq {services : ExecutionServices} {provider : RuntimeParameterProvider}
    {context : ExecutionContext δ} (hclosed : ClosedDefinitions services.ast)
    (h : Idle provider context) {transformId : TransformId} {transform : TransformDefinition}
    (htransform : services.ast.transforms[transformId]? = some transform)
    {columns : String → Option TableColumn} {inputDetailsList : List PortDetails}
    {outputDetails : PortDetails} {numberOfRows : Nat}
    (hinput : IsPortDetails services.ast transform .from inputDetailsList)
    (houtput : IsPortDetails services.ast transform .to [outputDetails])
    {keep : Nat → Option Value}
    (hkeep : ∀ i, keep i = keptValue services context transform outputDetails.valueType
      (rowContext columns inputDetailsList i context.evaluationContext))
    (hready : ∀ i, i < numberOfRows →
      RowReady services context context transform columns inputDetailsList outputDetails i) :
    ∃ after, executeTransform services transformId columns numberOfRows context =
      some (.ok (keptResult outputDetails keep numberOfRows), after) := by
  obtain ⟨after, hexecute, _⟩ :=
    executeTransform_rowState hclosed h htransform hinput houtput hkeep hready
  exact ⟨after, hexecute⟩

end TransformExecutor

end Jayvee
