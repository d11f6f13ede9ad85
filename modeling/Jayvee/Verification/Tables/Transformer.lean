import Jayvee.Verification.Tables.Interpreter

/-! # Tables of the table transformer -/

namespace Jayvee

open Foundation ExecutionContext

variable {δ : Type}

section Executors

variable {services : ExecutionServices} {provider : RuntimeParameterProvider}
variable {context after : ExecutionContext δ}

/-! ## Rows of a transform -/

namespace TransformExecutor

/-- Binding and removing variables changes neither the parameters nor the value keyword. -/
def KeepsParameters (context context' : ExecutionContext δ) : Prop :=
  SameParameters context.evaluationContext context'.evaluationContext

instance : Std.Refl (KeepsParameters (δ := δ)) where
  refl _ := ⟨rfl, rfl⟩

instance : IsTrans (ExecutionContext δ) KeepsParameters where
  trans _ _ _ h h' := ⟨h'.provider.trans h.provider, h'.keyword.trans h.keyword⟩

theorem KeepsParameters.idle (h : KeepsParameters context after) (hidle : Idle provider context) :
    Idle provider after :=
  ⟨h.provider.trans hidle.provider, h.keyword.trans hidle.keyword⟩

theorem addVariablesToContext_keeps (inputDetailsList : List PortDetails)
    (columns : String → Option TableColumn) (rowIndex : Nat) :
    Exec.Moves KeepsParameters
      (addVariablesToContext inputDetailsList columns rowIndex : ExecM δ Unit) := by
  apply Exec.Moves.forEach
  intro inputDetails
  unfold addVariableToContext
  dsimp only
  split
  · exact Exec.Moves.throw _
  · split
    · exact Exec.Moves.throw _
    · exact fun _ => Exec.Post.modify ⟨rfl, rfl⟩

theorem removeVariablesFromContext_keeps (inputDetailsList : List PortDetails) :
    Exec.Moves KeepsParameters
      (removeVariablesFromContext inputDetailsList : ExecM δ Unit) :=
  Exec.Moves.forEach fun _ _ => Exec.Post.modify ⟨rfl, rfl⟩

theorem evaluateRow_eq_ok (hclosed : ClosedDefinitions services.ast)
    (h : Idle provider context) {transform : TransformDefinition} {outputDetails : PortDetails}
    {newValue : Option Value}
    (hrun : evaluateRow services transform outputDetails context =
      some (.ok newValue, after)) :
    after = context ∧ ∀ value ∈ newValue,
      ValidEverywhere δ services provider value outputDetails.valueType := by
  obtain ⟨evaluated, before, hevaluated, hrest⟩ := Exec.bind_eq_ok_iff.mp hrun
  cases (evaluateOutput_reads services transform).same hevaluated
  cases evaluated with
  | none =>
      cases hrest
      exact ⟨rfl, by simp⟩
  | some evaluated =>
      obtain ⟨isValid, before, hcheck, hrest⟩ := Exec.bind_eq_ok_iff.mp hrest
      cases visitValueRepresentation_eq_ok h.keyword hcheck
      cases isValid with
      | true =>
          cases hrest
          refine ⟨rfl, fun value hvalue => ?_⟩
          obtain rfl : evaluated = value := Option.some.inj hvalue
          exact validEverywhere_of_check hclosed h hcheck
      | false =>
          obtain ⟨_, before, hprintable, hrest⟩ := Exec.bind_eq_ok_iff.mp hrest
          cases (assertPrintable_reads evaluated).same hprintable
          cases hrest
          exact ⟨rfl, by simp⟩

theorem executeRow_eq_ok (hclosed : ClosedDefinitions services.ast) (h : Idle provider context)
    {transform : TransformDefinition} {columns : String → Option TableColumn}
    {inputDetailsList : List PortDetails} {outputDetails : PortDetails} {rowIndex : Nat}
    {newValue : Option Value}
    (hrun : executeRow services transform columns inputDetailsList outputDetails rowIndex
      context = some (.ok newValue, after)) :
    Idle provider after ∧ ∀ value ∈ newValue,
      ValidEverywhere δ services provider value outputDetails.valueType := by
  cases recordAbort_eq_some hrun with
  | inr hthrown =>
      obtain ⟨_, _, hthrown, _⟩ := hthrown
      cases hthrown
  | inl hreturned =>
      obtain ⟨_, hvalue, hreturned⟩ := hreturned
      cases hvalue
      obtain ⟨_, bound, hadd, hscope⟩ := Exec.bind_eq_ok_iff.mp hreturned
      have hbound : Idle provider bound :=
        (addVariablesToContext_keeps _ _ _ _ _ _ hadd).idle h
      obtain ⟨value, evaluated, hevaluated, hrest⟩ := Exec.bind_eq_ok_iff.mp hscope
      obtain ⟨hsame, hvalid⟩ := evaluateRow_eq_ok hclosed hbound hevaluated
      rw [hsame] at hrest
      obtain ⟨_, removed, hremove, hreturn⟩ := Exec.bind_eq_ok_iff.mp hrest
      cases hreturn
      exact ⟨(removeVariablesFromContext_keeps _ _ _ _ hremove).idle hbound, hvalid⟩

/-- All values of the new column have been checked for its type. -/
def ResultFits (δ : Type) (services : ExecutionServices) (provider : RuntimeParameterProvider)
    (result : TransformResult) : Prop :=
  ∀ value ∈ result.resultingColumn.values,
    ValidEverywhere δ services provider value result.resultingColumn.valueType

theorem executeRows_eq_ok (hclosed : ClosedDefinitions services.ast) (h : Idle provider context)
    {transform : TransformDefinition} {columns : String → Option TableColumn}
    {inputDetailsList : List PortDetails} {outputDetails : PortDetails}
    {remainingRows rowIndex : Nat} {initial result : TransformResult}
    (htype : initial.resultingColumn.valueType = outputDetails.valueType)
    (hinitial : ResultFits δ services provider initial)
    (hrun : executeRows services transform columns inputDetailsList outputDetails remainingRows
      rowIndex initial context = some (.ok result, after)) :
    ResultFits δ services provider result := by
  induction remainingRows generalizing rowIndex initial context with
  | zero =>
      cases hrun
      exact hinitial
  | succ remainingRows ih =>
      rw [executeRows] at hrun
      obtain ⟨newValue, before, hrow, hrest⟩ := Exec.bind_eq_ok_iff.mp hrun
      obtain ⟨hbefore, hvalid⟩ := executeRow_eq_ok hclosed h hrow
      cases newValue with
      | none => exact ih hbefore (by exact htype) (by exact hinitial) hrest
      | some newValue =>
          refine ih hbefore (by exact htype) ?_ hrest
          intro value hvalue
          cases List.mem_append.mp hvalue with
          | inl hold => exact hinitial value hold
          | inr hnew =>
              obtain rfl : value = newValue := by simpa using hnew
              show ValidEverywhere δ services provider value initial.resultingColumn.valueType
              rw [htype]
              exact hvalid value rfl

theorem executeTransform_eq_ok (hclosed : ClosedDefinitions services.ast)
    (h : Idle provider context) {transform : TransformId}
    {columns : String → Option TableColumn} {numberOfRows : Nat} {result : TransformResult}
    (hrun : executeTransform services transform columns numberOfRows context =
      some (.ok result, after)) : ResultFits δ services provider result := by
  unfold executeTransform at hrun
  cases hdefinition : services.ast.transforms[transform]? with
  | none =>
      simp only [hdefinition] at hrun
      cases hrun
  | some definition =>
      simp only [hdefinition] at hrun
      rw [Exec.bind_of_ok (enterNode_eq _ _)] at hrun
      have hentered : Idle provider (entered context (.transform transform)) :=
        ⟨h.provider, h.keyword⟩
      obtain ⟨returned, before, hexecute, hrest⟩ := Exec.bind_eq_ok_iff.mp hrun
      obtain ⟨_, _, _, hreturn⟩ := Exec.bind_eq_ok_iff.mp hrest
      cases hreturn
      obtain ⟨inputDetailsList, _, hinput, hexecute⟩ := Exec.bind_eq_ok_iff.mp hexecute
      cases (getPortDetails_reads services.ast definition .from).same hinput
      obtain ⟨outputDetails, _, houtput, hexecute⟩ := Exec.bind_eq_ok_iff.mp hexecute
      cases (getOutputDetails_reads services.ast definition).same houtput
      have hempty : ResultFits δ services provider ⟨⟨[], outputDetails.valueType⟩, []⟩ := by
        intro value hvalue
        cases hvalue
      exact executeRows_eq_ok hclosed hentered rfl hempty hexecute

end TransformExecutor

/-! ## Tables of the transformer -/

namespace TableTransformerExecutor

theorem createOutputTable_wellFormed {V : Value → ValueType → Prop} {inputTable result : Table}
    (h : inputTable.WellFormed V) {transformResult : TransformResult} {outputColumnName : String}
    (hresult : ∀ value ∈ transformResult.resultingColumn.values,
      V value transformResult.resultingColumn.valueType)
    (hcreate : createOutputTable inputTable transformResult outputColumnName = .ok result) :
    result.WellFormed V := by
  obtain ⟨cloned, hclone, hcreate⟩ := except_bind_eq_ok_iff.mp hcreate
  obtain ⟨dropped, hdrop, hadd⟩ := except_bind_eq_ok_iff.mp hcreate
  exact ((h.clone hclone).dropRows hdrop).addColumn hadd hresult

theorem checkInputColumnsExist_reads (inputTable : Table) (inputColumnNames : List String)
    (i : Nat) : Exec.Reads (checkInputColumnsExist services inputTable inputColumnNames i :
      ExecM δ (Result Unit)) := by
  induction inputColumnNames generalizing i with
  | nil => exact .pure _
  | cons inputColumnName inputColumnNames ih =>
      apply Exec.Reads.ite
      · exact Exec.Reads.bind (getOrFailProperty_reads services _) fun _ => .pure _
      · exact ih (i + 1)

theorem checkInputColumnsMatchTransformInputTypes_reads (inputTable : Table)
    (inputColumnNames : List String) (transformInputDetailsList : List PortDetails)
    (variableToColumnMap : JsMap String TableColumn) :
    Exec.Reads (checkInputColumnsMatchTransformInputTypes services inputTable inputColumnNames
      transformInputDetailsList variableToColumnMap :
      ExecM δ (Result (JsMap String TableColumn))) := by
  induction inputColumnNames generalizing transformInputDetailsList variableToColumnMap with
  | nil => exact .pure _
  | cons inputColumnName inputColumnNames ih =>
      unfold checkInputColumnsMatchTransformInputTypes
      split
      · apply Exec.Reads.bind (.ofExcept _)
        intro isConvertible
        apply Exec.Reads.ite
        · exact Exec.Reads.bind (getOrFailProperty_reads services _) fun _ => .pure _
        · exact ih _ _
      · exact .throw _

theorem getPortDetails_reads (usedTransform : TransformId) :
    Exec.Reads (getPortDetails services usedTransform :
      ExecM δ (List PortDetails × PortDetails)) := by
  unfold getPortDetails
  split
  · exact .throw _
  · apply Exec.Reads.bind (Jayvee.getPortDetails_reads _ _ _)
    intro inputDetailsList
    exact Exec.Reads.bind (getOutputDetails_reads _ _) fun _ => .pure _

theorem doExecute_wellFormed (hclosed : ClosedDefinitions services.ast)
    (h : Idle provider context) {inputTable result : Table}
    (hinput : inputTable.WellFormed (ValidEverywhere δ services provider))
    (hrun : doExecute services inputTable context = some (.ok (.ok result), after)) :
    result.WellFormed (ValidEverywhere δ services provider) := by
  obtain ⟨inputColumnNames, before, hnames, hrest⟩ := Exec.bind_eq_ok_iff.mp hrun
  cases (getTypedPropertyValue_reads _ _ _ _).same hnames
  obtain ⟨outputColumnName, before, hname, hrest⟩ := Exec.bind_eq_ok_iff.mp hrest
  cases (getTypedPropertyValue_reads _ _ _ _).same hname
  obtain ⟨usedTransform, before, htransform, hrest⟩ := Exec.bind_eq_ok_iff.mp hrest
  cases (getTypedPropertyValue_reads _ _ _ _).same htransform
  obtain ⟨exist, before, hexist, hrest⟩ := Exec.bind_eq_ok_iff.mp hrest
  cases (checkInputColumnsExist_reads _ _ _).same hexist
  cases exist with
  | error details => cases hrest
  | ok _ =>
      obtain ⟨⟨transformInputDetailsList, _⟩, before, hports, hrest⟩ :=
        Exec.bind_eq_ok_iff.mp hrest
      cases (getPortDetails_reads _).same hports
      obtain ⟨columns, before, hmatch, hrest⟩ := Exec.bind_eq_ok_iff.mp hrest
      cases (checkInputColumnsMatchTransformInputTypes_reads _ _ _ _).same hmatch
      cases columns with
      | error details => cases hrest
      | ok variableToColumnMap =>
          obtain ⟨transformResult, before, hexecute, hrest⟩ := Exec.bind_eq_ok_iff.mp hrest
          obtain ⟨outputTable, _, hcreate, hrest⟩ := Exec.bind_eq_ok_iff.mp hrest
          cases hrest
          exact createOutputTable_wellFormed hinput
            (TransformExecutor.executeTransform_eq_ok hclosed h hexecute)
            (Prod.ext_iff.mp (Option.some.inj hcreate)).1

end TableTransformerExecutor

end Executors

end Jayvee
