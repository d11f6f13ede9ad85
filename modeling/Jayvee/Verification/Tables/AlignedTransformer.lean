import Jayvee.Verification.Tables.AlignedRows
import Jayvee.Verification.Tables.Pipelines

/-! # The table of a table transformer -/

namespace Jayvee

open Foundation ExecutionContext TransformExecutor

variable {δ : Type}

namespace TableTransformerExecutor

/-! ## Columns of the ports -/

/-- The first port belongs to the first input column. -/
def portColumns (inputTable : Table) (inputColumnNames : List String)
    (inputDetailsList : List PortDetails) (name : String) : Option TableColumn :=
  (((inputDetailsList.map fun inputDetails => inputDetails.port.name).zip
    inputColumnNames).lookup name).bind inputTable.getColumn

/-- The column exists, and its type is convertible to the type of the port. -/
def IsInputColumn (ast : Ast) (inputTable : Table) (inputColumnName : String)
    (inputDetails : PortDetails) : Prop :=
  ∃ column, inputTable.getColumn inputColumnName = some column ∧
    column.valueType.isConvertibleTo ast inputDetails.valueType = .ok true

section Columns

variable {services : ExecutionServices} {context : ExecutionContext δ} {inputTable : Table}
  {inputColumnName : String} {inputColumnNames : List String} {inputDetails : PortDetails}
  {inputDetailsList : List PortDetails}

theorem portColumns_cons_self :
    portColumns inputTable (inputColumnName :: inputColumnNames)
      (inputDetails :: inputDetailsList) inputDetails.port.name =
        inputTable.getColumn inputColumnName := by
  simp [portColumns]

theorem portColumns_cons_of_ne {name : String} (h : name ≠ inputDetails.port.name) :
    portColumns inputTable (inputColumnName :: inputColumnNames)
      (inputDetails :: inputDetailsList) name =
        portColumns inputTable inputColumnNames inputDetailsList name := by
  simp [portColumns, List.lookup_cons, beq_eq_false_iff_ne.mpr h]

theorem portColumns_of_not_mem {name : String}
    (h : name ∉ inputDetailsList.map fun inputDetails => inputDetails.port.name) :
    portColumns inputTable inputColumnNames inputDetailsList name = none := by
  have hnone : ((inputDetailsList.map fun inputDetails => inputDetails.port.name).zip
      inputColumnNames).lookup name = none := by
    rw [List.lookup_eq_none_iff]
    intro entry hentry
    have hmem := (List.of_mem_zip hentry).1
    exact bne_iff_ne.mpr fun heq => h (heq ▸ hmem)
  rw [portColumns, hnone]
  rfl

theorem checkInputColumnsExist_eq {i : Nat}
    (h : List.Forall₂ (IsInputColumn services.ast inputTable) inputColumnNames
      inputDetailsList) :
    checkInputColumnsExist services inputTable inputColumnNames i context =
      some (.ok (.ok ()), context) := by
  induction h generalizing i with
  | nil => rfl
  | cons hcolumn _ ih =>
      obtain ⟨column, hcolumn, _⟩ := hcolumn
      rw [checkInputColumnsExist]
      simp only [hcolumn, Option.isNone_some, Bool.false_eq_true, if_false]
      exact ih

theorem checkInputColumnsMatch_eq
    (h : List.Forall₂ (IsInputColumn services.ast inputTable) inputColumnNames
      inputDetailsList)
    (hdistinct : (inputDetailsList.map fun inputDetails => inputDetails.port.name).Nodup)
    (context : ExecutionContext δ) (variableToColumnMap : JsMap String TableColumn) :
    ∃ result, checkInputColumnsMatchTransformInputTypes services inputTable inputColumnNames
        inputDetailsList variableToColumnMap context = some (.ok (.ok result), context) ∧
      ∀ name, result.get? name = (portColumns inputTable inputColumnNames inputDetailsList
        name).or (variableToColumnMap.get? name) := by
  induction h generalizing variableToColumnMap with
  | nil => exact ⟨variableToColumnMap, rfl, fun name => rfl⟩
  | @cons inputColumnName inputDetails inputColumnNames inputDetailsList hcolumn _ ih =>
      obtain ⟨column, hcolumn, hconvertible⟩ := hcolumn
      rw [List.map_cons, List.nodup_cons] at hdistinct
      obtain ⟨result, hresult, hget⟩ :=
        ih hdistinct.2 (variableToColumnMap.set inputDetails.port.name column)
      refine ⟨result, ?_, fun name => ?_⟩
      · unfold checkInputColumnsMatchTransformInputTypes
        simp only [hcolumn, hconvertible]
        exact hresult
      · rw [hget, JsMap.get?_set]
        by_cases hname : name = inputDetails.port.name
        · subst hname
          rw [portColumns_of_not_mem hdistinct.1, portColumns_cons_self, hcolumn, if_pos rfl]
          rfl
        · rw [if_neg hname, portColumns_cons_of_ne hname]

/-- Each port has its column. -/
theorem exists_portColumn
    (h : List.Forall₂ (IsInputColumn services.ast inputTable) inputColumnNames
      inputDetailsList)
    (hdistinct : (inputDetailsList.map fun inputDetails => inputDetails.port.name).Nodup)
    {details : PortDetails} (hdetails : details ∈ inputDetailsList) :
    ∃ name column, portColumns inputTable inputColumnNames inputDetailsList
        details.port.name = some column ∧ inputTable.getColumn name = some column ∧
      column.valueType.isConvertibleTo services.ast details.valueType = .ok true := by
  induction h with
  | nil => cases hdetails
  | @cons inputColumnName inputDetails inputColumnNames inputDetailsList hcolumn _ ih =>
      rw [List.map_cons, List.nodup_cons] at hdistinct
      cases List.mem_cons.mp hdetails with
      | inl hhead =>
          subst hhead
          obtain ⟨column, hcolumn, hconvertible⟩ := hcolumn
          exact ⟨inputColumnName, column, portColumns_cons_self.trans hcolumn, hcolumn,
            hconvertible⟩
      | inr htail =>
          have hne : details.port.name ≠ inputDetails.port.name := fun heq =>
            hdistinct.1 (heq ▸ List.mem_map_of_mem htail)
          rw [portColumns_cons_of_ne hne]
          exact ih hdistinct.2 htail

end Columns

/-! ## Blocks that apply a transform -/

/-- The block applies the transform to columns of the table, one for each input port. -/
structure Applies (services : ExecutionServices) (context : ExecutionContext δ)
    (inputTable : Table) (usedTransform : TransformId) (transform : TransformDefinition)
    (inputColumnNames : List String) (outputColumnName : String)
    (inputDetailsList : List PortDetails) (outputDetails : PortDetails) : Prop where
  inputColumns : getTypedPropertyValue services textsTypeguard "inputColumns"
    (.collection .Text) context = some (.ok inputColumnNames, context)
  outputColumn : getTypedPropertyValue services Value.stringTypeguard "outputColumn" .Text
    context = some (.ok outputColumnName, context)
  uses : getTypedPropertyValue services transformTypeguard "uses" .Transform context =
    some (.ok usedTransform, context)
  definition : services.ast.transforms[usedTransform]? = some transform
  input : IsPortDetails services.ast transform .from inputDetailsList
  output : IsPortDetails services.ast transform .to [outputDetails]
  distinct : (transform.ports.map TransformPortDefinition.name).Nodup
  columns : List.Forall₂ (IsInputColumn services.ast inputTable) inputColumnNames
    inputDetailsList

section Blocks

variable {services : ExecutionServices} {provider : RuntimeParameterProvider}
  {context : ExecutionContext δ} {inputTable : Table} {usedTransform : TransformId}
  {transform : TransformDefinition} {inputColumnNames : List String} {outputColumnName : String}
  {inputDetailsList : List PortDetails} {outputDetails : PortDetails}

theorem Applies.distinctInputs (h : Applies services context inputTable usedTransform transform
      inputColumnNames outputColumnName inputDetailsList outputDetails) :
    (inputDetailsList.map fun inputDetails => inputDetails.port.name).Nodup := by
  have hports : (inputDetailsList.map PortDetails.port).map TransformPortDefinition.name =
      inputDetailsList.map fun inputDetails => inputDetails.port.name := List.map_map
  rw [← hports, h.input.ports]
  exact h.distinct.sublist (List.filter_sublist.map _)

theorem Applies.getPortDetails (h : Applies services context inputTable usedTransform transform
      inputColumnNames outputColumnName inputDetailsList outputDetails) :
    TableTransformerExecutor.getPortDetails services usedTransform context =
      some (.ok (inputDetailsList, outputDetails), context) := by
  unfold TableTransformerExecutor.getPortDetails
  simp only [h.definition]
  rw [getInputDetails, Exec.bind_of_ok (h.input.getPortDetails _),
    Exec.bind_of_ok (h.output.getOutputDetails _)]
  rfl

/-- The variables while a row is processed. -/
def rowVariables (inputTable : Table) (inputColumnNames : List String)
    (inputDetailsList : List PortDetails) (context : ExecutionContext δ) (rowIndex : Nat) :
    EvaluationContext :=
  rowContext (portColumns inputTable inputColumnNames inputDetailsList) inputDetailsList rowIndex
    context.evaluationContext

/-- The value of the output expression in a row, if it is valid for the output type. -/
def rowValue (services : ExecutionServices) (inputTable : Table) (transform : TransformDefinition)
    (inputColumnNames : List String) (inputDetailsList : List PortDetails)
    (outputDetails : PortDetails) (context : ExecutionContext δ) (rowIndex : Nat) :
    Option Value :=
  keptValue services context transform outputDetails.valueType
    (rowVariables inputTable inputColumnNames inputDetailsList context rowIndex)

theorem Applies.rowReady (h : Applies services context inputTable usedTransform transform
      inputColumnNames outputColumnName inputDetailsList outputDetails)
    (hrectangular : inputTable.IsRectangular) {rowIndex : Nat}
    (hlt : rowIndex < inputTable.numberOfRows)
    (hchecked : ∀ value, outputValue services.runtime transform
        (rowVariables inputTable inputColumnNames inputDetailsList context rowIndex) = some value →
      ∃ isValid after, isValidValueRepresentation services value outputDetails.valueType context =
        some (.ok isValid, after))
    (hprintable : ∀ value, outputValue services.runtime transform
        (rowVariables inputTable inputColumnNames inputDetailsList context rowIndex) = some value →
      rowValue services inputTable transform inputColumnNames inputDetailsList outputDetails
        context rowIndex = none → IsPrintable value) :
    RowReady services context context transform
      (portColumns inputTable inputColumnNames inputDetailsList) inputDetailsList outputDetails
      rowIndex := by
  refine ⟨fun inputDetails hdetails => ?_, hchecked, hprintable⟩
  obtain ⟨name, column, hport, hcolumn, _⟩ :=
    exists_portColumn h.columns h.distinctInputs hdetails
  have hbound : rowIndex < column.values.length := by
    rw [hrectangular name column hcolumn]
    exact hlt
  exact ⟨column, column.values[rowIndex], hport, List.getElem?_eq_getElem hbound⟩

/-- The result of the transform has a value for each row that is kept, and the table has the
rows that are kept. -/
def KeepsRowsAligned (services : ExecutionServices) (context : ExecutionContext δ)
    (inputTable : Table) (usedTransform : TransformId) (inputColumnNames : List String)
    (outputColumnName : String) (inputDetailsList : List PortDetails)
    (outputDetails : PortDetails) (keep : Nat → Option Value) : Prop :=
  ∃ transformResult outputTable after after',
    executeTransform services usedTransform
        (portColumns inputTable inputColumnNames inputDetailsList) inputTable.numberOfRows
        context = some (.ok transformResult, after) ∧
      transformResult.rowsToDelete.Pairwise (· < ·) ∧
      transformResult.resultingColumn.values.length =
        (keptRows keep inputTable.numberOfRows).length ∧
      doExecute services inputTable context = some (.ok (.ok outputTable), after') ∧
      IsOutputTable inputTable keep outputDetails outputColumnName outputTable

/-- What the block makes of the result of the transform. -/
theorem Applies.doExecute_eq (h : Applies services context inputTable usedTransform transform
      inputColumnNames outputColumnName inputDetailsList outputDetails)
    (hrectangular : inputTable.IsRectangular) {keep : Nat → Option Value}
    {after : ExecutionContext δ}
    (hexecute : executeTransform services usedTransform
      (portColumns inputTable inputColumnNames inputDetailsList) inputTable.numberOfRows context =
        some (.ok (keptResult outputDetails keep inputTable.numberOfRows), after)) :
    ∃ outputTable, doExecute services inputTable context = some (.ok (.ok outputTable), after) ∧
      IsOutputTable inputTable keep outputDetails outputColumnName outputTable := by
  obtain ⟨outputTable, hcreate, houtput⟩ :
      ∃ outputTable, createOutputTable inputTable
          (keptResult outputDetails keep inputTable.numberOfRows) outputColumnName =
            .ok outputTable ∧
        IsOutputTable inputTable keep outputDetails outputColumnName outputTable :=
    createOutputTable_eq hrectangular outputColumnName
  obtain ⟨variableToColumnMap, hmatch, hget⟩ :=
    checkInputColumnsMatch_eq h.columns h.distinctInputs context .empty
  have hcolumns : variableToColumnMap.get? =
      portColumns inputTable inputColumnNames inputDetailsList := by
    funext name
    rw [hget]
    exact Option.or_none
  refine ⟨outputTable, ?_, houtput⟩
  rw [doExecute, Exec.bind_of_ok h.inputColumns, Exec.bind_of_ok h.outputColumn,
    Exec.bind_of_ok h.uses, Exec.bind_of_ok (checkInputColumnsExist_eq h.columns)]
  dsimp only
  rw [Exec.bind_of_ok h.getPortDetails, Exec.bind_of_ok hmatch]
  dsimp only
  rw [hcolumns, Exec.bind_of_ok hexecute, hcreate]
  rfl

theorem Applies.keepsRowsAligned (hclosed : ClosedDefinitions services.ast)
    (hcontext : Idle provider context)
    (h : Applies services context inputTable usedTransform transform inputColumnNames
      outputColumnName inputDetailsList outputDetails)
    (hrectangular : inputTable.IsRectangular)
    (hready : ∀ i, i < inputTable.numberOfRows → RowReady services context context transform
      (portColumns inputTable inputColumnNames inputDetailsList) inputDetailsList
      outputDetails i) :
    KeepsRowsAligned services context inputTable usedTransform inputColumnNames outputColumnName
      inputDetailsList outputDetails (rowValue services inputTable transform inputColumnNames
        inputDetailsList outputDetails context) := by
  let keep := rowValue services inputTable transform inputColumnNames inputDetailsList
    outputDetails context
  obtain ⟨after, hexecute⟩ := executeTransform_eq hclosed hcontext h.definition h.input h.output
    (fun i => (rfl : keep i = _)) hready
  obtain ⟨outputTable, hdoExecute, houtput⟩ := h.doExecute_eq hrectangular hexecute
  refine ⟨_, outputTable, after, after, hexecute, rowsToDelete_ascending outputDetails keep _, ?_,
    hdoExecute, houtput⟩
  rw [← length_filterMap_keptRows, ← filterMap_keptRows]
  rfl

end Blocks

/-! ## Invalid values can be printed -/

/-- What the language server has checked about the transform, and about the cells of the table
before. -/
structure IsValidated (ast : Ast) (inputTable : Table) (transform : TransformDefinition)
    (outputDetails : PortDetails) : Prop where
  cells : ∀ name column, inputTable.getColumn name = some column →
    ∀ value ∈ column.values, ValueType.HasType ast column.valueType value
  outputType : outputDetails.valueType.isReferenceableByUser ast = .ok true
  inputPorts : ∀ outputAssignment ∈ transform.outputAssignments, ∀ port,
    .transformPortDefinition port ∈ outputAssignment.expression.references →
    port ∈ transform.ports ∧ port.kind = .from
  noProperties : ∀ outputAssignment ∈ transform.outputAssignments, ∀ name valueType,
    .blockTypeProperty name valueType ∉ outputAssignment.expression.references
  typed : ∀ outputAssignment ∈ transform.outputAssignments, ∃ T diagnostics,
    inferExpressionType ast none outputAssignment.expression [] =
        some (.ok (some T), diagnostics) ∧
      T.isConvertibleTo ast outputDetails.valueType = .ok true

section Validated

variable {services : ExecutionServices} {context : ExecutionContext δ} {inputTable : Table}
  {usedTransform : TransformId} {transform : TransformDefinition}
  {inputColumnNames : List String} {outputColumnName : String}
  {inputDetailsList : List PortDetails} {outputDetails : PortDetails}

/-- Numbers can be printed also if they are not finite. -/
theorem isPrintable_of_hasType {runtime : JsRuntime} {reading : Reading runtime} {ast : Ast}
    {T : ValueType} {value : Value} (hT : T.isReferenceableByUser ast = .ok true)
    (hvalue : reading.HasType ast T value) : IsPrintable value := by
  obtain ⟨root, hroot, hvalue⟩ := hvalue.root
  have hown : ∀ {isReferenceable : Bool}, _ = some isReferenceable → isReferenceable = true :=
    fun h => Except.ok.inj ((ValueType.askSupertypes_of_root (fun _ => rfl) hroot h).symm.trans hT)
  cases root with
  | primitive kind =>
      have hkind : kind.isReferenceableByUser = true := hown rfl
      rw [ValueType.hasType_primitive] at hvalue
      cases value with
      | boolean _ | number _ | string _ => trivial
      | _ =>
          cases kind <;>
            first
            | exact absurd hvalue Bool.false_ne_true
            | exact absurd hkind Bool.false_ne_true
  | emptyCollection => cases hown rfl
  | collection elementType => cases hown rfl
  | atomic astNode => cases hroot.own

theorem outputValue_eq_some {runtime : JsRuntime} {evaluationContext : EvaluationContext}
    {value : Value} (h : outputValue runtime transform evaluationContext = some value) :
    ∃ outputAssignment diagnostics, transform.outputAssignments = [outputAssignment] ∧
      evaluateExpression runtime evaluationContext .lazy outputAssignment.expression [] =
        some (.ok (some value), diagnostics) := by
  unfold outputValue at h
  split at h
  · rename_i outputAssignment hassignments
    split at h
    · rename_i result diagnostics hresult
      subst h
      exact ⟨outputAssignment, diagnostics, hassignments, hresult⟩
    · cases h
  · cases h

/-- The variables of a row are values of the types of their ports. -/
theorem Applies.wellTyped (h : Applies services context inputTable usedTransform transform
      inputColumnNames outputColumnName inputDetailsList outputDetails)
    (hvalidated : IsValidated services.ast inputTable transform outputDetails)
    {outputAssignment : TransformOutputAssignment}
    (hassignment : outputAssignment ∈ transform.outputAssignments) (rowIndex : Nat) :
    WellTyped services.ast none
      (rowVariables inputTable inputColumnNames inputDetailsList context rowIndex)
      outputAssignment.expression.references := by
  refine ⟨fun port hport T value hwrap hvalue => ?_, fun name valueType hproperty => ?_, ?_⟩
  · obtain ⟨hmem, hkind⟩ := hvalidated.inputPorts outputAssignment hassignment port hport
    obtain ⟨inputDetails, hdetails, rfl⟩ : ∃ inputDetails ∈ inputDetailsList,
        inputDetails.port = port := by
      rw [← List.mem_map, h.input.ports]
      exact List.mem_filter.mpr ⟨hmem, by simp [hkind]⟩
    obtain ⟨name, column, hcolumn, hget, hconvertible⟩ :=
      exists_portColumn h.columns h.distinctInputs hdetails
    have hnames : inputDetails.port.name ∈
        inputDetailsList.map fun inputDetails => inputDetails.port.name :=
      List.mem_map_of_mem hdetails
    obtain rfl : inputDetails.valueType = T := by
      have hboth := (h.input.valueTypes inputDetails hdetails).symm.trans hwrap
      simpa using hboth
    simp only [rowVariables, rowContext, hnames, if_true, hcolumn, Option.bind_some] at hvalue
    exact (hvalidated.cells name column hget value (List.mem_of_getElem? hvalue)).convert
      hconvertible
  · exact (hvalidated.noProperties outputAssignment hassignment name valueType hproperty).elim
  · intro valueType hcontainer
    cases hcontainer

/-- In a program without errors, the output value is of the output type, unless it is a number
that overflowed. -/
theorem Applies.hasType (h : Applies services context inputTable usedTransform transform
      inputColumnNames outputColumnName inputDetailsList outputDetails)
    (hvalidated : IsValidated services.ast inputTable transform outputDetails) {rowIndex : Nat}
    {value : Value} (hvalue : outputValue services.runtime transform
      (rowVariables inputTable inputColumnNames inputDetailsList context rowIndex) =
        some value) :
    (Reading.blind services.runtime).HasType services.ast outputDetails.valueType value := by
  obtain ⟨outputAssignment, diagnostics, hassignments, heval⟩ := outputValue_eq_some hvalue
  have hassignment : outputAssignment ∈ transform.outputAssignments := by
    rw [hassignments]
    exact List.mem_singleton_self _
  obtain ⟨T, _, hinfer, hconvertible⟩ := hvalidated.typed outputAssignment hassignment
  have hvalue : (Reading.blind services.runtime).HasType services.ast T value :=
    evaluateExpression_sound_blind (h.wellTyped hvalidated hassignment rowIndex) hinfer [] _ _ heval
  exact hvalue.convert hconvertible

/-- Values of the output type can be printed. -/
theorem Applies.isPrintable (h : Applies services context inputTable usedTransform transform
      inputColumnNames outputColumnName inputDetailsList outputDetails)
    (hvalidated : IsValidated services.ast inputTable transform outputDetails) {rowIndex : Nat}
    {value : Value} (hvalue : outputValue services.runtime transform
      (rowVariables inputTable inputColumnNames inputDetailsList context rowIndex) =
        some value) : IsPrintable value :=
  isPrintable_of_hasType hvalidated.outputType (h.hasType hvalidated hvalue)

end Validated

/-! ## Alignment -/

/-- No constraint raises an error on an output value. -/
def ChecksReturn (services : ExecutionServices) (context : ExecutionContext δ)
    (inputTable : Table) (transform : TransformDefinition) (inputColumnNames : List String)
    (inputDetailsList : List PortDetails) (outputDetails : PortDetails) : Prop :=
  ∀ i, i < inputTable.numberOfRows → ∀ value,
    outputValue services.runtime transform
      (rowVariables inputTable inputColumnNames inputDetailsList context i) = some value →
    ∃ isValid after, isValidValueRepresentation services value outputDetails.valueType context =
      some (.ok isValid, after)

/-- The output values that are not valid are texts, booleans or numbers. -/
def InvalidOutputsPrintable (services : ExecutionServices) (context : ExecutionContext δ)
    (inputTable : Table) (transform : TransformDefinition) (inputColumnNames : List String)
    (inputDetailsList : List PortDetails) (outputDetails : PortDetails) : Prop :=
  ∀ i, i < inputTable.numberOfRows → ∀ value,
    outputValue services.runtime transform
      (rowVariables inputTable inputColumnNames inputDetailsList context i) = some value →
    rowValue services inputTable transform inputColumnNames inputDetailsList outputDetails context
      i = none → IsPrintable value

/-- The output table has exactly the rows whose output value is valid, each with that value and
its own values in the other columns. An assertion on invalid output values holds in every program
that was validated. -/
theorem tableTransformer_keepsRowsAligned (services : ExecutionServices)
    (hclosed : ClosedDefinitions services.ast) (provider : RuntimeParameterProvider)
    (context : ExecutionContext δ) (hcontext : Idle provider context) (inputTable : Table)
    (hrectangular : inputTable.IsRectangular) (usedTransform : TransformId)
    (transform : TransformDefinition) (inputColumnNames : List String)
    (outputColumnName : String) (inputDetailsList : List PortDetails)
    (outputDetails : PortDetails)
    (happlies : Applies services context inputTable usedTransform transform inputColumnNames
      outputColumnName inputDetailsList outputDetails)
    (hchecks : ChecksReturn services context inputTable transform inputColumnNames
      inputDetailsList outputDetails) :
    (InvalidOutputsPrintable services context inputTable transform inputColumnNames
        inputDetailsList outputDetails →
      KeepsRowsAligned services context inputTable usedTransform inputColumnNames
        outputColumnName inputDetailsList outputDetails (rowValue services inputTable transform
          inputColumnNames inputDetailsList outputDetails context)) ∧
    (IsValidated services.ast inputTable transform outputDetails →
      InvalidOutputsPrintable services context inputTable transform inputColumnNames
        inputDetailsList outputDetails) := by
  constructor
  · intro hprintable
    refine happlies.keepsRowsAligned hclosed hcontext hrectangular fun i hlt => ?_
    exact happlies.rowReady hrectangular hlt (hchecks i hlt) (hprintable i hlt)
  · intro hvalidated i _ value hvalue _
    exact happlies.isPrintable hvalidated hvalue

/-! ## Texts that are flags -/

def flagInput : PortDetails :=
  ⟨⟨.from, "x", ⟨some 0, []⟩⟩, .Text⟩

def flagOutput : PortDetails :=
  ⟨⟨.to, "y", ⟨some 1, []⟩⟩, .Boolean⟩

/-- `transform Parse { from x oftype text; to y oftype boolean; y: asBoolean x; }`. -/
def flagTransform : TransformDefinition :=
  ⟨"Parse", [flagInput.port, flagOutput.port],
    [⟨some flagOutput.port, .unaryExpression .asBoolean
      (.referenceLiteral (some (.transformPortDefinition flagInput.port)))⟩]⟩

/-- A block that replaces a column of texts by their truth values. -/
def flagServices : ExecutionServices :=
  sampleServices {
    valuetypes := [⟨"text", true, none, none, none⟩, ⟨"boolean", true, none, none, none⟩]
    constraints := []
    transforms := [flagTransform]
    blocks := [⟨"Transformer", none, [
      ⟨"inputColumns", .expression (.collectionLiteral [.textLiteral "flag"])⟩,
      ⟨"outputColumn", .expression (.textLiteral "flag")⟩,
      ⟨"uses", .expression (.referenceLiteral (some (.transformDefinition 0)))⟩]⟩]
    blockTypes := [] }

def flagTable : Table where
  numberOfRows := 3
  columns := JsMap.empty.set "flag" ⟨[.string "true", .string "a", .string "false"], .Text⟩

theorem getColumn_flagTable {name : String} {column : TableColumn}
    (h : flagTable.getColumn name = some column) :
    column = ⟨[.string "true", .string "a", .string "false"], .Text⟩ := by
  rw [Table.getColumn, flagTable, JsMap.get?_set] at h
  split at h
  · exact (Option.some.inj h).symm
  · cases h

theorem flagTable_isRectangular : flagTable.IsRectangular := by
  intro name column hcolumn
  rw [getColumn_flagTable hcolumn]
  rfl

theorem flagServices_closed : ClosedDefinitions flagServices.ast where
  constraints definition hdefinition := by cases hdefinition
  valuetypes definition hdefinition constraints hconstraints := by
    have hnone : definition.constraints = none := by
      rcases List.mem_pair.mp hdefinition with rfl | rfl <;> rfl
    rw [hnone] at hconstraints
    cases hconstraints

theorem flagBlock_applies : Applies flagServices (blockContext 0) flagTable 0 flagTransform
    ["flag"] "flag" [flagInput] flagOutput where
  inputColumns := rfl
  outputColumn := rfl
  uses := rfl
  definition := rfl
  input := ⟨rfl, fun details hdetails => by obtain rfl := List.mem_singleton.mp hdetails; rfl⟩
  output := ⟨rfl, fun details hdetails => by obtain rfl := List.mem_singleton.mp hdetails; rfl⟩
  distinct := by decide
  columns := .cons ⟨_, rfl, rfl⟩ .nil

theorem flagBlock_checksReturn : ChecksReturn flagServices (blockContext 0) flagTable
    flagTransform ["flag"] [flagInput] flagOutput := by
  intro i _ value _
  cases value <;> exact ⟨_, _, rfl⟩

theorem flagBlock_isValidated :
    IsValidated flagServices.ast flagTable flagTransform flagOutput where
  cells name column hcolumn value hvalue := by
    rw [getColumn_flagTable hcolumn] at hvalue ⊢
    obtain rfl | rfl | rfl : value = .string "true" ∨ value = .string "a" ∨
        value = .string "false" := by simpa using hvalue
    all_goals
      exact ValueType.hasType_primitive.mpr rfl
  outputType := rfl
  inputPorts outputAssignment hassignment port hport := by
    obtain rfl := List.mem_singleton.mp hassignment
    cases List.mem_singleton.mp hport
    exact ⟨List.mem_cons_self, rfl⟩
  noProperties outputAssignment hassignment name valueType hproperty := by
    obtain rfl := List.mem_singleton.mp hassignment
    cases List.mem_singleton.mp hproperty
  typed outputAssignment hassignment := by
    obtain rfl := List.mem_singleton.mp hassignment
    exact ⟨_, _, rfl, rfl⟩

theorem tableTransformer_keepsRowsAligned_flags :
    KeepsRowsAligned flagServices (blockContext 0) flagTable 0 ["flag"] "flag" [flagInput]
      flagOutput (rowValue flagServices flagTable flagTransform ["flag"] [flagInput] flagOutput
        (blockContext 0)) := by
  obtain ⟨haligned, hprintable⟩ := tableTransformer_keepsRowsAligned flagServices
    flagServices_closed _ (blockContext 0) (idle_blockContext 0) flagTable
    flagTable_isRectangular 0 flagTransform ["flag"] "flag" [flagInput] flagOutput
    flagBlock_applies flagBlock_checksReturn
  exact haligned (hprintable flagBlock_isValidated)

end TableTransformerExecutor

end Jayvee
