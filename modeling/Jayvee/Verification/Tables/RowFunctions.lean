import Jayvee.Verification.Execution.VariableFrame
import Jayvee.Verification.Tables.AlignedTransformer
import Jayvee.Verification.Tables.InterpretedTable
import Jayvee.Verification.Tables.Rows

/-! # Blocks on tables as functions on rows

A table interpreter makes a row from a row of the sheet, and a table transformer makes one from a
row of the table, or they omit the row. -/

namespace Jayvee

open Foundation ExecutionContext ValueType

variable {δ : Type}

/-! ## Relations -/

/-- The values of a row, by the names of their columns. -/
abbrev Row : Type :=
  String → Option Value

/-- The types of columns, in the order of the columns. -/
abbrev Schema : Type :=
  JsMap String ValueType

namespace Table

def schema (this : Table) : Schema where
  entries := this.columns.entries.map fun entry => (entry.1, entry.2.valueType)
  nodup := by
    rw [List.map_map]
    exact this.columns.nodup

@[simp]
theorem keys_schema (this : Table) : this.schema.keys = this.columns.keys :=
  List.map_map

@[simp]
theorem get?_schema (this : Table) (name : String) :
    this.schema.get? name = (this.getColumn name).map TableColumn.valueType :=
  JsMap.lookup_map_snd TableColumn.valueType this.columns.entries

/-- The table stands for the rows: its columns have the types of the schema, and its cells are
values of them. -/
structure Holds (ast : Ast) (this : Table) (schema : Schema) (rows : List Row) : Prop where
  schema_eq : this.schema = schema
  rows_eq : this.rows = rows
  wellFormed : this.WellFormed fun value valueType => HasType ast valueType value

variable {ast : Ast} {this : Table} {schema : Schema} {rows : List Row}

theorem Holds.isRectangular (h : this.Holds ast schema rows) : this.IsRectangular :=
  fun name column hcolumn => (h.wellFormed name column hcolumn).length

theorem Holds.get?_schema (h : this.Holds ast schema rows) (name : String) :
    schema.get? name = (this.getColumn name).map TableColumn.valueType := by
  rw [← h.schema_eq, Table.get?_schema]

theorem Holds.rowAt_mem (h : this.Holds ast schema rows) {rowId : Nat}
    (hlt : rowId < this.numberOfRows) : this.rowAt rowId ∈ rows := by
  rw [← h.rows_eq]
  exact List.mem_map_of_mem (List.mem_range.mpr hlt)

end Table

/-! ## Checks in a context with the same parameters -/

section Checks

variable {services : ExecutionServices} {provider : RuntimeParameterProvider}
  {start context : ExecutionContext δ}

theorem isValid_of_idle (hclosed : ClosedDefinitions services.ast) (hstart : Idle provider start)
    (hcontext : Idle provider context) {value : Value} {valueType : ValueType} {isValid : Bool}
    (h : ∃ after, isValidValueRepresentation services value valueType start =
      some (.ok isValid, after)) :
    ∃ after, isValidValueRepresentation services value valueType context =
      some (.ok isValid, after) := by
  obtain ⟨after, h⟩ := h
  exact ⟨context, visitValueRepresentation_of_idle hclosed hstart hcontext h⟩

namespace TableInterpreterExecutor

theorem cellValue_congr (hclosed : ClosedDefinitions services.ast) (hstart : Idle provider start)
    (hcontext : Idle provider context) (sheetRow : List (Option String))
    (columnEntry : ColumnDefinitionEntry) :
    cellValue services context sheetRow columnEntry =
      cellValue services start sheetRow columnEntry := by
  refine Option.ext fun value => ?_
  simp only [cellValue_eq_some_iff]
  refine exists_congr fun text => and_congr_right fun _ => and_congr_right fun _ => ?_
  exact ⟨isValid_of_idle hclosed hcontext hstart, isValid_of_idle hclosed hstart hcontext⟩

end TableInterpreterExecutor

namespace TransformExecutor

variable {transform : TransformDefinition} {valueType : ValueType}
  {evaluationContext : EvaluationContext}

theorem keptValue_eq_some_iff {value : Value} :
    keptValue services context transform valueType evaluationContext = some value ↔
      outputValue services.runtime transform evaluationContext = some value ∧
      ∃ after, isValidValueRepresentation services value valueType context =
        some (.ok true, after) := by
  constructor
  · intro h
    unfold keptValue at h
    split at h
    · cases h
    · rename_i value hvalue
      split at h
      · rename_i after hvalid
        cases h
        exact ⟨hvalue, after, hvalid⟩
      · cases h
  · rintro ⟨hvalue, after, hvalid⟩
    unfold keptValue
    simp only [hvalue, hvalid]

theorem keptValue_congr (hclosed : ClosedDefinitions services.ast) (hstart : Idle provider start)
    (hcontext : Idle provider context) :
    keptValue services context transform valueType evaluationContext =
      keptValue services start transform valueType evaluationContext := by
  refine Option.ext fun value => ?_
  simp only [keptValue_eq_some_iff]
  refine and_congr_right fun _ => ?_
  exact ⟨isValid_of_idle hclosed hcontext hstart, isValid_of_idle hclosed hstart hcontext⟩

end TransformExecutor

end Checks

/-! ## Table interpreters -/

namespace TableInterpreterExecutor

def schemaOf (columnEntries : List ColumnDefinitionEntry) : Schema :=
  columnEntries.foldl
    (fun schema columnEntry => schema.set columnEntry.columnName columnEntry.valueType) .empty

def readRow (services : ExecutionServices) (start : ExecutionContext δ)
    (columnEntries : List ColumnDefinitionEntry) (sheetRow : List (Option String)) : Row :=
  fun name =>
    (columnEntries.find? fun columnEntry => columnEntry.columnName == name).bind
      (cellValue services start sheetRow)

/-- The row of the table that is made from a row of the sheet. -/
def interpretRow (services : ExecutionServices) (start : ExecutionContext δ)
    (columnEntries : List ColumnDefinitionEntry) (sheetRow : List (Option String)) : Option Row :=
  if isKept services start columnEntries sheetRow then
    some (readRow services start columnEntries sheetRow)
  else
    none

/-- What a table interpreter block is configured with. -/
structure InterpreterBlock where
  block : BlockId
  header : Bool
  columnDefinitions : List ValuetypeAssignment
  valueTypes : ValuetypeAssignment → ValueType

namespace InterpreterBlock

/-- The properties of the block, as they are evaluated in a context. -/
structure Reads (services : ExecutionServices) (context : ExecutionContext δ)
    (this : InterpreterBlock) : Prop where
  header : getTypedPropertyValue services Value.booleanTypeguard "header" .Boolean context =
    some (.ok this.header, context)
  columns : getTypedPropertyValue services columnDefinitionsTypeguard "columns"
    (.collection .ValuetypeAssignment) context = some (.ok this.columnDefinitions, context)

structure IsValidated (ast : Ast) (this : InterpreterBlock) : Prop where
  typed : ColumnsTyped ast this.valueTypes this.columnDefinitions
  distinct : (this.columnDefinitions.map ValuetypeAssignment.name).Nodup
  proto : ∀ columnDefinition ∈ this.columnDefinitions, columnDefinition.name ≠ "__proto__"

def columnEntries (this : InterpreterBlock) (inputSheet : Sheet) : List ColumnDefinitionEntry :=
  boundColumns this.valueTypes this.header inputSheet.data this.columnDefinitions

/-- The sheet has the columns to be read, and no constraint raises an error on its cells. -/
structure Takes (services : ExecutionServices) (start : ExecutionContext δ)
    (this : InterpreterBlock) (inputSheet : Sheet) : Prop where
  numberOfRows : inputSheet.numberOfRows = inputSheet.data.length
  present : ColumnsPresent inputSheet this.header this.columnDefinitions
  bound : this.columnEntries inputSheet ≠ []
  checked : ∀ sheetRow ∈ dataRows this.header inputSheet.data,
    CellsChecked services start (this.columnEntries inputSheet) sheetRow

end InterpreterBlock

section Interpreter

variable {services : ExecutionServices} {start : ExecutionContext δ}
  {columnEntries : List ColumnDefinitionEntry} {sheetRows : List (List (Option String))}

theorem filterMap_interpretRow : sheetRows.filterMap (interpretRow services start columnEntries) =
    (sheetRows.filter (isKept services start columnEntries)).map
      (readRow services start columnEntries) := by
  rw [← List.filterMap_eq_map, List.filterMap_filter]
  rfl

theorem entries_schemaOf (hnodup : (columnEntries.map ColumnDefinitionEntry.columnName).Nodup) :
    (schemaOf columnEntries).entries =
      columnEntries.map fun columnEntry => (columnEntry.columnName, columnEntry.valueType) := by
  have hfold : ∀ (columnEntries : List ColumnDefinitionEntry) (schema : Schema),
      (columnEntries.map ColumnDefinitionEntry.columnName).Nodup →
      (∀ columnEntry ∈ columnEntries, columnEntry.columnName ∉ schema.keys) →
      (columnEntries.foldl (fun schema columnEntry =>
        schema.set columnEntry.columnName columnEntry.valueType) schema).entries =
          schema.entries ++ columnEntries.map fun columnEntry =>
            (columnEntry.columnName, columnEntry.valueType) := by
    intro columnEntries
    induction columnEntries with
    | nil => exact fun schema _ _ => (List.append_nil _).symm
    | cons columnEntry columnEntries ih =>
        intro schema hnodup hfresh
        rw [List.map_cons, List.nodup_cons] at hnodup
        rw [List.forall_mem_cons] at hfresh
        have hentries : (schema.set columnEntry.columnName columnEntry.valueType).entries =
            schema.entries ++ [(columnEntry.columnName, columnEntry.valueType)] :=
          JsMap.entries_set_of_not_mem hfresh.1
        rw [List.foldl_cons, ih _ hnodup.2, hentries, List.append_assoc]
        · rfl
        · intro other hother
          rw [JsMap.keys, hentries, List.map_append, List.mem_append, not_or]
          refine ⟨hfresh.2 other hother, fun hmem => hnodup.1 ?_⟩
          have hsame : other.columnName = columnEntry.columnName := List.mem_singleton.mp hmem
          exact hsame ▸ List.mem_map_of_mem hother
  exact hfold columnEntries .empty hnodup fun _ _ => List.not_mem_nil

theorem keys_schemaOf (hnodup : (columnEntries.map ColumnDefinitionEntry.columnName).Nodup) :
    (schemaOf columnEntries).keys = columnEntries.map ColumnDefinitionEntry.columnName := by
  rw [JsMap.keys, entries_schemaOf hnodup]
  exact List.map_map

theorem get?_schemaOf (hnodup : (columnEntries.map ColumnDefinitionEntry.columnName).Nodup)
    {columnEntry : ColumnDefinitionEntry} (h : columnEntry ∈ columnEntries) :
    (schemaOf columnEntries).get? columnEntry.columnName = some columnEntry.valueType := by
  rw [← JsMap.mem_entries_iff, entries_schemaOf hnodup]
  exact List.mem_map_of_mem h

section Interpretation

variable {table : Table}

theorem IsInterpretation.exists_entry
    (h : IsInterpretation services start columnEntries sheetRows table) {name : String}
    {column : TableColumn} (hcolumn : table.getColumn name = some column) :
    ∃ columnEntry ∈ columnEntries, columnEntry.columnName = name := by
  have hmem := JsMap.mem_keys_of_get? hcolumn
  rw [h.names] at hmem
  exact List.mem_map.mp hmem

theorem IsInterpretation.schema_eq
    (h : IsInterpretation services start columnEntries sheetRows table)
    (hnodup : (columnEntries.map ColumnDefinitionEntry.columnName).Nodup) :
    table.schema = schemaOf columnEntries := by
  have hkeys : table.columns.keys = (schemaOf columnEntries).keys :=
    h.names.trans (keys_schemaOf hnodup).symm
  refine JsMap.ext_get? ((Table.keys_schema table).trans hkeys) fun name => ?_
  rw [Table.get?_schema]
  cases hcolumn : table.getColumn name with
  | none =>
      by_contra hsome
      obtain ⟨valueType, hvalueType⟩ := Option.ne_none_iff_exists'.mp (Ne.symm hsome)
      have hmem := JsMap.mem_keys_of_get? hvalueType
      rw [← hkeys] at hmem
      obtain ⟨column, hget⟩ := JsMap.exists_get?_of_mem_keys hmem
      cases hcolumn.symm.trans hget
  | some column =>
      obtain ⟨columnEntry, hmem, rfl⟩ := h.exists_entry hcolumn
      obtain ⟨values, hget, _⟩ := h.cells columnEntry hmem
      cases hcolumn.symm.trans hget
      exact (get?_schemaOf hnodup hmem).symm

theorem IsInterpretation.rowAt_eq
    (h : IsInterpretation services start columnEntries sheetRows table)
    (hnodup : (columnEntries.map ColumnDefinitionEntry.columnName).Nodup) {rowId : Nat}
    (hlt : rowId < (sheetRows.filter (isKept services start columnEntries)).length) :
    readRow services start columnEntries
      (sheetRows.filter (isKept services start columnEntries))[rowId] = table.rowAt rowId := by
  funext name
  rw [Table.rowAt, readRow]
  cases hcolumn : table.getColumn name with
  | none =>
      have hnone : columnEntries.find? (fun columnEntry => columnEntry.columnName == name) =
          none := by
        rw [List.find?_eq_none]
        intro columnEntry hmem hname
        obtain ⟨values, hget, _⟩ := h.cells columnEntry hmem
        rw [beq_iff_eq.mp hname, hcolumn] at hget
        cases hget
      rw [hnone]
      rfl
  | some column =>
      obtain ⟨columnEntry, hmem, rfl⟩ := h.exists_entry hcolumn
      obtain ⟨values, hget, hvalues⟩ := h.cells columnEntry hmem
      cases hcolumn.symm.trans hget
      have hvalue := congrArg (fun values => values[rowId]?.join) hvalues
      simp only [List.getElem?_map, List.getElem?_eq_getElem hlt, Option.map_some,
        Option.join_some] at hvalue
      rw [JsArray.find?_of_nodup_map hnodup hmem, Option.bind_some, Option.bind_some, ← hvalue]
      cases values[rowId]? <;> rfl

/-- The table that was read stands for the rows that were made, one after the other. -/
theorem IsInterpretation.holds
    (h : IsInterpretation services start columnEntries sheetRows table)
    (hnodup : (columnEntries.map ColumnDefinitionEntry.columnName).Nodup) :
    table.Holds services.ast (schemaOf columnEntries)
      (sheetRows.filterMap (interpretRow services start columnEntries)) := by
  refine ⟨h.schema_eq hnodup, Table.rows_eq ?_ fun rowId hlt => ?_, fun name column hcolumn => ?_⟩
  · rw [filterMap_interpretRow, List.length_map]
    exact h.numberOfRows.symm
  · rw [h.numberOfRows] at hlt
    rw [filterMap_interpretRow, List.getElem?_map, List.getElem?_eq_getElem hlt, Option.map_some,
      h.rowAt_eq hnodup hlt]
  · obtain ⟨columnEntry, hmem, rfl⟩ := h.exists_entry hcolumn
    obtain ⟨values, hget, hvalues⟩ := h.cells columnEntry hmem
    cases hcolumn.symm.trans hget
    refine ⟨?_, fun value hvalue => ?_⟩
    · have hlength := congrArg List.length hvalues
      rw [List.length_map, List.length_map] at hlength
      exact hlength.trans h.numberOfRows.symm
    · have hsome : some value ∈ values.map some := List.mem_map_of_mem hvalue
      rw [hvalues] at hsome
      obtain ⟨sheetRow, _, hcell⟩ := List.mem_map.mp hsome
      exact hasType_of_cellValue hcell

end Interpretation

end Interpreter

section Execution

variable {services : ExecutionServices} {provider : RuntimeParameterProvider}
  {start context : ExecutionContext δ}

/-- The interpreter makes a row from each row of the sheet, or omits it. -/
theorem InterpreterBlock.doExecute_holds (hclosed : ClosedDefinitions services.ast)
    (hstart : Idle provider start) {this : InterpreterBlock}
    (hvalidated : this.IsValidated services.ast) {inputSheet : Sheet}
    (htakes : this.Takes services start inputSheet) (hcontext : Idle provider context)
    (hreads : this.Reads services context) :
    ∃ table, doExecute services inputSheet context = some (.ok (.ok table), context) ∧
      table.Holds services.ast (schemaOf (this.columnEntries inputSheet))
        ((dataRows this.header inputSheet.data).filterMap
          (interpretRow services start (this.columnEntries inputSheet))) := by
  have hnodup : ((this.columnEntries inputSheet).map ColumnDefinitionEntry.columnName).Nodup :=
    hvalidated.distinct.sublist (boundColumns_names_sublist _ _ _ _)
  have hdefined : ∀ columnEntry ∈ this.columnEntries inputSheet,
      ∃ columnDefinition ∈ this.columnDefinitions, ∃ sheetColumnIndex,
        columnEntry = bindColumn this.valueTypes columnDefinition sheetColumnIndex :=
    fun _ hmem => mem_boundColumns hmem
  have hproto : ∀ columnEntry ∈ this.columnEntries inputSheet,
      columnEntry.columnName ≠ "__proto__" := by
    intro columnEntry hmem
    obtain ⟨columnDefinition, hdefinition, _, rfl⟩ := hdefined columnEntry hmem
    exact hvalidated.proto columnDefinition hdefinition
  have hchecked : ∀ sheetRow ∈ dataRows this.header inputSheet.data,
      RowChecked services context (this.columnEntries inputSheet) sheetRow := by
    intro sheetRow hrow
    refine ⟨fun columnEntry hmem => ?_, fun columnEntry hmem text parsedValue htext hparsed => ?_⟩
    · obtain ⟨columnDefinition, hdefinition, _, rfl⟩ := hdefined columnEntry hmem
      exact (hvalidated.typed columnDefinition hdefinition).2
    · obtain ⟨isValid, hvalid⟩ :=
        htakes.checked sheetRow hrow columnEntry hmem text parsedValue htext hparsed
      exact ⟨isValid, isValid_of_idle hclosed hstart hcontext hvalid⟩
  obtain ⟨empty, hempty, hcolumnsOnly⟩ := exists_table services context hnodup
  obtain ⟨table, htable, hrows⟩ :=
    addRows_eq hcontext.keyword hnodup hproto htakes.bound hchecked hcolumnsOnly
  have hconstruct : constructAndValidateTable services inputSheet this.header
      (this.columnEntries inputSheet) context = some (.ok table, context) := by
    rw [constructAndValidateTable, hempty]
    exact (Exec.bind_of_ok (Exec.ofExcept_apply _ _)).trans htable
  refine ⟨table, ?_, ?_⟩
  · rw [doExecute, Exec.bind_of_ok hreads.header, Exec.bind_of_ok hreads.columns,
      Exec.bind_of_ok (deriveColumnDefinitionEntries_eq htakes.numberOfRows hvalidated.typed
        htakes.present)]
    dsimp only
    exact Exec.bind_of_ok hconstruct
  · have hcells : cellValue services context = cellValue services start := by
      funext sheetRow columnEntry
      exact cellValue_congr hclosed hstart hcontext sheetRow columnEntry
    have hkept : isKept services context = isKept services start := by
      funext columnEntries sheetRow
      rw [isKept, isKept, hcells]
    rw [List.nil_append] at hrows
    have hrowsOfStart := hrows.isInterpretation.holds hnodup
    unfold interpretRow readRow at hrowsOfStart ⊢
    rwa [hcells, hkept] at hrowsOfStart

end Execution

end TableInterpreterExecutor

/-! ## Table transformers -/

namespace TableTransformerExecutor

open TransformExecutor

/-- What a table transformer block is configured with. -/
structure TransformerBlock where
  block : BlockId
  usedTransform : TransformId
  transform : TransformDefinition
  inputColumnNames : List String
  outputColumnName : String
  inputDetailsList : List PortDetails
  outputDetails : PortDetails

namespace TransformerBlock

/-- The ports of the transform have the values of their columns in the row. -/
def environment (this : TransformerBlock) (evaluationContext : EvaluationContext) (row : Row) :
    EvaluationContext :=
  { evaluationContext with
    variableValues := fun name =>
      if name ∈ this.inputDetailsList.map fun inputDetails => inputDetails.port.name then
        (((this.inputDetailsList.map fun inputDetails => inputDetails.port.name).zip
          this.inputColumnNames).lookup name).bind row
      else
        evaluationContext.variableValues name }

/-- The row with the value of the output column, which replaces one of the same name. -/
def transformRow (services : ExecutionServices) (start : ExecutionContext δ)
    (this : TransformerBlock) (row : Row) : Option Row :=
  (keptValue services start this.transform this.outputDetails.valueType
    (this.environment start.evaluationContext row)).map fun value =>
      Function.update row this.outputColumnName (some value)

def outputSchema (this : TransformerBlock) (schema : Schema) : Schema :=
  schema.set this.outputColumnName this.outputDetails.valueType

/-- The properties of the block, as they are evaluated in a context. -/
structure Reads (services : ExecutionServices) (context : ExecutionContext δ)
    (this : TransformerBlock) : Prop where
  inputColumns : getTypedPropertyValue services textsTypeguard "inputColumns"
    (.collection .Text) context = some (.ok this.inputColumnNames, context)
  outputColumn : getTypedPropertyValue services Value.stringTypeguard "outputColumn" .Text
    context = some (.ok this.outputColumnName, context)
  uses : getTypedPropertyValue services transformTypeguard "uses" .Transform context =
    some (.ok this.usedTransform, context)

/-- What the language server has checked about the transform, and the types of the columns that
it is applied to. -/
structure IsValidated (ast : Ast) (schema : Schema) (this : TransformerBlock) : Prop where
  definition : ast.transforms[this.usedTransform]? = some this.transform
  input : IsPortDetails ast this.transform .from this.inputDetailsList
  output : IsPortDetails ast this.transform .to [this.outputDetails]
  distinct : (this.transform.ports.map TransformPortDefinition.name).Nodup
  columns : List.Forall₂ (fun inputColumnName inputDetails =>
      ∃ valueType, schema.get? inputColumnName = some valueType ∧
        valueType.isConvertibleTo ast inputDetails.valueType = .ok true)
    this.inputColumnNames this.inputDetailsList
  outputType : this.outputDetails.valueType.isReferenceableByUser ast = .ok true
  inputPorts : ∀ outputAssignment ∈ this.transform.outputAssignments, ∀ port,
    .transformPortDefinition port ∈ outputAssignment.expression.references →
    port ∈ this.transform.ports ∧ port.kind = .from
  noProperties : ∀ outputAssignment ∈ this.transform.outputAssignments, ∀ name valueType,
    .blockTypeProperty name valueType ∉ outputAssignment.expression.references
  typed : ∀ outputAssignment ∈ this.transform.outputAssignments, ∃ T diagnostics,
    inferExpressionType ast none outputAssignment.expression [] =
        some (.ok (some T), diagnostics) ∧
      T.isConvertibleTo ast this.outputDetails.valueType = .ok true

/-- No constraint raises an error on the output value of the row. -/
def ChecksRow (services : ExecutionServices) (start : ExecutionContext δ)
    (this : TransformerBlock) (row : Row) : Prop :=
  ∀ value, outputValue services.runtime this.transform
      (this.environment start.evaluationContext row) = some value →
    ∃ isValid after, isValidValueRepresentation services value this.outputDetails.valueType
      start = some (.ok isValid, after)

/-- No port has the name of a variable that has a value already. -/
def PortsUnbound (evaluationContext : EvaluationContext) (this : TransformerBlock) : Prop :=
  ∀ port ∈ this.transform.ports, port.kind = .from →
    evaluationContext.variableValues port.name = none

section Transformer

variable {services : ExecutionServices} {provider : RuntimeParameterProvider}
  {start context : ExecutionContext δ} {this : TransformerBlock} {schema : Schema}
  {rows : List Row} {table : Table}

theorem rowContext_eq (evaluationContext : EvaluationContext) (rowId : Nat) :
    rowContext (portColumns table this.inputColumnNames this.inputDetailsList)
      this.inputDetailsList rowId evaluationContext =
        this.environment evaluationContext (table.rowAt rowId) := by
  rw [rowContext, environment]
  congr 1
  funext name
  rw [portColumns, Option.bind_assoc]
  rfl

theorem Reads.applies (hreads : this.Reads services context)
    (hvalidated : this.IsValidated services.ast schema)
    (htable : table.Holds services.ast schema rows) :
    Applies services context table this.usedTransform this.transform this.inputColumnNames
      this.outputColumnName this.inputDetailsList this.outputDetails where
  inputColumns := hreads.inputColumns
  outputColumn := hreads.outputColumn
  uses := hreads.uses
  definition := hvalidated.definition
  input := hvalidated.input
  output := hvalidated.output
  distinct := hvalidated.distinct
  columns := by
    refine hvalidated.columns.imp fun inputColumnName inputDetails hcolumn => ?_
    obtain ⟨valueType, hvalueType, hconvertible⟩ := hcolumn
    rw [htable.get?_schema] at hvalueType
    obtain ⟨column, hcolumn, rfl⟩ := Option.map_eq_some_iff.mp hvalueType
    exact ⟨column, hcolumn, hconvertible⟩

theorem IsValidated.isValidated (hvalidated : this.IsValidated services.ast schema)
    (htable : table.Holds services.ast schema rows) :
    TableTransformerExecutor.IsValidated services.ast table this.transform
      this.outputDetails where
  cells name column hcolumn := (htable.wellFormed name column hcolumn).valid
  outputType := hvalidated.outputType
  inputPorts := hvalidated.inputPorts
  noProperties := hvalidated.noProperties
  typed := hvalidated.typed

end Transformer

end TransformerBlock

section Output

variable {ast : Ast} {table outputTable : Table} {keep : Nat → Option Value}
  {outputDetails : PortDetails} {outputColumnName : String} {schema : Schema} {rows : List Row}

theorem IsOutputTable.schema_eq
    (h : IsOutputTable table keep outputDetails outputColumnName outputTable) :
    outputTable.schema = table.schema.set outputColumnName outputDetails.valueType := by
  refine JsMap.ext_get? ?_ fun name => ?_
  · rw [Table.keys_schema, h.columnNames, ← Table.keys_schema table]
    exact (JsMap.keys_setEntry _ _ _).symm
  · rw [Table.get?_schema, JsMap.get?_set, Table.get?_schema]
    by_cases hname : name = outputColumnName
    · rw [if_pos hname, hname, h.outputColumn, Option.map_some]
    · rw [if_neg hname, h.otherColumns name hname, Option.map_map]
      rfl

theorem isSome_of_mem_keptRows {numberOfRows rowId : Nat}
    (h : rowId ∈ keptRows keep numberOfRows) : (keep rowId).isSome :=
  (List.mem_filter.mp h).2

theorem lt_of_mem_keptRows {numberOfRows rowId : Nat}
    (h : rowId ∈ keptRows keep numberOfRows) : rowId < numberOfRows :=
  List.mem_range.mp (List.mem_filter.mp h).1

/-- A row of the output table is the row that was kept, with the new value. -/
theorem IsOutputTable.rows_eq (hrectangular : table.IsRectangular)
    (h : IsOutputTable table keep outputDetails outputColumnName outputTable) :
    outputTable.rows = (keptRows keep table.numberOfRows).map fun rowId =>
      Function.update (table.rowAt rowId) outputColumnName (keep rowId) := by
  refine Table.rows_eq ?_ fun rowId hlt => ?_
  · rw [List.length_map, h.numberOfRows]
  rw [h.numberOfRows] at hlt
  rw [List.getElem?_map, List.getElem?_eq_getElem hlt, Option.map_some]
  refine congrArg some (funext fun name => ?_)
  rw [Table.rowAt]
  by_cases hname : name = outputColumnName
  · rw [hname, h.outputColumn, Function.update_self, Option.bind_some,
      JsArray.getElem?_filterMap_of_isSome fun _ => isSome_of_mem_keptRows,
      List.getElem?_eq_getElem hlt, Option.bind_some]
  · rw [h.otherColumns name hname, Function.update_of_ne hname, Table.rowAt]
    cases hcolumn : table.getColumn name with
    | none => rfl
    | some column =>
        have hsome : ∀ i ∈ keptRows keep table.numberOfRows, (column.values[i]?).isSome := by
          intro i hi
          have hbound := lt_of_mem_keptRows hi
          rw [← hrectangular name column hcolumn] at hbound
          simp [hbound]
        rw [Option.map_some, Option.bind_some, Option.bind_some, keptValues,
          JsArray.getElem?_filterMap_of_isSome hsome, List.getElem?_eq_getElem hlt,
          Option.bind_some]

theorem IsOutputTable.wellFormed
    (htable : table.WellFormed fun value valueType => HasType ast valueType value)
    (h : IsOutputTable table keep outputDetails outputColumnName outputTable)
    (hkeep : ∀ rowId < table.numberOfRows, ∀ value, keep rowId = some value →
      HasType ast outputDetails.valueType value) :
    outputTable.WellFormed fun value valueType => HasType ast valueType value := by
  intro name column hcolumn
  by_cases hname : name = outputColumnName
  · rw [hname] at hcolumn
    cases hcolumn.symm.trans h.outputColumn
    refine ⟨?_, fun value hvalue => ?_⟩
    · rw [h.numberOfRows]
      exact length_filterMap_keptRows keep table.numberOfRows
    · obtain ⟨rowId, hrowId, hvalue⟩ := List.mem_filterMap.mp hvalue
      exact hkeep rowId (lt_of_mem_keptRows hrowId) value hvalue
  · have hother := hcolumn.symm.trans (h.otherColumns name hname)
    obtain ⟨inputColumn, hinput, rfl⟩ := Option.map_eq_some_iff.mp hother.symm
    obtain ⟨hlength, hvalid⟩ := htable name inputColumn hinput
    refine ⟨?_, fun value hvalue => ?_⟩
    · rw [h.numberOfRows, keptValues, List.filterMap_length_eq_length]
      intro rowId hrowId
      have hbound := lt_of_mem_keptRows hrowId
      rw [← hlength] at hbound
      simp [hbound]
    · obtain ⟨rowId, _, hvalue⟩ := List.mem_filterMap.mp hvalue
      exact hvalid value (List.mem_of_getElem? hvalue)

end Output

section Execution

variable {services : ExecutionServices} {provider : RuntimeParameterProvider}
  {start context : ExecutionContext δ} {this : TransformerBlock} {schema : Schema}
  {rows : List Row} {table : Table}

/-- The rows that are kept, each with its new value. -/
theorem filterMap_transformRow {keep : Nat → Option Value}
    (hkeep : ∀ rowId, keep rowId = keptValue services start this.transform
      this.outputDetails.valueType
      (this.environment start.evaluationContext (table.rowAt rowId))) :
    table.rows.filterMap (this.transformRow services start) =
      (keptRows keep table.numberOfRows).map fun rowId =>
        Function.update (table.rowAt rowId) this.outputColumnName (keep rowId) := by
  rw [Table.rows, List.filterMap_map, keptRows, ← List.filterMap_eq_map, List.filterMap_filter]
  refine List.filterMap_congr fun rowId _ => ?_
  rw [Function.comp_apply, TransformerBlock.transformRow, ← hkeep]
  cases hvalue : keep rowId with
  | none => rfl
  | some value =>
      rw [Option.map_some, Option.isSome_some, if_pos rfl, Function.comp_apply, hvalue]

/-- What is left of the variables if no port had the name of one. -/
theorem evaluationContext_of_rowState {columns : String → Option TableColumn}
    {numberOfRows : Nat} {result : TransformResult} {after : ExecutionContext δ}
    (hdefinition : services.ast.transforms[this.usedTransform]? = some this.transform)
    (hunbound : this.PortsUnbound context.evaluationContext)
    (hstate : RowState (this.inputDetailsList.map fun inputDetails => inputDetails.port.name)
      context after)
    (hrun : executeTransform services this.usedTransform columns numberOfRows context =
      some (.ok result, after)) : after.evaluationContext = context.evaluationContext := by
  have hsame : SameVariables context after :=
    (executeTransform_sameVariables_iff hdefinition hrun).mpr (.inr hunbound)
  obtain ⟨hprovider, hkeyword⟩ := hstate.parameters
  have hvalues : after.evaluationContext.variableValues =
      context.evaluationContext.variableValues := funext hsame
  cases hafter : after.evaluationContext
  cases hbefore : context.evaluationContext
  rw [hafter, hbefore] at hprovider hkeyword hvalues
  cases hprovider
  cases hkeyword
  cases hvalues
  rfl

/-- The transformer makes a row from each row of the table, or omits it. -/
theorem TransformerBlock.doExecute_holds (hclosed : ClosedDefinitions services.ast)
    (hstart : Idle provider start) (hvalidated : this.IsValidated services.ast schema)
    (hunbound : this.PortsUnbound start.evaluationContext)
    (htable : table.Holds services.ast schema rows)
    (hchecks : ∀ row ∈ rows, this.ChecksRow services start row)
    (hcontext : context.evaluationContext = start.evaluationContext)
    (hreads : this.Reads services context) :
    ∃ outputTable after, doExecute services table context =
        some (.ok (.ok outputTable), after) ∧
      after.stack = context.stack ∧ after.evaluationContext = start.evaluationContext ∧
      outputTable.Holds services.ast (this.outputSchema schema)
        (rows.filterMap (this.transformRow services start)) := by
  have hidle : Idle provider context :=
    ⟨hcontext ▸ hstart.provider, hcontext ▸ hstart.keyword⟩
  have happlies := hreads.applies hvalidated htable
  have hoftable := hvalidated.isValidated htable
  let keep := rowValue services table this.transform this.inputColumnNames this.inputDetailsList
    this.outputDetails context
  have hkeep : ∀ rowId, keep rowId = keptValue services start this.transform
      this.outputDetails.valueType
      (this.environment start.evaluationContext (table.rowAt rowId)) := by
    intro rowId
    rw [← hcontext, ← rowContext_eq, ← keptValue_congr hclosed hstart hidle]
    rfl
  have hready : ∀ i, i < table.numberOfRows → RowReady services context context this.transform
      (portColumns table this.inputColumnNames this.inputDetailsList) this.inputDetailsList
      this.outputDetails i := by
    intro i hlt
    refine happlies.rowReady htable.isRectangular hlt (fun value hvalue => ?_)
      fun value hvalue _ => happlies.isPrintable hoftable hvalue
    rw [rowVariables, rowContext_eq, hcontext] at hvalue
    obtain ⟨isValid, hvalid⟩ := hchecks _ (htable.rowAt_mem hlt) value hvalue
    exact ⟨isValid, isValid_of_idle hclosed hstart hidle hvalid⟩
  obtain ⟨after, hexecute, hstate⟩ := executeTransform_rowState hclosed hidle
    happlies.definition happlies.input happlies.output (fun i => (rfl : keep i = _)) hready
  obtain ⟨outputTable, hdoExecute, houtput⟩ :=
    happlies.doExecute_eq htable.isRectangular hexecute
  have hafter := evaluationContext_of_rowState happlies.definition (hcontext ▸ hunbound) hstate
    hexecute
  refine ⟨outputTable, after, hdoExecute, hstate.stack, hafter.trans hcontext, ?_, ?_, ?_⟩
  · rw [houtput.schema_eq, htable.schema_eq]
    rfl
  · rw [houtput.rows_eq htable.isRectangular, ← htable.rows_eq, filterMap_transformRow hkeep]
  · refine houtput.wellFormed htable.wellFormed fun rowId _ value hvalue => ?_
    obtain ⟨_, _, hvalid⟩ := keptValue_eq_some_iff.mp hvalue
    exact hasType_of_isValidValueRepresentation hvalid

end Execution

end TableTransformerExecutor

end Jayvee
