import Jayvee.Model.Table

/-! # Executors of table blocks -/

namespace Jayvee

open Foundation ExecutionContext

variable {δ : Type} (services : ExecutionServices)

/-- The error that is returned, with the diagnostic on a node. -/
def errorDetails {α : Type} (message : String) (diagnostic : DiagnosticInfo) : Result α :=
  .error { message, diagnostic }

/-! ## Table interpreter -/

namespace TableInterpreterExecutor

structure ColumnDefinitionEntry where
  sheetColumnIndex : Nat
  columnName : String
  valueType : ValueType
  astNode : ValuetypeAssignment

def createEntry (columnDefinition : ValuetypeAssignment) (sheetColumnIndex : Nat) :
    Except JsError ColumnDefinitionEntry := do
  match ← ValueType.wrap services.ast (some columnDefinition.type) with
  | none => .error (.assertionError "The expression evaluated to a falsy value")
  | some columnValuetype =>
      return ⟨sheetColumnIndex, columnDefinition.name, columnValuetype, columnDefinition⟩

def deriveColumnDefinitionEntriesWithoutHeader (columnDefinitions : List ValuetypeAssignment) :
    Except JsError (List ColumnDefinitionEntry) :=
  columnDefinitions.zipIdx.mapM fun (columnDefinition, columnDefinitionIndex) =>
    createEntry services columnDefinition columnDefinitionIndex

/-- Columns that the header does not name are left out. -/
def deriveColumnDefinitionEntriesFromHeader (headerRow : List (Option String)) :
    (columnDefinitions : List ValuetypeAssignment) → Except JsError (List ColumnDefinitionEntry)
  | [] => return []
  | columnDefinition :: columnDefinitions =>
      match headerRow.findIdx? fun headerColumnName =>
          headerColumnName = some columnDefinition.name with
      | none => deriveColumnDefinitionEntriesFromHeader headerRow columnDefinitions
      | some indexOfMatchingHeader => do
          let columnEntry ← createEntry services columnDefinition indexOfMatchingHeader
          let columnEntries ←
            deriveColumnDefinitionEntriesFromHeader headerRow columnDefinitions
          return columnEntry :: columnEntries

/-- `parseValueToInternalRepresentation` of a cell. No value type can be parsed from a cell that
is missing. -/
def parseCell (value : Option String) (valueType : ValueType) : Except JsError (Option Value) :=
  match value with
  | some value => parseValueToInternalRepresentation services.runtime services.ast value valueType
  | none =>
      valueType.askSupertypes services.ast
        (fun
          | .atomic _ => none
          | _ => some none)
        (.error (.assertionError "The expression evaluated to a falsy value"))
        (ValueType.hierarchyDepth services.ast)

def parseAndValidateValue (value : Option String) (valueType : ValueType) :
    ExecM δ (Option Value) := do
  match ← Exec.ofExcept (parseCell services value valueType) with
  | none => return none
  | some parsedValue => do
      if ← isValidValueRepresentation services parsedValue valueType then
        return some parsedValue
      return none

/-- The loop over the columns of a row. All cells are checked, also after an invalid one. -/
def fillTableRow (sheetRow : List (Option String)) :
    (columnEntries : List ColumnDefinitionEntry) → (invalidRow : Bool) → (tableRow : TableRow) →
      ExecM δ (Bool × TableRow)
  | [], invalidRow, tableRow => return (invalidRow, tableRow)
  | columnEntry :: columnEntries, invalidRow, tableRow => do
      let value := sheetRow[columnEntry.sheetColumnIndex]?.join
      match ← parseAndValidateValue services value columnEntry.valueType with
      | none => fillTableRow sheetRow columnEntries true tableRow
      | some parsedValue =>
          fillTableRow sheetRow columnEntries invalidRow
            (tableRow.assign columnEntry.columnName parsedValue)

def constructAndValidateTableRow (sheetRow : List (Option String))
    (columnEntries : List ColumnDefinitionEntry) : ExecM δ (Option TableRow) := do
  let (invalidRow, tableRow) ← fillTableRow services sheetRow columnEntries false .empty
  if invalidRow then
    return none
  Exec.ofExcept (assert (tableRow.size = columnEntries.length))
  return some tableRow

def addColumns (columnEntries : List ColumnDefinitionEntry) (table : Table) :
    Except JsError Table :=
  columnEntries.foldlM
    (fun table columnEntry =>
      table.addColumn columnEntry.columnName ⟨[], columnEntry.valueType⟩)
    table

/-- The loop over the rows of the sheet. -/
def addRows (columnEntries : List ColumnDefinitionEntry) :
    (sheetRows : List (List (Option String))) → (table : Table) → ExecM δ Table
  | [], table => return table
  | sheetRow :: sheetRows, table => do
      match ← constructAndValidateTableRow services sheetRow columnEntries with
      | none => addRows columnEntries sheetRows table
      | some tableRow => do
          let table ← Exec.ofExcept (table.addRow services.ast tableRow)
          addRows columnEntries sheetRows table

/-- The first row is skipped if it is the header. -/
def constructAndValidateTable (sheet : Sheet) (header : Bool)
    (columnEntries : List ColumnDefinitionEntry) : ExecM δ Table := do
  let table ← Exec.ofExcept (addColumns columnEntries (Table.construct 0))
  addRows services columnEntries (if header then sheet.data.tail else sheet.data) table

def getHeaderRow (sheet : Sheet) : Except JsError (List (Option String)) := do
  Table.assertWith (sheet.numberOfRows > 0)
    "The sheet is expected to be non-empty and have a header row"
  match sheet.data with
  | [] => .error (.error "Cannot read properties of undefined")
  | headerRow :: _ => return headerRow

def valuetypeAssignmentTypeguard : Value → Option ValuetypeAssignment
  | .valuetypeAssignment value => some value
  | _ => none

def columnDefinitionsTypeguard (value : Value) : Option (List ValuetypeAssignment) := do
  let values ← collectionTypeguard value
  values.mapM valuetypeAssignmentTypeguard

/-- The columns to read, or the error that the sheet does not have them. -/
def deriveColumnDefinitionEntries (inputSheet : Sheet) (header : Bool)
    (columnDefinitions : List ValuetypeAssignment) :
    ExecM δ (Result (List ColumnDefinitionEntry)) := do
  if header then
    if inputSheet.numberOfRows < 1 then
      let property ← getOrFailProperty services "header"
      return errorDetails "The input sheet is empty and thus has no header"
        { node := .propertyAssignment property }
    let headerRow ← Exec.ofExcept (getHeaderRow inputSheet)
    let columnEntries ← Exec.ofExcept
      (deriveColumnDefinitionEntriesFromHeader services headerRow columnDefinitions)
    return .ok columnEntries
  if inputSheet.numberOfColumns < columnDefinitions.length then
    let property ← getOrFailProperty services "columns"
    return errorDetails
      s!"There are {columnDefinitions.length} column definitions but the input sheet only has {inputSheet.numberOfColumns} columns"
      { node := .propertyAssignment property }
  let columnEntries ← Exec.ofExcept
    (deriveColumnDefinitionEntriesWithoutHeader services columnDefinitions)
  return .ok columnEntries

def doExecute (inputSheet : Sheet) : ExecM δ (Result Table) := do
  let header ← getTypedPropertyValue services Value.booleanTypeguard "header" .Boolean
  let columnDefinitions ← getTypedPropertyValue services columnDefinitionsTypeguard "columns"
    (.collection .ValuetypeAssignment)
  match ← deriveColumnDefinitionEntries services inputSheet header columnDefinitions with
  | .error details => return .error details
  | .ok columnEntries => do
      let resultingTable ←
        constructAndValidateTable services inputSheet header columnEntries
      return .ok resultingTable

end TableInterpreterExecutor

/-! ## Table transformer -/

namespace TableTransformerExecutor

def textsTypeguard (value : Value) : Option (List String) := do
  let values ← collectionTypeguard value
  values.mapM Value.stringTypeguard

def transformTypeguard : Value → Option TransformId
  | .transform id => some id
  | _ => none

/-- The loop over the input columns from `i` on. -/
def checkInputColumnsExist (inputTable : Table) :
    (inputColumnNames : List String) → (i : Nat) → ExecM δ (Result Unit)
  | [], _ => return .ok ()
  | inputColumnName :: inputColumnNames, i => do
      if (inputTable.getColumn inputColumnName).isNone then
        let property ← getOrFailProperty services "inputColumns"
        return errorDetails
          s!"The specified input column \"{inputColumnName}\" does not exist in the given table"
          { node := .propertyValue property.value, property := some "values", index := some i }
      checkInputColumnsExist inputTable inputColumnNames (i + 1)

/-- The loop over the input columns; the first port belongs to the first column. -/
def checkInputColumnsMatchTransformInputTypes (inputTable : Table) :
    (inputColumnNames : List String) → (transformInputDetailsList : List PortDetails) →
      (variableToColumnMap : JsMap String TableColumn) →
      ExecM δ (Result (JsMap String TableColumn))
  | [], _, variableToColumnMap => return .ok variableToColumnMap
  | inputColumnName :: inputColumnNames, transformInputDetailsList, variableToColumnMap => do
      match inputTable.getColumn inputColumnName, transformInputDetailsList with
      | some inputColumn, matchingInputDetails :: transformInputDetailsList => do
          let isConvertible ← Exec.ofExcept
            (inputColumn.valueType.isConvertibleTo services.ast matchingInputDetails.valueType)
          if !isConvertible then
            let property ← getOrFailProperty services "uses"
            let columnType := inputColumn.valueType.getName services.ast
            let portType := matchingInputDetails.valueType.getName services.ast
            return errorDetails
              s!"Type {columnType} of column \"{inputColumnName}\" is not convertible to type {portType}"
              { node := .propertyAssignment property }
          checkInputColumnsMatchTransformInputTypes inputTable inputColumnNames
            transformInputDetailsList
            (variableToColumnMap.set matchingInputDetails.port.name inputColumn)
      | _, _ => Exec.throw (.assertionError "The expression evaluated to a falsy value")

def createOutputTable (inputTable : Table) (transformResult : TransformResult)
    (outputColumnName : String) : Except JsError Table := do
  let outputTable ← inputTable.clone
  let outputTable ← outputTable.dropRows transformResult.rowsToDelete
  outputTable.addColumn outputColumnName transformResult.resultingColumn

/-- The ports of the transform that a property refers to. -/
def getPortDetails (usedTransform : TransformId) : ExecM δ (List PortDetails × PortDetails) :=
  match services.ast.transforms[usedTransform]? with
  | none => Exec.throw (.assertionError "The expression evaluated to a falsy value")
  | some definition => do
      let inputDetailsList ← TransformExecutor.getInputDetails services.ast definition
      let outputDetails ← TransformExecutor.getOutputDetails services.ast definition
      return (inputDetailsList, outputDetails)

def doExecute (inputTable : Table) : ExecM δ (Result Table) := do
  let inputColumnNames ←
    getTypedPropertyValue services textsTypeguard "inputColumns" (.collection .Text)
  let outputColumnName ←
    getTypedPropertyValue services Value.stringTypeguard "outputColumn" .Text
  let usedTransform ← getTypedPropertyValue services transformTypeguard "uses" .Transform
  match ← checkInputColumnsExist services inputTable inputColumnNames 0 with
  | .error details => return .error details
  | .ok _ => do
      let (transformInputDetailsList, _) ← getPortDetails services usedTransform
      match ← checkInputColumnsMatchTransformInputTypes services inputTable inputColumnNames
          transformInputDetailsList .empty with
      | .error details => return .error details
      | .ok variableToColumnMap => do
          let transformResult ← TransformExecutor.executeTransform services usedTransform
            variableToColumnMap.get? inputTable.numberOfRows
          let outputTable ←
            Exec.ofExcept (createOutputTable inputTable transformResult outputColumnName)
          return .ok outputTable

end TableTransformerExecutor

end Jayvee
