import Jayvee.Model.Table

/-! # SQL statements for tables -/

namespace Jayvee

open Foundation

/-! ## Visitors of value types -/

/-- `valueType.acceptVisitor(visitor)`. An atomic value type passes the visitor on to its
supertype. -/
def acceptVisitor {α : Type} (ast : Ast) (visitor : ValueType → Option (Except JsError α))
    (valueType : ValueType) : Except JsError α := do
  let visited ← valueType.askSupertypes ast visitor
    (.error (.assertionError "The expression evaluated to a falsy value"))
    (ValueType.hierarchyDepth ast)
  visited

def visitUnsupported {α : Type} (name : String) : Except JsError α :=
  .error (.error s!"No visit implementation given for {name}. Cannot be the type of a column.")

def sqlColumnTypeVisitor : ValueType → Option (Except JsError String)
  | .primitive .boolean => some (.ok "boolean")
  | .primitive .decimal => some (.ok "real")
  | .primitive .integer => some (.ok "integer")
  | .primitive .text => some (.ok "text")
  | .primitive .regex => some (visitUnsupported "regex")
  | .primitive .cellRange => some (visitUnsupported "cell ranges")
  | .primitive .constraint => some (visitUnsupported "constraints")
  | .primitive .valuetypeAssignment => some (visitUnsupported "valueType assignments")
  | .primitive .transform => some (visitUnsupported "transforms")
  | .emptyCollection | .collection _ => some (visitUnsupported "collections")
  | .atomic _ => none

namespace SQLValueRepresentationVisitor

/-- `value.replace(/'/g, "''")`. -/
def escapeSingleQuotes (value : String) : String :=
  String.ofList (value.toList.flatMap fun c => if c = '\'' then ['\'', '\''] else [c])

def visitBoolean (value : Value) : Except JsError String := do
  assert (PrimitiveValueType.boolean.isInternalValueRepresentation value)
  return if value.booleanTypeguard = some true then "'true'" else "'false'"

def visitDecimal (runtime : JsRuntime) (value : Value) : Except JsError String := do
  assert (PrimitiveValueType.decimal.isInternalValueRepresentation value)
  return value.toString runtime

def visitInteger (runtime : JsRuntime) (value : Value) : Except JsError String := do
  assert (PrimitiveValueType.integer.isInternalValueRepresentation value)
  return value.toString runtime

def visitText (runtime : JsRuntime) (value : Value) : Except JsError String := do
  assert (PrimitiveValueType.text.isInternalValueRepresentation value)
  return "'" ++ escapeSingleQuotes (value.toString runtime) ++ "'"

end SQLValueRepresentationVisitor

open SQLValueRepresentationVisitor in
def sqlValueRepresentationVisitor (runtime : JsRuntime) :
    ValueType → Option (Except JsError (Value → Except JsError String))
  | .primitive .boolean => some (.ok visitBoolean)
  | .primitive .decimal => some (.ok (visitDecimal runtime))
  | .primitive .integer => some (.ok (visitInteger runtime))
  | .primitive .text => some (.ok (visitText runtime))
  | .primitive .regex => some (visitUnsupported "regex")
  | .primitive .cellRange => some (visitUnsupported "cell ranges")
  | .primitive .constraint => some (visitUnsupported "constraints")
  | .primitive .valuetypeAssignment => some (visitUnsupported "value type assignments")
  | .primitive .transform => some (visitUnsupported "transforms")
  | .emptyCollection | .collection _ => some (visitUnsupported "collections")
  | .atomic _ => none

/-! ## Statements -/

namespace Table

/-- The body of the loop of `getRow` over the columns. -/
def setRowValue (rowId : Nat) (row : JsMap String Value) (entry : String × TableColumn) :
    Except JsError (JsMap String Value) :=
  match entry.2.values[rowId]? with
  | none => .error (.assertionError "The expression evaluated to a falsy value")
  | some value => .ok (row.set entry.1 value)

def getRow (this : Table) (rowId : Nat) : Except JsError (JsMap String Value) :=
  if rowId ≥ this.numberOfRows then
    .error (.error s!"Trying to access table row {rowId} (of {this.numberOfRows} rows)")
  else
    this.columns.entries.foldlM (setRowValue rowId) .empty

def generateDropTableStatement (tableName : String) : String :=
  "DROP TABLE IF EXISTS \"" ++ tableName ++ "\";"

/-- The body of the loop over the names of the columns. -/
def formatValue (runtime : JsRuntime) (ast : Ast) (this : Table) (rowIndex : Nat)
    (columnName : String) : Except JsError String :=
  match this.columns.get? columnName with
  | none => .error (.assertionError "The expression evaluated to a falsy value")
  | some column =>
      match column.values[rowIndex]? with
      | none => .error (.assertionError "The expression evaluated to a falsy value")
      | some entry => do
          let format ← acceptVisitor ast (sqlValueRepresentationVisitor runtime) column.valueType
          format entry

/-- The body of the loop over the rows. -/
def formatRowValues (runtime : JsRuntime) (ast : Ast) (this : Table) (columnNames : List String)
    (rowIndex : Nat) : Except JsError String := do
  let rowValues ← columnNames.mapM (this.formatValue runtime ast rowIndex)
  return "(" ++ ",".intercalate rowValues ++ ")"

def generateInsertValuesStatement (runtime : JsRuntime) (ast : Ast) (this : Table)
    (tableName : String) : Except JsError String := do
  let columnNames := this.columns.keys
  let formattedRowValues ←
    (List.range this.numberOfRows).mapM (this.formatRowValues runtime ast columnNames)
  let formattedColumns := ",".intercalate (columnNames.map fun c => "\"" ++ c ++ "\"")
  return "INSERT INTO \"" ++ tableName ++ "\" (" ++ formattedColumns ++ ") VALUES " ++
    ", ".intercalate formattedRowValues

def formatColumn (ast : Ast) (entry : String × TableColumn) : Except JsError String := do
  let columnType ← acceptVisitor ast sqlColumnTypeVisitor entry.2.valueType
  return "\"" ++ entry.1 ++ "\" " ++ columnType

def generateCreateTableStatement (ast : Ast) (this : Table) (tableName : String) :
    Except JsError String := do
  let columnStatements ← this.columns.entries.mapM (formatColumn ast)
  return "CREATE TABLE IF NOT EXISTS \"" ++ tableName ++ "\" (" ++
    ",".intercalate columnStatements ++ ");"

end Table

/-! ## Loaders -/

/-- The statements that are executed: all up to the first that cannot be generated or fails. -/
def runQueries (succeeds : String → Bool) : List (Except JsError String) → List String
  | [] => []
  | .error _ :: _ => []
  | .ok query :: queries =>
      if succeeds query then query :: runQueries succeeds queries else [query]

/-- The queries of `PostgresLoaderExecutor`. -/
def PostgresLoaderExecutor.queries (runtime : JsRuntime) (ast : Ast) (input : Table)
    (table : String) : List (Except JsError String) :=
  [.ok (Table.generateDropTableStatement table), input.generateCreateTableStatement ast table,
    input.generateInsertValuesStatement runtime ast table]

/-- The queries of `SQLiteLoaderExecutor`. -/
def SQLiteLoaderExecutor.queries (runtime : JsRuntime) (ast : Ast) (input : Table)
    (table : String) (dropTable : Bool) : List (Except JsError String) :=
  (if dropTable then [.ok (Table.generateDropTableStatement table)] else []) ++
    [input.generateCreateTableStatement ast table,
      input.generateInsertValuesStatement runtime ast table]

end Jayvee
