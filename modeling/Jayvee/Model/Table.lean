import Jayvee.Foundation.JsMap
import Jayvee.Model.Sheet
import Jayvee.Model.TransformExecutor
import Mathlib.Data.List.Sort

/-! # Tables -/

namespace Jayvee

open Foundation

/-- `Record<string, InternalValueRepresentation>`. -/
abbrev TableRow : Type :=
  JsMap String Value

/-- `row[name] = value` for a value that is no object: assigning it to the prototype does
nothing. -/
def TableRow.assign (row : TableRow) (name : String) (value : Value) : TableRow :=
  if name = "__proto__" then row else row.set name value

structure Table where
  numberOfRows : Nat
  columns : JsMap String TableColumn

namespace Table

/-- `assert(condition, message)`. -/
def assertWith (condition : Bool) (message : String) : Except JsError Unit :=
  if condition then .ok () else .error (.assertionError message)

theorem assertWith_eq_ok {condition : Bool} {message : String} {u : Unit} :
    assertWith condition message = .ok u ↔ condition = true := by
  cases condition <;> simp [assertWith]

def construct (numberOfRows : Nat) : Table where
  numberOfRows := numberOfRows
  columns := .empty

def getColumn (this : Table) (name : String) : Option TableColumn :=
  this.columns.get? name

def hasColumn (this : Table) (name : String) : Bool :=
  this.columns.has name

def addColumn (this : Table) (name : String) (column : TableColumn) : Except JsError Table := do
  assert (column.values.length = this.numberOfRows)
  return { this with columns := this.columns.set name column }

/-- The body of the loop of `addRow` over the entries of the row. -/
def pushValue (ast : Ast) (columns : JsMap String TableColumn) (entry : String × Value) :
    Except JsError (JsMap String TableColumn) :=
  let (columnName, value) := entry
  match columns.get? columnName with
  | none => .error (.assertionError "The expression evaluated to a falsy value")
  | some column => do
      assert (← column.valueType.isInternalValueRepresentation ast value)
      return columns.set columnName { column with values := column.values ++ [value] }

def addRow (ast : Ast) (this : Table) (row : TableRow) : Except JsError Table := do
  let rowLength := row.size
  assertWith (rowLength = this.columns.size)
    s!"Added row has the wrong dimension (expected: {this.columns.size}, actual: {rowLength})"
  if rowLength = 0 then
    return this
  assertWith (row.keys.all this.hasColumn) "Added row does not fit the columns in the table"
  let columns ← row.entries.foldlM (pushValue ast) this.columns
  return { numberOfRows := this.numberOfRows + 1, columns }

def dropRow (this : Table) (rowId : Nat) : Except JsError Table := do
  assert (rowId < this.numberOfRows)
  return {
    columns := this.columns.mapValues fun column =>
      { column with values := JsArray.splice column.values rowId }
    numberOfRows := this.numberOfRows - 1 }

/-- The later rows are deleted first. -/
def dropRows (this : Table) (rowIds : List Nat) : Except JsError Table :=
  (rowIds.insertionSort (· ≥ ·)).foldlM dropRow this

def clone (this : Table) : Except JsError Table :=
  this.columns.entries.foldlM (fun cloned entry => cloned.addColumn entry.1 entry.2)
    { numberOfRows := this.numberOfRows, columns := .empty }

end Table

end Jayvee
