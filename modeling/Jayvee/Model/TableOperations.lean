import Jayvee.Model.Table

/-! # Calls on a table, and what they leave behind -/

namespace Jayvee

open Foundation

/-! ## Entries of an object -/

/-- The array index whose text a key is. -/
def arrayIndexOf (key : String) : Option Nat :=
  let index := parseInt key.toList
  if toString index = key ∧ index < 2 ^ 32 - 1 then some index else none

/-- `Object.entries(row)`: array indexes come first, in ascending order. -/
def TableRow.objectEntries (row : TableRow) : List (String × Value) :=
  let indexed := row.entries.filter fun entry => (arrayIndexOf entry.1).isSome
  let named := row.entries.filter fun entry => (arrayIndexOf entry.1).isNone
  indexed.insertionSort (fun first second =>
    (arrayIndexOf first.1).getD 0 ≤ (arrayIndexOf second.1).getD 0) ++ named

namespace Table

/-! ## Rows -/

/-- The loop over the entries of the row in `addRow`. What it pushed before an error stays. -/
def pushValues (ast : Ast) : (entries : List (String × Value)) →
    (columns : JsMap String TableColumn) → Except JsError Unit × JsMap String TableColumn
  | [], columns => (.ok (), columns)
  | entry :: entries, columns =>
      match pushValue ast columns entry with
      | .error error => (.error error, columns)
      | .ok columns => pushValues ast entries columns

/-- `addRow` as a call: what it returns or throws, and the table after it. -/
def callAddRow (ast : Ast) (this : Table) (row : TableRow) : Except JsError Unit × Table :=
  let rowLength := row.size
  if rowLength ≠ this.columns.size then
    (.error (.assertionError
      s!"Added row has the wrong dimension (expected: {this.columns.size}, actual: {rowLength})"),
      this)
  else if rowLength = 0 then
    (.ok (), this)
  else if !row.keys.all this.hasColumn then
    (.error (.assertionError "Added row does not fit the columns in the table"), this)
  else
    match pushValues ast row.objectEntries this.columns with
    | (.error error, columns) => (.error error, { this with columns })
    | (.ok _, columns) => (.ok (), { numberOfRows := this.numberOfRows + 1, columns })

/-! ## Operations -/

inductive TableOperation where
  | addColumn (name : String) (column : TableColumn)
  | addRow (row : TableRow)
  | dropRow (rowId : Nat)
  | dropRows (rowIds : List Nat)
  | clone

/-- The table after the operation, or the clone. -/
def perform (ast : Ast) (this : Table) : TableOperation → Except JsError Table
  | .addColumn name column => this.addColumn name column
  | .addRow row => this.addRow ast row
  | .dropRow rowId => this.dropRow rowId
  | .dropRows rowIds => this.dropRows rowIds
  | .clone => this.clone

end Table

end Jayvee
