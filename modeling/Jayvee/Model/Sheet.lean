import Jayvee.Foundation.JsArray
import Jayvee.Model.CellRange

/-! # Sheets -/

namespace Jayvee

open Foundation

/-- `assert`. -/
def assert (condition : Bool) : Except JsError Unit :=
  if condition then
    .ok ()
  else
    .error (.assertionError "The expression evaluated to a falsy value")

theorem assert_eq_ok {condition : Bool} {u : Unit} :
    assert condition = .ok u ↔ condition = true := by
  cases condition <;> simp [assert]

/-- The number of rows and columns is stored next to the data. A cell is a hole where a row
was extended behind its end. -/
structure Sheet where
  data : List (List (Option String))
  numberOfRows : ℤ
  numberOfColumns : ℤ
  deriving DecidableEq, Repr

namespace Sheet

/-- The reduction over the rows in the constructor. -/
def maxRowLength (data : List (List (Option String))) : Nat :=
  data.foldl (fun prev curr => if curr.length > prev then curr.length else prev) 0

def construct (data : List (List (Option String))) : Sheet where
  data := data
  numberOfRows := data.length
  numberOfColumns := maxRowLength data

/-- A sheet of texts. -/
def ofTexts (data : List (List String)) : Sheet :=
  construct (data.map fun row => row.map some)

def clone (this : Sheet) : Sheet :=
  construct this.data

/-! ## Bounds -/

def getBounds (this : Sheet) : CellIndexBounds where
  lastColumnIndex := this.numberOfColumns - 1
  lastRowIndex := this.numberOfRows - 1

def isInBounds (this : Sheet) (range : CellRangeWrapper) : Bool :=
  range.isInBounds this.getBounds

def resolveRelativeIndexes (this : Sheet) (range : CellRangeWrapper) : CellRangeWrapper :=
  if range.hasRelativeIndexes then
    range.resolveRelativeIndexes this.getBounds
  else
    range

/-! ## Operations -/

def deleteRow (this : Sheet) (row : CellRangeWrapper) : Except JsError Sheet := do
  assert (this.isInBounds row)
  let row := this.resolveRelativeIndexes row
  let rowIndex ← getRowIndex row
  return { this with
    data := JsArray.splice this.data rowIndex
    numberOfRows := this.numberOfRows - 1 }

def deleteColumn (this : Sheet) (column : CellRangeWrapper) : Except JsError Sheet := do
  assert (this.isInBounds column)
  let column := this.resolveRelativeIndexes column
  let columnIndex ← getColumnIndex column
  return { this with
    data := this.data.map fun row => JsArray.splice row columnIndex
    numberOfColumns := this.numberOfColumns - 1 }

def writeCell (this : Sheet) (absoluteCell : CellIndex) (content : String) :
    Except JsError Sheet := do
  assert (absoluteCell.isInBounds this.getBounds)
  match JsArray.get? this.data absoluteCell.rowIndex with
  | none => .error (.error "Cannot set properties of undefined")
  | some row =>
      return { this with
        data := this.data.set absoluteCell.rowIndex.toNat
          (JsArray.assign row absoluteCell.columnIndex content) }

/-- The rows of a range, cut to its columns. -/
def selectCells (data : List (List (Option String))) (range : CellRangeWrapper) :
    List (List (Option String)) :=
  let rows := data.zipIdx.filter fun (_, rowIndex) =>
    ¬ (rowIndex < range.from.rowIndex ∨ range.to.rowIndex < rowIndex)
  rows.map fun (row, _) =>
    JsArray.slice row range.from.columnIndex (range.to.columnIndex + 1)

def selectRange (this : Sheet) (range : CellRangeWrapper) : Except JsError Sheet := do
  assert (this.isInBounds range)
  let range := this.resolveRelativeIndexes range
  return {
    data := selectCells this.data range
    numberOfColumns := range.to.columnIndex - range.from.columnIndex + 1
    numberOfRows := range.to.rowIndex - range.from.rowIndex + 1 }

/-- The values of a loop variable that counts from `first` up to `last`. -/
def countUp (first last : ℤ) : List ℤ :=
  (List.range (last - first + 1).toNat).map fun (i : Nat) => first + i

def enumerateCellIndexes (this : Sheet) (range : CellRangeWrapper) : List CellIndex :=
  let resolvedRange := this.resolveRelativeIndexes range
  (countUp resolvedRange.from.rowIndex resolvedRange.to.rowIndex).flatMap fun row =>
    (countUp resolvedRange.from.columnIndex resolvedRange.to.columnIndex).map fun column =>
      ⟨column, row⟩

end Sheet

/-- A call of one of the operations. -/
inductive SheetOperation where
  | deleteRow (row : CellRangeWrapper)
  | deleteColumn (column : CellRangeWrapper)
  | writeCell (absoluteCell : CellIndex) (content : String)
  | selectRange (range : CellRangeWrapper)
  | clone
  deriving DecidableEq, Repr

namespace SheetOperation

def execute (sheet : Sheet) : SheetOperation → Except JsError Sheet
  | deleteRow row => sheet.deleteRow row
  | deleteColumn column => sheet.deleteColumn column
  | writeCell absoluteCell content => sheet.writeCell absoluteCell content
  | selectRange range => sheet.selectRange range
  | clone => .ok sheet.clone

end SheetOperation

end Jayvee
