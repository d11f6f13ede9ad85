import Jayvee.Model.TableExecutors

/-! # Executors of deleter blocks -/

namespace Jayvee

open Foundation ExecutionContext

variable {δ : Type} (services : ExecutionServices)

namespace CellRangeWrapper

/-- `wrapperFactories.CellRange.wrap`. -/
def wrap (toBeWrapped : CellRangeLiteral) : Except JsError CellRangeWrapper :=
  if toBeWrapped.canBeWrapped then
    construct toBeWrapped
  else
    .error (.assertionError "AstNode <unnamed ast node> cannot be wrapped")

end CellRangeWrapper

/-! ## Texts of indexes -/

/-- The loop of `columnIndexAsCharacters`, with the characters so far. -/
def columnCharactersOf (value : Nat) (columnCharacters : List Char) : List Char :=
  let remainder := value % 26
  let quotient := if remainder ≠ 0 then value / 26 else value / 26 - 1
  let character := if remainder ≠ 0 then Char.ofNat (remainder + 'A'.toNat - 1) else 'Z'
  if quotient > 0 then
    columnCharactersOf quotient (character :: columnCharacters)
  else
    character :: columnCharacters
  termination_by value
  decreasing_by
    by_cases hremainder : value % 26 = 0 <;> simp_all [quotient, remainder] <;> omega

/-- No index of a column is below minus one. -/
def columnIndexAsCharacters (columnIndex : ℤ) : String :=
  String.ofList (columnCharactersOf (columnIndex + 1).toNat [])

def columnIndexToString (columnIndex : ℤ) : String :=
  if columnIndex = LAST_INDEX then "*" else columnIndexAsCharacters columnIndex

def rowIndexToString (rowIndex : ℤ) : String :=
  if rowIndex = LAST_INDEX then "*" else s!"{rowIndex + 1}"

/-! ## Rows and columns -/

/-- What the deleters of rows and of columns do each in their own way. -/
structure LineKind where
  name : String
  isWrapper : CellRangeWrapper → Bool
  getIndex : CellRangeWrapper → Except JsError ℤ
  indexToString : ℤ → String
  delete : Sheet → CellRangeWrapper → Except JsError Sheet

namespace LineKind

def row : LineKind where
  name := "row"
  isWrapper := isRowWrapper
  getIndex := getRowIndex
  indexToString := rowIndexToString
  delete := Sheet.deleteRow

def column : LineKind where
  name := "column"
  isWrapper := isColumnWrapper
  getIndex := getColumnIndex
  indexToString := columnIndexToString
  delete := Sheet.deleteColumn

variable (this : LineKind)

/-! ## Validation -/

/-- The loop over the cell ranges of the property `delete`. -/
def checkCellRange (cellRange : CellRangeLiteral) : Validation Unit := do
  if !cellRange.canBeWrapped then
    return
  let cellRangeWrapper ← Exec.ofExcept (CellRangeWrapper.wrap cellRange)
  if !this.isWrapper cellRangeWrapper then
    accept .error s!"An entire {this.name} needs to be selected"
      { node := .expression (.cellRangeLiteral cellRangeWrapper.astNode) }

def cellRangeTypeguard : Value → Option CellRangeLiteral
  | .cellRange literal => some literal
  | _ => none

def cellRangesTypeguard (value : Value) : Option (List CellRangeLiteral) := do
  let values ← collectionTypeguard value
  values.mapM cellRangeTypeguard

def checkDeleterProperty (evaluationContext : EvaluationContext) (property : PropertyAssignment) :
    Validation Unit := do
  if property.name ≠ "delete" then
    return
  match ← evaluatePropertyValue services.ast services.runtime property evaluationContext
      (.collection .CellRange) with
  | none => return
  | some value => Exec.forEach ((cellRangesTypeguard value).getD []) this.checkCellRange

/-! ## Execution -/

/-- The loop over the lines. -/
def checkLinesExist (inputSheet : Sheet) :
    (absoluteLines : List CellRangeWrapper) → Except JsError (Result Unit)
  | [] => return .ok ()
  | line :: absoluteLines => do
      if !inputSheet.isInBounds line then
        let index ← this.getIndex line
        return errorDetails
          s!"The specified {this.name} {this.indexToString index} does not exist in the sheet"
          { node := .expression (.cellRangeLiteral line.astNode) }
      checkLinesExist inputSheet absoluteLines

/-- `sort` is stable. It compares each element of an array of several elements. -/
def sortByIndex (lines : List CellRangeWrapper) : Except JsError (List CellRangeWrapper) := do
  if lines.length ≤ 1 then
    return lines
  let indexedLines ← lines.mapM fun line => do
    let index ← this.getIndex line
    return (index, line)
  return (indexedLines.insertionSort fun first second => first.1 ≤ second.1).map Prod.snd

/-- The reduction over the lines from `index` on. -/
def removeDuplicatesFrom (index : Nat) (previous : List CellRangeWrapper) :
    (lines : List CellRangeWrapper) → Except JsError (List CellRangeWrapper)
  | [] => return previous
  | line :: lines => do
      match JsArray.get? previous (index - 1) with
      | none => removeDuplicatesFrom (index + 1) (previous ++ [line]) lines
      | some previousLine => do
          if (← this.getIndex previousLine) = (← this.getIndex line) then
            removeDuplicatesFrom (index + 1) previous lines
          else
            removeDuplicatesFrom (index + 1) (previous ++ [line]) lines

def removeDuplicates (lines : List CellRangeWrapper) : Except JsError (List CellRangeWrapper) :=
  this.removeDuplicatesFrom 0 [] lines

/-- The message for the log. -/
def deletionMessage (lines : List CellRangeWrapper) : Except JsError String := do
  let indexes ← lines.mapM this.getIndex
  let texts := ", ".intercalate (indexes.map this.indexToString)
  return s!"Deleting {this.name}(s) {texts}"

def deleteLines (inputSheet : Sheet) (cellRanges : List CellRangeLiteral) :
    Except JsError (Result Sheet) := do
  let relativeLines ← cellRanges.mapM CellRangeWrapper.wrap
  assert (relativeLines.all this.isWrapper)
  let absoluteLines := relativeLines.map inputSheet.resolveRelativeIndexes
  match ← this.checkLinesExist inputSheet absoluteLines with
  | .error details => return .error details
  | .ok _ => do
      let sortedLines ← this.sortByIndex absoluteLines
      let distinctLines ← this.removeDuplicates sortedLines
      -- What is logged is not kept, but making the text can fail.
      let _ ← this.deletionMessage distinctLines
      let resultingSheet ← distinctLines.reverse.foldlM this.delete inputSheet.clone
      return .ok resultingSheet

def doExecute (inputSheet : Sheet) : ExecM δ (Result Sheet) := do
  let cellRanges ← getTypedPropertyValue services cellRangesTypeguard "delete"
    (.collection .CellRange)
  Exec.ofExcept (this.deleteLines inputSheet cellRanges)

end LineKind

def RowDeleterExecutor.doExecute (inputSheet : Sheet) : ExecM δ (Result Sheet) :=
  LineKind.row.doExecute services inputSheet

def ColumnDeleterExecutor.doExecute (inputSheet : Sheet) : ExecM δ (Result Sheet) :=
  LineKind.column.doExecute services inputSheet

def checkRowDeleterProperty (evaluationContext : EvaluationContext)
    (property : PropertyAssignment) : Validation Unit :=
  LineKind.row.checkDeleterProperty services evaluationContext property

def checkColumnDeleterProperty (evaluationContext : EvaluationContext)
    (property : PropertyAssignment) : Validation Unit :=
  LineKind.column.checkDeleterProperty services evaluationContext property

end Jayvee
