import Jayvee.Model.InternalValue
import Jayvee.Model.TypeInference

/-! # Cell ranges -/

namespace Jayvee

open Foundation

/-! ## Cell indexes -/

/-- The sentinel for the last index of a sheet, `Number.MAX_SAFE_INTEGER`. -/
def LAST_INDEX : ℤ := 9007199254740991

structure CellIndexBounds where
  lastColumnIndex : ℤ
  lastRowIndex : ℤ

structure CellIndex where
  columnIndex : ℤ
  rowIndex : ℤ
  deriving DecidableEq, Repr

namespace CellIndex

def hasRelativeIndexes (this : CellIndex) : Bool :=
  this.columnIndex = LAST_INDEX || this.rowIndex = LAST_INDEX

def resolveIndex (index last : ℤ) : ℤ :=
  if index = LAST_INDEX then last else index

def resolveRelativeIndexes (this : CellIndex) (bounds : CellIndexBounds) : CellIndex where
  columnIndex := resolveIndex this.columnIndex bounds.lastColumnIndex
  rowIndex := resolveIndex this.rowIndex bounds.lastRowIndex

def isIndexInBounds (index max : ℤ) : Bool :=
  if max < 0 then
    false
  else
    index = LAST_INDEX || index ≤ max

def isInBounds (this : CellIndex) (bounds : CellIndexBounds) : Bool :=
  let columnInBounds := isIndexInBounds this.columnIndex bounds.lastColumnIndex
  let rowInBounds := isIndexInBounds this.rowIndex bounds.lastRowIndex
  columnInBounds && rowInBounds

end CellIndex

/-! ## Parsing of cell ids -/

/-- The loop of `columnCharactersAsIndex`: the characters are digits from 1 to 26. -/
def columnCharactersSum : (columnCharacters : List Char) → ℤ
  | [] => 0
  | c :: columnCharacters =>
      let characterIndex : ℤ := c.toNat - 'A'.toNat + 1
      characterIndex * 26 ^ columnCharacters.length + columnCharactersSum columnCharacters

def columnCharactersAsIndex (columnCharacters : String) : ℤ :=
  columnCharactersSum columnCharacters.toList - 1

def parseColumnId (columnId : String) : ℤ :=
  if columnId = "*" then LAST_INDEX else columnCharactersAsIndex columnId

def parseRowId : (rowId : RowIdValue) → ℤ
  | .star => LAST_INDEX
  | .index row => row - 1

/-- `parseInt` of a sequence of digits. -/
def parseInt (digits : List Char) : Nat :=
  digits.foldl (fun n c => 10 * n + (c.toNat - '0'.toNat)) 0

/-- The groups of the first match of `/([A-Z]+)([0-9]+)/`. -/
def execCellReferenceRegex : List Char → Option (List Char × List Char)
  | [] => none
  | c :: cs =>
      let letters := (c :: cs).takeWhile Char.isUpper
      let digits := ((c :: cs).drop letters.length).takeWhile Char.isDigit
      if letters ≠ [] ∧ digits ≠ [] then
        some (letters, digits)
      else
        execCellReferenceRegex cs

def parseStringCellReference (cellReference : String) : Except JsError (String × RowIdValue) :=
  match execCellReferenceRegex cellReference.toList with
  | some (columnIdMatch, rowIdMatch) =>
      .ok (String.ofList columnIdMatch, .index (parseInt rowIdMatch))
  | none =>
      .error (.assertionError
        "Cell IDs are expected to match the regular expression /([A-Z]+)([0-9]+)/")

/-- Reading a property of a node that the parser has left out. -/
def undefinedNodeError : JsError :=
  .error "Cannot read properties of undefined"

def ColumnId.getValue : Option ColumnId → Except JsError String
  | some ⟨some value⟩ => .ok value
  | _ => .error undefinedNodeError

def RowId.getValue : Option RowId → Except JsError RowIdValue
  | some ⟨some value⟩ => .ok value
  | _ => .error undefinedNodeError

/-- The ids of the column and the row of a cell. -/
def CellReference.getIds : Option CellReference → Except JsError (String × RowIdValue)
  | none => .error undefinedNodeError
  | some (.text cellReference) => parseStringCellReference cellReference
  | some (.ids columnId rowId) => do
      let columnId ← ColumnId.getValue columnId
      let rowId ← RowId.getValue rowId
      return (columnId, rowId)

def parseCellReference (cellReference : Option CellReference) : Except JsError CellIndex := do
  let (columnId, rowId) ← CellReference.getIds cellReference
  return ⟨parseColumnId columnId, parseRowId rowId⟩

/-! ## The wrapper -/

structure CellRangeWrapper where
  astNode : CellRangeLiteral
  «from» : CellIndex
  «to» : CellIndex
  deriving DecidableEq, Repr

namespace CellRangeWrapper

/-- The constructor, without explicit indexes. -/
def construct (cellRange : CellRangeLiteral) : Except JsError CellRangeWrapper :=
  match cellRange with
  | .cell cellId => do
      let cellIndex ← parseCellReference cellId
      return ⟨cellRange, cellIndex, cellIndex⟩
  | .column columnId => do
      let columnIndex := parseColumnId (← ColumnId.getValue columnId)
      return ⟨cellRange, ⟨columnIndex, 0⟩, ⟨columnIndex, LAST_INDEX⟩⟩
  | .row rowId => do
      let rowIndex := parseRowId (← RowId.getValue rowId)
      return ⟨cellRange, ⟨0, rowIndex⟩, ⟨LAST_INDEX, rowIndex⟩⟩
  | .range cellFrom cellTo => do
      let «from» ← parseCellReference cellFrom
      let «to» ← parseCellReference cellTo
      return ⟨cellRange, «from», «to»⟩

def isOneDimensional (this : CellRangeWrapper) : Bool :=
  this.from.columnIndex = this.to.columnIndex || this.from.rowIndex = this.to.rowIndex

def getNumberOfRows (this : CellRangeWrapper) : ℤ :=
  if this.from.rowIndex = LAST_INDEX ∧ this.to.rowIndex = LAST_INDEX then
    1
  else
    this.to.rowIndex - this.from.rowIndex + 1

def getNumberOfColumns (this : CellRangeWrapper) : ℤ :=
  if this.from.columnIndex = LAST_INDEX ∧ this.to.columnIndex = LAST_INDEX then
    1
  else
    this.to.columnIndex - this.from.columnIndex + 1

def numberOfCells (this : CellRangeWrapper) : ℤ :=
  let numberOfRows := this.getNumberOfRows
  let numberOfColumns := this.getNumberOfColumns
  numberOfRows * numberOfColumns

def isInBounds (this : CellRangeWrapper) (bounds : CellIndexBounds) : Bool :=
  this.from.isInBounds bounds && this.to.isInBounds bounds

def resolveRelativeIndexes (this : CellRangeWrapper) (bounds : CellIndexBounds) :
    CellRangeWrapper where
  astNode := this.astNode
  «from» := this.from.resolveRelativeIndexes bounds
  «to» := this.to.resolveRelativeIndexes bounds

def hasRelativeIndexes (this : CellRangeWrapper) : Bool :=
  this.from.hasRelativeIndexes || this.to.hasRelativeIndexes

end CellRangeWrapper

/-! ## Columns and rows -/

def isColumnWrapper (cellRange : CellRangeWrapper) : Bool :=
  match cellRange.astNode with
  | .column _ => true
  | .range _ _ =>
      cellRange.from.columnIndex = cellRange.to.columnIndex ∧
        cellRange.from.rowIndex = 0 ∧ cellRange.to.rowIndex = LAST_INDEX
  | _ => false

def getColumnIndex (column : CellRangeWrapper) : Except JsError ℤ :=
  if isColumnWrapper column then
    .ok column.from.columnIndex
  else
    .error (.assertionError "The expression evaluated to a falsy value")

def isRowWrapper (cellRange : CellRangeWrapper) : Bool :=
  match cellRange.astNode with
  | .row _ => true
  | .range _ _ =>
      cellRange.from.rowIndex = cellRange.to.rowIndex ∧
        cellRange.from.columnIndex = 0 ∧ cellRange.to.columnIndex = LAST_INDEX
  | _ => false

def getRowIndex (row : CellRangeWrapper) : Except JsError ℤ :=
  if isRowWrapper row then
    .ok row.from.rowIndex
  else
    .error (.assertionError "The expression evaluated to a falsy value")

/-! ## Validation -/

def checkRangeLimits (range : CellRangeWrapper) : Validation Unit :=
  if range.from.columnIndex > range.to.columnIndex ∨ range.from.rowIndex > range.to.rowIndex then
    accept .error "Cell ranges need to be spanned from top-left to bottom-right"
      { node := .expression (.cellRangeLiteral range.astNode) }
  else
    return

/-- The check of a range literal; the other cell range literals have none. -/
def validateRangeLiteral (range : CellRangeLiteral) : Validation Unit := do
  if !range.canBeWrapped then
    return
  let wrappedRange ← Exec.ofExcept (CellRangeWrapper.construct range)
  checkRangeLimits wrappedRange

/-- `/^[A-Z]+$/`. -/
def columnIdRegexTest (value : String) : Bool :=
  value.toList ≠ [] ∧ value.toList.all Char.isUpper

def checkColumnIdSyntax (columnId : ColumnId) : Validation Unit :=
  match columnId.value with
  | none => return
  | some value =>
      if value = "*" ∨ columnIdRegexTest value then
        return
      else
        accept .error "Columns need to be denoted via capital letters or the * character"
          { node := .columnId columnId, property := some "value" }

def validateColumnId (columnId : ColumnId) : Validation Unit :=
  checkColumnIdSyntax columnId

def CellReference.columnIds : Option CellReference → List ColumnId
  | some (.ids columnId _) => columnId.toList
  | _ => []

def CellRangeLiteral.columnIds : CellRangeLiteral → List ColumnId
  | .range cellFrom cellTo => CellReference.columnIds cellFrom ++ CellReference.columnIds cellTo
  | .column columnId => columnId.toList
  | .row _ => []
  | .cell cellId => CellReference.columnIds cellId

/-- The check that is registered for the literal itself. -/
def CellRangeLiteral.validate : CellRangeLiteral → Validation Unit
  | .range cellFrom cellTo => validateRangeLiteral (.range cellFrom cellTo)
  | _ => return

/-- The checks that are registered for the literal and its nodes. -/
def validateCellRangeLiteral (cellRange : CellRangeLiteral) : Validation Unit := do
  Exec.forEach cellRange.columnIds validateColumnId
  cellRange.validate

/-! ## Grammar -/

/-- `/[_a-zA-Z][\w_]*/`. -/
def isIdTerminal (text : String) : Bool :=
  match text.toList with
  | [] => false
  | c :: cs => (c.isAlpha || c = '_') && cs.all fun c => c.isAlphanum || c = '_'

/-- `/[A-Z]+/ INTEGER`. -/
def isCellReferenceTerminal (text : String) : Bool :=
  let letters := text.toList.takeWhile Char.isUpper
  let digits := text.toList.drop letters.length
  letters ≠ [] ∧ digits ≠ [] ∧ digits.all Char.isDigit

def ColumnId.isGrammatical : Option ColumnId → Bool
  | some ⟨some value⟩ => value = "*" || isIdTerminal value
  | _ => false

def RowId.isGrammatical : Option RowId → Bool
  | some ⟨some _⟩ => true
  | _ => false

def CellReference.isGrammatical : Option CellReference → Bool
  | some (.text cell) => isCellReferenceTerminal cell
  | some (.ids columnId rowId) => ColumnId.isGrammatical columnId && RowId.isGrammatical rowId
  | none => false

def CellRangeLiteral.isGrammatical : CellRangeLiteral → Bool
  | .range cellFrom cellTo =>
      CellReference.isGrammatical cellFrom && CellReference.isGrammatical cellTo
  | .column columnId => ColumnId.isGrammatical columnId
  | .row rowId => RowId.isGrammatical rowId
  | .cell cellId => CellReference.isGrammatical cellId

end Jayvee
