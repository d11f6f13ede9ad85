import Jayvee.Model.DeleterExecutors
import Jayvee.Model.PipelineValidation

/-! # Executors that select and write cells -/

namespace Jayvee

open Foundation ExecutionContext
open TableTransformerExecutor (textsTypeguard)

variable {δ : Type} (services : ExecutionServices)

/-! ## Selecting a cell range -/

namespace CellRangeSelectorExecutor

/-- What `doExecute` does with the property `select`. -/
def selectCellRange (inputSheet : Sheet) (relativeRange : CellRangeLiteral) :
    Except JsError (Result Sheet) := do
  let relativeRangeWrapper ← CellRangeWrapper.wrap relativeRange
  let absoluteRange := inputSheet.resolveRelativeIndexes relativeRangeWrapper
  if !inputSheet.isInBounds absoluteRange then
    return errorDetails "The specified cell range does not fit the sheet"
      { node := .expression (.cellRangeLiteral absoluteRange.astNode) }
  let resultingSheet ← inputSheet.clone.selectRange absoluteRange
  return .ok resultingSheet

def doExecute (inputSheet : Sheet) : ExecM δ (Result Sheet) := do
  let relativeRange ←
    getTypedPropertyValue services LineKind.cellRangeTypeguard "select" .CellRange
  Exec.ofExcept (selectCellRange inputSheet relativeRange)

end CellRangeSelectorExecutor

/-! ## Writing cells -/

namespace CellWriterExecutor

/-- What `doExecute` does with the properties `at` and `write`. If there are not as many values
as cells, a warning is logged. -/
def writeTexts (inputSheet : Sheet) (relativeCellRange : CellRangeLiteral)
    (writeValues : List String) : Except JsError (Result Sheet) := do
  let relativeCellRangeWrapper ← CellRangeWrapper.wrap relativeCellRange
  assert relativeCellRangeWrapper.isOneDimensional
  let absoluteCellRange := inputSheet.resolveRelativeIndexes relativeCellRangeWrapper
  if !inputSheet.isInBounds absoluteCellRange then
    return errorDetails "Some specified cells do not exist in the sheet"
      { node := .expression (.cellRangeLiteral absoluteCellRange.astNode) }
  let cellIndexesToWrite := inputSheet.enumerateCellIndexes relativeCellRangeWrapper
  let resultingSheet ← (cellIndexesToWrite.zip writeValues).foldlM
    (fun sheet cell => sheet.writeCell cell.1 cell.2) inputSheet.clone
  return .ok resultingSheet

def doExecute (inputSheet : Sheet) : ExecM δ (Result Sheet) := do
  let relativeCellRange ←
    getTypedPropertyValue services LineKind.cellRangeTypeguard "at" .CellRange
  let writeValues ← getTypedPropertyValue services textsTypeguard "write" (.collection .Text)
  Exec.ofExcept (writeTexts inputSheet relativeCellRange writeValues)

end CellWriterExecutor

/-! ## Validation -/

def numberOfValuesMessage (numberOfValuesToWrite : Nat) (numberOfCells : ℤ) : String :=
  s!"The number of values to write ({numberOfValuesToWrite}) does not match the number of cells ({numberOfCells})"

/-- What is compared of the values of the two properties. -/
def checkNumberOfValues (writeProperty atProperty : PropertyAssignment)
    (writeValues : List String) (atValue : CellRangeLiteral) : Validation Unit := do
  if !atValue.canBeWrapped then
    return
  let atValueWrapper ← Exec.ofExcept (CellRangeWrapper.wrap atValue)
  let numberOfValuesToWrite := writeValues.length
  let numberOfCells := atValueWrapper.numberOfCells
  if numberOfCells ≠ numberOfValuesToWrite then
    Exec.forEach [writeProperty, atProperty] fun propertyNode =>
      accept .warning (numberOfValuesMessage numberOfValuesToWrite numberOfCells)
        { node := .propertyValue propertyNode.value }

def checkCellWriterPropertyBody (props : JayveeValidationProps)
    (properties : List PropertyAssignment) : Validation Unit := do
  let writeProperty := properties.find? fun p => p.name == "write"
  let atProperty := properties.find? fun p => p.name == "at"
  match writeProperty, atProperty with
  | some writeProperty, some atProperty => do
      let writeValues ← evaluatePropertyValue props.ast props.runtime writeProperty
        props.evaluationContext (.collection .Text)
      let atValue ← evaluatePropertyValue props.ast props.runtime atProperty
        props.evaluationContext .CellRange
      match writeValues.bind textsTypeguard, atValue.bind LineKind.cellRangeTypeguard with
      | some writeValues, some atValue =>
          checkNumberOfValues writeProperty atProperty writeValues atValue
      | _, _ => return
  | _, _ => return

end Jayvee
