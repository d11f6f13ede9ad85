import Jayvee.Model.FileSystem
import Jayvee.Model.TableExecutors

/-! # Executors that delete and select lines of a text file -/

namespace Jayvee

open Foundation ExecutionContext

abbrev TextFile : Type :=
  FileSystemFile (List String)

namespace TextLineDeleterExecutor

variable {δ : Type} (services : ExecutionServices)

def lineNumberTypeguard (value : Value) : Option ℤ := do
  let number ← value.numberTypeguard
  number.toInt?

def lineNumbersTypeguard (value : Value) : Option (List ℤ) := do
  let values ← collectionTypeguard value
  values.mapM lineNumberTypeguard

/-! ## Validation -/

/-- The loop over the values of the property `lines`. -/
def checkLineNumber (property : PropertyAssignment) (line : ℤ × Nat) : Validation Unit := do
  let (value, index) := line
  if value < 1 then
    accept .error "Line numbers need to be greater than zero"
      { node := .propertyValue property.value, property := some "values", index := some index }

def checkTextLineDeleterProperty (evaluationContext : EvaluationContext)
    (property : PropertyAssignment) : Validation Unit := do
  if property.name ≠ "lines" then
    return
  match ← evaluatePropertyValue services.ast services.runtime property evaluationContext
      (.collection .Integer) with
  | none => return
  | some value =>
      Exec.forEach ((lineNumbersTypeguard value).getD []).zipIdx (checkLineNumber property)

/-! ## Execution -/

/-- The first line number that is too great, and its index. -/
def findMissingLine (numberOfLines : Nat) (lines : List ℤ) : Option (ℤ × Nat) :=
  lines.zipIdx.find? fun line => line.1 > numberOfLines

/-- The elements of `new Set(lines)`. -/
def distinctLines (lines : List ℤ) : List ℤ :=
  lines.eraseDups

def sortedLines (lines : List ℤ) : List ℤ :=
  (distinctLines lines).insertionSort (· ≤ ·)

def newContent (content : List String) (lines : List ℤ) : List String :=
  (sortedLines lines).reverse.foldl
    (fun content lineToDelete => JsArray.splice content (lineToDelete - 1)) content

def doExecute (file : TextFile) : ExecM δ (Result TextFile) := do
  let lines ← getTypedPropertyValue services lineNumbersTypeguard "lines" (.collection .Integer)
  let numberOfLines := file.content.length
  match findMissingLine numberOfLines lines with
  | some (lineNumber, lineIndex) => do
      let property ← getOrFailProperty services "lines"
      return errorDetails
        s!"Line {services.runtime.numberToString (.finite lineNumber)} does not exist in the text file, only {numberOfLines} line(s) are present"
        { node := .propertyValue property.value, property := some "values",
          index := some lineIndex }
  | none => return .ok { file with content := newContent file.content lines }

end TextLineDeleterExecutor

namespace TextRangeSelectorExecutor

variable {δ : Type} (services : ExecutionServices)

open TextLineDeleterExecutor (lineNumberTypeguard)

def doExecute (file : TextFile) : ExecM δ (Result TextFile) := do
  let lineFrom ← getTypedPropertyValue services lineNumberTypeguard "lineFrom" .Integer
  let lineTo ← getTypedPropertyValue services lineNumberTypeguard "lineTo" .Integer
  let selectedLines := JsArray.slice file.content (lineFrom - 1) lineTo
  return .ok { file with content := selectedLines }

end TextRangeSelectorExecutor

end Jayvee
