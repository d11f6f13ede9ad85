import Jayvee.Foundation.FreshName
import Jayvee.Foundation.JsMap
import Jayvee.Model.Sheet

/-! # Workbooks -/

namespace Jayvee

open Foundation

structure Workbook where
  sheets : JsMap String Sheet

namespace Workbook

def getSheetByName (this : Workbook) (sheetName : String) : Option Sheet :=
  this.sheets.get? sheetName

def defaultName (defaultSheetNumber : Nat) : String :=
  s!"Sheet{defaultSheetNumber}"

/-- The loop starts with the number of the next sheet. `none` means that `fuel` rounds were not
enough. -/
def getUniqueDefaultNameForNewSheet (fuel : Nat) (this : Workbook) : Option String := do
  let isUsed sheetName := (this.getSheetByName sheetName).isSome
  let defaultSheetNumber ← whileLoop (tryNextNumber defaultName isUsed) fuel (this.sheets.size + 1)
  return defaultName defaultSheetNumber

/-- `sheetName ?? this.getUniqueDefaultNameForNewSheet()`. -/
def sheetNameOrDefault (fuel : Nat) (this : Workbook) : Option String → Option String
  | some sheetName => some sheetName
  | none => this.getUniqueDefaultNameForNewSheet fuel

def addSheet (fuel : Nat) (this : Workbook) (data : List (List String))
    (sheetName : Option String) : Option (Except JsError Workbook) := do
  let sheetNameOrDefault ← this.sheetNameOrDefault fuel sheetName
  if (this.sheets.get? sheetNameOrDefault).isSome then
    return .error (.error s!"Sheet with name {sheetNameOrDefault} already exists in Workbook.")
  return .ok { sheets := this.sheets.set sheetNameOrDefault (Sheet.ofTexts data) }

/-- The arguments of a call of `addSheet`. -/
structure Addition where
  data : List (List String)
  sheetName : Option String

/-- One call after the other, until a call throws. -/
def addSheets (fuel : Nat) : (this : Workbook) → List Addition → Option (Except JsError Workbook)
  | this, [] => return .ok this
  | this, addition :: additions => do
      match ← this.addSheet fuel addition.data addition.sheetName with
      | .error error => return .error error
      | .ok next => next.addSheets fuel additions

end Workbook

end Jayvee
