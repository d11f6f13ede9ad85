import Jayvee.Foundation.Double
import Jayvee.Model.NumberParsing
import Jayvee.Model.ValueType

/-! # Internal values -/

namespace Jayvee

open Foundation

/-- `InternalValueRepresentation`. A constraint or a transform is its node, a regular expression
its source text. -/
inductive Value where
  | boolean (value : Bool)
  | number (value : JsNumber)
  | string (value : String)
  | regExp (source : String)
  | cellRange (literal : CellRangeLiteral)
  | constraint (id : ConstraintId)
  | valuetypeAssignment (value : ValuetypeAssignment)
  | transform (id : TransformId)
  | collection (values : List Value)

/-! ## The JavaScript runtime -/

/-- The built-in functions that the code calls, and the rounding of numbers. Exact results are
rounded to the `nearest` number, which is a double in JavaScript; roots are rounded already. Texts
are given for numbers that are not negative. -/
structure JsRuntime where
  nearest : ℚ → JsNumber
  squareRoot : ℚ → ℚ
  pow : JsNumber → JsNumber → JsNumber
  toLowerCase : String → String
  toUpperCase : String → String
  isRegExp : String → Bool
  test : (regExp : String) → String → Bool
  replace : String → (regExp : String) → String → String
  finiteToString : ℚ → String
  toLocaleString : ℚ → String

namespace JsRuntime

/-- The number of UTF-16 code units. -/
def length (s : String) : Nat :=
  (s.toList.map fun c => if c.toNat < 0x10000 then 1 else 2).sum

/-- The text of a number in a template literal. -/
def numberToString (this : JsRuntime) : JsNumber → String
  | .finite value =>
      if value < 0 then "-" ++ this.finiteToString (-value) else this.finiteToString value
  | .negativeZero => this.finiteToString 0
  | .infinite negative => if negative then "-Infinity" else "Infinity"
  | .nan => "NaN"

/-- `Number.parseFloat`. -/
def parseFloat (this : JsRuntime) (s : String) : JsNumber :=
  NumberParsing.parseFloat this.nearest s.toList

end JsRuntime

/-- The nearest double, where integers that are not large are taken as they are. -/
def sampleNearest (value : ℚ) : JsNumber :=
  if value.den = 1 ∧ |value.num| < 2 ^ 53 then .finite value else Double.ofRat value

/-- A runtime with doubles that is exact on perfect squares and on literal patterns. -/
def sampleRuntime : JsRuntime where
  nearest := sampleNearest
  squareRoot x := Nat.sqrt x.num.toNat / Nat.sqrt x.den
  pow
    | .finite x, .finite y =>
        if y.den = 1 ∧ (x ≠ 0 ∨ 0 ≤ y) then sampleNearest (x ^ y.num) else .nan
    | _, _ => .nan
  toLowerCase := String.toLower
  toUpperCase := String.toUpper
  isRegExp _ := true
  test regExp text := text == regExp
  replace text regExp replacement := text.replace regExp replacement
  finiteToString x := toString x.num
  toLocaleString x := toString x.floor

namespace Value

/-! ## Comparison and type guards -/

/-- `===`. Arrays, regular expressions and syntax nodes without a table are objects, of
which two evaluations never yield the same. -/
def strictEquals : Value → Value → Bool
  | boolean a, boolean b => a == b
  | number a, number b => a.strictEquals b
  | string a, string b => a == b
  | constraint a, constraint b => a == b
  | transform a, transform b => a == b
  | _, _ => false

def isNaN : Value → Bool
  | number value => value = .nan
  | _ => false

/-- The comparison of `Array.prototype.includes`, for which `NaN` is the same as itself. -/
def sameValueZero (a b : Value) : Bool :=
  a.strictEquals b || (a.isNaN && b.isNaN)

/-- The type guards return the value they narrow. -/
def numberTypeguard : Value → Option JsNumber
  | number value => some value
  | _ => none

def booleanTypeguard : Value → Option Bool
  | boolean value => some value
  | _ => none

def stringTypeguard : Value → Option String
  | string value => some value
  | _ => none

def regexpTypeguard : Value → Option String
  | regExp source => some source
  | _ => none

mutual

def toString (runtime : JsRuntime) : Value → String
  | boolean value => if value then "true" else "false"
  | number value => runtime.numberToString value
  | string value => value
  | regExp source => s!"/{source}/"
  | collection values => ",".intercalate (toStrings runtime values)
  | _ => "[object Object]"

def toStrings (runtime : JsRuntime) : List Value → List String
  | [] => []
  | value :: values => value.toString runtime :: toStrings runtime values

end

end Value

/-! ## Internal representations -/

namespace PrimitiveValueType

def isInternalValueRepresentation : PrimitiveValueType → Value → Bool
  | boolean, .boolean _ => true
  | decimal, .number value => DecimalValuetype.isInternalValueRepresentation value
  | integer, .number value => IntegerValuetype.isInternalValueRepresentation value
  | text, .string _ => true
  | regex, .regExp _ => true
  | cellRange, .cellRange _ => true
  | constraint, .constraint _ => true
  | valuetypeAssignment, .valuetypeAssignment _ => true
  | transform, .transform _ => true
  | _, _ => false

end PrimitiveValueType

namespace ValueType

mutual

def isInternalValueRepresentation (ast : Ast) (this : ValueType) :
    (operandValue : Value) → Except JsError Bool
  | .collection values => do
      match ← this.getPrimitive ast with
      | some emptyCollection => return values.isEmpty
      | some (collection elementType) => everyIsInternalValueRepresentation ast elementType values
      | _ => return false
  | operandValue => do
      match ← this.getPrimitive ast with
      | some (primitive kind) => return kind.isInternalValueRepresentation operandValue
      | _ => return false

def everyIsInternalValueRepresentation (ast : Ast) (elementType : ValueType) :
    (values : List Value) → Except JsError Bool
  | [] => return true
  | value :: values => do
      if ← elementType.isInternalValueRepresentation ast value then
        everyIsInternalValueRepresentation ast elementType values
      else
        return false

end

end ValueType

/-! ## Parsing text -/

namespace PrimitiveValueType

/-- `fromString` of the user-referenceable value types. -/
def fromString (nearest : ℚ → JsNumber) (s : String) : PrimitiveValueType → Option Value
  | boolean =>
      if s.toLower = "true" then some (.boolean true)
      else if s.toLower = "false" then some (.boolean false)
      else none
  | decimal => (DecimalValuetype.fromString nearest s).map .number
  | integer => (IntegerValuetype.fromString nearest s).map .number
  | text => some (.string s)
  | _ => none

end PrimitiveValueType

/-- The visitor that parses a text as an internal value. -/
def internalRepresentationParserVisitor (runtime : JsRuntime) (ast : Ast) (value : String)
    (valueType : ValueType) : Except JsError (Option Value) :=
  valueType.askSupertypes ast
    (fun
      | .primitive kind => some (kind.fromString runtime.nearest value)
      | .emptyCollection | .collection _ => some none
      | .atomic _ => none)
    (.error (.assertionError "The expression evaluated to a falsy value"))
    (ValueType.hierarchyDepth ast)

def parseValueToInternalRepresentation (runtime : JsRuntime) (ast : Ast) (value : String)
    (valueType : ValueType) : Except JsError (Option Value) := do
  match ← internalRepresentationParserVisitor runtime ast value valueType with
  | none => return none
  | some result =>
      if ← valueType.isInternalValueRepresentation ast result then
        return some result
      else
        return none

/-! ## Cell ranges -/

namespace CellRangeLiteral

def isCompleteColumnId (columnId : Option ColumnId) : Bool :=
  (columnId.bind ColumnId.value).isSome

def isCompleteRowId (rowId : Option RowId) : Bool :=
  (rowId.bind RowId.value).isSome

def isCompleteCellReference : Option CellReference → Bool
  | some (.ids columnId rowId) => isCompleteColumnId columnId && isCompleteRowId rowId
  | some (.text _) => true
  | none => false

/-- `CellRangeWrapper.canBeWrapped`. -/
def canBeWrapped : CellRangeLiteral → Bool
  | cell cellId => isCompleteCellReference cellId
  | column columnId => isCompleteColumnId columnId
  | row rowId => isCompleteRowId rowId
  | range cellFrom cellTo => isCompleteCellReference cellFrom && isCompleteCellReference cellTo

end CellRangeLiteral

end Jayvee
