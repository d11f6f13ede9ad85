import Jayvee.Foundation.Exec
import Jayvee.Model.ValueType

/-! # Type inference of expressions -/

namespace Jayvee

open Foundation

/-! ## The validation context -/

/-- Code that may report diagnostics. -/
abbrev Validation (α : Type) : Type :=
  Exec (List Diagnostic) JsError α

def accept (severity : Severity) (message : String) (info : DiagnosticInfo) : Validation Unit :=
  Exec.modify fun diagnostics => diagnostics ++ [⟨severity, message, info⟩]

theorem accept_logs (severity : Severity) (message : String) (info : DiagnosticInfo) :
    Exec.Logs (accept severity message info) (.ok ()) [⟨severity, message, info⟩] :=
  fun _ => rfl

/-! ## Type computers -/

section TypeComputers

variable (ast : Ast)

def generateUnexpectedTypeMessage (expectedType actualType : ValueType) : String :=
  s!"The operand needs to be of type {expectedType.getName ast} but is of type {actualType.getName ast}"

/-- Reports an operand that is not convertible to its expected type. -/
def checkOperandType (expectedType operandType : ValueType) (operand : Expression) :
    Validation Bool := do
  if ← Exec.ofExcept (operandType.isConvertibleTo ast expectedType) then
    return true
  accept .error (generateUnexpectedTypeMessage ast expectedType operandType)
    { node := .expression operand }
  return false

/-- `DefaultUnaryOperatorTypeComputer`. -/
def computeUnaryType (expectedOperandType : ValueType) (doComputeType : ValueType → ValueType)
    (operandType : ValueType) (operand : Expression) : Validation (Option ValueType) := do
  if ← checkOperandType ast expectedOperandType operandType operand then
    return some (doComputeType operandType)
  return none

/-- `DefaultBinaryOperatorTypeComputer`. -/
def computeBinaryType (expectedLeftOperandType expectedRightOperandType : ValueType)
    (doComputeType : ValueType → ValueType → ValueType) (leftOperandType : ValueType)
    (rightOperandType : ValueType) (left right : Expression) :
    Validation (Option ValueType) := do
  let isLeftValid ← checkOperandType ast expectedLeftOperandType leftOperandType left
  let isRightValid ← checkOperandType ast expectedRightOperandType rightOperandType right
  if isLeftValid && isRightValid then
    return some (doComputeType leftOperandType rightOperandType)
  return none

/-- `DefaultTernaryOperatorTypeComputer`. -/
def computeTernaryType (expectedFirst expectedSecond expectedThird : ValueType)
    (resultType : ValueType) (firstType secondType thirdType : ValueType)
    (first second third : Expression) : Validation (Option ValueType) := do
  let isFirstValid ← checkOperandType ast expectedFirst firstType first
  let isSecondValid ← checkOperandType ast expectedSecond secondType second
  let isThirdValid ← checkOperandType ast expectedThird thirdType third
  if isFirstValid && isSecondValid && isThirdValid then
    return some resultType
  return none

def acceptUnsupportedType (isTypeValid : Bool) (operandType : ValueType) (operand : Expression) :
    Validation Unit :=
  if isTypeValid then
    return
  else
    accept .error s!"Operator does not support type {operandType.getName ast}"
      { node := .expression operand }

/-! ### Unary operators -/

def notOperatorTypeComputer := computeUnaryType ast .Boolean fun _ => .Boolean

/-- A sign keeps the type of its operand, also where that is an atomic value type. -/
def signOperatorTypeComputer := computeUnaryType ast .Decimal fun operandType => operandType

def sqrtOperatorTypeComputer := computeUnaryType ast .Decimal fun _ => .Decimal

def integerConversionOperatorTypeComputer := computeUnaryType ast .Decimal fun _ => .Integer

def stringTransformTypeComputer := computeUnaryType ast .Text fun _ => .Text

def asDecimalOperatorTypeComputer := computeUnaryType ast .Text fun _ => .Decimal

def asIntegerOperatorTypeComputer := computeUnaryType ast .Text fun _ => .Integer

def asBooleanOperatorTypeComputer := computeUnaryType ast .Text fun _ => .Boolean

def asTextOperatorTypeComputer := computeUnaryType ast .Text fun _ => .Text

def unaryTypeComputer :
    UnaryExpressionOperator → ValueType → Expression → Validation (Option ValueType)
  | .not => notOperatorTypeComputer ast
  | .plus => signOperatorTypeComputer ast
  | .minus => signOperatorTypeComputer ast
  | .sqrt => sqrtOperatorTypeComputer ast
  | .floor => integerConversionOperatorTypeComputer ast
  | .ceil => integerConversionOperatorTypeComputer ast
  | .round => integerConversionOperatorTypeComputer ast
  | .lowercase => stringTransformTypeComputer ast
  | .uppercase => stringTransformTypeComputer ast
  | .asDecimal => asDecimalOperatorTypeComputer ast
  | .asInteger => asIntegerOperatorTypeComputer ast
  | .asBoolean => asBooleanOperatorTypeComputer ast
  | .asText => asTextOperatorTypeComputer ast

/-! ### Binary operators -/

def basicArithmeticOperatorTypeComputer :=
  computeBinaryType ast .Decimal .Decimal fun leftOperandType rightOperandType =>
    if leftOperandType = .Integer ∧ rightOperandType = .Integer then .Integer else .Decimal

def divisionOperatorTypeComputer := computeBinaryType ast .Decimal .Decimal fun _ _ => .Decimal

def exponentialOperatorTypeComputer := computeBinaryType ast .Decimal .Decimal fun _ _ => .Decimal

def matchesOperatorTypeComputer := computeBinaryType ast .Text .Regex fun _ _ => .Boolean

def relationalOperatorTypeComputer := computeBinaryType ast .Decimal .Decimal fun _ _ => .Boolean

def logicalOperatorTypeComputer := computeBinaryType ast .Boolean .Boolean fun _ _ => .Boolean

def equalityOperatorTypeComputer (leftOperandType rightOperandType : ValueType)
    (expression left right : Expression) : Validation (Option ValueType) := do
  let allowedOperandTypes : List ValueType := [.Boolean, .Text, .Integer, .Decimal]
  let isLeftOperandTypeValid := allowedOperandTypes.contains leftOperandType
  let isRightOperandTypeValid := allowedOperandTypes.contains rightOperandType
  if !isLeftOperandTypeValid || !isRightOperandTypeValid then
    acceptUnsupportedType ast isLeftOperandTypeValid leftOperandType left
    acceptUnsupportedType ast isRightOperandTypeValid rightOperandType right
    return none
  let isLeftConvertible ← Exec.ofExcept (leftOperandType.isConvertibleTo ast rightOperandType)
  let isRightConvertible ← Exec.ofExcept (rightOperandType.isConvertibleTo ast leftOperandType)
  if !isLeftConvertible && !isRightConvertible then
    accept .error
      s!"The types of the operands need to be equal but they differ (left: {leftOperandType.getName ast}, right: {rightOperandType.getName ast})"
      { node := .expression expression }
    return none
  return some .Boolean

def inOperatorTypeComputer (leftOperandType rightOperandType : ValueType)
    (expression left right : Expression) : Validation (Option ValueType) := do
  let allowedLeftOperandTypes : List ValueType := [.Text, .Integer, .Decimal]
  let isLeftOperandTypeValid := allowedLeftOperandTypes.contains leftOperandType
  let isRightOperandTypeValid :=
    (allowedLeftOperandTypes.map ValueType.collection).any fun v => v.equals rightOperandType
  if !isLeftOperandTypeValid || !isRightOperandTypeValid then
    acceptUnsupportedType ast isLeftOperandTypeValid leftOperandType left
    acceptUnsupportedType ast isRightOperandTypeValid rightOperandType right
    return none
  match rightOperandType with
  | .collection elementType =>
      -- allow 3 in [3.5, 5.3]
      let isLeftConvertibleToRight ←
        Exec.ofExcept (leftOperandType.isConvertibleTo ast elementType)
      -- allow 3.5 in [3.0, 2.0]
      let isRightConvertibleToLeft ←
        Exec.ofExcept (elementType.isConvertibleTo ast leftOperandType)
      if !isLeftConvertibleToRight && !isRightConvertibleToLeft then
        accept .error
          s!"The type of the left operand needs to be compatible to the collection element type of the right operand but they differ (left: {leftOperandType.getName ast}, right: {elementType.getName ast})"
          { node := .expression expression }
        return none
      return some .Boolean
  | _ => Exec.throw (.assertionError "The expression evaluated to a falsy value")

def binaryTypeComputer (operator : BinaryExpressionOperator) (leftType rightType : ValueType)
    (expression left right : Expression) : Validation (Option ValueType) :=
  match operator with
  | .pow | .root => exponentialOperatorTypeComputer ast leftType rightType left right
  | .multiply | .plus | .minus =>
      basicArithmeticOperatorTypeComputer ast leftType rightType left right
  | .divide | .modulo => divisionOperatorTypeComputer ast leftType rightType left right
  | .matches => matchesOperatorTypeComputer ast leftType rightType left right
  | .in => inOperatorTypeComputer ast leftType rightType expression left right
  | .less | .lessEqual | .greater | .greaterEqual =>
      relationalOperatorTypeComputer ast leftType rightType left right
  | .equal | .unequal => equalityOperatorTypeComputer ast leftType rightType expression left right
  | .xor | .and | .or => logicalOperatorTypeComputer ast leftType rightType left right

/-! ### Ternary operators -/

def replaceOperatorTypeComputer := computeTernaryType ast .Text .Regex .Text .Text

def ternaryTypeComputer :
    TernaryExpressionOperator → ValueType → ValueType → ValueType →
      Expression → Expression → Expression → Validation (Option ValueType)
  | .replace => replaceOperatorTypeComputer ast

end TypeComputers

/-! ## Collections -/

/-- The loop over the types after the first, with `resultingType` so far. -/
def pickMoreGeneralType (ast : Ast) (resultingType : ValueType) :
    (primitiveValuetypes : List ValueType) → Except JsError (Option ValueType)
  | [] => return some resultingType
  | currentType :: types => do
      if ← currentType.isConvertibleTo ast resultingType then
        pickMoreGeneralType ast resultingType types
      else if ← resultingType.isConvertibleTo ast currentType then
        pickMoreGeneralType ast currentType types
      else
        return none

def pickCommonPrimitiveValuetype (ast : Ast) :
    (primitiveValuetypes : List ValueType) → Except JsError (Option ValueType)
  | [] => .error (.assertionError "The expression evaluated to a falsy value")
  | first :: types => pickMoreGeneralType ast first types

def areAllTypesEqual : (types : List ValueType) → Bool
  | current :: afterCurrent :: types =>
      current.equals afterCurrent && areAllTypesEqual (afterCurrent :: types)
  | _ => true

/-- The loop over the remaining stack levels, with `resultingType` so far. -/
def pickCommonTypeOfLevels (hierarchyStacks : List (List ValueType)) (resultingType : Option ValueType) :
    (stackLevels : List Nat) → Option ValueType
  | [] => resultingType
  | stackLevel :: stackLevels =>
      let typesOfCurrentLevel := hierarchyStacks.filterMap fun stack => stack[stackLevel]?
      if !areAllTypesEqual typesOfCurrentLevel then
        resultingType
      else
        pickCommonTypeOfLevels hierarchyStacks typesOfCurrentLevel.head? stackLevels

def pickCommonAtomicValueType (hierarchyStacks : List (List ValueType)) : Option ValueType :=
  let minimumStackLength := ((hierarchyStacks.map List.length).min?).getD 0
  pickCommonTypeOfLevels hierarchyStacks none (List.range' 1 (minimumStackLength - 1))

def isEveryValueDefined {α : Type} : List (Option α) → Option (List α)
  | [] => some []
  | some value :: values => (isEveryValueDefined values).map (value :: ·)
  | none :: _ => none

def getValuetypeHierarchyStacks (ast : Ast) : List ValueType → Except JsError (List (List ValueType))
  | [] => return []
  | valueType :: valueTypes => do
      let stack ← valueType.getValuetypeHierarchyStack ast (ValueType.hierarchyDepth ast)
      let hierarchyStacks ← getValuetypeHierarchyStacks ast valueTypes
      return stack :: hierarchyStacks

def inferCollectionType (ast : Ast) (collection : Expression)
    (elementValuetypes : List ValueType) : Validation (Option ValueType) := do
  let hierarchyStacks ← Exec.ofExcept (getValuetypeHierarchyStacks ast elementValuetypes)
  match hierarchyStacks with
  | [] => return some .emptyCollection
  | [stack] => return stack.getLast?.map ValueType.collection
  | hierarchyStacks => do
      let primitiveValuetypes := hierarchyStacks.filterMap List.head?
      match ← Exec.ofExcept (pickCommonPrimitiveValuetype ast primitiveValuetypes) with
      | none => do
          accept .error "The type of the collection cannot be inferred from its elements"
            { node := .expression collection }
          return none
      | some commonPrimitiveValuetype =>
          match pickCommonAtomicValueType hierarchyStacks with
          | none => return some (.collection commonPrimitiveValuetype)
          | some commonAtomicValueType => return some (.collection commonAtomicValueType)

/-! ## Expressions -/

/-- `container` is the value type of the enclosing expression constraint, if there is one. -/
def inferTypeFromValueKeyword (ast : Ast) (container : Option ValueTypeReference)
    (lengthAccess : Bool) : Validation (Option ValueType) := do
  match container with
  | none => do
      accept .error "The value keyword is not allowed in this context"
        { node := .expression (.valueKeywordLiteral lengthAccess) }
      return none
  | some valueTypeReference =>
      match ← Exec.ofExcept (ValueType.wrap ast valueTypeReference) with
      | none => return none
      | some valueType =>
          if !lengthAccess then
            return some valueType
          if ← Exec.ofExcept (valueType.isConvertibleTo ast .Text) then
            return some .Integer
          accept .error "The length can only be accessed from text values "
            { node := .expression (.valueKeywordLiteral lengthAccess), keyword := some "length" }
          return none

def inferTypeFromReferenceLiteral (ast : Ast) :
    (referenced : Option Referencable) → Except JsError (Option ValueType)
  | none => return none
  | some (.constraintDefinition _) => return some .Constraint
  | some (.transformDefinition _) => return some .Transform
  | some (.transformPortDefinition port) => ValueType.wrap ast port.valueType
  | some (.blockTypeProperty _ valueType) => ValueType.wrap ast valueType

mutual

def inferExpressionType (ast : Ast) (container : Option ValueTypeReference) :
    (expression : Expression) → Validation (Option ValueType)
  | .textLiteral _ => return some .Text
  | .booleanLiteral _ => return some .Boolean
  | .numericLiteral value => return some (if value.isInteger then .Integer else .Decimal)
  | .cellRangeLiteral _ => return some .CellRange
  | .regexLiteral _ => return some .Regex
  | .valuetypeAssignmentLiteral _ => return some .ValuetypeAssignment
  | .collectionLiteral values => do
      match isEveryValueDefined (← inferCollectionElementTypes ast container values) with
      | none => return none
      | some elementValuetypes =>
          inferCollectionType ast (.collectionLiteral values) elementValuetypes
  | .valueKeywordLiteral lengthAccess => inferTypeFromValueKeyword ast container lengthAccess
  | .referenceLiteral value => Exec.ofExcept (inferTypeFromReferenceLiteral ast value)
  | .unaryExpression operator expression => do
      match ← inferExpressionType ast container expression with
      | none => return none
      | some innerType => unaryTypeComputer ast operator innerType expression
  | .binaryExpression operator left right => do
      let leftType ← inferExpressionType ast container left
      let rightType ← inferExpressionType ast container right
      match leftType, rightType with
      | some leftType, some rightType =>
          binaryTypeComputer ast operator leftType rightType
            (.binaryExpression operator left right) left right
      | _, _ => return none
  | .ternaryExpression operator first second third => do
      let firstType ← inferExpressionType ast container first
      let secondType ← inferExpressionType ast container second
      let thirdType ← inferExpressionType ast container third
      match firstType, secondType, thirdType with
      | some firstType, some secondType, some thirdType =>
          ternaryTypeComputer ast operator firstType secondType thirdType first second third
      | _, _, _ => return none

def inferCollectionElementTypes (ast : Ast) (container : Option ValueTypeReference) :
    (values : List Expression) → Validation (List (Option ValueType))
  | [] => return []
  | value :: values => do
      let type ← inferExpressionType ast container value
      let types ← inferCollectionElementTypes ast container values
      return type :: types

end

end Jayvee
