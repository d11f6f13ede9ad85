import Jayvee.Model.InternalValue
import Jayvee.Model.TypeInference

/-! # Evaluation of expressions -/

namespace Jayvee

open Foundation

/-- A failed type guard. -/
def typeguardError : JsError :=
  .assertionError "The expression evaluated to a falsy value"

/-! ## The evaluation context -/

structure RuntimeParameterProvider where
  runtimeParameters : String → Option String
  valueParser : Option (String → ValueType → Except JsError (Option Value))

namespace RuntimeParameterProvider

def getParsedValue (this : RuntimeParameterProvider) (key : String) (valueType : ValueType) :
    Except JsError (Option Value) :=
  match this.runtimeParameters key, this.valueParser with
  | some stringValue, some valueParser => valueParser stringValue valueType
  | _, _ => .ok none

end RuntimeParameterProvider

/-- All scopes share the one map `variableValues`. -/
structure EvaluationContext where
  runtimeParameterProvider : RuntimeParameterProvider
  variableValues : String → Option Value
  valueKeywordValue : Option Value

namespace EvaluationContext

/-- The constructor: no variable has a value. -/
def construct (runtimeParameterProvider : RuntimeParameterProvider) : EvaluationContext where
  runtimeParameterProvider := runtimeParameterProvider
  variableValues _ := none
  valueKeywordValue := none

def setValueForReference (this : EvaluationContext) (refText : String) (value : Value) :
    EvaluationContext :=
  { this with variableValues := fun name =>
      if name = refText then some value else this.variableValues name }

def deleteValueForReference (this : EvaluationContext) (refText : String) : EvaluationContext :=
  { this with variableValues := fun name =>
      if name = refText then none else this.variableValues name }

def getValueForReference (this : EvaluationContext) :
    (dereferenced : Option Referencable) → Option Value
  | none => none
  | some (.constraintDefinition id) => some (.constraint id)
  | some (.transformDefinition id) => some (.transform id)
  | some (.transformPortDefinition port) => this.variableValues port.name
  | some (.blockTypeProperty name _) => this.variableValues name

def setValueForValueKeyword (this : EvaluationContext) (value : Value) : EvaluationContext :=
  { this with valueKeywordValue := some value }

def deleteValueForValueKeyword (this : EvaluationContext) : EvaluationContext :=
  { this with valueKeywordValue := none }

def getValueForValueKeyword (this : EvaluationContext) (lengthAccess : Bool) :
    Except JsError (Option Value) :=
  match this.valueKeywordValue with
  | none => .ok none
  | some value =>
      if lengthAccess then
        match value.stringTypeguard with
        | some text => .ok (some (.number (.finite (JsRuntime.length text))))
        | none => .error typeguardError
      else
        .ok (some value)

end EvaluationContext

inductive EvaluationStrategy where
  | exhaustive | lazy
  deriving DecidableEq, Repr

/-! ## Operator evaluators -/

/-- An operand, or an operator applied to its operands: `none` if the evaluation failed. -/
abbrev Evaluation : Type :=
  Validation (Option Value)

section Evaluators

variable {A B C : Type}

/-- `assert` applied to a type guard. -/
def assertTypeguard (typeguard : Value → Option A) (value : Value) : Validation A :=
  match typeguard value with
  | some value => return value
  | none => Exec.throw typeguardError

/-- `DefaultUnaryOperatorEvaluator`. -/
def evaluateUnary (operandValueTypeguard : Value → Option A) (doEvaluate : A → Evaluation)
    (operand : Evaluation) : Evaluation := do
  match ← operand with
  | none => return none
  | some operandValue => do
      let operandValue ← assertTypeguard operandValueTypeguard operandValue
      doEvaluate operandValue

/-- `DefaultBinaryOperatorEvaluator`. -/
def evaluateBinary (leftValueTypeguard : Value → Option A)
    (rightValueTypeguard : Value → Option B) (doEvaluate : A → B → Evaluation)
    (strategy : EvaluationStrategy) (left right : Evaluation) : Evaluation := do
  let leftValue ← left
  if strategy = .lazy ∧ leftValue.isNone then
    return none
  match leftValue, ← right with
  | some leftValue, some rightValue => do
      let leftValue ← assertTypeguard leftValueTypeguard leftValue
      let rightValue ← assertTypeguard rightValueTypeguard rightValue
      doEvaluate leftValue rightValue
  | _, _ => return none

/-- `BooleanShortCircuitOperatorEvaluator`. -/
def evaluateBooleanShortCircuit (canSkipRightOperandEvaluation : Bool → Bool)
    (shortCircuitValue : Bool) (doEvaluate : Bool → Bool → Bool)
    (strategy : EvaluationStrategy) (left right : Evaluation) : Evaluation := do
  match ← left with
  | none =>
      if strategy = .lazy then
        return none
      let _ ← right
      return none
  | some leftValue => do
      let leftValue ← assertTypeguard Value.booleanTypeguard leftValue
      if strategy = .lazy ∧ canSkipRightOperandEvaluation leftValue then
        return some (.boolean shortCircuitValue)
      match ← right with
      | none => return none
      | some rightValue => do
          let rightValue ← assertTypeguard Value.booleanTypeguard rightValue
          return some (.boolean (doEvaluate leftValue rightValue))

/-- `DefaultTernaryOperatorEvaluator`. -/
def evaluateTernary (firstValueTypeguard : Value → Option A)
    (secondValueTypeguard : Value → Option B) (thirdValueTypeguard : Value → Option C)
    (doEvaluate : A → B → C → Evaluation) (strategy : EvaluationStrategy)
    (first second third : Evaluation) : Evaluation := do
  let firstValue ← first
  if strategy = .lazy ∧ firstValue.isNone then
    return none
  let secondValue ← second
  let thirdValue ← third
  match firstValue, secondValue, thirdValue with
  | some firstValue, some secondValue, some thirdValue => do
      let firstValue ← assertTypeguard firstValueTypeguard firstValue
      let secondValue ← assertTypeguard secondValueTypeguard secondValue
      let thirdValue ← assertTypeguard thirdValueTypeguard thirdValue
      doEvaluate firstValue secondValue thirdValue
  | _, _, _ => return none

/-- A failed assertion that is no type guard; its message shows the condition. -/
def falsyAssertion (condition : String) : JsError :=
  .assertionError s!"The expression evaluated to a falsy value:\n\n  assert({condition})\n"

/-- Reports an arithmetic error at the operator; the evaluation fails. -/
def arithmeticError (message : String) (expression : Expression) : Evaluation := do
  accept .error message { node := .expression expression }
  return none

/-- The result of an arithmetic operator, which is checked to be finite. -/
def finiteResult (resultingValue : JsNumber) (otherwise : Evaluation) : Evaluation :=
  if !resultingValue.isFinite then
    otherwise
  else
    return some (.number resultingValue)

end Evaluators

section Operators

variable (runtime : JsRuntime)

/-! ### Unary operators -/

def evaluateNumber (f : JsNumber → JsNumber) :=
  evaluateUnary Value.numberTypeguard fun operandValue => return some (.number (f operandValue))

def evaluateText (f : String → String) :=
  evaluateUnary Value.stringTypeguard fun operandValue => return some (.string (f operandValue))

def notOperatorEvaluator :=
  evaluateUnary Value.booleanTypeguard fun operandValue => return some (.boolean !operandValue)

def plusOperatorEvaluator := evaluateNumber fun operandValue => operandValue

def minusOperatorEvaluator := evaluateNumber fun operandValue => -operandValue

def floorOperatorEvaluator := evaluateNumber JsNumber.floor

def ceilOperatorEvaluator := evaluateNumber JsNumber.ceil

def roundOperatorEvaluator := evaluateNumber JsNumber.round

def lowercaseOperatorEvaluator := evaluateText runtime.toLowerCase

def uppercaseOperatorEvaluator := evaluateText runtime.toUpperCase

def sqrtOperatorEvaluator (expression : Expression) :=
  evaluateUnary Value.numberTypeguard fun operandValue =>
    finiteResult (operandValue.sqrt runtime.squareRoot) <|
      if operandValue < 0 then
        arithmeticError "Arithmetic error: square root of negative number" expression
      else
        Exec.throw (falsyAssertion "operandValue < 0")

/-- The operators that parse a text with `fromString` of a primitive value type. -/
def evaluateParse (valueType : PrimitiveValueType) (description : String) :=
  evaluateUnary Value.stringTypeguard fun operandValue =>
    match valueType.fromString runtime.nearest operandValue with
    | some value => return some value
    | none => Exec.throw (.error s!"Could not parse \"{operandValue}\" into {description}")

def asTextOperatorEvaluator := evaluateText fun operandValue => operandValue

def asDecimalOperatorEvaluator := evaluateParse runtime .decimal "a Decimal"

def asIntegerOperatorEvaluator := evaluateParse runtime .integer "an Integer"

def asBooleanOperatorEvaluator := evaluateParse runtime .boolean "a Boolean"

def unaryEvaluator (expression : Expression) :
    UnaryExpressionOperator → (operand : Evaluation) → Evaluation
  | .not => notOperatorEvaluator
  | .plus => plusOperatorEvaluator
  | .minus => minusOperatorEvaluator
  | .sqrt => sqrtOperatorEvaluator runtime expression
  | .floor => floorOperatorEvaluator
  | .ceil => ceilOperatorEvaluator
  | .round => roundOperatorEvaluator
  | .lowercase => lowercaseOperatorEvaluator runtime
  | .uppercase => uppercaseOperatorEvaluator runtime
  | .asDecimal => asDecimalOperatorEvaluator runtime
  | .asInteger => asIntegerOperatorEvaluator runtime
  | .asBoolean => asBooleanOperatorEvaluator runtime
  | .asText => asTextOperatorEvaluator

/-! ### Binary operators -/

def evaluateArithmetic (f : JsNumber → JsNumber → JsNumber) :=
  evaluateBinary Value.numberTypeguard Value.numberTypeguard fun leftValue rightValue =>
    return some (.number (f leftValue rightValue))

def evaluateRelation (f : JsNumber → JsNumber → Bool) :=
  evaluateBinary Value.numberTypeguard Value.numberTypeguard fun leftValue rightValue =>
    return some (.boolean (f leftValue rightValue))

def additionOperatorEvaluator := evaluateArithmetic (JsNumber.add runtime.nearest)

def subtractionOperatorEvaluator := evaluateArithmetic (JsNumber.sub runtime.nearest)

def multiplicationOperatorEvaluator := evaluateArithmetic (JsNumber.mul runtime.nearest)

def lessThanOperatorEvaluator := evaluateRelation fun leftValue rightValue =>
  leftValue < rightValue

def lessEqualOperatorEvaluator := evaluateRelation fun leftValue rightValue =>
  leftValue ≤ rightValue

def greaterThanOperatorEvaluator := evaluateRelation fun leftValue rightValue =>
  leftValue > rightValue

def greaterEqualOperatorEvaluator := evaluateRelation fun leftValue rightValue =>
  leftValue ≥ rightValue

def powOperatorEvaluator (expression : Expression) :=
  evaluateBinary Value.numberTypeguard Value.numberTypeguard fun leftValue rightValue =>
    finiteResult (runtime.pow leftValue rightValue) <|
      if leftValue.strictEquals 0 ∧ rightValue < 0 then
        arithmeticError "Arithmetic error: zero raised to a negative number" expression
      else
        arithmeticError "Unknown arithmetic error" expression

def rootOperatorEvaluator (expression : Expression) :=
  evaluateBinary Value.numberTypeguard Value.numberTypeguard fun leftValue rightValue =>
    finiteResult (runtime.pow leftValue (JsNumber.div runtime.nearest 1 rightValue)) <|
      if leftValue.strictEquals 0 ∧ rightValue < 0 then
        arithmeticError "Arithmetic error: root of zero with negative degree" expression
      else if rightValue.strictEquals 0 then
        arithmeticError "Arithmetic error: root of degree zero" expression
      else
        arithmeticError "Unknown arithmetic error" expression

def divisionOperatorEvaluator (expression : Expression) :=
  evaluateBinary Value.numberTypeguard Value.numberTypeguard fun leftValue rightValue =>
    finiteResult (JsNumber.div runtime.nearest leftValue rightValue) <|
      if rightValue.strictEquals 0 then
        arithmeticError "Arithmetic error: division by zero" expression
      else
        Exec.throw (falsyAssertion "rightValue === 0")

def moduloOperatorEvaluator (expression : Expression) :=
  evaluateBinary Value.numberTypeguard Value.numberTypeguard fun leftValue rightValue =>
    finiteResult (leftValue.modulo rightValue) <|
      if rightValue.strictEquals 0 then
        arithmeticError "Arithmetic error: modulo by zero" expression
      else
        arithmeticError "Unknown arithmetic error" expression

def matchesOperatorEvaluator :=
  evaluateBinary Value.stringTypeguard Value.regexpTypeguard fun leftValue rightValue =>
    return some (.boolean (runtime.test rightValue leftValue))

def isLeftOperandMatchingValueRepresentationTypeguard : Value → Option Value
  | .string value => some (.string value)
  | .number value => some (.number value)
  | _ => none

def isRightOperandMatchingValueRepresentationTypeguard : Value → Option (List Value)
  | .collection values =>
      if values.all fun value =>
          (isLeftOperandMatchingValueRepresentationTypeguard value).isSome then
        some values
      else
        none
  | _ => none

def inOperatorEvaluator :=
  evaluateBinary isLeftOperandMatchingValueRepresentationTypeguard
    isRightOperandMatchingValueRepresentationTypeguard fun leftValue rightValue =>
      return some (.boolean (rightValue.any fun value => value.sameValueZero leftValue))

def equalityOperatorEvaluator :=
  evaluateBinary (fun value => some value) (fun value => some value) fun leftValue rightValue =>
    return some (.boolean (leftValue.strictEquals rightValue))

def inequalityOperatorEvaluator :=
  evaluateBinary (fun value => some value) (fun value => some value) fun leftValue rightValue =>
    return some (.boolean !(leftValue.strictEquals rightValue))

def xorOperatorEvaluator :=
  evaluateBinary Value.booleanTypeguard Value.booleanTypeguard fun leftValue rightValue =>
    return some (.boolean ((leftValue && !rightValue) || (!leftValue && rightValue)))

def andOperatorEvaluator :=
  evaluateBooleanShortCircuit (fun leftValue => leftValue == false) false
    fun leftValue rightValue => leftValue && rightValue

def orOperatorEvaluator :=
  evaluateBooleanShortCircuit (fun leftValue => leftValue == true) true
    fun leftValue rightValue => leftValue || rightValue

def binaryEvaluator (expression : Expression) :
    BinaryExpressionOperator → EvaluationStrategy → (left right : Evaluation) → Evaluation
  | .pow => powOperatorEvaluator runtime expression
  | .root => rootOperatorEvaluator runtime expression
  | .multiply => multiplicationOperatorEvaluator runtime
  | .divide => divisionOperatorEvaluator runtime expression
  | .modulo => moduloOperatorEvaluator expression
  | .plus => additionOperatorEvaluator runtime
  | .minus => subtractionOperatorEvaluator runtime
  | .matches => matchesOperatorEvaluator runtime
  | .in => inOperatorEvaluator
  | .less => lessThanOperatorEvaluator
  | .lessEqual => lessEqualOperatorEvaluator
  | .greater => greaterThanOperatorEvaluator
  | .greaterEqual => greaterEqualOperatorEvaluator
  | .equal => equalityOperatorEvaluator
  | .unequal => inequalityOperatorEvaluator
  | .xor => xorOperatorEvaluator
  | .and => andOperatorEvaluator
  | .or => orOperatorEvaluator

/-! ### Ternary operators -/

def replaceOperatorEvaluator :=
  evaluateTernary Value.stringTypeguard Value.regexpTypeguard Value.stringTypeguard
    fun firstValue secondValue thirdValue =>
      return some (.string (runtime.replace firstValue secondValue thirdValue))

def ternaryEvaluator :
    TernaryExpressionOperator → EvaluationStrategy → (first second third : Evaluation) → Evaluation
  | .replace => replaceOperatorEvaluator runtime

end Operators

/-! ## Expressions -/

mutual

def evaluateExpression (runtime : JsRuntime) (evaluationContext : EvaluationContext)
    (strategy : EvaluationStrategy) : (expression : Expression) → Evaluation
  | .textLiteral value => return some (.string value)
  | .numericLiteral value => return some (.number value)
  | .booleanLiteral value => return some (.boolean value)
  | .valuetypeAssignmentLiteral value => return some (.valuetypeAssignment value)
  | .regexLiteral value =>
      if runtime.isRegExp value then
        return some (.regExp value)
      else
        Exec.throw (.syntaxError s!"Invalid regular expression: /{value}/")
  | .cellRangeLiteral literal =>
      if literal.canBeWrapped then return some (.cellRange literal) else return none
  | .collectionLiteral values => do
      let evaluatedCollection ← evaluateExpressions runtime evaluationContext strategy values
      return (isEveryValueDefined evaluatedCollection).map Value.collection
  | .valueKeywordLiteral lengthAccess =>
      Exec.ofExcept (evaluationContext.getValueForValueKeyword lengthAccess)
  | .referenceLiteral value => return evaluationContext.getValueForReference value
  | .unaryExpression operator expression =>
      unaryEvaluator runtime (.unaryExpression operator expression) operator
        (evaluateExpression runtime evaluationContext strategy expression)
  | .binaryExpression operator left right =>
      binaryEvaluator runtime (.binaryExpression operator left right) operator strategy
        (evaluateExpression runtime evaluationContext strategy left)
        (evaluateExpression runtime evaluationContext strategy right)
  | .ternaryExpression operator first second third =>
      ternaryEvaluator runtime operator strategy
        (evaluateExpression runtime evaluationContext strategy first)
        (evaluateExpression runtime evaluationContext strategy second)
        (evaluateExpression runtime evaluationContext strategy third)

def evaluateExpressions (runtime : JsRuntime) (evaluationContext : EvaluationContext)
    (strategy : EvaluationStrategy) : (values : List Expression) → Validation (List (Option Value))
  | [] => return []
  | value :: values => do
      let evaluated ← evaluateExpression runtime evaluationContext strategy value
      let evaluatedValues ← evaluateExpressions runtime evaluationContext strategy values
      return evaluated :: evaluatedValues

end

/-- Evaluates without a validation context, lazily: diagnostics go nowhere. -/
def evaluateExpressionSilently {σ : Type} (runtime : JsRuntime)
    (evaluationContext : EvaluationContext) (expression : Expression) :
    Exec σ JsError (Option Value) :=
  Exec.isolate [] (evaluateExpression runtime evaluationContext .lazy expression)

def evaluatePropertyValue {σ : Type} (ast : Ast) (runtime : JsRuntime)
    (property : PropertyAssignment) (evaluationContext : EvaluationContext)
    (valueType : ValueType) : Exec σ JsError (Option Value) := do
  let result ←
    match property.value with
    | .runtimeParameter name =>
        Exec.ofExcept (evaluationContext.runtimeParameterProvider.getParsedValue name valueType)
    | .expression expression => evaluateExpressionSilently runtime evaluationContext expression
  match result with
  | none => return none
  | some value =>
      if ← Exec.ofExcept (valueType.isInternalValueRepresentation ast value) then
        return some value
      Exec.throw (.assertionError
        s!"Evaluation result {value.toString runtime} is not valid: Neither undefined, nor of type {valueType.getName ast}")

end Jayvee
