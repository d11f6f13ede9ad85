import Jayvee.Model.DeleterExecutors
import Jayvee.Model.PipelineValidation

/-! # Validation of expressions -/

namespace Jayvee

open Foundation

/-! ## Literals -/

namespace Expression

def isFreeVariableLiteral : Expression → Bool
  | valueKeywordLiteral _ | referenceLiteral _ => true
  | _ => false

def isValueLiteral : Expression → Bool
  | textLiteral _ | numericLiteral _ | booleanLiteral _ | regexLiteral _ | cellRangeLiteral _
  | valuetypeAssignmentLiteral _ | collectionLiteral _ => true
  | _ => false

def isExpressionLiteral (this : Expression) : Bool :=
  this.isValueLiteral || this.isFreeVariableLiteral

def isReferenceLiteral : Expression → Bool
  | referenceLiteral _ => true
  | _ => false

end Expression

/-! ## Texts of values -/

def CellIndex.toString (this : CellIndex) : String :=
  columnIndexToString this.columnIndex ++ rowIndexToString this.rowIndex

def CellRangeWrapper.toString (this : CellRangeWrapper) : String :=
  this.from.toString ++ ":" ++ this.to.toString

section Texts

variable (ast : Ast) (runtime : JsRuntime)

mutual

def internalValueToString : (valueRepresentation : Value) → Except JsError String
  | .collection values => do
      let items ← internalValuesToStrings values
      return "[ " ++ ", ".intercalate items ++ " ]"
  | .boolean value => return if value then "true" else "false"
  | .number value =>
      if value = .infinite false then
        return runtime.toLocaleString JsNumber.maxValue
      else if value = .infinite true then
        return runtime.toLocaleString JsNumber.minValue
      else
        return runtime.numberToString value
  | .string value => return s!"\"{value}\""
  | .regExp source => return source
  | .cellRange literal => do
      let wrapper ← CellRangeWrapper.wrap literal
      return wrapper.toString
  | .constraint id => return (ast.constraints[id]?.map ConstraintDefinition.name).getD ""
  | .valuetypeAssignment value => return value.name
  | .transform id => return (ast.transforms[id]?.map TransformDefinition.name).getD ""

def internalValuesToStrings : (values : List Value) → Except JsError (List String)
  | [] => return []
  | value :: values => do
      let item ← internalValueToString value
      let items ← internalValuesToStrings values
      return item :: items

end

end Texts

/-! ## Simplification -/

/-- The subexpressions that were collected are the inner expression alone. -/
def hasNoFreeVariables (innerSubExpressions : List ExpressionNode) (innerPath : List Nat) : Bool :=
  innerSubExpressions.length = 1 ∧
    innerSubExpressions[0]?.map Subterm.path = some innerPath

/-- `path` is the path to the expression. -/
def collectSubExpressionsWithoutFreeVariables (path : List Nat) :
    (expression : Expression) → List ExpressionNode
  | .unaryExpression operator innerExpression =>
      let innerSubExpressions :=
        collectSubExpressionsWithoutFreeVariables (path ++ [0]) innerExpression
      if hasNoFreeVariables innerSubExpressions (path ++ [0]) then
        [⟨path, .unaryExpression operator innerExpression⟩]
      else
        innerSubExpressions
  | .binaryExpression operator leftExpression rightExpression =>
      let leftSubExpressions :=
        collectSubExpressionsWithoutFreeVariables (path ++ [0]) leftExpression
      let rightSubExpressions :=
        collectSubExpressionsWithoutFreeVariables (path ++ [1]) rightExpression
      if hasNoFreeVariables leftSubExpressions (path ++ [0]) &&
          hasNoFreeVariables rightSubExpressions (path ++ [1]) then
        [⟨path, .binaryExpression operator leftExpression rightExpression⟩]
      else
        leftSubExpressions ++ rightSubExpressions
  | .ternaryExpression operator firstExpression secondExpression thirdExpression =>
      let firstSubExpressions :=
        collectSubExpressionsWithoutFreeVariables (path ++ [0]) firstExpression
      let secondSubExpressions :=
        collectSubExpressionsWithoutFreeVariables (path ++ [1]) secondExpression
      let thirdSubExpressions :=
        collectSubExpressionsWithoutFreeVariables (path ++ [2]) thirdExpression
      if hasNoFreeVariables firstSubExpressions (path ++ [0]) &&
          hasNoFreeVariables secondSubExpressions (path ++ [1]) &&
          hasNoFreeVariables thirdSubExpressions (path ++ [2]) then
        [⟨path, .ternaryExpression operator firstExpression secondExpression thirdExpression⟩]
      else
        firstSubExpressions ++ secondSubExpressions ++ thirdSubExpressions
  | literal => if literal.isFreeVariableLiteral then [] else [⟨path, literal⟩]

def isNegativeNumberExpression : Expression → Bool
  | .unaryExpression .minus expression => expression.isValueLiteral
  | _ => false

def isSimplifiableExpression (expression : Expression) : Bool :=
  !expression.isExpressionLiteral && !isNegativeNumberExpression expression

def checkSimplification (props : JayveeValidationProps) (node : ExpressionNode) :
    Validation Unit := do
  match ← evaluateExpression props.runtime props.evaluationContext .exhaustive node.term with
  | none => Exec.throw (.assertionError "The expression evaluated to a falsy value")
  | some evaluatedExpression => do
      let value ← Exec.ofExcept
        (internalValueToString props.ast props.runtime evaluatedExpression)
      accept .info s!"The expression can be simplified to {value}" { node := .subexpression node }

def checkExpressionSimplification (expression : Expression) (props : JayveeValidationProps) :
    Validation Unit :=
  let simplifiableSubExpressions :=
    (collectSubExpressionsWithoutFreeVariables [] expression).filter fun node =>
      isSimplifiableExpression node.term
  Exec.forEach simplifiableSubExpressions (checkSimplification props)

/-! ## Typing -/

def valueTypeMessage (subject : String) (expectedType inferredType : ValueType) (ast : Ast) :
    String :=
  s!"The value{subject} needs to be of type {expectedType.getName ast} but is of type {inferredType.getName ast}"

/-- What the three checks below do with the inferred type. -/
def checkInferredType (props : JayveeValidationProps) (subject : String)
    (expression : Expression) (inferredType expectedType : ValueType) : Validation Unit := do
  if !(← Exec.ofExcept (inferredType.isConvertibleTo props.ast expectedType)) then
    accept .error (valueTypeMessage subject expectedType inferredType props.ast)
      { node := .expression expression }
  else
    checkExpressionSimplification expression props

def checkOutputValueTyping (outputAssignment : TransformOutputAssignment)
    (props : JayveeValidationProps) : Validation Unit := do
  let assignmentExpression := outputAssignment.expression
  match outputAssignment.outPortName.map TransformPortDefinition.valueType with
  | none => return
  | some outputType => do
      match ← inferExpressionType props.ast none assignmentExpression with
      | none => return
      | some inferredType => do
          match ← Exec.ofExcept (ValueType.wrap props.ast outputType) with
          | none => return
          | some expectedType =>
              checkInferredType props "" assignmentExpression inferredType expectedType

def checkConstraintExpression (constraintType : ValueTypeReference) (expression : Expression)
    (props : JayveeValidationProps) : Validation Unit := do
  match ← inferExpressionType props.ast (some constraintType) expression with
  | none => return
  | some inferredType => checkInferredType props "" expression inferredType .Boolean

def checkPropertyValueTyping (property : PropertyAssignment) (propertyType : ValueType)
    (props : JayveeValidationProps) : Validation Unit := do
  match property.value with
  | .runtimeParameter _ => do
      if !(← Exec.ofExcept (propertyType.isAllowedAsRuntimeParameter props.ast)) then
        accept .error
          s!"Runtime parameters are not allowed for properties of type {propertyType.getName props.ast}"
          { node := .propertyValue property.value }
  | .expression propertyValue => do
      match ← inferExpressionType props.ast none propertyValue with
      | none => return
      | some inferredType =>
          checkInferredType props s!" of property \"{property.name}\"" propertyValue inferredType
            propertyType

/-! ## Ports of transforms -/

def extractReferenceLiterals (path : List Nat) : (expression : Expression) → List ExpressionNode
  | .ternaryExpression _ first second third =>
      extractReferenceLiterals (path ++ [0]) first ++
        extractReferenceLiterals (path ++ [1]) second ++
        extractReferenceLiterals (path ++ [2]) third
  | .binaryExpression _ left right =>
      extractReferenceLiterals (path ++ [0]) left ++ extractReferenceLiterals (path ++ [1]) right
  | .unaryExpression _ expression => extractReferenceLiterals (path ++ [0]) expression
  | literal => if literal.isReferenceLiteral then [⟨path, literal⟩] else []

/-- The port to which a reference literal refers. -/
def Expression.referencedPort : Expression → Option TransformPortDefinition
  | .referenceLiteral (some (.transformPortDefinition port)) => some port
  | _ => none

def checkOutputNotInAssignmentExpression (outputAssignment : TransformOutputAssignment) :
    Validation Unit :=
  let referenceLiterals := extractReferenceLiterals [] outputAssignment.expression
  Exec.forEach referenceLiterals fun referenceLiteral =>
    match referenceLiteral.term.referencedPort with
    | none => return
    | some referenced =>
        if referenced.kind = .to then
          accept .error "Output ports are not allowed in this expression"
            { node := .subexpression referenceLiteral }
        else
          return

def validateTransformOutputAssignment (outputAssignment : TransformOutputAssignment)
    (props : JayveeValidationProps) : Validation Unit := do
  checkOutputValueTyping outputAssignment props
  checkOutputNotInAssignmentExpression outputAssignment

def isOutputPortComplete (ast : Ast) (portDefinition : TransformPortDefinition) : Bool :=
  (portDefinition.valueType.ref ast).isSome

def checkAreInputsUsed (props : JayveeValidationProps) (transform : TransformDefinition) :
    Validation Unit :=
  let inputs := transform.ports.filter fun port => port.kind = .from
  let referencedPorts := transform.outputAssignments.flatMap fun outputAssignment =>
    (extractReferenceLiterals [] outputAssignment.expression).filterMap fun referenceLiteral =>
      referenceLiteral.term.referencedPort
  let referencedPortNames := referencedPorts.map TransformPortDefinition.name
  Exec.forEach inputs fun input =>
    if !referencedPortNames.contains input.name && isOutputPortComplete props.ast input then
      accept .warning "This input port is never used" { node := .transformPort input }
    else
      return

end Jayvee
