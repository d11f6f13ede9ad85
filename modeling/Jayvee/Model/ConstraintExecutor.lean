import Jayvee.Model.ExecutionContext

/-! # Constraints on values -/

namespace Jayvee

open Foundation ExecutionContext

variable {δ : Type} (services : ExecutionServices)

/-! ## Executors of typed constraints -/

/-- A property of the current node, narrowed to the type the executor expects. -/
def getTypedPropertyValue {A : Type} (typeguard : Value → Option A) (propertyName : String)
    (valueType : ValueType) : ExecM δ A := do
  let propertyValue ← getPropertyValue services propertyName valueType
  match typeguard propertyValue with
  | some value => return value
  | none => Exec.throw (.error s!"Property {propertyName} is of another type")

def collectionTypeguard : Value → Option (List Value)
  | .collection values => some values
  | _ => none

/-- `includes` of an array. -/
def includes (values : List Value) (value : String) : Bool :=
  values.any fun element => element.strictEquals (.string value)

namespace AllowlistConstraintExecutor

def isValid : Value → ExecM δ Bool
  | .string value => do
      let allowlist ← getTypedPropertyValue services collectionTypeguard "allowlist"
        (.collection .Text)
      return includes allowlist value
  | _ => return false

end AllowlistConstraintExecutor

namespace DenylistConstraintExecutor

def isValid : Value → ExecM δ Bool
  | .string value => do
      let denylist ← getTypedPropertyValue services collectionTypeguard "denylist"
        (.collection .Text)
      return !includes denylist value
  | _ => return false

end DenylistConstraintExecutor

namespace RegexConstraintExecutor

def isValid : Value → ExecM δ Bool
  | .string value => do
      let regex ← getTypedPropertyValue services Value.regexpTypeguard "regex" .Regex
      return services.runtime.test regex value
  | _ => return false

end RegexConstraintExecutor

namespace LengthConstraintExecutor

def isValid : Value → ExecM δ Bool
  | .string value => do
      let minLength ← getTypedPropertyValue services Value.numberTypeguard "minLength" .Integer
      let maxLength ← getTypedPropertyValue services Value.numberTypeguard "maxLength" .Integer
      let length : JsNumber := .finite (JsRuntime.length value)
      return minLength ≤ length && length ≤ maxLength
  | _ => return false

end LengthConstraintExecutor

namespace RangeConstraintExecutor

def isInRange (numericValue : JsNumber) : ExecM δ Bool := do
  let lowerBound ← getTypedPropertyValue services Value.numberTypeguard "lowerBound" .Decimal
  let lowerBoundInclusive ←
    getTypedPropertyValue services Value.booleanTypeguard "lowerBoundInclusive" .Boolean
  let upperBound ← getTypedPropertyValue services Value.numberTypeguard "upperBound" .Decimal
  let upperBoundInclusive ←
    getTypedPropertyValue services Value.booleanTypeguard "upperBoundInclusive" .Boolean
  let lowerBoundFulfilled : Bool :=
    if lowerBoundInclusive then lowerBound ≤ numericValue else lowerBound < numericValue
  let upperBoundFulfilled : Bool :=
    if upperBoundInclusive then numericValue ≤ upperBound else numericValue < upperBound
  return lowerBoundFulfilled && upperBoundFulfilled

def isValid : Value → ExecM δ Bool
  | .string value => isInRange services (services.runtime.parseFloat value)
  | .number value => isInRange services value
  | _ => return false

end RangeConstraintExecutor

/-! ## Executors of expression constraints -/

namespace ExpressionConstraintExecutor

def isValid (expression : Expression) (value : Value) : ExecM δ Bool := do
  setValueForValueKeyword value
  let context ← Exec.get
  match ← evaluateExpressionSilently services.runtime context.evaluationContext expression with
  | some (.boolean result) => do
      deleteValueForValueKeyword
      return result
  | _ => Exec.throw (.assertionError "The expression evaluated to a falsy value")

end ExpressionConstraintExecutor

/-! ## The default constraint extension -/

abbrev ConstraintExecutor (δ : Type) : Type :=
  Value → ExecM δ Bool

def getConstraintExecutors : List (String × ConstraintExecutor δ) :=
  [("AllowlistConstraint", AllowlistConstraintExecutor.isValid services),
    ("DenylistConstraint", DenylistConstraintExecutor.isValid services),
    ("RegexConstraint", RegexConstraintExecutor.isValid services),
    ("LengthConstraint", LengthConstraintExecutor.isValid services),
    ("RangeConstraint", RangeConstraintExecutor.isValid services)]

def createConstraintExecutor (constraint : ConstraintId) :
    Except JsError (ConstraintExecutor δ) :=
  match services.ast.constraints[constraint]? with
  | none => .error (.assertionError "The expression evaluated to a falsy value")
  | some (.typed name none _) =>
      .error (.assertionError s!"Could not resolve reference to constraint type of {name}")
  | some (.typed _ (some constraintType) _) =>
      match (getConstraintExecutors services).lookup constraintType.name with
      | none =>
          .error (.assertionError
            s!"No executor was registered for constraint type {constraintType.name}")
      | some constraintExecutor => .ok constraintExecutor
  | some (.expression _ _ expression) =>
      .ok (ExpressionConstraintExecutor.isValid services expression)

/-! ## Validity of values -/

def constraintTypeguard : Value → Option ConstraintId
  | .constraint id => some id
  | _ => none

/-- `getConstraints` of an atomic value type. -/
def getConstraints (valueType : ValuetypeId) : ExecM δ (List ConstraintId) := do
  match services.ast.valuetypes[valueType]?.bind ValuetypeDefinition.constraints with
  | none => Exec.throw (.assertionError "The expression evaluated to a falsy value")
  | some constraintCollection => do
      let context ← Exec.get
      let constraints ← evaluateExpressionSilently services.runtime context.evaluationContext
        (.collectionLiteral constraintCollection)
      match constraints with
      | some (.collection values) =>
          return (values.mapM constraintTypeguard).getD []
      | _ => return []

/-- The loop over the constraints of an atomic value type. -/
def fulfillsConstraints (value : Value) : (constraints : List ConstraintId) → ExecM δ Bool
  | [] => return true
  | constraint :: constraints => do
      let constraintExecutor ← Exec.ofExcept (createConstraintExecutor services constraint)
      enterNode (.constraint constraint)
      let valueFulfilledConstraint ← constraintExecutor value
      exitNode (.constraint constraint)
      if !valueFulfilledConstraint then
        return false
      fulfillsConstraints value constraints

/-- The visitor; the recursion is as deep as the hierarchy of value types. -/
def visitValueRepresentation (value : Value) : (fuel : Nat) → (valueType : ValueType) →
    ExecM δ Bool
  | 0, _ => Exec.throw .callStackExceeded
  | fuel + 1, .atomic astNode => do
      match ← Exec.ofExcept ((ValueType.atomic astNode).getSupertype services.ast) with
      | none => Exec.throw (.assertionError "The expression evaluated to a falsy value")
      | some supertype => do
          let isValidForSupertype ← visitValueRepresentation value fuel supertype
          if !isValidForSupertype then
            return false
          let constraints ← getConstraints services astNode
          fulfillsConstraints services value constraints
  | _ + 1, valueType =>
      Exec.ofExcept (valueType.isInternalValueRepresentation services.ast value)

def isValidValueRepresentation (value : Value) (valueType : ValueType) : ExecM δ Bool :=
  visitValueRepresentation services value (ValueType.hierarchyDepth services.ast) valueType

end Jayvee
