import Jayvee.Model.ConstraintExecutor
import Jayvee.Model.PipelineValidation

/-! # Validation of value types -/

namespace Jayvee

open Foundation

/-! ## References -/

/-- The node in which a reference to a value type stands, with what contains that node. -/
inductive ValueTypeReferenceContainer where
  | valuetypeAssignment | valuetypeDefinition | transformPort | expressionConstraint
  | constrainttype | builtinBlockTypeProperty | compositeBlockTypeProperty | constrainttypeProperty
  deriving DecidableEq, Repr

namespace ValueTypeReferenceContainer

/-- The container of the container is the definition of a builtin block type or of a
constraint type. -/
def isUsedInBuiltinDefinition : ValueTypeReferenceContainer → Bool
  | builtinBlockTypeProperty | constrainttypeProperty => true
  | _ => false

end ValueTypeReferenceContainer

def ValuetypeDefinition.requiredGenerics (definition : ValuetypeDefinition) : Nat :=
  (definition.genericDefinition.map fun genericDefinition =>
    genericDefinition.generics.length).getD 0

def genericsMatchMessage (valueTypeDefinition : ValuetypeDefinition)
    (requiredGenerics givenGenerics : Nat) : String :=
  s!"The referenced value type {valueTypeDefinition.name} requires {requiredGenerics} generic parameters but found {givenGenerics}."

def checkGenericsMatchDefinition (props : JayveeValidationProps)
    (valueTypeRef : ValueTypeReference) : Validation Unit :=
  match valueTypeRef.ref props.ast with
  | none => return
  | some valueTypeDefinition =>
      let requiredGenerics := valueTypeDefinition.requiredGenerics
      let givenGenerics := valueTypeRef.genericRefs.length
      if givenGenerics ≠ requiredGenerics then
        accept .error (genericsMatchMessage valueTypeDefinition requiredGenerics givenGenerics)
          { node := .valueTypeReference valueTypeRef }
      else
        return

def checkIsValueTypeReferenceable (props : JayveeValidationProps)
    (container : ValueTypeReferenceContainer) (valueTypeRef : ValueTypeReference) :
    Validation Unit := do
  match ← Exec.ofExcept (ValueType.wrap props.ast valueTypeRef) with
  | none => return
  | some valueType => do
      if container.isUsedInBuiltinDefinition then
        return
      if ← Exec.ofExcept (valueType.isReferenceableByUser props.ast) then
        return
      accept .error s!"Value type {valueType.getName props.ast} cannot be referenced in this context"
        { node := .valueTypeReference valueTypeRef }

def validateValueTypeReference (props : JayveeValidationProps)
    (container : ValueTypeReferenceContainer) (valueTypeRef : ValueTypeReference) :
    Validation Unit := do
  checkGenericsMatchDefinition props valueTypeRef
  checkIsValueTypeReferenceable props container valueTypeRef

/-! ## Definitions -/

section Definitions

variable (props : JayveeValidationProps)

def checkSupertypeCycle (valueTypeDefinition : ValuetypeId) : Validation Unit := do
  let hasCycle ← Exec.ofExcept do
    match ← ValueType.wrapDefinition props.ast valueTypeDefinition with
    | none => return false
    | some valueType =>
        valueType.hasSupertypeCycle props.ast (ValueType.hierarchyDepth props.ast) []
  if hasCycle then
    let isBuiltin :=
      (props.ast.valuetypes[valueTypeDefinition]?.map ValuetypeDefinition.isBuiltin).getD false
    if isBuiltin then
      Exec.throw (.assertionError "The expression evaluated to a falsy value")
    accept .error
      "Could not construct this value type since there is a cycle in the (transitive) \"oftype\" relation."
      { node := .valuetype valueTypeDefinition, property := some "type" }

/-- The first guard lacks a negation: it leaves out the constraint types that can be wrapped. -/
def getCompatibleValuetype (constraint : ConstraintId) : Validation (Option ValueType) :=
  match props.ast.constraints[constraint]? with
  | some (.typed _ type _) => do
      if ConstraintTypeWrapper.canBeWrapped type then
        return none
      let constraintType ← ConstraintTypeWrapper.wrap props.ast props.runtime type
      return some constraintType.on
  | some (.expression _ valueType _) => Exec.ofExcept (ValueType.wrap props.ast valueType)
  | none => Exec.throw (.error "Error! The input value was not handled.")

def constraintMismatchMessage (actualValuetype compatibleValuetype : ValueType)
    (constraint : ConstraintId) : String :=
  let constraintName := (props.ast.constraints[constraint]?.map ConstraintDefinition.name).getD ""
  s!"This value type {actualValuetype.getName props.ast} is not convertible to the type {compatibleValuetype.getName props.ast} of the constraint \"{constraintName}\""

def checkConstraintMatchesValuetype (valueTypeDefinition : ValuetypeId)
    (diagnosticNode : Expression) (constraint : ConstraintId) (diagnosticIndex : Nat) :
    Validation Unit := do
  let actualValuetype ← Exec.ofExcept (ValueType.wrapDefinition props.ast valueTypeDefinition)
  let compatibleValuetype ← getCompatibleValuetype props constraint
  match actualValuetype, compatibleValuetype with
  | some actualValuetype, some compatibleValuetype => do
      if !(← Exec.ofExcept (actualValuetype.isConvertibleTo props.ast compatibleValuetype)) then
        accept .error (constraintMismatchMessage props actualValuetype compatibleValuetype constraint)
          { node := .expression diagnosticNode
            property := some "values"
            index := some diagnosticIndex }
  | _, _ => return

def checkConstraintsCollectionValues (valueType : ValuetypeId) : Validation Unit := do
  match props.ast.valuetypes[valueType]?.bind ValuetypeDefinition.constraints with
  | none => return
  | some values => do
      let constraintCollection := Expression.collectionLiteral values
      let expectedType := ValueType.collection .Constraint
      match ← inferExpressionType props.ast none constraintCollection with
      | none => return
      | some inferredCollectionType => do
          if !(← Exec.ofExcept (inferredCollectionType.isConvertibleTo props.ast expectedType)) then
            accept .error
              s!"The value needs to be of type {expectedType.getName props.ast} but is of type {inferredCollectionType.getName props.ast}"
              { node := .expression constraintCollection }
          else
            let constraints ←
              evaluateExpression props.runtime props.evaluationContext .lazy constraintCollection
            -- an array of which every element is a constraint definition
            match constraints.bind collectionTypeguard >>= fun constraints =>
                constraints.mapM constraintTypeguard with
            | none => Exec.throw (.assertionError "The expression evaluated to a falsy value")
            | some constraints =>
                Exec.forEach constraints.zipIdx fun constraint =>
                  checkConstraintMatchesValuetype props valueType constraintCollection
                    constraint.1 constraint.2

/-- Names that every object inherits. Counting in a record finds a function there instead of a
number, and never more than one occurrence. -/
def inheritedPropertyNames : List String :=
  ["constructor", "__defineGetter__", "__defineSetter__", "hasOwnProperty", "__lookupGetter__",
    "__lookupSetter__", "isPrototypeOf", "propertyIsEnumerable", "toString", "valueOf",
    "__proto__", "toLocaleString"]

def getDuplicateGenerics (generics : List ValuetypeGenericDefinition) :
    List ValuetypeGenericDefinition :=
  let withName := fun name => generics.filter fun x => x.name == name
  let duplicateGenericNames :=
    (generics.map ValuetypeGenericDefinition.name).eraseDups.filter fun name =>
      !inheritedPropertyNames.contains name && (withName name).length > 1
  duplicateGenericNames.flatMap withName

def checkGenericsHaveNoDuplicate (valueTypeDefinition : ValuetypeId) : Validation Unit :=
  match props.ast.valuetypes[valueTypeDefinition]?.bind ValuetypeDefinition.genericDefinition with
  | none => return
  | some genericDefinition =>
      Exec.forEach (getDuplicateGenerics genericDefinition.generics) fun generic =>
        accept .error s!"Generic parameter {generic.name} is not unique"
          { node := .valuetypeGeneric generic, property := some "name" }

def validateValueTypeDefinition (valueType : ValuetypeId) : Validation Unit := do
  checkSupertypeCycle props valueType
  checkConstraintsCollectionValues props valueType
  checkGenericsHaveNoDuplicate props valueType

end Definitions

end Jayvee
