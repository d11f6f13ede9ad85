import Jayvee.Model.CellExecutors
import Jayvee.Model.ExpressionValidation
import Jayvee.Model.FileExecutors
import Jayvee.Model.ImportValidation
import Jayvee.Model.TextLineDeleterExecutor

/-! # Validation of property bodies -/

namespace Jayvee

open Foundation
open LineKind (cellRangeTypeguard)
open TableInterpreterExecutor (columnDefinitionsTypeguard)
open TableTransformerExecutor (textsTypeguard transformTypeguard)

/-! ## Nodes with a property body -/

/-- The container of a property body. -/
inductive PropertyBodyContainer where
  | block (block : BlockId)
  | constraint (constraint : ConstraintId)
  deriving DecidableEq, Repr

namespace PropertyBodyContainer

def astNode : PropertyBodyContainer → AstNode
  | .block node => .block node
  | .constraint node => .constraint node

def stackNode : PropertyBodyContainer → StackNode
  | .block node => .block node
  | .constraint node => .constraint node

/-- The properties in the body. -/
def properties (ast : Ast) (this : PropertyBodyContainer) : List PropertyAssignment :=
  (ExecutionContext.propertyBody ast (some this.stackNode)).getD []

/-- The constraint type that a typed constraint refers to. -/
def constraintTypeOf (ast : Ast) (constraint : ConstraintId) :
    Option BuiltinConstrainttypeDefinition :=
  match ast.constraints[constraint]? with
  | some (.typed _ type _) => type
  | _ => none

/-- `type.ref?.name` -/
def typeName (ast : Ast) : PropertyBodyContainer → Option String
  | .block node => (ast.blockTypeOf node).map ReferenceableBlockTypeDefinition.name
  | .constraint node =>
      (constraintTypeOf ast node).map BuiltinConstrainttypeDefinition.name

end PropertyBodyContainer

/-- What the checks of the executors' properties take. -/
def JayveeValidationProps.services (props : JayveeValidationProps) : ExecutionServices :=
  ⟨props.ast, props.runtime, false⟩

/-- `checkUniqueNames` with the details of the elements' type. -/
def checkUniqueElementNames (elementTypeDetails : String) (nodes : List (String × AstNode)) :
    Validation Unit :=
  Exec.forEach (nodes.map Prod.fst).eraseDups fun nodeName => do
    let nodesWithName := nodes.filter fun node => node.1 == nodeName
    if nodesWithName.length > 1 then
      Exec.forEach nodesWithName fun node =>
        accept .error s!"The {elementTypeDetails} name \"{nodeName}\" needs to be unique."
          { node := node.2, property := some "name" }

section Checks

variable (props : JayveeValidationProps)

/-! ## Properties of block types -/

def checkPropertyValueOneOf (propValue : Value) (allowedValues : List Value)
    (property : PropertyAssignment) : Validation Unit := do
  if !allowedValues.any fun v => v.strictEquals propValue then
    let texts ← Exec.ofExcept
      (allowedValues.mapM fun v => internalValueToString props.ast props.runtime v)
    let valueTexts := ", ".intercalate texts
    accept .error
      s!"The value of property \"{property.name}\" must be one of the following values: {valueTexts}"
      { node := .propertyAssignment property, property := some "value" }

/-- The check of a number, which the properties of two block types have. -/
def checkNotSmallerThan (minimum : Nat) (propValue : Value) (property : PropertyAssignment) :
    Validation Unit :=
  match propValue with
  | .number value =>
      if value < .finite minimum then
        accept .error s!"The value of property \"{property.name}\" must not be smaller than {minimum}"
          { node := .propertyAssignment property, property := some "value" }
      else
        return
  | _ => return

def checkArchiveInterpreterProperty (propValue : Value) (property : PropertyAssignment) :
    Validation Unit := do
  let allowedArchiveTypes : List Value := [.string "zip", .string "gz"]
  if property.name = "archiveType" then
    checkPropertyValueOneOf props propValue allowedArchiveTypes property

def checkCellWriterProperty (property : PropertyAssignment) : Validation Unit := do
  if property.name ≠ "at" then
    return
  let value ← evaluatePropertyValue props.ast props.runtime property props.evaluationContext
    .CellRange
  match value.bind cellRangeTypeguard with
  | none => return
  | some cellRange => do
      if !cellRange.canBeWrapped then
        return
      let cellRangeWrapper ← Exec.ofExcept (CellRangeWrapper.wrap cellRange)
      if !cellRangeWrapper.isOneDimensional then
        accept .error "The cell range needs to be one-dimensional"
          { node := .expression (.cellRangeLiteral cellRangeWrapper.astNode) }

def checkGtfsRTInterpreterProperty (propValue : Value) (property : PropertyAssignment) :
    Validation Unit := do
  let allowedEntities : List Value := [.string "trip_update", .string "alert", .string "vehicle"]
  if property.name = "entity" then
    checkPropertyValueOneOf props propValue allowedEntities property

def checkHttpExtractorProperty (propValue : Value) (property : PropertyAssignment) :
    Validation Unit := do
  if property.name = "retries" then
    checkNotSmallerThan 0 propValue property
  if property.name = "retryBackoffMilliseconds" then
    checkNotSmallerThan 1000 propValue property
  if property.name = "retryBackoffStrategy" then
    let allowedRetryStrategies : List Value := [.string "exponential", .string "linear"]
    checkPropertyValueOneOf props propValue allowedRetryStrategies property

/-- `text.includes(pattern)` -/
def includesText (text pattern : String) : Bool :=
  (List.range (text.length + 1)).any fun index =>
    pattern.toList.isPrefixOf (text.toList.drop index)

def checkLocalFileExtractorProperty (propValue : Value) (property : PropertyAssignment) :
    Validation Unit := do
  if property.name = "filePath" then
    let text ← Exec.ofExcept (internalValueToString props.ast props.runtime propValue)
    if includesText text ".." then
      accept .error "File path cannot include \"..\". Path traversal is restricted."
        { node := .propertyAssignment property, property := some "value" }

def checkTableInterpreterProperty (property : PropertyAssignment) : Validation Unit := do
  if property.name ≠ "columns" then
    return
  match ← evaluatePropertyValue props.ast props.runtime property props.evaluationContext
      (.collection .ValuetypeAssignment) with
  | none => return
  | some value =>
      checkUniqueElementNames "column" (((columnDefinitionsTypeguard value).getD []).map
        fun node => (node.name, .expression (.valuetypeAssignmentLiteral node)))

def checkTextFileInterpreterProperty (propValue : Value) (property : PropertyAssignment) :
    Validation Unit := do
  let allowedEncodings : List Value :=
    ["utf8", "ibm866", "latin2", "latin3", "latin4", "cyrillic", "arabic", "greek", "hebrew",
      "logical", "latin6", "utf-16"].map Value.string
  if property.name = "encoding" then
    checkPropertyValueOneOf props propValue allowedEncodings property

def checkTextRangeSelectorProperty (propValue : Value) (property : PropertyAssignment) :
    Validation Unit := do
  if property.name = "lineFrom" ∨ property.name = "lineTo" then
    checkNotSmallerThan 1 propValue property

/-- The checks are found by the name of the type alone. -/
def checkPropertyOfType (typeName : Option String) (propValue : Value)
    (property : PropertyAssignment) : Validation Unit :=
  match typeName with
  | some "ArchiveInterpreter" => checkArchiveInterpreterProperty props propValue property
  | some "CellWriter" => checkCellWriterProperty props property
  | some "ColumnDeleter" =>
      checkColumnDeleterProperty props.services props.evaluationContext property
  | some "GtfsRTInterpreter" => checkGtfsRTInterpreterProperty props propValue property
  | some "HttpExtractor" => checkHttpExtractorProperty props propValue property
  | some "LocalFileExtractor" => checkLocalFileExtractorProperty props propValue property
  | some "RowDeleter" => checkRowDeleterProperty props.services props.evaluationContext property
  | some "TableInterpreter" => checkTableInterpreterProperty props property
  | some "TextFileInterpreter" => checkTextFileInterpreterProperty props propValue property
  | some "TextLineDeleter" =>
      TextLineDeleterExecutor.checkTextLineDeleterProperty props.services props.evaluationContext
        property
  | some "TextRangeSelector" => checkTextRangeSelectorProperty propValue property
  | _ => return

def checkBlockTypeSpecificProperties (container : PropertyBodyContainer)
    (property : PropertyAssignment) (propertySpec : PropertySpecification) : Validation Unit := do
  match ← evaluatePropertyValue props.ast props.runtime property props.evaluationContext
      propertySpec.type with
  | none => return
  | some propValue => checkPropertyOfType props (container.typeName props.ast) propValue property

/-! ## Property assignments -/

def checkPropertyNameValidity (property : PropertyAssignment)
    (propertySpec : Option PropertySpecification) : Validation Unit :=
  match propertySpec with
  | none =>
      accept .error s!"Invalid property name \"{property.name}\"."
        { node := .propertyAssignment property, property := some "name" }
  | some _ => return

/-- `wrapper` lists the property specifications. -/
def validatePropertyAssignment (container : PropertyBodyContainer)
    (wrapper : List PropertySpecification) (property : PropertyAssignment) : Validation Unit := do
  let propertySpec := getPropertySpecification wrapper property.name
  checkPropertyNameValidity property propertySpec
  match propertySpec with
  | none => return
  | some propertySpec => do
      checkPropertyValueTyping property propertySpec.type props
      if ← hasErrorOccurred then
        return
      checkBlockTypeSpecificProperties props container property propertySpec

/-! ## Property bodies of block types -/

/-- The property as an integer or a decimal number, if it is present and has a value. -/
def evaluateBound (property : PropertyAssignment) (valueType : ValueType) :
    Validation (Option JsNumber) := do
  let value ← evaluatePropertyValue props.ast props.runtime property props.evaluationContext
    valueType
  return value.bind Value.numberTypeguard

def findProperty (properties : List PropertyAssignment) (name : String) :
    Option PropertyAssignment :=
  properties.find? fun p => p.name == name

/-- The errors at the bounds where the lower one is above the upper one. -/
def checkBoundsOrder (lower upper : PropertyAssignment × JsNumber) (message : String) :
    Validation Unit :=
  if lower.2 > upper.2 then
    Exec.forEach [lower.1, upper.1] fun property =>
      accept .error message { node := .propertyValue property.value }
  else
    return

/-- The values of a lower and an upper bound, where both are present and have one. -/
def evaluateBounds (properties : List PropertyAssignment) (lowerName upperName : String)
    (valueType : ValueType) :
    Validation (Option ((PropertyAssignment × JsNumber) × (PropertyAssignment × JsNumber))) := do
  match findProperty properties lowerName, findProperty properties upperName with
  | some lowerProperty, some upperProperty => do
      let lower ← evaluateBound props lowerProperty valueType
      let upper ← evaluateBound props upperProperty valueType
      match lower, upper with
      | some lower, some upper => return some ((lowerProperty, lower), (upperProperty, upper))
      | _, _ => return none
  | _, _ => return none

def checkTextRangeSelectorPropertyBody (properties : List PropertyAssignment) :
    Validation Unit := do
  match ← evaluateBounds props properties "lineFrom" "lineTo" .Integer with
  | none => return
  | some (lineFrom, lineTo) =>
      checkBoundsOrder lineFrom lineTo
        "The lower line number needs to be smaller or equal to the upper line number"

def checkInputColumnsMatchTransformationPorts (properties : List PropertyAssignment) :
    Validation Unit := do
  match findProperty properties "uses", findProperty properties "inputColumns" with
  | some useProperty, some inputColumnsProperty => do
      let transform ← evaluatePropertyValue props.ast props.runtime useProperty
        props.evaluationContext .Transform
      let inputColumns ← evaluatePropertyValue props.ast props.runtime inputColumnsProperty
        props.evaluationContext (.collection .Text)
      let transform := (transform.bind transformTypeguard).bind fun id => props.ast.transforms[id]?
      match transform, inputColumns.bind textsTypeguard with
      | some transform, some inputColumns =>
          let transformInputPorts := transform.ports.filter fun x => x.kind = .from
          let numberTransformPorts := transformInputPorts.length
          let numberInputColumns := inputColumns.length
          if numberTransformPorts ≠ numberInputColumns then
            accept .error
              s!"Expected {numberTransformPorts} columns but only got {numberInputColumns}"
              { node := .propertyAssignment inputColumnsProperty }
      | _, _ => return
  | _, _ => return

def checkTableTransformerPropertyBody (properties : List PropertyAssignment) : Validation Unit :=
  checkInputColumnsMatchTransformationPorts props properties

def checkBlockTypeSpecificPropertyBody (typeName : Option String)
    (properties : List PropertyAssignment) : Validation Unit :=
  match typeName with
  | some "TextRangeSelector" => checkTextRangeSelectorPropertyBody props properties
  | some "CellWriter" => checkCellWriterPropertyBody props properties
  | some "TableTransformer" => checkTableTransformerPropertyBody props properties
  | _ => return

/-! ## Property bodies of constraint types -/

/-- The hint at a constraint that has neither of its bounds. -/
def checkAnyBound (container : PropertyBodyContainer)
    (lowerProperty upperProperty : Option PropertyAssignment) : Validation Unit :=
  if lowerProperty.isNone && upperProperty.isNone then
    accept .hint
      "This constraint should either specify an upper or lower bound, otherwise it has no effect."
      { node := container.astNode }
  else
    return

def checkLengthConstraintPropertyBody (container : PropertyBodyContainer)
    (properties : List PropertyAssignment) : Validation Unit := do
  checkAnyBound container (findProperty properties "minLength")
    (findProperty properties "maxLength")
  match ← evaluateBounds props properties "minLength" "maxLength" .Integer with
  | none => return
  | some (minLength, maxLength) =>
      checkBoundsOrder minLength maxLength
        "The minimum length needs to be smaller or equal to the maximum length"

/-- Whether a bound is inclusive, which it is by default; `none` without a value. -/
def evaluateInclusive (inclusiveProperty : Option PropertyAssignment) :
    Validation (Option Bool) := do
  match inclusiveProperty with
  | none => return some true
  | some property => do
      let value ← evaluatePropertyValue props.ast props.runtime property props.evaluationContext
        .Boolean
      return value.bind Value.booleanTypeguard

/-- The error at a bound that needs to be inclusive. -/
def checkInclusive (inclusiveProperty : Option PropertyAssignment) (inclusive : Bool) :
    Validation Unit :=
  match inclusiveProperty with
  | some property =>
      if !inclusive then
        accept .error "Lower and upper bounds need to be inclusive if they are identical"
          { node := .propertyValue property.value }
      else
        return
  | none => return

def checkRangeConstraintPropertyBody (container : PropertyBodyContainer)
    (properties : List PropertyAssignment) : Validation Unit := do
  checkAnyBound container (findProperty properties "lowerBound")
    (findProperty properties "upperBound")
  match ← evaluateBounds props properties "lowerBound" "upperBound" .Decimal with
  | none => return
  | some (lowerBound, upperBound) => do
      checkBoundsOrder lowerBound upperBound
        "The lower bound needs to be smaller or equal to the upper bound"
      if !lowerBound.2.strictEquals upperBound.2 then
        return
      let lowerBoundInclusiveProperty := findProperty properties "lowerBoundInclusive"
      let upperBoundInclusiveProperty := findProperty properties "upperBoundInclusive"
      match ← evaluateInclusive props lowerBoundInclusiveProperty with
      | none => return
      | some lowerBoundInclusive =>
          match ← evaluateInclusive props upperBoundInclusiveProperty with
          | none => return
          | some upperBoundInclusive => do
              checkInclusive lowerBoundInclusiveProperty lowerBoundInclusive
              checkInclusive upperBoundInclusiveProperty upperBoundInclusive

def checkConstraintTypeSpecificPropertyBody (container : PropertyBodyContainer)
    (typeName : Option String) (properties : List PropertyAssignment) : Validation Unit :=
  match typeName with
  | some "LengthConstraint" => checkLengthConstraintPropertyBody props container properties
  | some "RangeConstraint" => checkRangeConstraintPropertyBody props container properties
  | _ => return

/-! ## Property bodies -/

/-- `wrap` of the factory of typed objects. It does not throw where the type is incomplete. -/
def wrapTypedObject {σ : Type} :
    PropertyBodyContainer → Exec σ JsError (Option (List PropertySpecification))
  | .block block => do
      let type := props.ast.blockTypeOf block
      if !BlockTypeWrapper.canBeWrapped type then
        return none
      let wrapper ← BlockTypeWrapper.wrap props.ast props.runtime type
      return some wrapper.properties
  | .constraint constraint => do
      let type := PropertyBodyContainer.constraintTypeOf props.ast constraint
      if !ConstraintTypeWrapper.canBeWrapped type then
        return none
      let wrapper ← ConstraintTypeWrapper.wrap props.ast props.runtime type
      return some wrapper.properties

/-- The names of the properties without a default value that are not present. A name that is
declared again keeps its first position. -/
def getMissingRequiredPropertyNames (wrapper : List PropertySpecification)
    (presentPropertyNames : List String) : List String :=
  (wrapper.map PropertySpecification.name).eraseDups.filter fun name =>
    ((getPropertySpecification wrapper name).bind PropertySpecification.defaultValue).isNone &&
      !presentPropertyNames.contains name

def checkPropertyCompleteness (container : PropertyBodyContainer)
    (properties : List PropertyAssignment) (wrapper : List PropertySpecification) :
    Validation Unit := do
  let presentPropertyNames := properties.map PropertyAssignment.name
  let missingRequiredPropertyNames :=
    getMissingRequiredPropertyNames wrapper presentPropertyNames
  if missingRequiredPropertyNames.length > 0 then
    let names := ", ".intercalate (missingRequiredPropertyNames.map fun name => s!"\"{name}\"")
    accept .error s!"The following required properties are missing: {names}"
      { node := container.astNode, property := some "type" }

/-- Neither wrapper class has validations of its own. -/
def checkCustomPropertyValidation (container : PropertyBodyContainer)
    (properties : List PropertyAssignment) : Validation Unit :=
  match container with
  | .block _ =>
      checkBlockTypeSpecificPropertyBody props (container.typeName props.ast) properties
  | .constraint _ =>
      checkConstraintTypeSpecificPropertyBody props container (container.typeName props.ast)
        properties

def validatePropertyBody (container : PropertyBodyContainer) : Validation Unit := do
  let properties := container.properties props.ast
  checkUniqueNames (properties.map fun property => (property.name, .propertyAssignment property))
  match ← wrapTypedObject props container with
  | none => return
  | some wrapper => do
      checkPropertyCompleteness container properties wrapper
      Exec.forEach properties (validatePropertyAssignment props container wrapper)
      if ← hasErrorOccurred then
        return
      checkCustomPropertyValidation props container properties

/-! ## Runtime parameters -/

def checkRuntimeParameterValuePresence (property : PropertyAssignment) (name : String) :
    Validation Unit :=
  if (props.evaluationContext.runtimeParameterProvider.runtimeParameters name).isNone then
    accept .error
      s!"A value needs to be provided by adding \"-e {name}=<value>\" to the command."
      { node := .propertyValue property.value }
  else
    return

def checkRuntimeParameterValueParsing (container : PropertyBodyContainer)
    (property : PropertyAssignment) (name : String) : Validation Unit := do
  let wrapper ← wrapTypedObject props container
  match wrapper.bind fun wrapper => getPropertySpecification wrapper property.name with
  | none => return
  | some propertySpec => do
      let valueType := propertySpec.type
      let provider := props.evaluationContext.runtimeParameterProvider
      match ← Exec.ofExcept (provider.getParsedValue name valueType) with
      | some _ => return
      | none =>
          let rawValue := (provider.runtimeParameters name).getD ""
          accept .error s!"Unable to parse the value \"{rawValue}\" as {valueType.getName props.ast}."
            { node := .propertyValue property.value }

/-- The check of the runtime parameter that is the value of `property`. -/
def validateRuntimeParameterLiteral (container : PropertyBodyContainer)
    (property : PropertyAssignment) (name : String) : Validation Unit := do
  checkRuntimeParameterValuePresence props property name
  if ← hasErrorOccurred then
    return
  checkRuntimeParameterValueParsing props container property name

end Checks

end Jayvee
