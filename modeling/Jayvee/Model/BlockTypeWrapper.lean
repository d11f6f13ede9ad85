import Jayvee.Model.Evaluation

/-! # Block types and constraint types -/

namespace Jayvee

open Foundation

/-! ## IO types -/

inductive IOType where
  | none | file | textFile | fileSystem | sheet | table | workbook
  deriving DecidableEq, Repr

namespace IOType

def values : List (String × IOType) :=
  [("None", none), ("File", file), ("TextFile", textFile), ("FileSystem", fileSystem),
    ("Sheet", sheet), ("Table", table), ("Workbook", workbook)]

/-- The string that is the value of the member. -/
def text : IOType → String
  | none => "None"
  | file => "File"
  | textFile => "TextFile"
  | fileSystem => "FileSystem"
  | sheet => "Sheet"
  | table => "Table"
  | workbook => "Workbook"

end IOType

def getIOType (blockPort : BlockTypeIO) : Except JsError IOType :=
  match blockPort.iotype with
  | none =>
      .error (.assertionError s!"Unknown IOType name for block input/output {blockPort.name}.")
  | some ioTypeName =>
      match IOType.values.lookup ioTypeName with
      | none => .error (.assertionError s!"IO type {ioTypeName} does not exist.")
      | some ioType => .ok ioType

/-! ## Wrapped block types -/

structure PropertySpecification where
  name : String
  type : ValueType
  defaultValue : Option Value

/-- The properties are kept by name, so a later one replaces an earlier one. -/
def getPropertySpecification (properties : List PropertySpecification) (name : String) :
    Option PropertySpecification :=
  (properties.filter fun property => property.name == name).getLast?

structure BlockTypeWrapper where
  astNode : ReferenceableBlockTypeDefinition
  properties : List PropertySpecification
  inputType : IOType
  outputType : IOType

namespace BlockTypeWrapper

def canBeWrapped (toBeWrapped : Option ReferenceableBlockTypeDefinition) : Bool :=
  match toBeWrapped with
  | none => false
  | some blockTypeDefinition =>
      !blockTypeDefinition.inputs.isEmpty && !blockTypeDefinition.outputs.isEmpty &&
        blockTypeDefinition.properties.all fun property => property.valueType.reference.isSome

/-- An evaluation context without values and runtime parameters. -/
def emptyEvaluationContext : EvaluationContext where
  runtimeParameterProvider := ⟨fun _ => none, none⟩
  variableValues _ := none
  valueKeywordValue := none

def constructProperty {σ : Type} (ast : Ast) (runtime : JsRuntime)
    (property : BlockTypeProperty) : Exec σ JsError PropertySpecification := do
  match ← Exec.ofExcept (ValueType.wrap ast property.valueType) with
  | none => Exec.throw (.assertionError "The expression evaluated to a falsy value")
  | some valueType => do
      let defaultValue ←
        match property.defaultValue with
        | none => pure none
        | some expression =>
            evaluateExpressionSilently runtime emptyEvaluationContext expression
      return ⟨property.name, valueType, defaultValue⟩

def getPortIOType {σ : Type} (port : Option BlockTypeIO) : Exec σ JsError IOType :=
  match port with
  | none => Exec.throw (.assertionError "The expression evaluated to a falsy value")
  | some port => Exec.ofExcept (getIOType port)

/-- The constructor. -/
def construct {σ : Type} (ast : Ast) (runtime : JsRuntime)
    (blockTypeDefinition : ReferenceableBlockTypeDefinition) :
    Exec σ JsError BlockTypeWrapper := do
  let properties ← blockTypeDefinition.properties.mapM (constructProperty ast runtime)
  let inputType ← getPortIOType blockTypeDefinition.inputs.head?
  let outputType ← getPortIOType blockTypeDefinition.outputs.head?
  return ⟨blockTypeDefinition, properties, inputType, outputType⟩

/-- `wrap` of the factory. -/
def wrap {σ : Type} (ast : Ast) (runtime : JsRuntime)
    (toBeWrapped : Option ReferenceableBlockTypeDefinition) : Exec σ JsError BlockTypeWrapper :=
  match toBeWrapped with
  | some blockTypeDefinition =>
      if canBeWrapped toBeWrapped then
        construct ast runtime blockTypeDefinition
      else
        Exec.throw (.assertionError s!"AstNode {blockTypeDefinition.name} cannot be wrapped")
  | none => Exec.throw (.assertionError "AstNode <unresolved reference> cannot be wrapped")

def canBeConnectedTo (this blockAfter : BlockTypeWrapper) : Bool :=
  this.outputType == blockAfter.inputType

def hasInput (this : BlockTypeWrapper) : Bool :=
  this.inputType != .none

def hasOutput (this : BlockTypeWrapper) : Bool :=
  this.outputType != .none

end BlockTypeWrapper

/-! ## Wrapped constraint types -/

structure ConstraintTypeWrapper where
  astNode : BuiltinConstrainttypeDefinition
  properties : List PropertySpecification
  «on» : ValueType

namespace ConstraintTypeWrapper

def canBeWrapped (toBeWrapped : Option BuiltinConstrainttypeDefinition) : Bool :=
  match toBeWrapped with
  | none => false
  | some constraintTypeDefinition =>
      constraintTypeDefinition.properties.all fun property => property.valueType.reference.isSome

/-- The constructor. -/
def construct {σ : Type} (ast : Ast) (runtime : JsRuntime)
    (constraintTypeDefinition : BuiltinConstrainttypeDefinition) :
    Exec σ JsError ConstraintTypeWrapper := do
  let properties ←
    constraintTypeDefinition.properties.mapM (BlockTypeWrapper.constructProperty ast runtime)
  match ← Exec.ofExcept (ValueType.wrap ast constraintTypeDefinition.valueType) with
  | none => Exec.throw (.assertionError "The expression evaluated to a falsy value")
  | some valueType => return ⟨constraintTypeDefinition, properties, valueType⟩

/-- `wrap` of the factory. -/
def wrap {σ : Type} (ast : Ast) (runtime : JsRuntime)
    (toBeWrapped : Option BuiltinConstrainttypeDefinition) :
    Exec σ JsError ConstraintTypeWrapper :=
  match toBeWrapped with
  | some constraintTypeDefinition =>
      if canBeWrapped toBeWrapped then
        construct ast runtime constraintTypeDefinition
      else
        Exec.throw
          (.assertionError s!"AstNode {constraintTypeDefinition.name} cannot be wrapped")
  | none => Exec.throw (.assertionError "AstNode <unresolved reference> cannot be wrapped")

end ConstraintTypeWrapper

end Jayvee
