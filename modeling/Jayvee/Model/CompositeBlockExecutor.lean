import Jayvee.Model.BlockExecution

/-! # Execution of composite blocks -/

namespace Jayvee

open Foundation ExecutionContext

variable {δ : Type}

/-! ## Ports and the pipeline of a composite block type -/

def getPipeline {σ : Type} (block : CompositeBlockTypeDefinition) :
    Exec σ JsError PipeDefinition :=
  match block.pipes with
  | pipeline :: _ => return pipeline
  | [] => Exec.throw
      (.assertionError s!"Composite block {block.name} must have exactly one pipeline.")

def getInputType (block : CompositeBlockTypeDefinition) : Except JsError IOType :=
  match block.inputs with
  | [input] => getIOType input
  | _ => .error (.assertionError s!"Composite block {block.name} must have exactly one input.")

def getOutputType (block : CompositeBlockTypeDefinition) : Except JsError IOType :=
  match block.outputs with
  | [output] => getIOType output
  | _ => .error (.assertionError s!"Composite block {block.name} must have exactly one output.")

/-! ## Properties -/

section Properties

variable (services : ExecutionServices)

/-- The default value of the first property with the name. -/
def getDefaultValue {σ : Type} (name : String) (properties : List BlockTypeProperty)
    (evaluationContext : EvaluationContext) : Exec σ JsError (Option Value) :=
  let propertyFromBlockType := properties.find? fun property => property.name == name
  match propertyFromBlockType.bind BlockTypeProperty.defaultValue with
  | none => return none
  | some defaultValue =>
      evaluateExpressionSilently services.runtime evaluationContext defaultValue

def getPropertyValueFromBlockOrDefault {σ : Type} (name : String) (valueType : ValueType)
    (body : List PropertyAssignment) (properties : List BlockTypeProperty)
    (evaluationContext : EvaluationContext) : Exec σ JsError (Option Value) := do
  match body.find? fun property => property.name == name with
  | none => getDefaultValue services name properties evaluationContext
  | some propertyFromBlock => do
      match ← evaluatePropertyValue services.ast services.runtime propertyFromBlock
          evaluationContext valueType with
      | some value => return some value
      | none => getDefaultValue services name properties evaluationContext

/-- The value of one property of the block type, from the block or its default. -/
def getValueOfProperty {σ : Type} (body : List PropertyAssignment)
    (properties : List BlockTypeProperty) (evaluationContext : EvaluationContext)
    (blockTypeProperty : BlockTypeProperty) : Exec σ JsError Value := do
  match ← Exec.ofExcept (ValueType.wrap services.ast blockTypeProperty.valueType) with
  | none => Exec.throw (.assertionError
      s!"Can not create value type for block type property {blockTypeProperty.name}")
  | some valueType => do
      match ← getPropertyValueFromBlockOrDefault services blockTypeProperty.name valueType body
          properties evaluationContext with
      | none => Exec.throw (.assertionError
          s!"Can not get value for block type property {blockTypeProperty.name}")
      | some propertyValue => return propertyValue

def addVariableToContext (body : List PropertyAssignment) (properties : List BlockTypeProperty)
    (blockTypeProperty : BlockTypeProperty) : ExecM δ Unit := do
  let context ← Exec.get
  let propertyValue ← getValueOfProperty services body properties context.evaluationContext
    blockTypeProperty
  setValueForReference blockTypeProperty.name propertyValue

/-- The properties are evaluated and bound one after the other. -/
def addVariablesToContext (body : List PropertyAssignment)
    (properties : List BlockTypeProperty) : ExecM δ Unit :=
  Exec.forEach properties (addVariableToContext services body properties)

def removeVariablesFromContext (properties : List BlockTypeProperty) : ExecM δ Unit :=
  Exec.forEach properties fun property => deleteValueForReference property.name

end Properties

/-! ## Execution -/

/-- The value of the last block of the pipeline, looked up by its name. -/
def findBlockExecutionResult (ast : Ast) (pipeline : PipeDefinition)
    (executionResult : List (ExecutionOrderItem δ)) : Option (ExecutionOrderItem δ) :=
  let lastBlockName := (pipeline.blocks.getLast?.join).map ast.blockName
  executionResult.find? fun result => some (ast.blockName result.block) == lastBlockName

/-- Executes the inner blocks with the properties of the block as variables. -/
def executeInnerBlocks (services : ExecutionServices)
    (createBlockExecutor : BlockId → Except JsError (BlockExecutor δ)) (fuel : Nat)
    (blockType : CompositeBlockTypeDefinition) (body : List PropertyAssignment)
    (input : IOTypeImplementation δ) : ExecM δ (Result (List (ExecutionOrderItem δ))) :=
  recordAbort do
    addVariablesToContext services body blockType.properties
    let executionResult ←
      executeBlocks createBlockExecutor fuel (.compositeBlockType blockType) (some input)
    removeVariablesFromContext blockType.properties
    return executionResult

/-- `doExecute` of the executor of a composite block with the property assignments `body`. -/
def doExecuteComposite (services : ExecutionServices)
    (createBlockExecutor : BlockId → Except JsError (BlockExecutor δ)) (fuel : Nat)
    (blockType : CompositeBlockTypeDefinition) (body : List PropertyAssignment) :
    BlockExecutor δ := fun input => do
  match ← executeInnerBlocks services createBlockExecutor fuel blockType body input with
  | .ok executionOrder => do
      let pipeline ← getPipeline blockType
      match findBlockExecutionResult services.ast pipeline executionOrder with
      | none => Exec.throw (.assertionError
          s!"No execution result found for composite block {blockType.name}")
      | some blockExecutionResult => return .ok blockExecutionResult.value
  | .error _ => return .ok none

def createCompositeBlockExecutor (services : ExecutionServices)
    (createBlockExecutor : BlockId → Except JsError (BlockExecutor δ)) (fuel : Nat)
    (blockType : CompositeBlockTypeDefinition) (block : BlockDefinition) : BlockExecutor δ :=
  executeWith services
    (doExecuteComposite services createBlockExecutor fuel blockType block.body)

/-! ## The execution extension -/

/-- The builtin executors of an extension, by the name of their block type. -/
abbrev BlockExecutors (δ : Type) : Type :=
  List (String × BuiltinBlockExecutor δ)

def getExecutorForBlockType (blockExecutors : BlockExecutors δ) (blockTypeName : String) :
    Option (BuiltinBlockExecutor δ) :=
  blockExecutors.lookup blockTypeName

/-- The executor of a block; `fuel` bounds the nesting of composite blocks. -/
def createBlockExecutor (services : ExecutionServices) (blockExecutors : BlockExecutors δ) :
    (fuel : Nat) → (block : BlockId) → Except JsError (BlockExecutor δ)
  | 0, _ => .ok fun _ => Exec.diverge
  | fuel + 1, block =>
      match services.ast.blocks[block]?, services.ast.blockTypeOf block with
      | some definition, some blockType =>
          match getExecutorForBlockType blockExecutors blockType.name, blockType with
          | some blockExecutor, _ =>
              .ok (executeWith services (blockExecutor.doExecute services))
          | none, .composite blockType => do
              let _ ← getInputType blockType
              let _ ← getOutputType blockType
              .ok (createCompositeBlockExecutor services
                (createBlockExecutor services blockExecutors fuel) fuel blockType definition)
          | none, .builtin blockType =>
              .error (.assertionError
                s!"No executor was registered for block type {blockType.name}")
      | _, _ => .error (.assertionError "The expression evaluated to a falsy value")

end Jayvee
