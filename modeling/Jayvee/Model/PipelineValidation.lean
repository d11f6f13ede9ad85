import Jayvee.Model.BlockTypeWrapper
import Jayvee.Model.PipelineWrapper

/-! # Validation of pipelines and composite block types -/

namespace Jayvee

open Foundation

/-- What the checks receive next to the node they validate. -/
structure JayveeValidationProps where
  ast : Ast
  runtime : JsRuntime
  evaluationContext : EvaluationContext

def sampleProps : JayveeValidationProps where
  ast := emptyAst
  runtime := sampleRuntime
  evaluationContext := .construct ⟨fun _ => none, none⟩

/-! ## Unique names -/

/-- Reports every node that shares its name with another one. -/
def checkUniqueNames (nodes : List (String × AstNode)) : Validation Unit :=
  Exec.forEach (nodes.map Prod.fst).eraseDups fun nodeName => do
    let nodesWithName := nodes.filter fun node => node.1 == nodeName
    if nodesWithName.length > 1 then
      Exec.forEach nodesWithName fun node =>
        accept .error s!"The name \"{nodeName}\" needs to be unique."
          { node := node.2, property := some "name" }

/-! ## Multiple inputs -/

def multipleInputsMessage (ast : Ast) (pipesFromParents : List PipeWrapper) : String :=
  let parentBlockNames :=
    ", ".intercalate (pipesFromParents.map fun pipe => s!"\"{ast.blockName pipe.from}\"")
  s!"At most one pipe can be connected to the input of a block. Currently, the following {pipesFromParents.length} blocks are connected via pipes: {parentBlockNames}"

/-- Reports `pipe`, unless an equal pipe was reported before. -/
def markPipe (ast : Ast) (pipesFromParents alreadyMarkedPipes : List PipeWrapper)
    (pipe : PipeWrapper) : Validation (List PipeWrapper) := do
  let wasAlreadyMarked := alreadyMarkedPipes.any fun x => pipe.equals x
  if wasAlreadyMarked then
    return alreadyMarkedPipes
  accept .error (multipleInputsMessage ast pipesFromParents) pipe.getToDiagnostic
  return alreadyMarkedPipes ++ [pipe]

/-- The check of the pipes into one block. -/
def checkIngoingPipes (ast : Ast) (pipesFromParents alreadyMarkedPipes : List PipeWrapper) :
    Validation (List PipeWrapper) :=
  if pipesFromParents.length > 1 then
    pipesFromParents.foldlM (markPipe ast pipesFromParents) alreadyMarkedPipes
  else
    return alreadyMarkedPipes

/-- The recursion into the children stops at blocks without outgoing pipes only. -/
def doCheckMultipleBlockInputs (ast : Ast) (pipelineWrapper : PipelineWrapper) :
    (fuel : Nat) → (alreadyMarkedPipes : List PipeWrapper) → (block : BlockId) →
      Validation (List PipeWrapper)
  | 0, _, _ => Exec.diverge
  | fuel + 1, alreadyMarkedPipes, block => do
      let alreadyMarkedPipes ←
        checkIngoingPipes ast (pipelineWrapper.getIngoingPipes block) alreadyMarkedPipes
      (pipelineWrapper.getChildBlocks block).foldlM
        (doCheckMultipleBlockInputs ast pipelineWrapper fuel) alreadyMarkedPipes

/-- The walk over all blocks that can be reached from a starting block. -/
def checkMultipleBlockInputsFrom (ast : Ast) (fuel : Nat) (pipelineWrapper : PipelineWrapper) :
    Validation (List PipeWrapper) :=
  pipelineWrapper.getStartingBlocks.foldlM
    (doCheckMultipleBlockInputs ast pipelineWrapper fuel) []

def checkMultipleBlockInputs (props : JayveeValidationProps) (fuel : Nat)
    (pipeline : PipesContainer) : Validation Unit := do
  if PipelineWrapper.canBeWrapped pipeline then
    let pipelineWrapper ← Exec.ofExcept (PipelineWrapper.wrap pipeline)
    let _ ← checkMultipleBlockInputsFrom props.ast fuel pipelineWrapper

/-! ## Pipelines -/

def checkStartingBlocks (pipeline : PipelineDefinition) : Validation Unit := do
  if PipelineWrapper.canBeWrapped (.pipeline pipeline) then
    let pipelineWrapper ← Exec.ofExcept (PipelineWrapper.wrap (.pipeline pipeline))
    if pipelineWrapper.getStartingBlocks.length = 0 then
      accept .error "An extractor block is required for this pipeline"
        { node := .pipeline pipeline, property := some "name" }

/-- Warns about a side of a block that no pipe is connected to. -/
def warnAboutUnconnected (isConnected : Bool) (neighbours : List BlockId) (side : String)
    (block : BlockId) : Validation Unit :=
  if !isConnected && neighbours.length = 0 then
    accept .warning s!"A pipe should be connected to the {side} of this block"
      { node := .block block, property := some "name" }
  else
    return

def doCheckDefinedBlockIsUsed (props : JayveeValidationProps)
    (pipelineWrapper : PipelineWrapper) (block : BlockId) : Validation Unit := do
  let type := props.ast.blockTypeOf block
  if BlockTypeWrapper.canBeWrapped type then
    let blockType ← BlockTypeWrapper.wrap props.ast props.runtime type
    let isExtractorBlock := !blockType.hasInput
    warnAboutUnconnected isExtractorBlock (pipelineWrapper.getParentBlocks block) "input" block
    let isLoaderBlock := !blockType.hasOutput
    warnAboutUnconnected isLoaderBlock (pipelineWrapper.getChildBlocks block) "output" block

def checkDefinedBlocksAreUsed (props : JayveeValidationProps) (pipeline : PipelineDefinition) :
    Validation Unit := do
  if PipelineWrapper.canBeWrapped (.pipeline pipeline) then
    let pipelineWrapper ← Exec.ofExcept (PipelineWrapper.wrap (.pipeline pipeline))
    Exec.forEach pipeline.blocks (doCheckDefinedBlockIsUsed props pipelineWrapper)

def validatePipelineDefinition (props : JayveeValidationProps) (fuel : Nat)
    (pipeline : PipelineDefinition) : Validation Unit := do
  checkStartingBlocks pipeline
  checkUniqueNames (pipeline.blocks.map fun node => (props.ast.blockName node, .block node))
  checkUniqueNames (pipeline.transforms.filterMap fun node =>
    props.ast.transforms[node]?.map fun definition => (definition.name, .transform node))
  checkUniqueNames (pipeline.valueTypes.filterMap fun node =>
    props.ast.valuetypes[node]?.map fun definition => (definition.name, .valuetype node))
  checkUniqueNames (pipeline.constraints.filterMap fun node =>
    props.ast.constraints[node]?.map fun definition => (definition.name, .constraint node))
  checkMultipleBlockInputs props fuel (.pipeline pipeline)
  checkDefinedBlocksAreUsed props pipeline

/-! ## Pipes -/

/-- Reports an error at all of the given places if the condition holds. -/
def acceptErrorIf (condition : Bool) (errorMessage : String) (infos : List DiagnosticInfo) :
    Validation Unit :=
  if condition then
    Exec.forEach infos (accept .error errorMessage)
  else
    return

/-- What the loop over the links of a pipe checks if both block types can be wrapped. -/
def checkWrappedLink (ast : Ast) (pipeWrapper : PipeWrapper)
    (fromBlockType toBlockType : BlockTypeWrapper) : Validation Unit := do
  let fromName := ast.blockName pipeWrapper.from
  let toName := ast.blockName pipeWrapper.to
  let isFromBlockLoader := !fromBlockType.hasOutput
  let isToBlockExtractor := !toBlockType.hasInput
  acceptErrorIf isFromBlockLoader
    s!"Block \"{fromName}\" cannot be connected to other blocks. Its block type \"{fromBlockType.astNode.name}\" has output type \"{fromBlockType.outputType.text}\"."
    [pipeWrapper.getFromDiagnostic]
  acceptErrorIf isToBlockExtractor
    s!"Block \"{toName}\" cannot be connected to from other blocks. Its block type \"{toBlockType.astNode.name}\" has input type \"{toBlockType.inputType.text}\"."
    [pipeWrapper.getToDiagnostic]
  acceptErrorIf (!fromBlockType.canBeConnectedTo toBlockType)
    s!"The output type \"{fromBlockType.outputType.text}\" of block \"{fromName}\" (of type \"{fromBlockType.astNode.name}\") is not compatible with the input type \"{toBlockType.inputType.text}\" of block \"{toName}\" (of type \"{toBlockType.astNode.name}\")"
    [pipeWrapper.getFromDiagnostic, pipeWrapper.getToDiagnostic]

/-- The body of the loop over the links of a pipe. -/
def checkLinkCompatibility (props : JayveeValidationProps) (pipeWrapper : PipeWrapper) :
    Validation Unit := do
  let fromBlockTypeDefinition := props.ast.blockTypeOf pipeWrapper.from
  let toBlockTypeDefinition := props.ast.blockTypeOf pipeWrapper.to
  if !BlockTypeWrapper.canBeWrapped fromBlockTypeDefinition ||
      !BlockTypeWrapper.canBeWrapped toBlockTypeDefinition then
    return
  let fromBlockType ← BlockTypeWrapper.wrap props.ast props.runtime fromBlockTypeDefinition
  let toBlockType ← BlockTypeWrapper.wrap props.ast props.runtime toBlockTypeDefinition
  checkWrappedLink props.ast pipeWrapper fromBlockType toBlockType

def checkBlockCompatibility (props : JayveeValidationProps) (pipe : PipeDefinition) :
    Validation Unit :=
  Exec.forEach (PipeWrapper.wrapAll pipe) (checkLinkCompatibility props)

def validatePipeDefinition (props : JayveeValidationProps) (pipe : PipeDefinition) :
    Validation Unit :=
  checkBlockCompatibility props pipe

/-! ## Block types -/

/-- Reports all ports of one side of a block type if there is more than one. -/
def checkNoMultiplePorts (blockType : ReferenceableBlockTypeDefinition)
    (ports : List BlockTypeIO) (side : String) : Validation Unit :=
  if ports.length > 1 then
    Exec.forEach ports fun port =>
      accept .error s!"Found more than one {side} definition in block type '{blockType.name}'"
        { node := .blockTypePort port }
  else
    return

def checkNoMultipleInputs (blockType : ReferenceableBlockTypeDefinition) : Validation Unit :=
  checkNoMultiplePorts blockType blockType.inputs "input"

def checkNoMultipleOutputs (blockType : ReferenceableBlockTypeDefinition) : Validation Unit :=
  checkNoMultiplePorts blockType blockType.outputs "output"

def checkOnePort (blockType : ReferenceableBlockTypeDefinition) (ports : List BlockTypeIO)
    (side verb : String) : Validation Unit :=
  if ports.length < 1 then
    accept .error
      s!"Found no {side} in block type '{blockType.name}' - consider using iotype \"none\" if the block type {verb} no {side}"
      { node := .blockType blockType }
  else
    return

def checkOneInput (blockType : ReferenceableBlockTypeDefinition) : Validation Unit :=
  checkOnePort blockType blockType.inputs "input" "consumes"

def checkOneOutput (blockType : ReferenceableBlockTypeDefinition) : Validation Unit :=
  checkOnePort blockType blockType.outputs "output" "produces"

def checkNoDuplicateProperties (blockType : ReferenceableBlockTypeDefinition) :
    Validation Unit :=
  Exec.forEach (blockType.properties.map BlockTypeProperty.name).eraseDups fun propertyName => do
    let properties := blockType.properties.filter fun property => property.name == propertyName
    if properties.length > 1 then
      Exec.forEach properties fun property =>
        accept .error
          s!"Property '{property.name}' in block type '{blockType.name}' is defined multiple times"
          { node := .blockTypeProperty property, property := some "name" }

def checkPropertyDefaultValuesHasCorrectType (props : JayveeValidationProps)
    (property : BlockTypeProperty) : Validation Unit := do
  match property.defaultValue with
  | none => return
  | some defaultValueExpression => do
      match ← evaluateExpression props.runtime props.evaluationContext .lazy
          defaultValueExpression with
      | none =>
          accept .error "Could not evaluate this expression."
            { node := .blockTypeProperty property, property := some "defaultValue" }
      | some evaluatedExpression => do
          match ← Exec.ofExcept (ValueType.wrap props.ast property.valueType) with
          | none => Exec.throw (.assertionError "The expression evaluated to a falsy value")
          | some expectedValuetype => do
              let isValid ← Exec.ofExcept
                (expectedValuetype.isInternalValueRepresentation props.ast evaluatedExpression)
              if !isValid then
                accept .error
                  s!"This default value is not compatible with value type {expectedValuetype.getName props.ast}"
                  { node := .blockTypeProperty property, property := some "defaultValue" }

def validateBlockTypeDefinition (props : JayveeValidationProps)
    (blockType : ReferenceableBlockTypeDefinition) : Validation Unit := do
  checkNoMultipleInputs blockType
  checkNoMultipleOutputs blockType
  checkOneInput blockType
  checkOneOutput blockType
  checkNoDuplicateProperties blockType
  Exec.forEach blockType.properties (checkPropertyDefaultValuesHasCorrectType props)

/-! ## Composite block types -/

def checkHasPipeline (blockType : CompositeBlockTypeDefinition) : Validation Unit :=
  if blockType.pipes.length = 0 then
    accept .error s!"Composite block types must define one pipeline '{blockType.name}'"
      { node := .blockType (.composite blockType), property := some "name" }
  else
    return

def checkExactlyOnePipeline (blockType : CompositeBlockTypeDefinition) : Validation Unit :=
  if blockType.pipes.length > 1 then
    Exec.forEach blockType.pipes fun pipe =>
      accept .error
        s!"Found more than one pipeline definition in composite block type '{blockType.name}'"
        { node := .pipe pipe }
  else
    return

/-- The ends of the pipelines are connected to the input and the output of the block type. -/
def doCheckDefinedBlockIsUsedInComposite (props : JayveeValidationProps)
    (blockType : CompositeBlockTypeDefinition) (pipelineWrapper : PipelineWrapper)
    (block : BlockId) : Validation Unit :=
  if BlockTypeWrapper.canBeWrapped (props.ast.blockTypeOf block) then do
    let isConnectedToInput := blockType.pipes.any fun pipe => pipe.blocks.head? == some (some block)
    warnAboutUnconnected isConnectedToInput (pipelineWrapper.getParentBlocks block) "input" block
    let isConnectedToOutput :=
      blockType.pipes.any fun pipe => pipe.blocks.getLast? == some (some block)
    warnAboutUnconnected isConnectedToOutput (pipelineWrapper.getChildBlocks block) "output" block
  else
    return

def checkDefinedBlocksAreUsedInComposite (props : JayveeValidationProps)
    (blockTypeDefinition : CompositeBlockTypeDefinition) : Validation Unit := do
  if PipelineWrapper.canBeWrapped (.compositeBlockType blockTypeDefinition) then
    let pipelineWrapper ←
      Exec.ofExcept (PipelineWrapper.wrap (.compositeBlockType blockTypeDefinition))
    Exec.forEach blockTypeDefinition.blocks
      (doCheckDefinedBlockIsUsedInComposite props blockTypeDefinition pipelineWrapper)

def validateCompositeBlockTypeDefinition (props : JayveeValidationProps) (fuel : Nat)
    (blockType : CompositeBlockTypeDefinition) : Validation Unit := do
  validateBlockTypeDefinition props (.composite blockType)
  checkHasPipeline blockType
  checkExactlyOnePipeline blockType
  checkMultipleBlockInputs props fuel (.compositeBlockType blockType)
  checkDefinedBlocksAreUsedInComposite props blockType

end Jayvee
