import Jayvee.Foundation.Loop
import Jayvee.Model.Ast

/-! # Pipes and their topological sorting -/

namespace Jayvee

open Foundation

/-! ## Pipes -/

/-- One link of a chain of blocks, both ends of which resolve. -/
structure PipeWrapper where
  astNode : PipeDefinition
  chainIndex : Nat
  «from» : BlockId
  «to» : BlockId
  from_resolves : astNode.blocks[chainIndex]? = some (some «from»)
  to_resolves : astNode.blocks[chainIndex + 1]? = some (some «to»)
  deriving DecidableEq

namespace PipeWrapper

def equals (this pipe : PipeWrapper) : Bool :=
  this.from == pipe.from && this.to == pipe.to

def getFromDiagnostic (this : PipeWrapper) : DiagnosticInfo where
  node := .pipe this.astNode
  property := some "blocks"
  index := some this.chainIndex

def getToDiagnostic (this : PipeWrapper) : DiagnosticInfo where
  node := .pipe this.astNode
  property := some "blocks"
  index := some (this.chainIndex + 1)

def canBeWrapped (pipe : PipeDefinition) (chainIndex : Nat) : Bool :=
  chainIndex + 1 < pipe.blocks.length &&
    (pipe.blocks[chainIndex]?.join).isSome && (pipe.blocks[chainIndex + 1]?.join).isSome

/-- The constructor; `none` where one of its assertions fails. -/
def wrap (pipe : PipeDefinition) (chainIndex : Nat) : Option PipeWrapper :=
  match hfrom : pipe.blocks[chainIndex]?, hto : pipe.blocks[chainIndex + 1]? with
  | some (some «from»), some (some «to») => some ⟨pipe, chainIndex, «from», «to», hfrom, hto⟩
  | _, _ => none

def wrapAll (toBeWrapped : PipeDefinition) : List PipeWrapper :=
  (List.range (toBeWrapped.blocks.length - 1)).filterMap (wrap toBeWrapped)

end PipeWrapper

/-! ## Pipelines -/

structure PipelineWrapper where
  astNode : PipesContainer
  allPipes : List PipeWrapper

namespace PipelineWrapper

def canBeWrapped (pipesContainer : PipesContainer) : Bool :=
  pipesContainer.pipes.all fun pipeDefinition =>
    (List.range (pipeDefinition.blocks.length - 1)).all fun chainIndex =>
      PipeWrapper.canBeWrapped pipeDefinition chainIndex

def construct (pipesContainer : PipesContainer) : PipelineWrapper where
  astNode := pipesContainer
  allPipes := pipesContainer.pipes.flatMap PipeWrapper.wrapAll

def wrap (toBeWrapped : PipesContainer) : Except JsError PipelineWrapper :=
  if canBeWrapped toBeWrapped then
    .ok (construct toBeWrapped)
  else
    .error (.assertionError s!"AstNode {toBeWrapped.name} cannot be wrapped")

def getStartingBlockPipes (this : PipelineWrapper) : List PipeWrapper :=
  this.allPipes.filter fun pipe =>
    let parentBlock := pipe.from
    let isToOfOtherPipe := (this.allPipes.filter fun p => p.to == parentBlock).length > 0
    !isToOfOtherPipe

def getStartingBlocks (this : PipelineWrapper) : List BlockId :=
  (this.getStartingBlockPipes.map PipeWrapper.from).eraseDups

def getOutgoingPipes (this : PipelineWrapper) (blockDefinition : BlockId) : List PipeWrapper :=
  this.allPipes.filter fun pipe => pipe.from == blockDefinition

def getChildBlocks (this : PipelineWrapper) (blockDefinition : BlockId) : List BlockId :=
  (this.getOutgoingPipes blockDefinition).map PipeWrapper.to

def getIngoingPipes (this : PipelineWrapper) (blockDefinition : BlockId) : List PipeWrapper :=
  this.allPipes.filter fun pipe => pipe.to == blockDefinition

def getParentBlocks (this : PipelineWrapper) (blockDefinition : BlockId) : List BlockId :=
  (this.getIngoingPipes blockDefinition).map PipeWrapper.from

/-! ## Topological sorting -/

/-- The local variables of the loop. -/
structure SortingState where
  sortedNodes : List BlockId
  currentNodes : List BlockId
  unvisitedEdges : List PipeWrapper

/-- The body of the inner loop, for one child of `node`. -/
def visitChild (this : PipelineWrapper) (node : BlockId) (state : SortingState)
    (childNode : BlockId) : SortingState :=
  let unvisitedEdges :=
    ((this.getIngoingPipes childNode).filter fun e => e.from == node).foldl
      (fun unvisitedEdges e => unvisitedEdges.filter fun edge => !edge.equals e)
      state.unvisitedEdges
  let notRemovedEdges :=
    (this.getIngoingPipes childNode).filter fun e => unvisitedEdges.any fun edge => edge.equals e
  { state with
    unvisitedEdges := unvisitedEdges
    currentNodes :=
      if notRemovedEdges.length = 0 then state.currentNodes ++ [childNode]
      else state.currentNodes }

/-- One round of the outer loop: `currentNodes` is a stack, popped at its end. -/
def visitNode (this : PipelineWrapper) (state : SortingState) : Option SortingState :=
  match state.currentNodes.getLast? with
  | none => none
  | some node =>
      some <| (this.getChildBlocks node).foldl (this.visitChild node)
        { state with
          sortedNodes := state.sortedNodes ++ [node]
          currentNodes := state.currentNodes.dropLast }

/-- Kahn's algorithm; `none` means that `fuel` rounds of the loop were not enough. -/
def getBlocksInTopologicalSorting (this : PipelineWrapper) (fuel : Nat) :
    Option (Except JsError (List BlockId)) :=
  (whileLoop this.visitNode fuel ⟨[], this.getStartingBlocks, this.allPipes⟩).map fun state =>
    if state.unvisitedEdges.length = 0 then
      .ok state.sortedNodes
    else
      .error (.assertionError s!"The pipeline {this.astNode.name} is expected to have no cycles")

end PipelineWrapper

end Jayvee
