import Jayvee.Foundation.JsNumber
import Jayvee.Foundation.Subterm

/-! # Abstract syntax

A cross-reference is an `Option`: `none` is a reference that does not resolve. Nodes that
can be reached from themselves through references live in the tables of `Ast` and are
referred to by their position, which is also their identity (`===`).
-/

namespace Jayvee

open Foundation

abbrev ValuetypeId := Nat
abbrev ConstraintId := Nat
abbrev TransformId := Nat
abbrev BlockId := Nat
abbrev BlockTypeId := Nat

/-! ## Value types -/

structure ValueTypeReference where
  reference : Option ValuetypeId
  genericRefs : List (Option ValuetypeId)
  deriving DecidableEq, Repr

structure ValuetypeAssignment where
  name : String
  type : ValueTypeReference
  deriving DecidableEq, Repr

/-! ## Cell ranges -/

structure ColumnId where
  value : Option String
  deriving DecidableEq, Repr

inductive RowIdValue where
  | index (row : Nat)
  | star
  deriving DecidableEq, Repr

structure RowId where
  value : Option RowIdValue
  deriving DecidableEq, Repr

/-- `CELL_REFERENCE | CellReference`. -/
inductive CellReference where
  | text (cell : String)
  | ids (columnId : Option ColumnId) (rowId : Option RowId)
  deriving DecidableEq, Repr

inductive CellRangeLiteral where
  | range (cellFrom cellTo : Option CellReference)
  | column (columnId : Option ColumnId)
  | row (rowId : Option RowId)
  | cell (cellId : Option CellReference)
  deriving DecidableEq, Repr

/-! ## Expressions -/

inductive PortKind where
  | «from»
  | «to»
  deriving DecidableEq, Repr

structure TransformPortDefinition where
  kind : PortKind
  name : String
  valueType : ValueTypeReference
  deriving DecidableEq, Repr

/-- The target of a reference literal, with the fields that typing and evaluation read. -/
inductive Referencable where
  | constraintDefinition (id : ConstraintId)
  | blockTypeProperty (name : String) (valueType : ValueTypeReference)
  | transformDefinition (id : TransformId)
  | transformPortDefinition (port : TransformPortDefinition)
  deriving DecidableEq, Repr

inductive UnaryExpressionOperator where
  | not | plus | minus | sqrt | floor | ceil | round | lowercase | uppercase
  | asDecimal | asInteger | asBoolean | asText
  deriving DecidableEq, Repr

inductive BinaryExpressionOperator where
  | pow | root | multiply | divide | modulo | plus | minus | matches | «in»
  | less | lessEqual | greater | greaterEqual | equal | unequal | xor | and | or
  deriving DecidableEq, Repr

inductive TernaryExpressionOperator where
  | replace
  deriving DecidableEq, Repr

inductive Expression where
  | textLiteral (value : String)
  | numericLiteral (value : JsNumber)
  | booleanLiteral (value : Bool)
  | regexLiteral (value : String)
  | cellRangeLiteral (literal : CellRangeLiteral)
  | valuetypeAssignmentLiteral (value : ValuetypeAssignment)
  | collectionLiteral (values : List Expression)
  | valueKeywordLiteral (lengthAccess : Bool)
  | referenceLiteral (value : Option Referencable)
  | unaryExpression (operator : UnaryExpressionOperator) (expression : Expression)
  | binaryExpression (operator : BinaryExpressionOperator) (left right : Expression)
  | ternaryExpression (operator : TernaryExpressionOperator) (first second third : Expression)

/-- An expression inside of another one. The path to it is its identity (`===`). -/
abbrev ExpressionNode : Type :=
  Foundation.Subterm Expression

/-! ## Definitions -/

structure ValuetypeGenericDefinition where
  name : String
  deriving DecidableEq, Repr

structure ValuetypeGenericsDefinition where
  generics : List ValuetypeGenericDefinition
  deriving DecidableEq, Repr

structure ValuetypeDefinition where
  name : String
  isBuiltin : Bool
  type : Option ValueTypeReference
  constraints : Option (List Expression)
  genericDefinition : Option ValuetypeGenericsDefinition

inductive PropertyValue where
  | expression (value : Expression)
  | runtimeParameter (name : String)

structure PropertyAssignment where
  name : String
  value : PropertyValue

structure BlockTypeProperty where
  name : String
  valueType : ValueTypeReference
  defaultValue : Option Expression

structure BuiltinConstrainttypeDefinition where
  name : String
  valueType : ValueTypeReference
  properties : List BlockTypeProperty

inductive ConstraintDefinition where
  | typed (name : String) (type : Option BuiltinConstrainttypeDefinition)
      (body : List PropertyAssignment)
  | expression (name : String) (valueType : ValueTypeReference) (expression : Expression)

structure TransformOutputAssignment where
  outPortName : Option TransformPortDefinition
  expression : Expression

structure TransformDefinition where
  name : String
  ports : List TransformPortDefinition
  outputAssignments : List TransformOutputAssignment

/-- An input or output of a block type; `iotype` is the name of the referenced io type. -/
structure BlockTypeIO where
  name : String
  iotype : Option String
  deriving DecidableEq, Repr

structure BlockDefinition where
  name : String
  type : Option BlockTypeId
  body : List PropertyAssignment

/-- `PipeDefinition` of a pipeline and `BlockTypePipeline` of a composite block type. -/
structure PipeDefinition where
  blocks : List (Option BlockId)
  deriving DecidableEq, Repr

structure CompositeBlockTypeDefinition where
  name : String
  inputs : List BlockTypeIO
  outputs : List BlockTypeIO
  properties : List BlockTypeProperty
  blocks : List BlockId
  pipes : List PipeDefinition

structure BuiltinBlockTypeDefinition where
  name : String
  inputs : List BlockTypeIO
  outputs : List BlockTypeIO
  properties : List BlockTypeProperty

inductive ReferenceableBlockTypeDefinition where
  | builtin (definition : BuiltinBlockTypeDefinition)
  | composite (definition : CompositeBlockTypeDefinition)

structure PipelineDefinition where
  name : String
  blocks : List BlockId
  pipes : List PipeDefinition
  transforms : List TransformId
  valueTypes : List ValuetypeId
  constraints : List ConstraintId

/-- All nodes of the loaded documents that are the target of a cross-reference. -/
structure Ast where
  valuetypes : List ValuetypeDefinition
  constraints : List ConstraintDefinition
  transforms : List TransformDefinition
  blocks : List BlockDefinition
  blockTypes : List ReferenceableBlockTypeDefinition

/-- A document without any definition. -/
def emptyAst : Ast :=
  ⟨[], [], [], [], []⟩

namespace ReferenceableBlockTypeDefinition

def name : ReferenceableBlockTypeDefinition → String
  | builtin d => d.name
  | composite d => d.name

def inputs : ReferenceableBlockTypeDefinition → List BlockTypeIO
  | builtin d => d.inputs
  | composite d => d.inputs

def outputs : ReferenceableBlockTypeDefinition → List BlockTypeIO
  | builtin d => d.outputs
  | composite d => d.outputs

def properties : ReferenceableBlockTypeDefinition → List BlockTypeProperty
  | builtin d => d.properties
  | composite d => d.properties

end ReferenceableBlockTypeDefinition

namespace ConstraintDefinition

def name : ConstraintDefinition → String
  | typed name _ _ => name
  | expression name _ _ => name

end ConstraintDefinition

/-- What a pipeline and a composite block type share: blocks connected by pipes. -/
inductive PipesContainer where
  | pipeline (definition : PipelineDefinition)
  | compositeBlockType (definition : CompositeBlockTypeDefinition)

namespace PipesContainer

def name : PipesContainer → String
  | pipeline d => d.name
  | compositeBlockType d => d.name

def blocks : PipesContainer → List BlockId
  | pipeline d => d.blocks
  | compositeBlockType d => d.blocks

def pipes : PipesContainer → List PipeDefinition
  | pipeline d => d.pipes
  | compositeBlockType d => d.pipes

end PipesContainer

namespace Ast

/-- The block type a block refers to. -/
def blockTypeOf (ast : Ast) (block : BlockId) : Option ReferenceableBlockTypeDefinition := do
  let definition ← ast.blocks[block]?
  let type ← definition.type
  ast.blockTypes[type]?

def blockName (ast : Ast) (block : BlockId) : String :=
  (ast.blocks[block]?.map BlockDefinition.name).getD ""

end Ast

/-! ## Documents -/

/-- A definition that can be published. Its document, as a URI, and its position among the
exportable elements there are its identity. -/
structure ExportableElement where
  document : String
  index : Nat
  name : String
  isPublished : Bool
  deriving DecidableEq, Repr

/-- `publish element as alias;` -/
structure ExportDefinition where
  document : String
  element : Option ExportableElement
  «alias» : Option String
  deriving DecidableEq, Repr

structure NamedImportElement where
  element : String
  «alias» : Option String
  deriving DecidableEq, Repr

structure ImportDefinition where
  document : String
  useAll : Bool
  usedElements : List NamedImportElement
  path : String
  deriving DecidableEq, Repr

/-- The root of a document. The property that is parsed first comes first among the contents,
which is `exports` if `exportsComeFirst`. All nodes know their document. -/
structure JayveeModel where
  document : String
  imports : List ImportDefinition
  exports : List ExportDefinition
  exportableElements : List ExportableElement
  pipelines : List PipelineDefinition
  exportsComeFirst : Bool
  exports_document : ∀ node ∈ exports, node.document = document

/-! ## Diagnostics and errors -/

inductive Severity where
  | error | warning | info | hint
  deriving DecidableEq, Repr

/-- The node a diagnostic points at. -/
inductive AstNode where
  | expression (node : Expression)
  | subexpression (node : ExpressionNode)
  | block (node : BlockId)
  | blockTypePort (node : BlockTypeIO)
  | blockTypeProperty (node : BlockTypeProperty)
  | blockType (node : ReferenceableBlockTypeDefinition)
  | pipe (node : PipeDefinition)
  | pipeline (node : PipelineDefinition)
  | constraint (node : ConstraintId)
  | transform (node : TransformId)
  | valuetype (node : ValuetypeId)
  | valuetypeGeneric (node : ValuetypeGenericDefinition)
  | valueTypeReference (node : ValueTypeReference)
  | transformPort (node : TransformPortDefinition)
  | exportableElement (node : ExportableElement)
  | exportDefinition (node : ExportDefinition)
  | importDefinition (node : ImportDefinition)
  | columnId (node : ColumnId)
  | propertyAssignment (node : PropertyAssignment)
  | propertyValue (node : PropertyValue)

structure DiagnosticInfo where
  node : AstNode
  property : Option String := none
  index : Option Nat := none
  keyword : Option String := none

structure Diagnostic where
  severity : Severity
  message : String
  info : DiagnosticInfo

/-- What the code throws. `callStackExceeded` is a recursion deeper than its bound. -/
inductive JsError where
  | assertionError (message : String)
  | error (message : String)
  | syntaxError (message : String)
  | callStackExceeded
  deriving DecidableEq, Repr

namespace JsError

def isAssertionError : JsError → Bool
  | assertionError _ => true
  | _ => false

def message : JsError → String
  | assertionError m => m
  | error m => m
  | syntaxError m => m
  | callStackExceeded => "Maximum call stack size exceeded"

end JsError

end Jayvee
