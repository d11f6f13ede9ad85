import Jayvee.Model.Ast

/-! # Value types -/

namespace Jayvee

/-- The value types of which there is a single object each. -/
inductive PrimitiveValueType where
  | boolean | decimal | integer | text | regex | cellRange | constraint | valuetypeAssignment
  | transform
  deriving DecidableEq, Repr

namespace PrimitiveValueType

def getName : PrimitiveValueType → String
  | boolean => "boolean"
  | decimal => "decimal"
  | integer => "integer"
  | text => "text"
  | regex => "Regex"
  | cellRange => "CellRange"
  | constraint => "Constraint"
  | valuetypeAssignment => "ValuetypeAssignment"
  | transform => "Transform"

def getAll : List PrimitiveValueType :=
  [boolean, decimal, integer, text, regex, cellRange, constraint, valuetypeAssignment, transform]

def isReferenceableByUser : PrimitiveValueType → Bool
  | boolean | decimal | integer | text => true
  | _ => false

def isAllowedAsRuntimeParameter : PrimitiveValueType → Bool
  | boolean | decimal | integer | text => true
  | _ => false

end PrimitiveValueType

/-- The definition that a reference resolves to. -/
def ValueTypeReference.ref (ast : Ast) (reference : ValueTypeReference) :
    Option ValuetypeDefinition :=
  reference.reference.bind fun astNode => ast.valuetypes[astNode]?

inductive ValueType where
  | primitive (kind : PrimitiveValueType)
  | emptyCollection
  | collection (elementType : ValueType)
  | atomic (astNode : ValuetypeId)
  deriving DecidableEq, Repr

namespace ValueType

abbrev Boolean : ValueType := .primitive .boolean
abbrev Decimal : ValueType := .primitive .decimal
abbrev Integer : ValueType := .primitive .integer
abbrev Text : ValueType := .primitive .text
abbrev Regex : ValueType := .primitive .regex
abbrev CellRange : ValueType := .primitive .cellRange
abbrev Constraint : ValueType := .primitive .constraint
abbrev ValuetypeAssignment : ValueType := .primitive .valuetypeAssignment
abbrev Transform : ValueType := .primitive .transform

def getName (ast : Ast) : ValueType → String
  | primitive kind => kind.getName
  | emptyCollection => "Collection"
  | collection elementType => s!"Collection<{elementType.getName ast}>"
  | atomic astNode => (ast.valuetypes[astNode]?.map ValuetypeDefinition.name).getD ""

/-- Primitive value types are compared as objects, collections by their element type and
atomic value types by their node. -/
def equals : ValueType → ValueType → Bool
  | primitive kind, primitive kind' => kind == kind'
  | emptyCollection, emptyCollection => true
  | collection elementType, collection elementType' => elementType.equals elementType'
  | atomic astNode, atomic astNode' => astNode == astNode'
  | _, _ => false

/-! ## Wrapping references and definitions -/

def wrapPrimitive (builtinValuetype : ValuetypeDefinition) : Except JsError (Option ValueType) :=
  match PrimitiveValueType.getAll.filter fun valueType =>
      valueType.getName == builtinValuetype.name with
  | [] =>
      .error (.error
        s!"Found no PrimitiveValuetype for builtin value type \"{builtinValuetype.name}\"")
  | [matchingPrimitive] => .ok (some (.primitive matchingPrimitive))
  | _ =>
      .error (.error
        s!"Found multiple ambiguous PrimitiveValuetype for builtin value type \"{builtinValuetype.name}\"")

def wrapDefinition (ast : Ast) (identifier : Option ValuetypeId) :
    Except JsError (Option ValueType) :=
  match identifier with
  | none => .ok none
  | some astNode =>
      match ast.valuetypes[astNode]? with
      | none => .ok none
      | some definition =>
          -- there is no object that represents a generic collection
          if definition.name = "Collection" then .ok none
          else if definition.isBuiltin then wrapPrimitive definition
          else .ok (some (.atomic astNode))

def wrapCollection (ast : Ast) (collectionRef : ValueTypeReference) :
    Except JsError (Option ValueType) :=
  match collectionRef.genericRefs with
  | [generic] => do
      match ← wrapDefinition ast generic with
      | none =>
          .error (.error
            "Could not create value type for the elements' type of value type Collection")
      | some elementValuetype => .ok (some (.collection elementValuetype))
  | _ =>
      .error (.error
        "Valuetype Collection needs exactly one generic parameter to define its elements' type")

def wrap (ast : Ast) (identifier : Option ValueTypeReference) :
    Except JsError (Option ValueType) :=
  match identifier with
  | none => .ok none
  | some identifier =>
      let valueTypeDefinition := identifier.reference.bind fun astNode => ast.valuetypes[astNode]?
      if valueTypeDefinition.map ValuetypeDefinition.name = some "Collection" then
        wrapCollection ast identifier
      else
        wrapDefinition ast identifier.reference

/-! ## The hierarchy of value types -/

def doGetSupertype (ast : Ast) : ValueType → Except JsError (Option ValueType)
  | atomic astNode => wrap ast (ast.valuetypes[astNode]?.bind ValuetypeDefinition.type)
  | _ => .ok none

/-- A bound on the number of value types that are visited before one is visited twice. -/
def hierarchyDepth (ast : Ast) : Nat :=
  ast.valuetypes.length + 2

def hasSupertypeCycle (ast : Ast) :
    (fuel : Nat) → (visited : List ValueType) → ValueType → Except JsError Bool
  | 0, _, _ => .error .callStackExceeded
  | fuel + 1, visited, this => do
      let cycleDetected := visited.any fun v => v.equals this
      if cycleDetected then
        return true
      match ← this.doGetSupertype ast with
      | none => return false
      | some supertype => hasSupertypeCycle ast fuel (visited ++ [this]) supertype

def getSupertype (ast : Ast) (this : ValueType) : Except JsError (Option ValueType) := do
  if ← hasSupertypeCycle ast (hierarchyDepth ast) [] this then
    return none
  this.doGetSupertype ast

/-- Atomic value types leave a question to their supertype, up to the value type that has an
answer of its own. `noSupertype` is the answer where a supertype is missing. -/
def askSupertypes {α : Type} (ast : Ast) (own : ValueType → Option α)
    (noSupertype : Except JsError α) : (fuel : Nat) → ValueType → Except JsError α
  | 0, _ => .error .callStackExceeded
  | fuel + 1, this =>
      match own this with
      | some answer => .ok answer
      | none => do
          match ← this.getSupertype ast with
          | none => noSupertype
          | some supertype => askSupertypes ast own noSupertype fuel supertype

/-- `isConvertibleTo` where it does not depend on a supertype. -/
def isConvertibleToOwn (target : ValueType) : ValueType → Option Bool
  | primitive .integer => some (target.equals Integer || target.equals Decimal)
  | primitive kind => some (target.equals (primitive kind))
  | emptyCollection =>
      some (target.equals emptyCollection || target matches collection _)
  | collection elementType => some (target.equals (collection elementType))
  | atomic astNode => if target.equals (atomic astNode) then some true else none

def isConvertibleTo (ast : Ast) (this target : ValueType) : Except JsError Bool :=
  askSupertypes ast (isConvertibleToOwn target) (.ok false) (hierarchyDepth ast) this

def isReferenceableByUser (ast : Ast) (this : ValueType) : Except JsError Bool :=
  askSupertypes ast
    (fun
      | primitive kind => some kind.isReferenceableByUser
      | emptyCollection | collection _ => some false
      | atomic _ => none)
    (.ok false) (hierarchyDepth ast) this

def isAllowedAsRuntimeParameter (ast : Ast) (this : ValueType) : Except JsError Bool :=
  askSupertypes ast
    (fun
      | primitive kind => some kind.isAllowedAsRuntimeParameter
      | emptyCollection | collection _ => some false
      | atomic _ => none)
    (.ok false) (hierarchyDepth ast) this

/-- `===`. There is a single object of each primitive value type, while other value types are
wrapped anew for each use. -/
def isSameObject : ValueType → ValueType → Bool
  | primitive kind, primitive kind' => kind == kind'
  | _, _ => false

/-- The loop over the value types above `other`, up to the object that is asked. -/
def isSubtypeOf (ast : Ast) (this other : ValueType) : Except JsError Bool := do
  match ← other.getSupertype ast with
  | none => return false
  | some othersSupertype =>
      askSupertypes ast
        (fun supertype => if supertype.isSameObject this then some true else none)
        (.ok false) (hierarchyDepth ast) othersSupertype

def getPrimitiveOwn : ValueType → Option (Option ValueType)
  | atomic _ => none
  | valueType => some (some valueType)

/-- The value type at the root of the hierarchy, whose representation check an atomic value
type inherits. -/
def getPrimitive (ast : Ast) (this : ValueType) : Except JsError (Option ValueType) :=
  askSupertypes ast getPrimitiveOwn (.ok none) (hierarchyDepth ast) this

def getValuetypeHierarchyStack (ast : Ast) :
    (fuel : Nat) → ValueType → Except JsError (List ValueType)
  | 0, _ => .error .callStackExceeded
  | fuel + 1, atomic astNode => do
      match ← (atomic astNode).getSupertype ast with
      | none => .error (.assertionError "The expression evaluated to a falsy value")
      | some supertype =>
          let stack ← getValuetypeHierarchyStack ast fuel supertype
          return stack ++ [atomic astNode]
  | _ + 1, this => .ok [this]

end ValueType

end Jayvee
