import Jayvee.Foundation.Exec
import Jayvee.Model.ValueType

/-! # References that can be wrapped

Wrapping a reference throws for collections without exactly one element type, and for builtin
value types that are none of the primitive ones. -/

namespace Jayvee

open Foundation

/-- If the value type is builtin, then it is a primitive one. -/
def ValuetypeDefinition.IsKnown (definition : ValuetypeDefinition) : Prop :=
  definition.isBuiltin = true → ∃ kind : PrimitiveValueType, kind.getName = definition.name

/-- There is exactly one generic argument, and it is a value type. -/
def HasElementType (ast : Ast) (genericRefs : List (Option ValuetypeId)) : Prop :=
  ∃ element definition, genericRefs = [some element] ∧ ast.valuetypes[element]? = some definition ∧
    definition.name ≠ "Collection" ∧ definition.IsKnown

/-- The reference does not resolve, or it names what there is a value type for. -/
def IsWrappable (ast : Ast) (reference : ValueTypeReference) : Prop :=
  ∀ definition, reference.ref ast = some definition →
    (definition.name = "Collection" → HasElementType ast reference.genericRefs) ∧
    (definition.name ≠ "Collection" → definition.IsKnown)

namespace ValueType

variable {ast : Ast}

/-! ## Definitions -/

theorem filter_getName (kind : PrimitiveValueType) :
    PrimitiveValueType.getAll.filter (fun valueType => valueType.getName == kind.getName) =
      [kind] := by
  cases kind <;> decide

theorem wrapPrimitive_of_name {definition : ValuetypeDefinition} {kind : PrimitiveValueType}
    (hname : kind.getName = definition.name) :
    wrapPrimitive definition = .ok (some (.primitive kind)) := by
  rw [wrapPrimitive, ← hname, filter_getName]

theorem wrapPrimitive_of_unknown {definition : ValuetypeDefinition}
    (hname : ∀ kind : PrimitiveValueType, kind.getName ≠ definition.name) :
    wrapPrimitive definition = .error (.error
      s!"Found no PrimitiveValuetype for builtin value type \"{definition.name}\"") := by
  have hnone : (PrimitiveValueType.getAll.filter fun valueType =>
      valueType.getName == definition.name) = [] := by
    simp only [List.filter_eq_nil_iff, beq_iff_eq]
    exact fun kind _ => hname kind
  rw [wrapPrimitive, hnone]

section Definition

variable {astNode : ValuetypeId} {definition : ValuetypeDefinition}
  (hdefinition : ast.valuetypes[astNode]? = some definition)
include hdefinition

theorem wrapDefinition_of_collection (hname : definition.name = "Collection") :
    wrapDefinition ast (some astNode) = .ok none := by
  simp [wrapDefinition, hdefinition, hname]

theorem wrapDefinition_of_known (hname : definition.name ≠ "Collection")
    (hknown : definition.IsKnown) : ∃ T, wrapDefinition ast (some astNode) = .ok (some T) := by
  simp only [wrapDefinition, hdefinition, hname, if_false]
  by_cases hbuiltin : definition.isBuiltin = true
  · obtain ⟨kind, hkind⟩ := hknown hbuiltin
    rw [if_pos hbuiltin, wrapPrimitive_of_name hkind]
    exact ⟨_, rfl⟩
  · rw [if_neg hbuiltin]
    exact ⟨_, rfl⟩

theorem wrapDefinition_of_unknown (hname : definition.name ≠ "Collection")
    (hunknown : ¬ definition.IsKnown) :
    ∃ message, wrapDefinition ast (some astNode) = .error (.error message) := by
  simp only [ValuetypeDefinition.IsKnown, Classical.not_imp, not_exists] at hunknown
  simp only [wrapDefinition, hdefinition, hname, if_false, hunknown.1, if_true]
  exact ⟨_, wrapPrimitive_of_unknown hunknown.2⟩

end Definition

theorem wrapDefinition_of_unresolved {astNode : ValuetypeId}
    (hdefinition : ast.valuetypes[astNode]? = none) :
    wrapDefinition ast (some astNode) = .ok none := by
  simp [wrapDefinition, hdefinition]

/-- Atomic value types wrap the definitions that are not builtin. -/
theorem wrapDefinition_eq_atomic {identifier : Option ValuetypeId} {astNode : ValuetypeId}
    (h : wrapDefinition ast identifier = .ok (some (.atomic astNode))) :
    identifier = some astNode ∧ ∃ definition, ast.valuetypes[astNode]? = some definition ∧
      definition.name ≠ "Collection" ∧ definition.isBuiltin = false := by
  cases identifier with
  | none => cases h
  | some node =>
      cases hdefinition : ast.valuetypes[node]? with
      | none => simp [wrapDefinition_of_unresolved hdefinition] at h
      | some definition =>
          simp only [wrapDefinition, hdefinition] at h
          split_ifs at h with hname hbuiltin
          · cases h
          · unfold wrapPrimitive at h
            split at h <;> cases h
          · cases h
            exact ⟨rfl, definition, hdefinition, hname, by simpa using hbuiltin⟩

/-- Only builtin value types that are not primitive ones cannot be wrapped. -/
theorem wrapDefinition_ok_or_error (ast : Ast) (identifier : Option ValuetypeId) :
    (∃ T, wrapDefinition ast identifier = .ok T) ∨
      ∃ message, wrapDefinition ast identifier = .error (.error message) := by
  cases identifier with
  | none => exact .inl ⟨none, rfl⟩
  | some astNode =>
      cases hdefinition : ast.valuetypes[astNode]? with
      | none => exact .inl ⟨none, wrapDefinition_of_unresolved hdefinition⟩
      | some definition =>
          by_cases hname : definition.name = "Collection"
          · exact .inl ⟨none, wrapDefinition_of_collection hdefinition hname⟩
          by_cases hknown : definition.IsKnown
          · obtain ⟨T, hT⟩ := wrapDefinition_of_known hdefinition hname hknown
            exact .inl ⟨some T, hT⟩
          · exact .inr (wrapDefinition_of_unknown hdefinition hname hknown)

/-! ## Collections -/

theorem wrapCollection_of_elementType {collectionRef : ValueTypeReference}
    (helement : HasElementType ast collectionRef.genericRefs) :
    ∃ T, wrapCollection ast collectionRef = .ok (some T) := by
  obtain ⟨element, definition, hgenerics, hdefinition, hname, hknown⟩ := helement
  obtain ⟨T, hT⟩ := wrapDefinition_of_known hdefinition hname hknown
  refine ⟨collection T, ?_⟩
  rw [wrapCollection, hgenerics]
  simp only [hT, except_ok_bind]

theorem wrapCollection_ne_atomic {collectionRef : ValueTypeReference} {astNode : ValuetypeId} :
    wrapCollection ast collectionRef ≠ .ok (some (.atomic astNode)) := by
  unfold wrapCollection
  split
  · intro h
    obtain ⟨elementType, _, h⟩ := except_bind_eq_ok_iff.mp h
    cases elementType <;> cases h
  · simp

theorem wrapCollection_of_no_elementType {collectionRef : ValueTypeReference}
    (helement : ¬ HasElementType ast collectionRef.genericRefs) :
    ∃ message, wrapCollection ast collectionRef = .error (.error message) := by
  unfold wrapCollection
  split
  · rename_i generic hgenerics
    have hnone : ∀ T, wrapDefinition ast generic ≠ .ok (some T) := by
      intro T hT
      apply helement
      cases generic with
      | none => cases hT
      | some element =>
          cases hdefinition : ast.valuetypes[element]? with
          | none => simp [wrapDefinition_of_unresolved hdefinition] at hT
          | some definition =>
              have hname : definition.name ≠ "Collection" := by
                intro hname
                simp [wrapDefinition_of_collection hdefinition hname] at hT
              refine ⟨element, definition, hgenerics, hdefinition, hname, ?_⟩
              by_contra hunknown
              obtain ⟨message, herror⟩ := wrapDefinition_of_unknown hdefinition hname hunknown
              simp [herror] at hT
    cases wrapDefinition_ok_or_error ast generic with
    | inl hok =>
        obtain ⟨T, hT⟩ := hok
        cases T with
        | none =>
            rw [hT]
            exact ⟨_, rfl⟩
        | some T => exact (hnone T hT).elim
    | inr herror =>
        obtain ⟨message, herror⟩ := herror
        rw [herror]
        exact ⟨message, rfl⟩
  · exact ⟨_, rfl⟩

/-! ## References -/

theorem wrap_some_eq (ast : Ast) (reference : ValueTypeReference) :
    wrap ast (some reference) =
      if (reference.ref ast).map ValuetypeDefinition.name = some "Collection" then
        wrapCollection ast reference
      else
        wrapDefinition ast reference.reference :=
  rfl

theorem wrap_of_wrappable {reference : ValueTypeReference} (h : IsWrappable ast reference) :
    ∃ T, wrap ast (some reference) = .ok T := by
  rw [wrap_some_eq]
  cases hdefinition : reference.ref ast with
  | none =>
      refine ⟨none, ?_⟩
      cases hreference : reference.reference with
      | none => rfl
      | some astNode =>
          rw [ValueTypeReference.ref, hreference] at hdefinition
          simpa using wrapDefinition_of_unresolved hdefinition
  | some definition =>
      obtain ⟨hcollection, hknown⟩ := h definition hdefinition
      obtain ⟨astNode, hreference, hnode⟩ := Option.bind_eq_some_iff.mp hdefinition
      by_cases hname : definition.name = "Collection"
      · obtain ⟨T, hT⟩ := wrapCollection_of_elementType (hcollection hname)
        exact ⟨some T, by simpa [hname] using hT⟩
      · obtain ⟨T, hT⟩ := wrapDefinition_of_known hnode hname (hknown hname)
        exact ⟨some T, by simpa [hname, hreference] using hT⟩

theorem wrap_of_not_wrappable {reference : ValueTypeReference}
    (h : ¬ IsWrappable ast reference) :
    ∃ message, wrap ast (some reference) = .error (.error message) := by
  simp only [IsWrappable, not_forall] at h
  obtain ⟨definition, hdefinition, hnot⟩ := h
  obtain ⟨astNode, hreference, hnode⟩ := Option.bind_eq_some_iff.mp hdefinition
  rw [wrap_some_eq, hdefinition]
  by_cases hname : definition.name = "Collection"
  · simpa [hname] using wrapCollection_of_no_elementType fun helement => hnot
      ⟨fun _ => helement, fun hne => (hne hname).elim⟩
  · simpa [hname, hreference] using wrapDefinition_of_unknown hnode hname fun hknown => hnot
      ⟨fun heq => (hname heq).elim, fun _ => hknown⟩

/-- Wrapping throws an `Error` exactly for the references that are not wrappable. -/
theorem wrap_isOk_iff {reference : ValueTypeReference} :
    (∃ T, wrap ast (some reference) = .ok T) ↔ IsWrappable ast reference := by
  constructor
  · rintro ⟨T, hT⟩
    by_contra h
    obtain ⟨message, herror⟩ := wrap_of_not_wrappable h
    rw [hT] at herror
    cases herror
  · exact wrap_of_wrappable

theorem wrap_eq_error {identifier : Option ValueTypeReference} {e : JsError}
    (h : wrap ast identifier = .error e) : ∃ message, e = .error message := by
  cases identifier with
  | none => cases h
  | some reference =>
      by_cases hwrappable : IsWrappable ast reference
      · obtain ⟨T, hT⟩ := wrap_of_wrappable hwrappable
        rw [hT] at h
        cases h
      · obtain ⟨message, herror⟩ := wrap_of_not_wrappable hwrappable
        rw [herror] at h
        cases h
        exact ⟨message, rfl⟩

end ValueType

end Jayvee
