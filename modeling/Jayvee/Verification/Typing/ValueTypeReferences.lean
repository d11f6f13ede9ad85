import Jayvee.Model.ValueTypeValidation
import Jayvee.Verification.Typing.SupertypeCycles

/-! # Validation of references to value types

The number of generic arguments is checked first, but what follows wraps the reference, and
walks along the supertypes of what it refers to. Both throw for references that cannot be
wrapped. -/

namespace Jayvee

open Foundation Relation ValueType

variable {ast : Ast}

/-! ## Which supertypes can be reached -/

/-- The definition that is referred to names the second reference as its supertype. -/
def SupertypeReference (ast : Ast) (reference supertype : ValueTypeReference) : Prop :=
  ∃ definition, reference.ref ast = some definition ∧ definition.name ≠ "Collection" ∧
    definition.isBuiltin = false ∧ definition.type = some supertype

/-- All references along the supertypes can be wrapped. -/
def IsWrappableThroughout (ast : Ast) (reference : ValueTypeReference) : Prop :=
  ∀ supertype, ReflTransGen (SupertypeReference ast) reference supertype →
    IsWrappable ast supertype

theorem SupertypeReference.wrap {reference supertype : ValueTypeReference}
    (h : SupertypeReference ast reference supertype) :
    ∃ astNode, ValueType.wrap ast (some reference) = .ok (some (.atomic astNode)) ∧
      (ValueType.atomic astNode).doGetSupertype ast = ValueType.wrap ast (some supertype) := by
  obtain ⟨definition, hdefinition, hname, hcustom, htype⟩ := h
  obtain ⟨astNode, hreference, hnode⟩ := Option.bind_eq_some_iff.mp hdefinition
  refine ⟨astNode, ?_, ?_⟩
  · rw [wrap_some_eq, hdefinition]
    simp [hname, hreference, wrapDefinition, hnode, hcustom]
  · simp [doGetSupertype, hnode, htype]

/-- A reference to an atomic value type refers to its definition. -/
theorem ref_of_wrap {reference : ValueTypeReference} {astNode : ValuetypeId}
    (h : ValueType.wrap ast (some reference) = .ok (some (.atomic astNode))) :
    ∃ definition, ast.valuetypes[astNode]? = some definition ∧
      reference.ref ast = some definition ∧ definition.name ≠ "Collection" ∧
      definition.isBuiltin = false := by
  rw [wrap_some_eq] at h
  split_ifs at h with hcollection
  · exact (wrapCollection_ne_atomic h).elim
  · obtain ⟨hreference, definition, hdefinition, hname, hcustom⟩ := wrapDefinition_eq_atomic h
    refine ⟨definition, hdefinition, ?_, hname, hcustom⟩
    rw [ValueTypeReference.ref, hreference]
    exact hdefinition

/-- The supertype of an atomic value type is what the next reference refers to, if there is
one. -/
theorem supertypeReference_of_wrap {reference : ValueTypeReference} {T : ValueType}
    (hT : ValueType.wrap ast (some reference) = .ok (some T)) :
    T.doGetSupertype ast = .ok none ∨
      ∃ supertype, SupertypeReference ast reference supertype ∧
        T.doGetSupertype ast = ValueType.wrap ast (some supertype) := by
  cases T with
  | atomic astNode =>
      obtain ⟨definition, hnode, hdefinition, hname, hcustom⟩ := ref_of_wrap hT
      cases htype : definition.type with
      | none => exact .inl (by simp [doGetSupertype, hnode, htype, ValueType.wrap])
      | some supertype =>
          refine .inr ⟨supertype, ⟨definition, hdefinition, hname, hcustom, htype⟩, ?_⟩
          simp [doGetSupertype, hnode, htype]
  | _ => exact .inl rfl

/-- Following the supertypes is following the references. -/
theorem exists_reference_of_reflTransGen {reference : ValueTypeReference} {T U : ValueType}
    (hT : ValueType.wrap ast (some reference) = .ok (some T))
    (h : ReflTransGen (Extends ast) T U) :
    ∃ last, ReflTransGen (SupertypeReference ast) reference last ∧
      ValueType.wrap ast (some last) = .ok (some U) := by
  induction h with
  | refl => exact ⟨reference, .refl, hT⟩
  | tail _ hstep ih =>
      obtain ⟨last, hreach, hlast⟩ := ih
      rw [Extends] at hstep
      cases supertypeReference_of_wrap hlast with
      | inl hnone =>
          rw [hnone] at hstep
          cases hstep
      | inr hnext =>
          obtain ⟨supertype, hsupertype, hwrap⟩ := hnext
          exact ⟨supertype, hreach.tail hsupertype, hwrap ▸ hstep⟩

/-- All references can be wrapped if and only if the first one can, and no value type above
what it refers to raises an error. -/
theorem isWrappableThroughout_iff {reference : ValueTypeReference} :
    IsWrappableThroughout ast reference ↔ IsWrappable ast reference ∧
      ∀ T, ValueType.wrap ast (some reference) = .ok (some T) →
        ∀ U, ReflTransGen (Extends ast) T U → ∃ S, U.doGetSupertype ast = .ok S := by
  constructor
  · intro h
    refine ⟨h reference .refl, fun T hT U hU => ?_⟩
    obtain ⟨last, hreach, hlast⟩ := exists_reference_of_reflTransGen hT hU
    cases supertypeReference_of_wrap hlast with
    | inl hnone => exact ⟨none, hnone⟩
    | inr hnext =>
        obtain ⟨supertype, hsupertype, hwrap⟩ := hnext
        rw [hwrap]
        exact wrap_of_wrappable (h supertype (hreach.tail hsupertype))
  · rintro ⟨hreference, habove⟩ last hreach
    -- what a reached reference refers to is reached along the supertypes
    have hstep : IsWrappable ast last ∧ ∀ U, ValueType.wrap ast (some last) = .ok (some U) →
        ∃ T, ValueType.wrap ast (some reference) = .ok (some T) ∧
          ReflTransGen (Extends ast) T U := by
      induction hreach with
      | refl => exact ⟨hreference, fun U hU => ⟨U, hU, .refl⟩⟩
      | tail _ hnext ih =>
          obtain ⟨astNode, hatomic, hdo⟩ := hnext.wrap
          obtain ⟨T, hT, hreach⟩ := ih.2 _ hatomic
          obtain ⟨S, hS⟩ := habove T hT _ hreach
          refine ⟨wrap_isOk_iff.mp ⟨S, hdo ▸ hS⟩, fun U hU => ⟨T, hT, hreach.tail ?_⟩⟩
          exact hdo.trans hU
    exact hstep.1

/-- Whether users may refer to a value type is decided if and only if all references to
supertypes can be wrapped. -/
theorem isReferenceableByUser_isOk_iff {T : ValueType} :
    (∃ isReferenceable, T.isReferenceableByUser ast = .ok isReferenceable) ↔
      ∀ U, ReflTransGen (Extends ast) T U → ∃ S, U.doGetSupertype ast = .ok S := by
  constructor
  · rintro ⟨isReferenceable, h⟩
    cases T with
    | atomic astNode =>
        apply hasSupertypeCycle_isOk_iff.mp
        rw [isReferenceableByUser, hierarchyDepth, askSupertypes] at h
        obtain ⟨supertype, hsupertype, _⟩ := except_bind_eq_ok_iff.mp h
        obtain ⟨hasCycle, hcycle, _⟩ := except_bind_eq_ok_iff.mp hsupertype
        exact ⟨hasCycle, hcycle⟩
    | _ =>
        intro U hU
        rw [(reflTransGen_iff_of_stuck (by rintro S ⟨⟩)).mp hU]
        exact ⟨none, rfl⟩
  · intro hall
    cases h : T.isReferenceableByUser ast with
    | ok isReferenceable => exact ⟨isReferenceable, rfl⟩
    | error e =>
        obtain ⟨U, hreach, hU⟩ := askSupertypes_eq_error h
        obtain ⟨S, hS⟩ := hall U hreach
        rw [hS] at hU
        cases hU

/-! ## The checks -/

section Checks

variable {props : JayveeValidationProps} {reference : ValueTypeReference}

/-- What is reported about the number of generic arguments. -/
def genericsReport (ast : Ast) (reference : ValueTypeReference) : List Diagnostic :=
  match reference.ref ast with
  | none => []
  | some definition =>
      if reference.genericRefs.length = definition.requiredGenerics then
        []
      else
        [⟨.error, genericsMatchMessage definition definition.requiredGenerics
          reference.genericRefs.length, { node := .valueTypeReference reference }⟩]

theorem checkGenericsMatchDefinition_logs :
    Exec.Logs (checkGenericsMatchDefinition props reference) (.ok ())
      (genericsReport props.ast reference) := by
  intro diagnostics
  unfold checkGenericsMatchDefinition genericsReport
  cases reference.ref props.ast with
  | none => simp
  | some definition =>
      by_cases hlength : reference.genericRefs.length = definition.requiredGenerics
      · simp [hlength]
      · simp [hlength, accept]

section Referenceable

variable {container : ValueTypeReferenceContainer}

/-- What the second check wraps in a run that returns can be wrapped. -/
theorem isWrappable_of_returns {diagnostics diagnostics' : List Diagnostic}
    (h : checkIsValueTypeReferenceable props container reference diagnostics =
      some (.ok (), diagnostics')) :
    IsWrappable props.ast reference ∧ (container.isUsedInBuiltinDefinition = true ∨
      IsWrappableThroughout props.ast reference) := by
  obtain ⟨valueType, _, hwrap, hrest⟩ := Exec.bind_eq_ok_iff.mp h
  simp only [Exec.ofExcept_apply, Option.some.injEq, Prod.mk.injEq] at hwrap
  obtain ⟨hwrap, rfl⟩ := hwrap
  have hwrappable : IsWrappable props.ast reference := wrap_isOk_iff.mp ⟨valueType, hwrap⟩
  refine ⟨hwrappable, ?_⟩
  by_cases hbuiltin : container.isUsedInBuiltinDefinition = true
  · exact .inl hbuiltin
  · refine .inr (isWrappableThroughout_iff.mpr ⟨hwrappable, fun T hT => ?_⟩)
    obtain rfl : valueType = some T := Except.ok.inj (hwrap.symm.trans hT)
    simp only [hbuiltin] at hrest
    obtain ⟨isReferenceable, _, hreferenceable, _⟩ := Exec.bind_eq_ok_iff.mp hrest
    simp only [Exec.ofExcept_apply, Option.some.injEq, Prod.mk.injEq] at hreferenceable
    exact isReferenceableByUser_isOk_iff.mp ⟨isReferenceable, hreferenceable.1⟩

theorem checkIsValueTypeReferenceable_returns (hwrappable : IsWrappable props.ast reference)
    (hcontainer : container.isUsedInBuiltinDefinition = true ∨
      IsWrappableThroughout props.ast reference) :
    ∃ reported, Exec.Logs (checkIsValueTypeReferenceable props container reference) (.ok ())
      reported := by
  obtain ⟨valueType, hwrap⟩ := wrap_of_wrappable hwrappable
  cases valueType with
  | none => exact ⟨_, Exec.Logs.ofExcept_bind hwrap (Exec.Logs.pure ())⟩
  | some T =>
      by_cases hbuiltin : container.isUsedInBuiltinDefinition = true
      · refine ⟨[], Exec.Logs.ofExcept_bind hwrap ?_⟩
        simp only [hbuiltin, if_true]
        exact Exec.Logs.pure ()
      · have hall := (isWrappableThroughout_iff.mp (hcontainer.resolve_left hbuiltin)).2 T hwrap
        obtain ⟨isReferenceable, hreferenceable⟩ := isReferenceableByUser_isOk_iff.mpr hall
        cases isReferenceable with
        | true =>
            refine ⟨[], Exec.Logs.ofExcept_bind hwrap ?_⟩
            simp only [hbuiltin]
            exact Exec.Logs.ofExcept_bind hreferenceable (Exec.Logs.pure ())
        | false =>
            apply Exists.intro
            apply Exec.Logs.ofExcept_bind hwrap
            simp only [hbuiltin]
            exact Exec.Logs.ofExcept_bind hreferenceable (accept_logs _ _ _)

end Referenceable

end Checks

/-! ## Validation -/

/-- The validation returns and reports a wrong number of generic arguments, and wrapping yields a
value type or nothing. -/
structure IsValidated (props : JayveeValidationProps) (container : ValueTypeReferenceContainer)
    (reference : ValueTypeReference) : Prop where
  returns : ∃ reported,
    Exec.Logs (validateValueTypeReference props container reference) (.ok ()) reported ∧
      ∀ definition, reference.ref props.ast = some definition →
        reference.genericRefs.length ≠ definition.requiredGenerics →
          ⟨.error, genericsMatchMessage definition definition.requiredGenerics
            reference.genericRefs.length, { node := .valueTypeReference reference }⟩ ∈ reported
  wraps : ∃ valueType, ValueType.wrap props.ast (some reference) = .ok valueType

/-- A reference is validated if it can be wrapped and, outside of builtin definitions, all
references along the supertypes of what it refers to can. -/
theorem isValidated_iff (props : JayveeValidationProps)
    (container : ValueTypeReferenceContainer) (reference : ValueTypeReference) :
    IsValidated props container reference ↔
      IsWrappable props.ast reference ∧ (container.isUsedInBuiltinDefinition = true ∨
        IsWrappableThroughout props.ast reference) := by
  constructor
  · intro h
    obtain ⟨reported, hreported, _⟩ := h.returns
    obtain ⟨_, _, _, hrest⟩ := Exec.bind_eq_ok_iff.mp (hreported [])
    exact isWrappable_of_returns hrest
  · rintro ⟨hwrappable, hcontainer⟩
    obtain ⟨reported, hreported⟩ := checkIsValueTypeReferenceable_returns hwrappable hcontainer
    refine ⟨⟨_, checkGenericsMatchDefinition_logs.bind hreported, ?_⟩, wrap_of_wrappable hwrappable⟩
    intro definition hdefinition hlength
    simp [genericsReport, hdefinition, hlength]

/-- `builtin valuetype Collection<ElementType>;` -/
def collectionAst : Ast :=
  { emptyAst with
    valuetypes := [⟨"Collection", true, none, none, some ⟨[⟨"ElementType"⟩]⟩⟩] }

/-- `oftype Collection` without a generic argument. -/
theorem validateValueTypeReference_collection :
    (validateValueTypeReference { sampleProps with ast := collectionAst } .valuetypeDefinition
      ⟨some 0, []⟩ []).map (fun out => out.1.isOk) = some false ∧
    ValueType.wrap collectionAst (some ⟨some 0, []⟩) = .error (.error
      "Valuetype Collection needs exactly one generic parameter to define its elements' type") ∧
    ¬ IsValidated { sampleProps with ast := collectionAst } .valuetypeDefinition ⟨some 0, []⟩ := by
  refine ⟨rfl, rfl, fun h => ?_⟩
  obtain ⟨valueType, hwrap⟩ := h.wraps
  cases hwrap

end Jayvee
