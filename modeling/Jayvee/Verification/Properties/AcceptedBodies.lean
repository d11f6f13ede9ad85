import Jayvee.Verification.Properties.PassedChecks

/-! # Property bodies that the validation accepts -/

namespace Jayvee

open Foundation ExecutionContext ValueType

/-! ## Properties of a body -/

theorem findProperty_eq_some {properties : List PropertyAssignment} {name : String}
    {property : PropertyAssignment} (h : findProperty properties name = some property) :
    property ∈ properties ∧ property.name = name :=
  ⟨List.mem_of_find?_eq_some h, by simpa using List.find?_some h⟩

theorem findProperty_eq_none {properties : List PropertyAssignment} {name : String}
    (h : findProperty properties name = none) : ∀ property ∈ properties, property.name ≠ name := by
  intro property hproperty
  simpa using List.find?_eq_none.mp h property hproperty

theorem exists_findProperty {properties : List PropertyAssignment} {name : String}
    (h : ∃ property ∈ properties, property.name = name) :
    ∃ property, findProperty properties name = some property := by
  obtain ⟨property, hproperty, hname⟩ := h
  cases hfind : findProperty properties name with
  | none => exact (findProperty_eq_none hfind property hproperty hname).elim
  | some found => exact ⟨found, rfl⟩

/-- The body assigns the property. -/
def IsAssigned (props : JayveeValidationProps) (container : PropertyBodyContainer)
    (propertySpec : PropertySpecification) : Prop :=
  ∃ property ∈ container.properties props.ast, property.name = propertySpec.name

/-! ## Accepted property bodies -/

/-- The checks of `validatePropertyBody` that need the wrapper. -/
def validateWrappedBody (props : JayveeValidationProps) (container : PropertyBodyContainer)
    (wrapper : List PropertySpecification) : Validation Unit := do
  checkPropertyCompleteness container (container.properties props.ast) wrapper
  Exec.forEach (container.properties props.ast) (validatePropertyAssignment props container wrapper)
  if ← hasErrorOccurred then
    return
  checkCustomPropertyValidation props container (container.properties props.ast)

section Moves

variable {props : JayveeValidationProps} {container : PropertyBodyContainer}
  {wrapper : List PropertySpecification} {properties : List PropertyAssignment}

theorem custom_moves : Exec.Moves StillReported (do
    if ← hasErrorOccurred then
      return
    checkCustomPropertyValidation props container properties) :=
  hasErrorOccurred_moves.bind fun _ =>
    Exec.Moves.ite (Exec.Moves.pure ()) (checkCustomPropertyValidation_moves _ _)

theorem assignmentsAndCustom_moves : Exec.Moves StillReported (do
    Exec.forEach properties (validatePropertyAssignment props container wrapper)
    if ← hasErrorOccurred then
      return
    checkCustomPropertyValidation props container properties) :=
  (Exec.Moves.forEach (validatePropertyAssignment_moves container wrapper)).bind
    fun _ => custom_moves

theorem validateWrappedBody_moves :
    Exec.Moves StillReported (validateWrappedBody props container wrapper) :=
  (Exec.Moves.ite (accept_moves _ _ _) (Exec.Moves.pure ())).bind
    fun _ => assignmentsAndCustom_moves

end Moves

theorem not_passes_accept (message : String) (info : DiagnosticInfo) :
    ¬ Exec.Passes Diagnostic.IsError (accept .error message info) () := by
  have herror : Diagnostic.IsError ⟨.error, message, info⟩ := rfl
  exact Exec.Passes.not_report herror

theorem mem_of_getPropertySpecification {wrapper : List PropertySpecification} {name : String}
    {propertySpec : PropertySpecification}
    (h : getPropertySpecification wrapper name = some propertySpec) :
    propertySpec ∈ wrapper ∧ propertySpec.name = name := by
  obtain ⟨hmem, hname⟩ := List.mem_filter.mp (List.mem_of_getLast? h)
  exact ⟨hmem, by simpa using hname⟩

theorem hasErrorOccurred_of_passes {isError : Bool}
    (h : Exec.Passes Diagnostic.IsError hasErrorOccurred isError) : isError = false := by
  obtain ⟨diagnostics, _, hrun, hnone⟩ := h
  cases hrun
  rw [List.any_eq_false]
  intro diagnostic hdiagnostic
  simpa [Diagnostic.IsError] using hnone diagnostic hdiagnostic

/-- `validatePropertyBody` reports no error, and the type of the container is complete: its
wrapper has the specifications `wrapper`. -/
structure AcceptsBody (props : JayveeValidationProps) (container : PropertyBodyContainer)
    (wrapper : List PropertySpecification) : Prop where
  validates : ValidatesWithoutError (validatePropertyBody props container)
  typed : ∀ (σ : Type) (s : σ), wrapTypedObject props container s = some (.ok (some wrapper), s)

namespace AcceptsBody

variable {props : JayveeValidationProps} {container : PropertyBodyContainer}
  {wrapper : List PropertySpecification} (h : AcceptsBody props container wrapper)
include h

theorem validatePropertyBody_eq : validatePropertyBody props container =
    checkUniqueNames ((container.properties props.ast).map
      fun property => (property.name, .propertyAssignment property)) >>=
        fun _ => validateWrappedBody props container wrapper := by
  refine bind_congr fun _ => ?_
  funext diagnostics
  rw [Exec.bind_of_ok (h.typed _ diagnostics)]
  rfl

/-- The names of the properties are unique, and the other checks are passed. -/
theorem passes :
    ((container.properties props.ast).map PropertyAssignment.name).Nodup ∧
      Exec.Passes Diagnostic.IsError (validateWrappedBody props container wrapper) () := by
  obtain ⟨diagnostics, hrun, hnone⟩ := h.validates
  rw [h.validatePropertyBody_eq] at hrun
  obtain ⟨_, between, hunique, hrest⟩ := Exec.bind_eq_ok_iff.mp hrun
  refine ⟨?_, between, diagnostics, hrest, hnone⟩
  have hkept : StillReported between diagnostics := validateWrappedBody_moves between _ _ hrest
  have hnodup := checkUniqueNames_nodup hunique fun d hd => hnone d (hkept hd)
  rwa [List.map_map] at hnodup

theorem eq_of_name {property property' : PropertyAssignment}
    (hproperty : property ∈ container.properties props.ast)
    (hproperty' : property' ∈ container.properties props.ast)
    (hname : property.name = property'.name) : property = property' :=
  List.inj_on_of_nodup_map h.passes.1 hproperty hproperty' hname

theorem find?_eq {property : PropertyAssignment}
    (hproperty : property ∈ container.properties props.ast) :
    (container.properties props.ast).find? (fun p => p.name == property.name) = some property :=
  JsArray.find?_of_nodup_map h.passes.1 hproperty

theorem completeness : Exec.Passes Diagnostic.IsError
    (checkPropertyCompleteness container (container.properties props.ast) wrapper) () := by
  obtain ⟨_, hcomplete, _⟩ := h.passes.2.bind fun _ => assignmentsAndCustom_moves
  exact hcomplete

theorem assignment {property : PropertyAssignment}
    (hproperty : property ∈ container.properties props.ast) : Exec.Passes Diagnostic.IsError
      (validatePropertyAssignment props container wrapper property) () := by
  obtain ⟨_, _, _, _, hrest⟩ := h.passes.2.bind_last
  obtain ⟨_, hall, _⟩ := hrest.bind fun _ => custom_moves
  exact hall.forEach (fun _ _ => validatePropertyAssignment_moves _ _ _) property hproperty

/-- Each property is specified, and passes the checks of its type and of the block type. -/
theorem specification {property : PropertyAssignment}
    (hproperty : property ∈ container.properties props.ast) : ∃ propertySpec,
      getPropertySpecification wrapper property.name = some propertySpec ∧
      Exec.Passes Diagnostic.IsError
        (checkBlockTypeSpecificProperties props container property propertySpec) () := by
  have hpasses := h.assignment hproperty
  unfold validatePropertyAssignment at hpasses
  dsimp only at hpasses
  cases hspec : getPropertySpecification wrapper property.name with
  | none =>
      rw [hspec] at hpasses
      obtain ⟨_, hreports, _⟩ := hpasses.bind fun _ => Exec.Moves.pure ()
      exact (not_passes_accept _ _ hreports).elim
  | some propertySpec =>
      rw [hspec] at hpasses
      obtain ⟨_, _, _, _, hpasses⟩ := hpasses.bind_last
      obtain ⟨_, _, _, _, hpasses⟩ := hpasses.bind_last
      obtain ⟨isError, hasError, hpasses⟩ := hpasses.bind fun _ =>
        Exec.Moves.ite (Exec.Moves.pure ()) (checkBlockTypeSpecificProperties_moves _ _ _)
      obtain rfl := hasErrorOccurred_of_passes hasError
      exact ⟨propertySpec, rfl, hpasses⟩

/-- A property that is not in the body has a default value. -/
theorem exists_default {name : String} {propertySpec : PropertySpecification}
    (hspec : getPropertySpecification wrapper name = some propertySpec)
    (habsent : ∀ property ∈ container.properties props.ast, property.name ≠ name) :
    ∃ value, propertySpec.defaultValue = some value := by
  by_contra hnone
  have hmissing : name ∈ getMissingRequiredPropertyNames wrapper
      ((container.properties props.ast).map PropertyAssignment.name) := by
    obtain ⟨hmem, hname⟩ := mem_of_getPropertySpecification hspec
    refine List.mem_filter.mpr ⟨?_, ?_⟩
    · rw [List.mem_eraseDups, ← hname]
      exact List.mem_map_of_mem hmem
    · rw [hspec]
      simp only [Option.bind_some, Bool.and_eq_true, Bool.not_eq_true', List.contains_eq_mem,
        decide_eq_false_iff_not, List.mem_map, not_exists, not_and]
      refine ⟨?_, habsent⟩
      cases hdefault : propertySpec.defaultValue with
      | none => rfl
      | some value => exact (hnone ⟨value, hdefault⟩).elim
  have hreports := h.completeness
  unfold checkPropertyCompleteness at hreports
  dsimp only at hreports
  rw [if_pos (List.length_pos_of_mem hmissing)] at hreports
  exact not_passes_accept _ _ hreports

/-- The checks of the whole body are passed. -/
theorem custom :
    Exec.Passes Diagnostic.IsError
      (checkCustomPropertyValidation props container (container.properties props.ast)) () := by
  obtain ⟨_, _, _, _, hpasses⟩ := h.passes.2.bind_last
  obtain ⟨_, _, _, _, hpasses⟩ := hpasses.bind_last
  obtain ⟨isError, hasError, hpasses⟩ := hpasses.bind fun _ =>
    Exec.Moves.ite (Exec.Moves.pure ()) (checkCustomPropertyValidation_moves _ _)
  obtain rfl := hasErrorOccurred_of_passes hasError
  exact hpasses

end AcceptsBody

theorem AcceptsBody.constraintBody {props : JayveeValidationProps} {constraint : ConstraintId}
    {wrapper : List PropertySpecification}
    (h : AcceptsBody props (.constraint constraint) wrapper) {typeName : String}
    (htypeName : (PropertyBodyContainer.constraint constraint).typeName props.ast =
      some typeName) :
    Exec.Passes Diagnostic.IsError (checkConstraintTypeSpecificPropertyBody props
      (.constraint constraint) (some typeName)
        ((PropertyBodyContainer.constraint constraint).properties props.ast)) () := by
  rw [← htypeName]
  exact h.custom

end Jayvee
