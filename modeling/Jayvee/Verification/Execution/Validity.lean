import Jayvee.Verification.Execution.Compositional
import Jayvee.Verification.Typing.Hierarchy
import Jayvee.Verification.Typing.Preservation

/-! # Validity of values

A value is valid for a value type if it is a representation of the primitive type at the root
and fulfills the constraints of all atomic value types on the way there. -/

namespace Jayvee

open Foundation ExecutionContext ValueType

variable {δ : Type}

/-! ## Resolved hierarchies -/

/-- A value type that a reference can be resolved to. -/
def IsDefined (ast : Ast) : ValueType → Prop
  | .atomic astNode =>
      ∃ definition, ast.valuetypes[astNode]? = some definition ∧ definition.isBuiltin = false
  | .collection elementType => IsDefined ast elementType
  | _ => True

def constraintReference (constraint : ConstraintId) : Expression :=
  .referenceLiteral (some (.constraintDefinition constraint))

/-- The definition of the value type lists the constraint. -/
def Lists (ast : Ast) (astNode : ValuetypeId) (constraint : ConstraintId) : Prop :=
  ∃ constraints, ast.valuetypes[astNode]?.bind ValuetypeDefinition.constraints = some constraints ∧
    constraintReference constraint ∈ constraints

/-- No value type is above itself, and all references to supertypes and constraints are
resolved. -/
structure ResolvedHierarchy (ast : Ast) : Prop where
  acyclic : ∀ T, IsDefined ast T → hasSupertypeCycle ast (hierarchyDepth ast) [] T = .ok false
  supertype : ∀ astNode, IsDefined ast (.atomic astNode) →
    ∃ S, (ValueType.atomic astNode).doGetSupertype ast = .ok (some S)
  constraints : ∀ astNode, IsDefined ast (.atomic astNode) → ∃ constraints : List ConstraintId,
    ast.valuetypes[astNode]?.bind ValuetypeDefinition.constraints =
      some (constraints.map constraintReference)

def Supertype (ast : Ast) (T S : ValueType) : Prop :=
  T.getSupertype ast = .ok (some S)

/-- `U` is `T` or one of the value types above it. -/
def Above (ast : Ast) : ValueType → ValueType → Prop :=
  Relation.ReflTransGen (Supertype ast)

section Hierarchy

variable {ast : Ast}

theorem isDefined_of_wrapDefinition {identifier : Option ValuetypeId} {T : ValueType}
    (h : wrapDefinition ast identifier = .ok (some T)) : IsDefined ast T := by
  cases identifier with
  | none => cases h
  | some astNode =>
      unfold wrapDefinition at h
      cases hdefinition : ast.valuetypes[astNode]? with
      | none =>
          simp only [hdefinition] at h
          cases h
      | some definition =>
          simp only [hdefinition] at h
          split_ifs at h with hname hbuiltin
          · cases h
          · unfold wrapPrimitive at h
            split at h
            · cases h
            · cases h
              trivial
            · cases h
          · cases h
            exact ⟨definition, hdefinition, by simpa using hbuiltin⟩

theorem isDefined_of_wrap {identifier : Option ValueTypeReference} {T : ValueType}
    (h : wrap ast identifier = .ok (some T)) : IsDefined ast T := by
  cases identifier with
  | none => cases h
  | some reference =>
      unfold wrap at h
      dsimp only at h
      split at h
      · unfold wrapCollection at h
        split at h
        · obtain ⟨elementType, helement, h⟩ := except_bind_eq_ok_iff.mp h
          cases elementType with
          | none => cases h
          | some elementType =>
              cases h
              show IsDefined ast elementType
              exact isDefined_of_wrapDefinition helement
        · cases h
      · exact isDefined_of_wrapDefinition h

theorem Supertype.isDefined {T S : ValueType} (h : Supertype ast T S) : IsDefined ast S := by
  have hdo := (getSupertype_eq_some_iff.mp h).2
  cases T with
  | atomic astNode => exact isDefined_of_wrap hdo
  | _ => cases hdo

theorem Supertype.unique {T S S' : ValueType} (h : Supertype ast T S) (h' : Supertype ast T S') :
    S = S' :=
  Option.some.inj (Except.ok.inj (h.symm.trans h'))

/-- A value type that is not atomic is at the top. -/
theorem not_supertype {T S : ValueType} (hT : ∀ astNode, T ≠ .atomic astNode) :
    ¬ Supertype ast T S := by
  intro h
  have hdo := (getSupertype_eq_some_iff.mp h).2
  cases T with
  | atomic astNode => exact hT astNode rfl
  | _ => cases hdo

theorem above_iff_of_top {T U : ValueType} (hT : ∀ astNode, T ≠ .atomic astNode) :
    Above ast T U ↔ U = T := by
  constructor
  · intro h
    cases h.cases_head with
    | inl heq => exact heq.symm
    | inr hstep =>
        obtain ⟨S, hS, _⟩ := hstep
        exact (not_supertype hT hS).elim
  · rintro rfl
    exact Relation.ReflTransGen.refl

theorem above_iff_of_supertype {T S U : ValueType} (hS : Supertype ast T S) :
    Above ast T U ↔ U = T ∨ Above ast S U := by
  constructor
  · intro h
    cases h.cases_head with
    | inl heq => exact .inl heq.symm
    | inr hstep =>
        obtain ⟨S', hS', habove⟩ := hstep
        exact .inr (hS.unique hS' ▸ habove)
  · rintro (rfl | habove)
    · exact Relation.ReflTransGen.refl
    · exact Relation.ReflTransGen.head hS habove

theorem ResolvedHierarchy.getSupertype (h : ResolvedHierarchy ast) {astNode : ValuetypeId}
    (hdefined : IsDefined ast (.atomic astNode)) : ∃ S, Supertype ast (.atomic astNode) S := by
  obtain ⟨S, hS⟩ := h.supertype astNode hdefined
  exact ⟨S, getSupertype_eq_some_iff.mpr ⟨h.acyclic _ hdefined, hS⟩⟩

theorem ResolvedHierarchy.getPrimitive (h : ResolvedHierarchy ast) {T : ValueType}
    (hT : IsDefined ast T) :
    ∃ root, T.getPrimitive ast = .ok (some root) ∧ IsDefined ast root := by
  induction T using supertype_induction ast with
  | step T ih =>
      cases T with
      | atomic astNode =>
          obtain ⟨S, hS⟩ := h.getSupertype hT
          obtain ⟨root, hroot, hdefined⟩ := ih S hS hS.isDefined
          refine ⟨root, ?_, hdefined⟩
          rw [ValueType.getPrimitive, askSupertypes_supertype rfl hS]
          exact hroot
      | primitive kind => exact ⟨_, rfl, hT⟩
      | emptyCollection => exact ⟨_, rfl, hT⟩
      | collection elementType => exact ⟨_, rfl, hT⟩

mutual

theorem ResolvedHierarchy.isInternalValueRepresentation (h : ResolvedHierarchy ast) :
    ∀ (v : Value) (T : ValueType), IsDefined ast T →
      ∃ isValid, T.isInternalValueRepresentation ast v = .ok isValid
  | .collection values, T, hT => by
      obtain ⟨root, hroot, hdefined⟩ := h.getPrimitive hT
      rw [ValueType.isInternalValueRepresentation, hroot]
      cases root with
      | collection elementType => exact h.everyIsInternalValueRepresentation values _ hdefined
      | _ => exact ⟨_, rfl⟩
  | .boolean _, T, hT | .number _, T, hT | .string _, T, hT | .regExp _, T, hT
  | .cellRange _, T, hT | .constraint _, T, hT | .valuetypeAssignment _, T, hT
  | .transform _, T, hT => by
      obtain ⟨root, hroot, _⟩ := h.getPrimitive hT
      rw [ValueType.isInternalValueRepresentation, hroot]
      · cases root <;> exact ⟨_, rfl⟩
      · simp

theorem ResolvedHierarchy.everyIsInternalValueRepresentation (h : ResolvedHierarchy ast) :
    ∀ (values : List Value) (T : ValueType), IsDefined ast T →
      ∃ isValid, ValueType.everyIsInternalValueRepresentation ast T values = .ok isValid
  | [], _, _ => ⟨true, rfl⟩
  | value :: values, T, hT => by
      obtain ⟨isValid, hvalue⟩ := h.isInternalValueRepresentation value T hT
      rw [ValueType.everyIsInternalValueRepresentation, hvalue]
      cases isValid with
      | true => exact h.everyIsInternalValueRepresentation values T hT
      | false => exact ⟨false, rfl⟩

end

end Hierarchy

/-! ## Constraints -/

/-- Checked on its own in the context, the constraint decides whether it accepts the value. -/
def Decides (services : ExecutionServices) (context : ExecutionContext δ) (value : Value)
    (constraint : ConstraintId) (isAccepted : Bool) : Prop :=
  ∃ (constraintExecutor : ConstraintExecutor δ) (after : ExecutionContext δ),
    createConstraintExecutor services constraint = .ok constraintExecutor ∧
    constraintExecutor value (entered context (.constraint constraint)) =
      some (.ok isAccepted, after)

section Constraints

variable {services : ExecutionServices} {context : ExecutionContext δ} {value : Value}

theorem deleteValueForValueKeyword_setValueForValueKeyword {env : EvaluationContext}
    (h : env.valueKeywordValue = none) :
    (env.setValueForValueKeyword value).deleteValueForValueKeyword = env := by
  cases env
  cases h
  rfl

theorem expressionConstraint_eq_ok {expression : Expression} {isAccepted : Bool}
    {after : ExecutionContext δ} (hkeyword : context.evaluationContext.valueKeywordValue = none)
    (h : ExpressionConstraintExecutor.isValid services expression value context =
      some (.ok isAccepted, after)) : after = context := by
  unfold ExpressionConstraintExecutor.isValid setValueForValueKeyword at h
  rw [Exec.bind_of_ok (Exec.modify_apply _ _), Exec.bind_of_ok (Exec.get_apply _)] at h
  obtain ⟨result, before, hresult, h⟩ := Exec.bind_eq_ok_iff.mp h
  have hsame := (evaluateExpressionSilently_reads _ _ _).same hresult
  subst hsame
  split at h
  · unfold deleteValueForValueKeyword at h
    rw [Exec.bind_of_ok (Exec.modify_apply _ _)] at h
    cases h
    simp only [deleteValueForValueKeyword_setValueForValueKeyword hkeyword]
  · cases h

/-- A check leaves the context as it is. -/
theorem constraintExecutor_eq_ok {constraint : ConstraintId}
    {constraintExecutor : ConstraintExecutor δ} {isAccepted : Bool} {after : ExecutionContext δ}
    (hkeyword : context.evaluationContext.valueKeywordValue = none)
    (hcreate : createConstraintExecutor services constraint = .ok constraintExecutor)
    (h : constraintExecutor value context = some (.ok isAccepted, after)) : after = context := by
  cases createConstraintExecutor_cases services hcreate with
  | inl hagrees =>
      have hreads := Exec.Agrees.reads fun context =>
        hagrees value _ _ (SameProperties.refl services context)
      exact hreads.same h
  | inr hexpression =>
      obtain ⟨_, _, expression, _, rfl⟩ := hexpression
      exact expressionConstraint_eq_ok hkeyword h

theorem exitNode_entered (node : StackNode) :
    exitNode node (entered context node) = some (.ok (), context) := by
  rw [exitNode, Exec.bind_of_ok (popNode_apply _)]
  simp [entered]

theorem fulfillsConstraints_cons {constraint : ConstraintId} {constraints : List ConstraintId}
    {constraintExecutor : ConstraintExecutor δ}
    (hcreate : createConstraintExecutor services constraint = .ok constraintExecutor) :
    fulfillsConstraints services value (constraint :: constraints) context =
      (do
        let isAccepted ← constraintExecutor value
        exitNode (.constraint constraint)
        if !isAccepted then
          return false
        fulfillsConstraints services value constraints)
        (entered context (.constraint constraint)) := by
  rw [fulfillsConstraints, hcreate, Exec.bind_of_ok (Exec.ofExcept_apply _ _),
    Exec.bind_of_ok (enterNode_eq _ _)]

/-- The loop over the constraints decides their conjunction. -/
theorem fulfillsConstraints_eq (hkeyword : context.evaluationContext.valueKeywordValue = none)
    {constraints : List ConstraintId}
    (hdecides : ∀ constraint ∈ constraints,
      ∃ isAccepted, Decides services context value constraint isAccepted) :
    ∃ isValid,
      fulfillsConstraints services value constraints context = some (.ok isValid, context) ∧
      (isValid = true ↔
        ∀ constraint ∈ constraints, Decides services context value constraint true) := by
  induction constraints with
  | nil => exact ⟨true, rfl, by simp⟩
  | cons constraint constraints ih =>
      rw [List.forall_mem_cons] at hdecides
      obtain ⟨⟨isAccepted, constraintExecutor, after, hcreate, hrun⟩, hrest⟩ := hdecides
      have hafter := constraintExecutor_eq_ok (by exact hkeyword) hcreate hrun
      subst hafter
      have hstep : fulfillsConstraints services value (constraint :: constraints) context =
          if !isAccepted then
            some (.ok false, context)
          else
            fulfillsConstraints services value constraints context := by
        rw [fulfillsConstraints_cons hcreate, Exec.bind_of_ok hrun,
          Exec.bind_of_ok (exitNode_entered _)]
        cases isAccepted <;> rfl
      have haccepted : Decides services context value constraint true ↔ isAccepted = true := by
        constructor
        · rintro ⟨constraintExecutor', _, hcreate', hrun'⟩
          cases hcreate.symm.trans hcreate'
          cases hrun.symm.trans hrun'
          rfl
        · rintro rfl
          exact ⟨constraintExecutor, _, hcreate, hrun⟩
      rw [List.forall_mem_cons, haccepted]
      cases isAccepted with
      | false => exact ⟨false, hstep, by simp⟩
      | true =>
          obtain ⟨isValid, hvalid, hiff⟩ := ih hrest
          exact ⟨isValid, hstep.trans hvalid, by simp [hiff]⟩

/-! ## The constraints of a value type -/

theorem evaluateExpressions_constraintReferences (runtime : JsRuntime) (env : EvaluationContext)
    (constraints : List ConstraintId) (d : List Diagnostic) :
    evaluateExpressions runtime env .lazy (constraints.map constraintReference) d =
      some (.ok (constraints.map fun constraint => some (.constraint constraint)), d) := by
  induction constraints with
  | nil => rfl
  | cons constraint constraints ih =>
      rw [List.map_cons, evaluateExpressions, constraintReference, evaluateExpression]
      rw [Exec.bind_of_ok (Exec.pure_apply _ _), Exec.bind_of_ok ih]
      rfl

theorem mapM_constraintTypeguard (constraints : List ConstraintId) :
    (constraints.map Value.constraint).mapM constraintTypeguard = some constraints := by
  induction constraints with
  | nil => rfl
  | cons constraint constraints ih => simp [constraintTypeguard, ih]

theorem getConstraints_eq {astNode : ValuetypeId} {constraints : List ConstraintId}
    (h : services.ast.valuetypes[astNode]?.bind ValuetypeDefinition.constraints =
      some (constraints.map constraintReference)) :
    getConstraints services astNode context = some (.ok constraints, context) := by
  have hcollection : evaluateExpressionSilently services.runtime context.evaluationContext
      (.collectionLiteral (constraints.map constraintReference)) context =
        some (.ok (some (.collection (constraints.map .constraint))), context) := by
    have hdefined : isEveryValueDefined
        (constraints.map fun constraint => some (Value.constraint constraint)) =
          some (constraints.map .constraint) := isEveryValueDefined_eq_some.mpr (by simp)
    rw [evaluateExpressionSilently, evaluateExpression]
    simp [Exec.isolate, Exec.bind_apply, evaluateExpressions_constraintReferences, hdefined]
  simp only [getConstraints, h]
  rw [Exec.bind_of_ok (Exec.get_apply _), Exec.bind_of_ok hcollection]
  simp only [mapM_constraintTypeguard, Option.getD_some, Exec.pure_apply]

end Constraints

/-! ## Valid values are representations -/

section Representations

variable {services : ExecutionServices} {context after : ExecutionContext δ} {value : Value}

theorem hasType_of_visitValueRepresentation {fuel : Nat} {T : ValueType}
    (h : visitValueRepresentation services value fuel T context = some (.ok true, after)) :
    HasType services.ast T value := by
  induction fuel generalizing T after with
  | zero => cases h
  | succ fuel ih =>
      cases T with
      | atomic astNode =>
          rw [visitValueRepresentation] at h
          obtain ⟨supertype, between, hsupertype, h⟩ := Exec.bind_eq_ok_iff.mp h
          obtain ⟨hS, rfl⟩ := Prod.mk.inj (Option.some.inj hsupertype)
          cases supertype with
          | none => cases h
          | some S =>
              obtain ⟨isValidForSupertype, between, hvisit, h⟩ := Exec.bind_eq_ok_iff.mp h
              cases isValidForSupertype with
              | false => cases h
              | true =>
                  have hprimitive : (ValueType.atomic astNode).getPrimitive services.ast =
                      S.getPrimitive services.ast := askSupertypes_supertype rfl hS
                  rw [HasType, isInternalValueRepresentation_congr hprimitive]
                  exact ih hvisit
      | _ => exact (Prod.mk.inj (Option.some.inj h)).1

theorem hasType_of_isValidValueRepresentation {T : ValueType}
    (h : isValidValueRepresentation services value T context = some (.ok true, after)) :
    HasType services.ast T value :=
  hasType_of_visitValueRepresentation h

end Representations

/-! ## Validity along the hierarchy -/

/-- The value represents the primitive type at the root, and every constraint that is listed on
the way there accepts it. -/
structure ValidRepresentation (services : ExecutionServices) (context : ExecutionContext δ)
    (value : Value) (T : ValueType) : Prop where
  primitive : ∃ root, Above services.ast T root ∧ (∀ astNode, root ≠ .atomic astNode) ∧
    root.isInternalValueRepresentation services.ast value = .ok true
  constraints : ∀ astNode, Above services.ast T (.atomic astNode) →
    ∀ constraint, Lists services.ast astNode constraint →
      Decides services context value constraint true

section Validity

variable {services : ExecutionServices} {context : ExecutionContext δ} {value : Value}

theorem validRepresentation_iff_of_top {T : ValueType} (hT : ∀ astNode, T ≠ .atomic astNode) :
    ValidRepresentation services context value T ↔
      T.isInternalValueRepresentation services.ast value = .ok true := by
  constructor
  · rintro ⟨⟨root, hroot, _, hvalue⟩, _⟩
    rwa [(above_iff_of_top hT).mp hroot] at hvalue
  · intro hvalue
    refine ⟨⟨T, Relation.ReflTransGen.refl, hT, hvalue⟩, ?_⟩
    intro astNode habove
    exact (hT astNode ((above_iff_of_top hT).mp habove).symm).elim

theorem validRepresentation_atomic_iff {astNode : ValuetypeId} {S : ValueType}
    (hS : Supertype services.ast (.atomic astNode) S) :
    ValidRepresentation services context value (.atomic astNode) ↔
      ValidRepresentation services context value S ∧
        ∀ constraint, Lists services.ast astNode constraint →
          Decides services context value constraint true := by
  constructor
  · rintro ⟨⟨root, hroot, htop, hvalue⟩, hconstraints⟩
    refine ⟨⟨⟨root, ?_, htop, hvalue⟩, ?_⟩, ?_⟩
    · cases (above_iff_of_supertype hS).mp hroot with
      | inl hself => exact (htop astNode hself).elim
      | inr habove => exact habove
    · exact fun U hU => hconstraints U ((above_iff_of_supertype hS).mpr (.inr hU))
    · exact hconstraints astNode Relation.ReflTransGen.refl
  · rintro ⟨⟨⟨root, hroot, htop, hvalue⟩, hconstraints⟩, hown⟩
    refine ⟨⟨root, (above_iff_of_supertype hS).mpr (.inr hroot), htop, hvalue⟩, ?_⟩
    intro U hU
    cases (above_iff_of_supertype hS).mp hU with
    | inl hself =>
        cases hself
        exact hown
    | inr habove => exact hconstraints U habove

/-- A value that is valid for a value type is valid for every value type above it. -/
theorem ValidRepresentation.above {T S : ValueType}
    (h : ValidRepresentation services context value T) (hS : Above services.ast T S) :
    ValidRepresentation services context value S := by
  induction hS with
  | refl => exact h
  | @tail U S _ hS ih =>
      cases U with
      | atomic astNode => exact ((validRepresentation_atomic_iff hS).mp ih).1
      | _ => exact (not_supertype (by simp) hS).elim

theorem Lists.iff_mem {astNode : ValuetypeId} {constraints : List ConstraintId}
    (h : services.ast.valuetypes[astNode]?.bind ValuetypeDefinition.constraints =
      some (constraints.map constraintReference)) (constraint : ConstraintId) :
    Lists services.ast astNode constraint ↔ constraint ∈ constraints := by
  simp [Lists, h, constraintReference]

/-- Induction along the hierarchy, as the visitor goes up. -/
theorem visitValueRepresentation_eq (hresolved : ResolvedHierarchy services.ast)
    (hkeyword : context.evaluationContext.valueKeywordValue = none) {fuel : Nat} {T : ValueType}
    (hfuel : hasSupertypeCycle services.ast fuel [] T = .ok false)
    (hT : IsDefined services.ast T)
    (hdecides : ∀ astNode, Above services.ast T (.atomic astNode) →
      ∀ constraint, Lists services.ast astNode constraint →
        ∃ isAccepted, Decides services context value constraint isAccepted) :
    ∃ isValid,
      visitValueRepresentation services value fuel T context = some (.ok isValid, context) ∧
      (isValid = true ↔ ValidRepresentation services context value T) := by
  induction fuel generalizing T with
  | zero => cases hfuel
  | succ fuel ih =>
      cases T with
      | atomic astNode =>
          obtain ⟨S, hS⟩ := hresolved.getSupertype hT
          obtain ⟨constraints, hconstraints⟩ := hresolved.constraints astNode hT
          have hsupertype : (ValueType.atomic astNode).getSupertype services.ast =
              .ok (some S) := hS
          obtain ⟨isValidForSupertype, hvisit, hiff⟩ :=
            ih (hasSupertypeCycle_of_getSupertype hS hfuel) hS.isDefined fun U hU =>
              hdecides U ((above_iff_of_supertype hS).mpr (.inr hU))
          obtain ⟨isValid, hloop, hloopIff⟩ := fulfillsConstraints_eq hkeyword fun c hc =>
            hdecides astNode Relation.ReflTransGen.refl c ((Lists.iff_mem hconstraints c).mpr hc)
          rw [validRepresentation_atomic_iff hS, ← hiff]
          simp only [Lists.iff_mem hconstraints, ← hloopIff]
          rw [visitValueRepresentation, hsupertype, Exec.bind_of_ok (Exec.ofExcept_apply _ _)]
          dsimp only
          rw [Exec.bind_of_ok hvisit]
          cases isValidForSupertype with
          | false => exact ⟨false, rfl, by simp⟩
          | true =>
              refine ⟨isValid, ?_, by simp⟩
              simp only [Bool.not_true, Bool.false_eq_true, if_false]
              rw [Exec.bind_of_ok (getConstraints_eq hconstraints)]
              exact hloop
      | _ =>
          obtain ⟨isValid, hvalid⟩ := hresolved.isInternalValueRepresentation value _ hT
          refine ⟨isValid, ?_, ?_⟩
          · rw [visitValueRepresentation, hvalid]
            · rfl
            · simp
          · rw [validRepresentation_iff_of_top (by simp), hvalid]
            simp

/-- The check of a value ends in the context it has started in; it decides whether the value
is a representation of the root and all constraints along the hierarchy accept it. So a valid
value is valid for the value types above too. -/
theorem isValidValueRepresentation_correct (services : ExecutionServices)
    (hresolved : ResolvedHierarchy services.ast) (context : ExecutionContext δ)
    (hkeyword : context.evaluationContext.valueKeywordValue = none) (T : ValueType)
    (hT : IsDefined services.ast T) (value : Value)
    (hdecides : ∀ astNode, Above services.ast T (.atomic astNode) →
      ∀ constraint, Lists services.ast astNode constraint →
        ∃ isAccepted, Decides services context value constraint isAccepted) :
    ∃ isValid,
      isValidValueRepresentation services value T context = some (.ok isValid, context) ∧
      (isValid = true ↔ ValidRepresentation services context value T) ∧
      ∀ S, Above services.ast T S → isValid = true →
        isValidValueRepresentation services value S context = some (.ok true, context) := by
  have hcheck : ∀ U, Above services.ast T U → IsDefined services.ast U → ∃ isValid,
      isValidValueRepresentation services value U context = some (.ok isValid, context) ∧
      (isValid = true ↔ ValidRepresentation services context value U) := by
    intro U hU hdefined
    apply visitValueRepresentation_eq hresolved hkeyword (hresolved.acyclic U hdefined) hdefined
    exact fun astNode habove => hdecides astNode (hU.trans habove)
  obtain ⟨isValid, hvisit, hiff⟩ := hcheck T Relation.ReflTransGen.refl hT
  refine ⟨isValid, hvisit, hiff, ?_⟩
  intro S hS hvalid
  have hdefined : IsDefined services.ast S := by
    cases hS.cases_tail with
    | inl heq => exact heq ▸ hT
    | inr hstep =>
        obtain ⟨U, _, hU⟩ := hstep
        exact hU.isDefined
  obtain ⟨isValidForSupertype, hvisitSupertype, hiffSupertype⟩ := hcheck S hS hdefined
  rw [hiffSupertype.mpr ((hiff.mp hvalid).above hS)] at hvisitSupertype
  exact hvisitSupertype

end Validity

/-- `constraint IsPositive on integer: value > 0;` and a value type `Positive` with it. -/
def positiveServices : ExecutionServices :=
  sampleServices {
    valuetypes := [⟨"integer", true, none, none, none⟩,
      ⟨"Positive", false, some ⟨some 0, []⟩, some [constraintReference 0], none⟩]
    constraints := [.expression "IsPositive" ⟨some 0, []⟩
      (.binaryExpression .greater (.valueKeywordLiteral false) (.numericLiteral 0))]
    transforms := []
    blocks := []
    blockTypes := [] }

theorem eq_one_of_isDefined {astNode : ValuetypeId}
    (h : IsDefined positiveServices.ast (.atomic astNode)) : astNode = 1 := by
  obtain ⟨definition, hdefinition, hcustom⟩ := h
  rcases astNode with _ | _ | astNode
  · cases hdefinition
    cases hcustom
  · rfl
  · cases hdefinition

theorem positive_resolved : ResolvedHierarchy positiveServices.ast where
  acyclic T hT := by
    cases T with
    | atomic astNode =>
        obtain rfl := eq_one_of_isDefined hT
        rfl
    | primitive kind => rfl
    | emptyCollection => rfl
    | collection elementType => rfl
  supertype astNode hT := by
    obtain rfl := eq_one_of_isDefined hT
    exact ⟨Integer, rfl⟩
  constraints astNode hT := by
    obtain rfl := eq_one_of_isDefined hT
    exact ⟨[0], rfl⟩

theorem isValidValueRepresentation_positive :
    ∃ isValid,
      isValidValueRepresentation positiveServices (.number 3) (.atomic 1)
        (construct ageContext : ExecutionContext Unit) =
          some (.ok isValid, construct ageContext) ∧
      (isValid = true ↔ ValidRepresentation positiveServices
        (construct ageContext : ExecutionContext Unit) (.number 3) (.atomic 1)) ∧
      ∀ S, Above positiveServices.ast (.atomic 1) S → isValid = true →
        isValidValueRepresentation positiveServices (.number 3) S
          (construct ageContext : ExecutionContext Unit) =
            some (.ok true, construct ageContext) := by
  apply isValidValueRepresentation_correct positiveServices positive_resolved
    (construct ageContext : ExecutionContext Unit) rfl (.atomic 1) ⟨_, rfl, rfl⟩ (.number 3)
  intro astNode _ constraint hlists
  obtain ⟨constraints, hconstraints, hmem⟩ := hlists
  rcases astNode with _ | _ | astNode
  · cases hconstraints
  · cases hconstraints
    have hconstraint : constraint = 0 := by simpa [constraintReference] using hmem
    subst hconstraint
    exact ⟨true, _, _, rfl, rfl⟩
  · cases hconstraints

end Jayvee
