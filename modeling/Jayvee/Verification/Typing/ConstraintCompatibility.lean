import Jayvee.Model.ValueTypeValidation
import Jayvee.Verification.Execution.Validity
import Jayvee.Verification.Typing.LeastUpperBound
import Jayvee.Verification.Typing.SupertypeCycles
import Mathlib.Algebra.Order.BigOperators.Group.List

/-! # Constraints that suit a value type

The definition of a value type is checked against the value types that its constraints are on.
The check leaves out typed constraints. -/

namespace Jayvee

open Foundation ValueType

/-! ## What should be reported -/

/-- The value type on which a constraint, or its type, is defined. -/
def onReference (ast : Ast) (constraint : ConstraintId) : Option ValueTypeReference :=
  match ast.constraints[constraint]? with
  | some (.typed _ type _) => type.map BuiltinConstrainttypeDefinition.valueType
  | some (.expression _ valueType _) => some valueType
  | none => none

def IsOn (ast : Ast) (constraint : ConstraintId) (T : ValueType) : Prop :=
  ∃ reference, onReference ast constraint = some reference ∧
    ValueType.wrap ast (some reference) = .ok (some T)

section Reports

variable (props : JayveeValidationProps) (values : List Expression) (T : ValueType)
  (onType : ConstraintId → ValueType)

/-- The error about a listed constraint, if the value type is not convertible. -/
def incompatibilityReport (constraint : ConstraintId × Nat) : List Diagnostic :=
  if T.isConvertibleTo props.ast (onType constraint.1) = .ok true then
    []
  else
    [⟨.error, constraintMismatchMessage props T (onType constraint.1) constraint.1,
      { node := .expression (.collectionLiteral values)
        property := some "values"
        index := some constraint.2 }⟩]

/-- What the check reports: typed constraints are left out. -/
def reportWithoutTyped (constraint : ConstraintId × Nat) : List Diagnostic :=
  match props.ast.constraints[constraint.1]? with
  | some (.expression _ _ _) => incompatibilityReport props values T onType constraint
  | _ => []

/-- The errors about generic parameters of the same name. -/
def duplicateGenericsReport (astNode : ValuetypeId) : List Diagnostic :=
  match props.ast.valuetypes[astNode]?.bind ValuetypeDefinition.genericDefinition with
  | none => []
  | some genericDefinition => (getDuplicateGenerics genericDefinition.generics).map fun generic =>
      ⟨.error, s!"Generic parameter {generic.name} is not unique",
        { node := .valuetypeGeneric generic, property := some "name" }⟩

end Reports

/-! ## The list of constraints -/

section Constraints

variable {ast : Ast}

theorem inferCollectionElementTypes_constraints (ast : Ast) (constraints : List ConstraintId) :
    Exec.Logs (inferCollectionElementTypes ast none (constraints.map constraintReference))
      (.ok (constraints.map fun _ => some .Constraint)) [] := by
  induction constraints with
  | nil => exact Exec.Logs.pure _
  | cons constraint constraints ih =>
      have hhead : Exec.Logs (inferExpressionType ast none (constraintReference constraint))
          (.ok (some .Constraint)) [] := by
        rw [constraintReference, inferExpressionType]
        exact Exec.Logs.ofExcept _
      rw [List.map_cons, inferCollectionElementTypes]
      exact hhead.bind (ih.bind (Exec.Logs.pure _))

theorem isConvertibleTo_constraint_iff {T : ValueType} :
    ValueType.Constraint.isConvertibleTo ast T = .ok true ↔ T = .Constraint := by
  rw [isConvertibleTo_iff_own rfl, own_primitive_iff]
  simp

/-- The least upper bound of the types of constraints is that of one of them. -/
theorem inferCollectionType_constraints {types : List ValueType} (hne : types ≠ [])
    (htypes : ∀ E ∈ types, E = .Constraint) (collection : Expression) :
    Exec.Logs (inferCollectionType ast collection types)
      (.ok (some (.collection .Constraint))) [] := by
  have hresolved : ∀ E ∈ types, ∃ root, HasRoot ast (hierarchyDepth ast) E root := by
    intro E hE
    rw [htypes E hE]
    exact ⟨.Constraint, HasRoot.self rfl⟩
  obtain ⟨elementType, hcommon, hinfer⟩ := inferCollectionType_eq hne hresolved collection
  have helement : elementType = some .Constraint := by
    cases elementType with
    | none =>
        apply (hcommon .Constraint ?_).elim
        intro E hE
        rw [htypes E hE]
        exact isConvertibleTo_self _
    | some T =>
        obtain ⟨E, hE⟩ := List.exists_mem_of_ne_nil types hne
        have hconvertible := hcommon.1.upper E hE
        rw [htypes E hE, isConvertibleTo_constraint_iff] at hconvertible
        rw [hconvertible]
  rw [hinfer, helement]
  exact Exec.Logs.pure _

/-- A list of constraints has the type that is expected. -/
theorem inferExpressionType_constraints (ast : Ast) (constraints : List ConstraintId) :
    ∃ T, Exec.Logs (inferExpressionType ast none
        (.collectionLiteral (constraints.map constraintReference))) (.ok (some T)) [] ∧
      T.isConvertibleTo ast (.collection .Constraint) = .ok true := by
  have helements := inferCollectionElementTypes_constraints ast constraints
  have hdefined : isEveryValueDefined (constraints.map fun _ => some ValueType.Constraint) =
      some (constraints.map fun _ => .Constraint) := isEveryValueDefined_eq_some.mpr (by simp)
  rw [inferExpressionType]
  by_cases hnil : constraints = []
  · subst hnil
    exact ⟨.emptyCollection, helements.bind (Exec.Logs.pure _), askSupertypes_of_own rfl⟩
  · refine ⟨.collection .Constraint, helements.bind ?_, isConvertibleTo_self _⟩
    simp only [hdefined]
    exact inferCollectionType_constraints (by simpa using hnil) (by simp) _

theorem evaluateExpression_constraints (runtime : JsRuntime) (env : EvaluationContext)
    (constraints : List ConstraintId) :
    Exec.Logs (evaluateExpression runtime env .lazy
        (.collectionLiteral (constraints.map constraintReference)))
      (.ok (some (.collection (constraints.map .constraint)))) [] := by
  intro d
  have hdefined : isEveryValueDefined
      (constraints.map fun constraint => some (Value.constraint constraint)) =
        some (constraints.map .constraint) := isEveryValueDefined_eq_some.mpr (by simp)
  rw [evaluateExpression]
  simp [Exec.bind_apply, evaluateExpressions_constraintReferences, hdefined]

end Constraints

/-! ## The checks -/

section Checks

variable {props : JayveeValidationProps} {astNode : ValuetypeId} {T : ValueType}
  {constraints : List ConstraintId} {onType : ConstraintId → ValueType}

theorem checkSupertypeCycle_logs
    (hT : wrapDefinition props.ast (some astNode) = .ok (some T))
    (hacyclic : hasSupertypeCycle props.ast (hierarchyDepth props.ast) [] T = .ok false) :
    Exec.Logs (checkSupertypeCycle props astNode) (.ok ()) [] := by
  refine Exec.Logs.ofExcept_bind (a := false) ?_ (Exec.Logs.pure ())
  rw [hT]
  exact hacyclic

/-- Without a cycle, the value type is convertible to another one or not. -/
theorem exists_isConvertibleTo {ast : Ast} (target : ValueType)
    (hacyclic : hasSupertypeCycle ast (hierarchyDepth ast) [] T = .ok false) :
    ∃ isConvertible, T.isConvertibleTo ast target = .ok isConvertible := by
  cases h : T.isConvertibleTo ast target with
  | ok isConvertible => exact ⟨isConvertible, rfl⟩
  | error e =>
      obtain ⟨U, hreach, hU⟩ := askSupertypes_eq_error h
      obtain ⟨S, hS⟩ := doGetSupertype_of_no_cycle hacyclic hreach
      rw [hS] at hU
      cases hU

/-- The check runs through the constraints of the list. -/
theorem checkConstraintsCollectionValues_eq
    (hconstraints : props.ast.valuetypes[astNode]?.bind ValuetypeDefinition.constraints =
      some (constraints.map constraintReference)) :
    checkConstraintsCollectionValues props astNode =
      Exec.forEach constraints.zipIdx fun constraint =>
        checkConstraintMatchesValuetype props astNode
          (.collectionLiteral (constraints.map constraintReference)) constraint.1 constraint.2 := by
  obtain ⟨inferred, hinferred, hconvertible⟩ :=
    inferExpressionType_constraints props.ast constraints
  have hvalues := evaluateExpression_constraints props.runtime props.evaluationContext constraints
  unfold checkConstraintsCollectionValues
  simp only [hconstraints]
  rw [hinferred.bind_eq]
  simp only [hconvertible]
  rw [(Exec.Logs.ofExcept _).bind_eq]
  simp only [Bool.not_true, Bool.false_eq_true, if_false]
  rw [hvalues.bind_eq]
  simp only [Option.bind_some, collectionTypeguard, Option.bind_eq_bind, mapM_constraintTypeguard]

/-- A typed constraint, and whether its type can be wrapped. -/
def IsTypedWith (ast : Ast) (constraint : ConstraintId) (isWrappable : Bool) : Prop :=
  ∃ name type body, ast.constraints[constraint]? = some (.typed name type body) ∧
    ConstraintTypeWrapper.canBeWrapped type = isWrappable

theorem getCompatibleValuetype_typed {constraint : ConstraintId}
    (h : IsTypedWith props.ast constraint true) :
    Exec.Logs (getCompatibleValuetype props constraint) (.ok none) [] := by
  obtain ⟨name, type, body, hconstraint, hwrap⟩ := h
  unfold getCompatibleValuetype
  simp only [hconstraint, hwrap, if_true]
  exact Exec.Logs.pure none

/-- For a constraint type that cannot be wrapped, the check goes on to wrap it. -/
theorem getCompatibleValuetype_unwrappable {constraint : ConstraintId}
    (h : IsTypedWith props.ast constraint false) :
    ∃ e, Exec.Logs (getCompatibleValuetype props constraint) (.error e) [] := by
  obtain ⟨name, type, body, hconstraint, hwrap⟩ := h
  unfold getCompatibleValuetype
  simp only [hconstraint, hwrap, Bool.false_eq_true, if_false]
  cases type with
  | none => exact ⟨_, (Exec.Logs.throw _).bind_error⟩
  | some type =>
      rw [ConstraintTypeWrapper.wrap, if_neg (by simp [hwrap])]
      exact ⟨_, (Exec.Logs.throw _).bind_error⟩

theorem checkConstraintMatchesValuetype_logs
    (hT : wrapDefinition props.ast (some astNode) = .ok (some T))
    (hacyclic : hasSupertypeCycle props.ast (hierarchyDepth props.ast) [] T = .ok false)
    {constraint : ConstraintId} (hon : IsOn props.ast constraint (onType constraint))
    (htyped : ¬ IsTypedWith props.ast constraint false) (index : Nat) (values : List Expression) :
    Exec.Logs (checkConstraintMatchesValuetype props astNode (.collectionLiteral values) constraint
      index) (.ok ()) (reportWithoutTyped props values T onType (constraint, index)) := by
  obtain ⟨reference, hreference, hwrap⟩ := hon
  apply Exec.Logs.ofExcept_bind hT
  cases hconstraint : props.ast.constraints[constraint]? with
  | none => simp [onReference, hconstraint] at hreference
  | some definition =>
      cases definition with
      | typed name type body =>
          have hcompatible : IsTypedWith props.ast constraint true := by
            refine ⟨name, type, body, hconstraint, ?_⟩
            by_contra hwrap
            exact htyped ⟨name, type, body, hconstraint, by simpa using hwrap⟩
          rw [reportWithoutTyped, hconstraint]
          exact (getCompatibleValuetype_typed hcompatible).bind (Exec.Logs.pure ())
      | expression name valueType expression =>
          simp only [onReference, hconstraint, Option.some.injEq] at hreference
          obtain ⟨isConvertible, hconvertible⟩ :=
            exists_isConvertibleTo (onType constraint) hacyclic
          simp only [getCompatibleValuetype, hconstraint, hreference, hwrap, reportWithoutTyped,
            incompatibilityReport, hconvertible]
          rw [(Exec.Logs.ofExcept _).bind_eq]
          apply Exec.Logs.ofExcept_bind hconvertible
          cases isConvertible with
          | true => exact Exec.Logs.pure ()
          | false => exact accept_logs _ _ _

theorem checkGenericsHaveNoDuplicate_logs :
    Exec.Logs (checkGenericsHaveNoDuplicate props astNode) (.ok ())
      (duplicateGenericsReport props astNode) := by
  unfold checkGenericsHaveNoDuplicate duplicateGenericsReport
  cases props.ast.valuetypes[astNode]?.bind ValuetypeDefinition.genericDefinition with
  | none => exact Exec.Logs.pure ()
  | some genericDefinition =>
      dsimp only
      rw [List.map_eq_flatMap]
      exact Exec.Logs.forEach fun generic _ => accept_logs _ _ _

end Checks

/-! ## Validation -/

section Validation

variable (props : JayveeValidationProps) (astNode : ValuetypeId) (T : ValueType)
  (constraints : List ConstraintId) (onType : ConstraintId → ValueType)

/-- The definition of `T` lists the constraints, all of which are on a value type. No value type
above is cyclic. -/
structure IsResolvedDefinition : Prop where
  wraps : wrapDefinition props.ast (some astNode) = .ok (some T)
  acyclic : hasSupertypeCycle props.ast (hierarchyDepth props.ast) [] T = .ok false
  lists : props.ast.valuetypes[astNode]?.bind ValuetypeDefinition.constraints =
    some (constraints.map constraintReference)
  on : ∀ constraint ∈ constraints, IsOn props.ast constraint (onType constraint)

/-- The errors about constraints that do not suit the value type, for all constraints and in
their order. -/
def incompatibilityErrors : List Diagnostic :=
  constraints.zipIdx.flatMap
    (incompatibilityReport props (constraints.map constraintReference) T onType)

variable {props astNode T constraints onType}

/-- What the code reports. -/
theorem validateValueTypeDefinition_logs
    (h : IsResolvedDefinition props astNode T constraints onType)
    (htyped : ∀ constraint ∈ constraints, ¬ IsTypedWith props.ast constraint false) :
    Exec.Logs (validateValueTypeDefinition props astNode) (.ok ())
      (constraints.zipIdx.flatMap
        (reportWithoutTyped props (constraints.map constraintReference) T onType) ++
          duplicateGenericsReport props astNode) := by
  rw [validateValueTypeDefinition, (checkSupertypeCycle_logs h.wraps h.acyclic).bind_eq,
    checkConstraintsCollectionValues_eq h.lists]
  refine Exec.Logs.bind (Exec.Logs.forEach fun constraint hconstraint => ?_)
    checkGenericsHaveNoDuplicate_logs
  have hmem : constraint.1 ∈ constraints := List.fst_mem_of_mem_zipIdx hconstraint
  exact checkConstraintMatchesValuetype_logs h.wraps h.acyclic (h.on _ hmem) (htyped _ hmem) _ _

/-- The check returns only if all listed constraint types can be wrapped. -/
theorem not_isTypedWith_of_returns
    (h : IsResolvedDefinition props astNode T constraints onType)
    {diagnostics diagnostics' : List Diagnostic}
    (hreturns : validateValueTypeDefinition props astNode diagnostics =
      some (.ok (), diagnostics')) {constraint : ConstraintId}
    (hmem : constraint ∈ constraints) : ¬ IsTypedWith props.ast constraint false := by
  rw [validateValueTypeDefinition, (checkSupertypeCycle_logs h.wraps h.acyclic).bind_eq,
    checkConstraintsCollectionValues_eq h.lists] at hreturns
  obtain ⟨_, _, hloop, _⟩ := Exec.bind_eq_ok_iff.mp hreturns
  obtain ⟨index, hindex⟩ := List.mem_iff_getElem?.mp hmem
  obtain ⟨_, _, hcheck⟩ := Exec.exists_of_mem_forEach hloop
    (List.mk_mem_zipIdx_iff_getElem?.mpr hindex)
  rw [checkConstraintMatchesValuetype, h.wraps, (Exec.Logs.ofExcept _).bind_eq] at hcheck
  obtain ⟨_, _, hcompatible, _⟩ := Exec.bind_eq_ok_iff.mp hcheck
  intro htyped
  obtain ⟨e, herror⟩ := getCompatibleValuetype_unwrappable htyped
  rw [herror] at hcompatible
  cases hcompatible

/-- A typed constraint is suitable if its type can be wrapped and the value type is convertible
to the one it is on. -/
def TypedConstraintsSuit (props : JayveeValidationProps) (T : ValueType)
    (constraints : List ConstraintId) (onType : ConstraintId → ValueType) : Prop :=
  ∀ constraint ∈ constraints, ∀ isWrappable, IsTypedWith props.ast constraint isWrappable →
    isWrappable = true ∧ T.isConvertibleTo props.ast (onType constraint) = .ok true

/-- Lists of reports are the same only if the reports are, where one is never longer. -/
theorem eq_of_flatMap_eq {α β : Type} {f g : α → List β} {xs : List α}
    (hle : ∀ x ∈ xs, (f x).length ≤ (g x).length) (h : xs.flatMap f = xs.flatMap g) :
    ∀ x ∈ xs, f x = g x := by
  induction xs with
  | nil => simp
  | cons x xs ih =>
      rw [List.forall_mem_cons] at hle ⊢
      rw [List.flatMap_cons, List.flatMap_cons] at h
      have hrest : (xs.flatMap f).length ≤ (xs.flatMap g).length := by
        rw [List.length_flatMap, List.length_flatMap]
        exact List.sum_le_sum hle.2
      have hlength := congrArg List.length h
      rw [List.length_append, List.length_append] at hlength
      have hhead : (f x).length = (g x).length := by
        have hx := hle.1
        omega
      obtain ⟨hx, hxs⟩ := List.append_inj h hhead
      exact ⟨hx, ih hle.2 hxs⟩

theorem reportWithoutTyped_typed {constraint : ConstraintId × Nat} {isWrappable : Bool}
    (h : IsTypedWith props.ast constraint.1 isWrappable) (values : List Expression) :
    reportWithoutTyped props values T onType constraint = [] := by
  obtain ⟨name, type, body, hconstraint, _⟩ := h
  simp [reportWithoutTyped, hconstraint]

theorem incompatibilityReport_eq_nil_iff {constraint : ConstraintId × Nat}
    {values : List Expression} :
    incompatibilityReport props values T onType constraint = [] ↔
      T.isConvertibleTo props.ast (onType constraint.1) = .ok true := by
  rw [incompatibilityReport]
  split_ifs with h <;> simp [h]

/-- Only the reports about typed constraints differ. -/
theorem reportWithoutTyped_cases {constraint : ConstraintId × Nat} (values : List Expression)
    (hon : IsOn props.ast constraint.1 (onType constraint.1)) :
    (∃ isWrappable, IsTypedWith props.ast constraint.1 isWrappable) ∨
      reportWithoutTyped props values T onType constraint =
        incompatibilityReport props values T onType constraint := by
  obtain ⟨reference, hreference, _⟩ := hon
  cases hconstraint : props.ast.constraints[constraint.1]? with
  | none => simp [onReference, hconstraint] at hreference
  | some definition =>
      cases definition with
      | typed name type body => exact .inl ⟨_, name, type, body, hconstraint, rfl⟩
      | expression name valueType expression => exact .inr (by simp [reportWithoutTyped, hconstraint])

/-- The errors are those about the listed constraints that do not suit the value type, if and
only if all typed ones do. -/
theorem validateValueTypeDefinition_iff
    (h : IsResolvedDefinition props astNode T constraints onType) :
    Exec.Logs (validateValueTypeDefinition props astNode) (.ok ())
        (incompatibilityErrors props T constraints onType ++
          duplicateGenericsReport props astNode) ↔
      TypedConstraintsSuit props T constraints onType := by
  have hmem : ∀ constraint ∈ constraints.zipIdx, constraint.1 ∈ constraints :=
    fun _ => List.fst_mem_of_mem_zipIdx
  constructor
  · intro hlogs
    have htyped : ∀ constraint ∈ constraints, ¬ IsTypedWith props.ast constraint false :=
      fun _ => not_isTypedWith_of_returns h (hlogs [])
    have hsame := ((validateValueTypeDefinition_logs h htyped).unique hlogs).2
    have hreports := eq_of_flatMap_eq (fun constraint hconstraint => ?_)
      (List.append_cancel_right hsame)
    · intro constraint hconstraint isWrappable hisTyped
      obtain ⟨index, hindex⟩ := List.mem_iff_getElem?.mp hconstraint
      have hreport := hreports _ (List.mk_mem_zipIdx_iff_getElem?.mpr hindex)
      rw [reportWithoutTyped_typed hisTyped] at hreport
      refine ⟨?_, incompatibilityReport_eq_nil_iff.mp hreport.symm⟩
      cases isWrappable with
      | true => rfl
      | false => exact (htyped constraint hconstraint hisTyped).elim
    · cases reportWithoutTyped_cases (T := T) (constraints.map constraintReference)
          (h.on _ (hmem constraint hconstraint)) with
      | inl hisTyped =>
          obtain ⟨isWrappable, hisTyped⟩ := hisTyped
          simp [reportWithoutTyped_typed hisTyped]
      | inr heq => rw [heq]
  · intro hsuit
    have htyped : ∀ constraint ∈ constraints, ¬ IsTypedWith props.ast constraint false := by
      intro constraint hconstraint hisTyped
      cases (hsuit constraint hconstraint false hisTyped).1
    have hreports : constraints.zipIdx.flatMap
        (reportWithoutTyped props (constraints.map constraintReference) T onType) =
          incompatibilityErrors props T constraints onType := by
      apply List.flatMap_congr
      intro constraint hconstraint
      cases reportWithoutTyped_cases (T := T) (constraints.map constraintReference)
          (h.on _ (hmem constraint hconstraint)) with
      | inl hisTyped =>
          obtain ⟨isWrappable, hisTyped⟩ := hisTyped
          have hconvertible := (hsuit _ (hmem constraint hconstraint) _ hisTyped).2
          rw [reportWithoutTyped_typed hisTyped, incompatibilityReport_eq_nil_iff.mpr hconvertible]
      | inr heq => exact heq
    rw [← hreports]
    exact validateValueTypeDefinition_logs h htyped

end Validation

/-- `constraint Short oftype LengthConstraint`, on texts, `constraint Small on text: true`, and a
value type of integers that lists the constraints. -/
def shortProps (constraints : List ConstraintId) : JayveeValidationProps :=
  { sampleProps with
    ast := {
      valuetypes := [⟨"integer", true, none, none, none⟩, ⟨"text", true, none, none, none⟩,
        ⟨"Age", false, some ⟨some 0, []⟩, some (constraints.map constraintReference), none⟩]
      constraints := [.typed "Short" (some ⟨"LengthConstraint", ⟨some 1, []⟩, []⟩) [],
        .expression "Small" ⟨some 1, []⟩ (.booleanLiteral true)]
      transforms := []
      blocks := []
      blockTypes := [] } }

theorem shortProps_resolved (constraints : List ConstraintId)
    (h : ∀ constraint ∈ constraints, constraint = 0 ∨ constraint = 1) :
    IsResolvedDefinition (shortProps constraints) 2 (.atomic 2) constraints fun _ => .Text where
  wraps := rfl
  acyclic := rfl
  lists := rfl
  on constraint hconstraint := by
    obtain rfl | rfl := h constraint hconstraint
    · exact ⟨_, rfl, rfl⟩
    · exact ⟨_, rfl, rfl⟩

theorem validateValueTypeDefinition_iff_small :
    Exec.Logs (validateValueTypeDefinition (shortProps [1]) 2) (.ok ())
      (incompatibilityErrors (shortProps [1]) (.atomic 2) [1] (fun _ => .Text) ++
        duplicateGenericsReport (shortProps [1]) 2) := by
  refine (validateValueTypeDefinition_iff (shortProps_resolved [1] (by simp))).mpr ?_
  intro constraint hconstraint isWrappable htyped
  obtain rfl := List.mem_singleton.mp hconstraint
  obtain ⟨name, type, body, hdefinition, _⟩ := htyped
  cases hdefinition

/-- Nothing is reported about a constraint on texts. -/
theorem validateValueTypeDefinition_short :
    validateValueTypeDefinition (shortProps [0]) 2 [] = some (.ok (), []) ∧
      IsOn (shortProps [0]).ast 0 .Text ∧
      (ValueType.atomic 2).isConvertibleTo (shortProps [0]).ast .Text = .ok false ∧
      (incompatibilityErrors (shortProps [0]) (.atomic 2) [0] fun _ => .Text).length = 1 ∧
      ¬ Exec.Logs (validateValueTypeDefinition (shortProps [0]) 2) (.ok ())
        (incompatibilityErrors (shortProps [0]) (.atomic 2) [0] (fun _ => .Text) ++
          duplicateGenericsReport (shortProps [0]) 2) := by
  have hrun : validateValueTypeDefinition (shortProps [0]) 2 [] = some (.ok (), []) := rfl
  refine ⟨hrun, ⟨_, rfl, rfl⟩, rfl, rfl, ?_⟩
  intro h
  have hempty := congrArg Prod.snd (Option.some.inj ((h []).symm.trans hrun))
  cases (List.append_eq_nil_iff.mp ((List.nil_append _).symm.trans hempty)).1

end Jayvee
