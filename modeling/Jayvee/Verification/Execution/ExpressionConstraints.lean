import Jayvee.Verification.Evaluation.ThrownErrors
import Jayvee.Verification.Execution.ContextFree

/-! # The outcome of expression constraints -/

namespace Jayvee

open Foundation ExecutionContext ValueType

variable {δ : Type}

/-! ## References of closed expressions -/

/-- The node is not a variable. -/
def Referencable.IsConstant : Referencable → Prop
  | .transformPortDefinition _ => False
  | .blockTypeProperty _ _ => False
  | _ => True

mutual

theorem Expression.IsClosed.isConstant : ∀ {e : Expression}, e.IsClosed →
    ∀ referenced ∈ e.references, referenced.IsConstant
  | .referenceLiteral none, _ => by simp [Expression.references]
  | .referenceLiteral (some value), hclosed => by
      cases value with
      | transformPortDefinition port => exact False.elim hclosed
      | blockTypeProperty name valueType => exact False.elim hclosed
      | _ => simp [Expression.references, Referencable.IsConstant]
  | .collectionLiteral values, hclosed =>
      have hvalues : AreClosed values := hclosed
      hvalues.isConstant
  | .unaryExpression _ expression, hclosed =>
      have hexpression : expression.IsClosed := hclosed
      hexpression.isConstant
  | .binaryExpression _ _ _, hclosed =>
      List.forall_mem_append.mpr ⟨hclosed.1.isConstant, hclosed.2.isConstant⟩
  | .ternaryExpression _ _ _ _, hclosed =>
      List.forall_mem_append.mpr
        ⟨List.forall_mem_append.mpr ⟨hclosed.1.isConstant, hclosed.2.1.isConstant⟩,
          hclosed.2.2.isConstant⟩
  | .textLiteral _, _ | .numericLiteral _, _ | .booleanLiteral _, _ | .regexLiteral _, _
  | .cellRangeLiteral _, _ | .valuetypeAssignmentLiteral _, _ | .valueKeywordLiteral _, _ => by
      simp [Expression.references]

theorem AreClosed.isConstant : ∀ {es : List Expression}, AreClosed es →
    ∀ referenced ∈ Expression.referencesOfList es, referenced.IsConstant
  | [], _ => by simp [Expression.referencesOfList]
  | _ :: _, hclosed =>
      List.forall_mem_append.mpr ⟨hclosed.1.isConstant, hclosed.2.isConstant⟩

end

/-! ## Constraints that the validation accepts -/

/-- The expression of the constraint refers to no variable, and its type is that of a condition. -/
structure ValidatedConstraint (ast : Ast) (constraint : ConstraintId)
    (valueType : ValueTypeReference) (onType : ValueType) (expression : Expression) : Prop where
  definition : ∃ name, ast.constraints[constraint]? = some (.expression name valueType expression)
  onType : wrap ast valueType = .ok (some onType)
  closed : expression.IsClosed
  condition : ∃ T, Exec.Yields (inferExpressionType ast (some valueType) expression) (.ok (some T)) ∧
    T.isConvertibleTo ast .Boolean = .ok true

/-- The evaluation context while the value is checked. -/
abbrev keywordContext (context : ExecutionContext δ) (value : Value) : EvaluationContext :=
  context.evaluationContext.setValueForValueKeyword value

/-- The context after a value was checked. -/
def checkedContext (context : ExecutionContext δ) : ExecutionContext δ :=
  { context with evaluationContext := context.evaluationContext.deleteValueForValueKeyword }

theorem checkedContext_entered (context : ExecutionContext δ) (node : StackNode) :
    checkedContext (entered context node) = entered (checkedContext context) node :=
  rfl

section Constraints

variable {services : ExecutionServices} {context : ExecutionContext δ} {value : Value}
  {constraint : ConstraintId} {valueType : ValueTypeReference} {onType : ValueType}
  {expression : Expression}

theorem ValidatedConstraint.wellTyped
    (h : ValidatedConstraint services.ast constraint valueType onType expression)
    (context : ExecutionContext δ) (hvalue : HasType services.ast onType value) :
    WellTyped services.ast (some valueType) (keywordContext context value) expression.references where
  port _ hport := (h.closed.isConstant _ hport).elim
  property _ _ hproperty := (h.closed.isConstant _ hproperty).elim
  valueKeyword valueType' hvalueType T v hT hv := by
    cases hvalueType
    cases hv
    cases h.onType.symm.trans hT
    exact hvalue

/-! ## One check -/

theorem evaluateExpressionSilently_of_yields {σ : Type} {runtime : JsRuntime}
    {env : EvaluationContext} {r : Except JsError (Option Value)}
    (h : Exec.Yields (evaluateExpression runtime env .lazy expression) r) (s : σ) :
    evaluateExpressionSilently runtime env expression s = some (r, s) := by
  obtain ⟨log, hlog⟩ := h
  rw [evaluateExpressionSilently, Exec.isolate, hlog []]
  rfl

theorem ValidatedConstraint.isValid_of_canBeEvaluated
    (h : ValidatedConstraint services.ast constraint valueType onType expression)
    (context : ExecutionContext δ) (hvalue : HasType services.ast onType value)
    (hevaluable : CanBeEvaluated services.runtime (keywordContext context value) .lazy expression) :
    ∃ isValid, meaning services.runtime (keywordContext context value) .lazy expression =
        some (.boolean isValid) ∧
      ExpressionConstraintExecutor.isValid services expression value context =
        some (.ok isValid, checkedContext context) := by
  obtain ⟨T, hyields, hT⟩ := h.condition
  obtain ⟨log, hinfer⟩ := hyields
  have henv := h.wellTyped context hvalue
  obtain ⟨result, hresult, hevaluate⟩ := hevaluable.yields henv (hinfer [])
  have hsound : (Reading.blind services.runtime).HasType services.ast T result := by
    obtain ⟨log, hlog⟩ := hevaluate
    exact evaluateExpression_sound_blind henv (hinfer []) _ _ _ (hlog [])
  obtain ⟨isValid, hboolean⟩ := booleanTypeguard_of_hasType hT result hsound
  obtain rfl := booleanTypeguard_eq_some_iff.mp hboolean
  refine ⟨isValid, hresult, ?_⟩
  unfold ExpressionConstraintExecutor.isValid setValueForValueKeyword
  rw [Exec.bind_of_ok (Exec.modify_apply _ _), Exec.bind_of_ok (Exec.get_apply _),
    Exec.bind_of_ok (evaluateExpressionSilently_of_yields hevaluate _)]
  rfl

theorem ValidatedConstraint.isValid_throws
    (h : ValidatedConstraint services.ast constraint valueType onType expression)
    (context : ExecutionContext δ) (hvalue : HasType services.ast onType value)
    (hundefined :
      ¬ CanBeEvaluated services.runtime (keywordContext context value) .lazy expression) :
    ∃ error after, ExpressionConstraintExecutor.isValid services expression value context =
      some (.error error, after) := by
  obtain ⟨T, hyields, _⟩ := h.condition
  obtain ⟨log, hinfer⟩ := hyields
  have henv := h.wellTyped context hvalue
  unfold ExpressionConstraintExecutor.isValid setValueForValueKeyword
  rw [Exec.bind_of_ok (Exec.modify_apply _ _), Exec.bind_of_ok (Exec.get_apply _)]
  cases evaluateExpression_of_not_canBeEvaluated henv (hinfer []) hundefined with
  | inl hnone =>
      rw [Exec.bind_of_ok (evaluateExpressionSilently_of_yields hnone _)]
      exact ⟨_, _, rfl⟩
  | inr hthrows =>
      obtain ⟨error, herror⟩ := hthrows
      exact ⟨_, _, Exec.bind_of_error (evaluateExpressionSilently_of_yields herror _)⟩

/-! ## The check among those of a value type -/

/-- The value is accepted if the expression can be evaluated and means `true`; no value is checked
any more, and the stack is the one of the beginning. -/
structure ChecksValue (services : ExecutionServices) (expression : Expression) (value : Value)
    (context : ExecutionContext δ) (isValid : Bool) (after : ExecutionContext δ) : Prop where
  isValid_iff : isValid = true ↔
    CanBeEvaluated services.runtime (keywordContext context value) .lazy expression ∧
      meaning services.runtime (keywordContext context value) .lazy expression =
        some (.boolean true)
  keyword : after.evaluationContext.valueKeywordValue = none
  stack_eq : after.stack = context.stack

/-- The constraint decides about the value and leaves nothing behind. -/
def IsTotalFor (services : ExecutionServices) (constraint : ConstraintId)
    (expression : Expression) (value : Value) (context : ExecutionContext δ) : Prop :=
  ∃ isValid after,
    fulfillsConstraints services value [constraint] context = some (.ok isValid, after) ∧
      ChecksValue services expression value context isValid after

theorem ValidatedConstraint.createConstraintExecutor
    (h : ValidatedConstraint services.ast constraint valueType onType expression) :
    Jayvee.createConstraintExecutor services constraint =
      .ok (ExpressionConstraintExecutor.isValid services expression : ConstraintExecutor δ) := by
  obtain ⟨name, hdefinition⟩ := h.definition
  rw [Jayvee.createConstraintExecutor, hdefinition]

theorem ValidatedConstraint.not_isTotalFor
    (h : ValidatedConstraint services.ast constraint valueType onType expression)
    (hvalue : HasType services.ast onType value)
    (hundefined :
      ¬ CanBeEvaluated services.runtime (keywordContext context value) .lazy expression) :
    ¬ IsTotalFor services constraint expression value context := by
  rintro ⟨isValid, after, hrun, _⟩
  obtain ⟨error, before, herror⟩ :=
    h.isValid_throws (entered context (.constraint constraint)) hvalue hundefined
  rw [fulfillsConstraints_cons h.createConstraintExecutor, Exec.bind_of_error herror] at hrun
  cases hrun

/-- A constraint that was validated decides about a value of its type, and cleans up, if and only
if its expression can be evaluated for the value. -/
theorem expressionConstraint_isTotal_iff (services : ExecutionServices)
    (constraint : ConstraintId) (valueType : ValueTypeReference) (onType : ValueType)
    (expression : Expression)
    (h : ValidatedConstraint services.ast constraint valueType onType expression) (value : Value)
    (hvalue : HasType services.ast onType value) (context : ExecutionContext δ) :
    IsTotalFor services constraint expression value context ↔
      CanBeEvaluated services.runtime (keywordContext context value) .lazy expression := by
  constructor
  · intro htotal
    by_contra hundefined
    exact h.not_isTotalFor hvalue hundefined htotal
  · intro hevaluable
    obtain ⟨isValid, hmeaning, hcheck⟩ := h.isValid_of_canBeEvaluated
      (entered context (.constraint constraint)) hvalue hevaluable
    have hrun : fulfillsConstraints services value [constraint] context =
        some (.ok isValid, checkedContext context) := by
      rw [fulfillsConstraints_cons h.createConstraintExecutor, Exec.bind_of_ok hcheck,
        checkedContext_entered, Exec.bind_of_ok (exitNode_entered _)]
      cases isValid <;> rfl
    replace hmeaning : meaning services.runtime (keywordContext context value) .lazy expression =
        some (.boolean isValid) := hmeaning
    refine ⟨isValid, _, hrun, ⟨?_, rfl, rfl⟩⟩
    simp [hmeaning, hevaluable]

end Constraints

/-- `1 / value > 0`. -/
def positiveReciprocal : Expression :=
  .binaryExpression .greater
    (.binaryExpression .divide (.numericLiteral 1) (.valueKeywordLiteral false))
    (.numericLiteral 0)

/-- `constraint HasPositiveReciprocal on decimal: 1 / value > 0;` -/
def reciprocalServices : ExecutionServices :=
  sampleServices {
    valuetypes := [⟨"decimal", true, none, none, none⟩]
    constraints := [.expression "HasPositiveReciprocal" ⟨some 0, []⟩ positiveReciprocal]
    transforms := []
    blocks := []
    blockTypes := [] }

theorem positiveReciprocal_validated :
    ValidatedConstraint reciprocalServices.ast 0 ⟨some 0, []⟩ Decimal positiveReciprocal where
  definition := ⟨_, rfl⟩
  onType := rfl
  closed := by simp [positiveReciprocal, Expression.IsClosed]
  condition := ⟨Boolean, ⟨[], fun _ => by simp [positiveReciprocal]; rfl⟩, rfl⟩

theorem expressionConstraint_isTotal_half :
    IsTotalFor reciprocalServices 0 positiveReciprocal (.number 2)
      (construct ageContext : ExecutionContext Unit) := by
  refine (expressionConstraint_isTotal_iff reciprocalServices 0 ⟨some 0, []⟩ Decimal
    positiveReciprocal positiveReciprocal_validated (.number 2) (hasType_decimal_iff.mpr rfl) _).mpr ?_
  have hfinite : (JsNumber.div sampleNearest 1 2).isFinite = true := by decide +kernel
  refine ⟨⟨⟨trivial, fun _ => trivial, ?_⟩, fun _ => trivial, fun _ _ _ _ => trivial⟩, ?_⟩
  · rintro x y ⟨⟩ ⟨⟩
    exact .inl hfinite
  · rw [Option.ne_none_iff_isSome]
    decide +kernel

theorem not_expressionConstraint_isTotal_zero :
    ¬ ∀ (services : ExecutionServices) (constraint : ConstraintId)
      (valueType : ValueTypeReference) (onType : ValueType) (expression : Expression),
      ValidatedConstraint services.ast constraint valueType onType expression →
      ∀ (value : Value), HasType services.ast onType value →
      ∀ (context : ExecutionContext Unit),
        IsTotalFor services constraint expression value context := by
  intro h
  have htotal := h reciprocalServices 0 ⟨some 0, []⟩ Decimal positiveReciprocal
    positiveReciprocal_validated (.number 0) (hasType_decimal_iff.mpr rfl) (construct ageContext)
  refine positiveReciprocal_validated.not_isTotalFor (hasType_decimal_iff.mpr rfl) ?_ htotal
  intro hevaluable
  exact hevaluable.defined rfl

end Jayvee
