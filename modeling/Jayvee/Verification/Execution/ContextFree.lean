import Jayvee.Verification.Execution.Validity

/-! # Validity does not depend on the context

Constraints and value types are defined where no variable is in scope, so that their values are
the same in every context that has the same runtime parameters. -/

namespace Jayvee

open Foundation ExecutionContext

variable {δ : Type}

/-! ## Closed definitions -/

mutual

/-- The expression refers to no port of a transform and to no property of a block type. -/
def Expression.IsClosed : Expression → Prop
  | .referenceLiteral (some (.transformPortDefinition _)) => False
  | .referenceLiteral (some (.blockTypeProperty _ _)) => False
  | .collectionLiteral values => AreClosed values
  | .unaryExpression _ expression => expression.IsClosed
  | .binaryExpression _ left right => left.IsClosed ∧ right.IsClosed
  | .ternaryExpression _ first second third => first.IsClosed ∧ second.IsClosed ∧ third.IsClosed
  | _ => True

def AreClosed : List Expression → Prop
  | [] => True
  | value :: values => value.IsClosed ∧ AreClosed values

end

def PropertyValue.IsClosed : PropertyValue → Prop
  | .expression value => value.IsClosed
  | .runtimeParameter _ => True

def ConstraintDefinition.IsClosed : ConstraintDefinition → Prop
  | .typed _ _ body => ∀ property ∈ body, property.value.IsClosed
  | .expression _ _ condition => condition.IsClosed

/-- References in constraints and value types are resolved in the scope of the document or of a
pipeline, where only constraints and transforms can be found. -/
structure ClosedDefinitions (ast : Ast) : Prop where
  constraints : ∀ definition ∈ ast.constraints, definition.IsClosed
  valuetypes : ∀ definition ∈ ast.valuetypes, ∀ constraints ∈ definition.constraints,
    AreClosed constraints

/-! ## Expressions -/

/-- The contexts have the same runtime parameters and value keyword. -/
structure SameParameters (env env' : EvaluationContext) : Prop where
  provider : env'.runtimeParameterProvider = env.runtimeParameterProvider
  keyword : env'.valueKeywordValue = env.valueKeywordValue

section Expressions

variable {runtime : JsRuntime} {env env' : EvaluationContext} {strategy : EvaluationStrategy}

mutual

theorem evaluateExpression_eq (h : SameParameters env env') :
    ∀ (expression : Expression), expression.IsClosed →
      evaluateExpression runtime env' strategy expression =
        evaluateExpression runtime env strategy expression
  | .referenceLiteral none, _ => rfl
  | .referenceLiteral (some (.constraintDefinition _)), _ => rfl
  | .referenceLiteral (some (.transformDefinition _)), _ => rfl
  | .valueKeywordLiteral lengthAccess, _ => by
      rw [evaluateExpression, evaluateExpression, EvaluationContext.getValueForValueKeyword,
        EvaluationContext.getValueForValueKeyword, h.keyword]
  | .collectionLiteral values, hclosed => by
      rw [evaluateExpression, evaluateExpression, evaluateExpressions_eq h values hclosed]
  | .unaryExpression _ expression, hclosed => by
      rw [evaluateExpression, evaluateExpression, evaluateExpression_eq h expression hclosed]
  | .binaryExpression _ left right, hclosed => by
      rw [evaluateExpression, evaluateExpression, evaluateExpression_eq h left hclosed.1,
        evaluateExpression_eq h right hclosed.2]
  | .ternaryExpression _ first second third, hclosed => by
      rw [evaluateExpression, evaluateExpression, evaluateExpression_eq h first hclosed.1,
        evaluateExpression_eq h second hclosed.2.1, evaluateExpression_eq h third hclosed.2.2]
  | .textLiteral _, _ | .numericLiteral _, _ | .booleanLiteral _, _ | .regexLiteral _, _
  | .cellRangeLiteral _, _ | .valuetypeAssignmentLiteral _, _ => rfl

theorem evaluateExpressions_eq (h : SameParameters env env') :
    ∀ (values : List Expression), AreClosed values →
      evaluateExpressions runtime env' strategy values =
        evaluateExpressions runtime env strategy values
  | [], _ => rfl
  | value :: values, hclosed => by
      rw [evaluateExpressions, evaluateExpressions, evaluateExpression_eq h value hclosed.1,
        evaluateExpressions_eq h values hclosed.2]

end

end Expressions

/-! ## Constraints -/

/-- No value is checked, and the runtime parameters are the given ones. -/
structure Idle (provider : RuntimeParameterProvider) (context : ExecutionContext δ) : Prop where
  provider : context.evaluationContext.runtimeParameterProvider = provider
  keyword : context.evaluationContext.valueKeywordValue = none

section Constraints

variable {services : ExecutionServices} {context context' : ExecutionContext δ}
variable {provider : RuntimeParameterProvider} {value : Value}

theorem Idle.sameParameters (h : Idle provider context) (h' : Idle provider context') :
    SameParameters context.evaluationContext context'.evaluationContext :=
  ⟨h'.provider.trans h.provider.symm, h'.keyword.trans h.keyword.symm⟩

theorem evaluateExpressionSilently_eq {σ : Type} {runtime : JsRuntime}
    {env env' : EvaluationContext} (h : SameParameters env env') {expression : Expression}
    (hclosed : expression.IsClosed) :
    (evaluateExpressionSilently runtime env' expression : Exec σ JsError (Option Value)) =
      evaluateExpressionSilently runtime env expression := by
  rw [evaluateExpressionSilently, evaluateExpressionSilently, evaluateExpression_eq h _ hclosed]

theorem evaluatePropertyValue_eq {σ : Type} {ast : Ast} {runtime : JsRuntime}
    {property : PropertyAssignment} {env env' : EvaluationContext} {valueType : ValueType}
    (h : SameParameters env env') (hclosed : property.value.IsClosed) :
    (evaluatePropertyValue ast runtime property env' valueType : Exec σ JsError (Option Value)) =
      evaluatePropertyValue ast runtime property env valueType := by
  rw [evaluatePropertyValue, evaluatePropertyValue, h.provider]
  cases hvalue : property.value with
  | runtimeParameter name => rfl
  | expression expression =>
      rw [hvalue] at hclosed
      simp only [evaluateExpressionSilently_eq h hclosed]

theorem ClosedDefinitions.constraint (hclosed : ClosedDefinitions services.ast)
    {constraint : ConstraintId} {definition : ConstraintDefinition}
    (h : services.ast.constraints[constraint]? = some definition) : definition.IsClosed :=
  hclosed.constraints definition (List.mem_of_getElem? h)

theorem sameProperties_entered (hclosed : ClosedDefinitions services.ast)
    (h : Idle provider context) (h' : Idle provider context') (constraint : ConstraintId) :
    SameProperties services (entered context (.constraint constraint))
      (entered context' (.constraint constraint)) := by
  have hnode : ∀ context : ExecutionContext δ,
      (entered context (.constraint constraint)).stack.getLast? = some (.constraint constraint) :=
    fun context => List.getLast?_concat
  refine ⟨(hnode context').trans (hnode context).symm, ?_⟩
  intro body hbody property hproperty valueType
  rw [hnode, propertyBody] at hbody
  refine (evaluatePropertyValue_eq (h.sameParameters h') ?_).symm
  split at hbody
  · rename_i name type body' hdefinition
    cases hbody
    exact hclosed.constraint hdefinition property hproperty
  · cases hbody

/-- The condition of a constraint sees the value as keyword, and nothing else of the context. -/
theorem expressionConstraint_of_idle {expression : Expression} (hclosed : expression.IsClosed)
    (h : Idle provider context) (h' : Idle provider context') {isAccepted : Bool}
    {after : ExecutionContext δ}
    (hrun : ExpressionConstraintExecutor.isValid services expression value context =
      some (.ok isAccepted, after)) :
    ∃ after', ExpressionConstraintExecutor.isValid services expression value context' =
      some (.ok isAccepted, after') := by
  have hsame : SameParameters (context.evaluationContext.setValueForValueKeyword value)
      (context'.evaluationContext.setValueForValueKeyword value) :=
    ⟨h'.provider.trans h.provider.symm, rfl⟩
  unfold ExpressionConstraintExecutor.isValid setValueForValueKeyword at hrun ⊢
  rw [Exec.bind_of_ok (Exec.modify_apply _ _), Exec.bind_of_ok (Exec.get_apply _)] at hrun ⊢
  dsimp only at hrun ⊢
  obtain ⟨result, before, hresult, hrun⟩ := Exec.bind_eq_ok_iff.mp hrun
  have hresult' : evaluateExpressionSilently services.runtime
        (context.evaluationContext.setValueForValueKeyword value) expression
        { context' with
          evaluationContext := context'.evaluationContext.setValueForValueKeyword value } =
      some (.ok result, _) := (evaluateExpressionSilently_agrees _ _ _).eq_some hresult
  rw [← evaluateExpressionSilently_eq hsame hclosed] at hresult'
  rw [Exec.bind_of_ok hresult']
  split at hrun
  · unfold deleteValueForValueKeyword at hrun ⊢
    rw [Exec.bind_of_ok (Exec.modify_apply _ _)] at hrun ⊢
    cases hrun
    exact ⟨_, rfl⟩
  · cases hrun

theorem Decides.of_idle (hclosed : ClosedDefinitions services.ast) (h : Idle provider context)
    (h' : Idle provider context') {constraint : ConstraintId} {isAccepted : Bool}
    (hdecides : Decides services context value constraint isAccepted) :
    Decides services context' value constraint isAccepted := by
  obtain ⟨constraintExecutor, after, hcreate, hrun⟩ := hdecides
  cases createConstraintExecutor_cases services hcreate with
  | inl hagrees =>
      have hsame := sameProperties_entered hclosed h h' constraint
      exact ⟨constraintExecutor, _, hcreate, (hagrees value _ _ hsame).eq_some hrun⟩
  | inr hexpression =>
      obtain ⟨_, _, expression, hdefinition, rfl⟩ := hexpression
      have hentered : Idle provider (entered context (.constraint constraint)) :=
        ⟨h.provider, h.keyword⟩
      have hentered' : Idle provider (entered context' (.constraint constraint)) :=
        ⟨h'.provider, h'.keyword⟩
      obtain ⟨after', hrun'⟩ := expressionConstraint_of_idle (hclosed.constraint hdefinition)
        hentered hentered' hrun
      exact ⟨_, after', hcreate, hrun'⟩

/-- A loop over constraints that ends has left the context as it was. -/
theorem fulfillsConstraints_eq_ok (hkeyword : context.evaluationContext.valueKeywordValue = none)
    {constraints : List ConstraintId} {isValid : Bool} {after : ExecutionContext δ}
    (h : fulfillsConstraints services value constraints context = some (.ok isValid, after)) :
    after = context := by
  induction constraints with
  | nil =>
      cases h
      rfl
  | cons constraint constraints ih =>
      rw [fulfillsConstraints] at h
      obtain ⟨constraintExecutor, _, hcreate, h⟩ := Exec.bind_eq_ok_iff.mp h
      cases hcreate' : createConstraintExecutor services constraint with
      | error e =>
          rw [hcreate'] at hcreate
          cases hcreate
      | ok constraintExecutor' =>
          rw [hcreate'] at hcreate
          cases hcreate
          rw [Exec.bind_of_ok (enterNode_eq _ _)] at h
          obtain ⟨isAccepted, before, hrun, h⟩ := Exec.bind_eq_ok_iff.mp h
          obtain rfl := constraintExecutor_eq_ok (by exact hkeyword) hcreate' hrun
          rw [Exec.bind_of_ok (exitNode_entered _)] at h
          cases isAccepted with
          | false =>
              cases h
              rfl
          | true => exact ih h

end Constraints

/-! ## Value types -/

section Validity

variable {services : ExecutionServices} {context context' after : ExecutionContext δ}
variable {provider : RuntimeParameterProvider} {value : Value}

theorem getConstraints_of_idle (hclosed : ClosedDefinitions services.ast)
    (h : Idle provider context) (h' : Idle provider context') (valueType : ValuetypeId) :
    Exec.Agrees (getConstraints services valueType : ExecM δ (List ConstraintId))
      context context' := by
  unfold getConstraints
  cases hconstraints :
      services.ast.valuetypes[valueType]?.bind ValuetypeDefinition.constraints with
  | none => exact Exec.Agrees.throw _
  | some constraints =>
      obtain ⟨definition, hdefinition, hlist⟩ := Option.bind_eq_some_iff.mp hconstraints
      have hvalues : (Expression.collectionLiteral constraints).IsClosed :=
        hclosed.valuetypes definition (List.mem_of_getElem? hdefinition) constraints hlist
      apply Exec.Agrees.get_bind
      · rw [evaluateExpressionSilently_eq (h.sameParameters h') hvalues]
      · apply Exec.Agrees.bind (evaluateExpressionSilently_agrees _ _ _)
        intro result _
        split <;> exact Exec.Agrees.pure _

/-- A check that ends has left the context as it was. -/
theorem visitValueRepresentation_eq_ok
    (hkeyword : context.evaluationContext.valueKeywordValue = none) {fuel : Nat} {T : ValueType}
    {isValid : Bool}
    (h : visitValueRepresentation services value fuel T context = some (.ok isValid, after)) :
    after = context := by
  induction fuel generalizing T isValid after with
  | zero => cases h
  | succ fuel ih =>
      cases T with
      | atomic astNode =>
          rw [visitValueRepresentation] at h
          obtain ⟨supertype, _, hsupertype, h⟩ := Exec.bind_eq_ok_iff.mp h
          cases (Exec.Reads.ofExcept _).same hsupertype
          cases supertype with
          | none => cases h
          | some supertype =>
              obtain ⟨isValidForSupertype, _, hvisit, h⟩ := Exec.bind_eq_ok_iff.mp h
              cases ih hvisit
              cases isValidForSupertype with
              | false =>
                  cases h
                  rfl
              | true =>
                  obtain ⟨constraints, _, hconstraints, h⟩ := Exec.bind_eq_ok_iff.mp h
                  cases (getConstraints_reads services astNode).same hconstraints
                  exact fulfillsConstraints_eq_ok hkeyword h
      | _ =>
          rw [visitValueRepresentation] at h
          · exact (Exec.Reads.ofExcept _).same h
          · simp

/-- Constraints decide about a value in the same way in all contexts that have the same
parameters. -/
theorem fulfillsConstraints_of_idle (hclosed : ClosedDefinitions services.ast)
    (h : Idle provider context) (h' : Idle provider context')
    {constraints : List ConstraintId} {isValid : Bool}
    (hrun : fulfillsConstraints services value constraints context =
      some (.ok isValid, after)) :
    fulfillsConstraints services value constraints context' = some (.ok isValid, context') := by
  induction constraints with
  | nil =>
      cases hrun
      rfl
  | cons constraint constraints ih =>
      rw [fulfillsConstraints] at hrun
      obtain ⟨constraintExecutor, _, hcreate, hrun⟩ := Exec.bind_eq_ok_iff.mp hrun
      cases (Exec.Reads.ofExcept _).same hcreate
      replace hcreate : createConstraintExecutor services constraint = .ok constraintExecutor :=
        (Prod.ext_iff.mp (Option.some.inj hcreate)).1
      rw [Exec.bind_of_ok (enterNode_eq _ _)] at hrun
      obtain ⟨isAccepted, before, hexecutor, hrun⟩ := Exec.bind_eq_ok_iff.mp hrun
      have hdecides : Decides services context value constraint isAccepted :=
        ⟨constraintExecutor, _, hcreate, hexecutor⟩
      obtain rfl := constraintExecutor_eq_ok (by exact h.keyword) hcreate hexecutor
      rw [Exec.bind_of_ok (exitNode_entered _)] at hrun
      obtain ⟨constraintExecutor', after', hcreate', hexecutor'⟩ := hdecides.of_idle hclosed h h'
      cases hcreate.symm.trans hcreate'
      obtain rfl := constraintExecutor_eq_ok (by exact h'.keyword) hcreate hexecutor'
      rw [fulfillsConstraints_cons hcreate, Exec.bind_of_ok hexecutor',
        Exec.bind_of_ok (exitNode_entered _)]
      cases isAccepted with
      | false =>
          cases hrun
          rfl
      | true => exact ih hrun

/-- Whether a value is valid is the same in all contexts that have the same parameters. -/
theorem visitValueRepresentation_of_idle (hclosed : ClosedDefinitions services.ast)
    (h : Idle provider context) (h' : Idle provider context') {fuel : Nat} {T : ValueType}
    {isValid : Bool}
    (hvisit : visitValueRepresentation services value fuel T context =
      some (.ok isValid, after)) :
    visitValueRepresentation services value fuel T context' = some (.ok isValid, context') := by
  induction fuel generalizing T isValid after with
  | zero => cases hvisit
  | succ fuel ih =>
      cases T with
      | atomic astNode =>
          rw [visitValueRepresentation] at hvisit ⊢
          obtain ⟨supertype, _, hsupertype, hvisit⟩ := Exec.bind_eq_ok_iff.mp hvisit
          have hsupertype' : Exec.ofExcept _ context' = some (.ok supertype, context') :=
            Exec.Agrees.eq_some (Exec.Agrees.ofExcept _) hsupertype
          cases (Exec.Reads.ofExcept _).same hsupertype
          rw [Exec.bind_of_ok hsupertype']
          cases supertype with
          | none => cases hvisit
          | some supertype =>
              obtain ⟨isValidForSupertype, _, hup, hvisit⟩ := Exec.bind_eq_ok_iff.mp hvisit
              cases visitValueRepresentation_eq_ok h.keyword hup
              dsimp only
              rw [Exec.bind_of_ok (ih hup)]
              cases isValidForSupertype with
              | false =>
                  cases hvisit
                  rfl
              | true =>
                  obtain ⟨constraints, _, hconstraints, hvisit⟩ := Exec.bind_eq_ok_iff.mp hvisit
                  cases (getConstraints_reads services astNode).same hconstraints
                  have hconstraints' :=
                    (getConstraints_of_idle hclosed h h' astNode).eq_some hconstraints
                  have hfulfilled := fulfillsConstraints_of_idle hclosed h h' hvisit
                  exact (Exec.bind_of_ok hconstraints').trans hfulfilled
      | _ =>
          rw [visitValueRepresentation] at hvisit ⊢
          · exact Exec.Agrees.eq_some (Exec.Agrees.ofExcept _) hvisit
          · simp
          · simp

end Validity

end Jayvee
