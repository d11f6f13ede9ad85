import Jayvee.Verification.Evaluation.Strategies
import Jayvee.Verification.Expressions.Subexpressions

/-! # Evaluation in larger contexts -/

namespace Jayvee

open Foundation

/-- What has a value in the first context has the same one in the second. -/
structure EvaluationContext.Within (env env' : EvaluationContext) : Prop where
  reference : ∀ dereferenced v, env.getValueForReference dereferenced = some v →
    env'.getValueForReference dereferenced = some v
  keyword : ∀ v, env.valueKeywordValue = some v → env'.valueKeywordValue = some v

theorem EvaluationContext.Within.refl (env : EvaluationContext) : env.Within env :=
  ⟨fun _ _ h => h, fun _ h => h⟩

theorem EvaluationContext.construct_within (provider : RuntimeParameterProvider)
    (env : EvaluationContext) : (construct provider).Within env := by
  constructor
  · intro dereferenced v h
    cases dereferenced with
    | none => cases h
    | some referencable =>
        cases referencable with
        | constraintDefinition id => exact h
        | transformDefinition id => exact h
        | transformPortDefinition port => cases h
        | blockTypeProperty name valueType => cases h
  · intro v h
    cases h

/-! ## Operators -/

section Operators

variable {runtime : JsRuntime} {expression : Expression} {v : Value}

/-- What the left operand decides, it decides in both evaluations. -/
theorem evaluateBooleanShortCircuit_keeps_lazily {canSkip : Bool → Bool} {shortCircuitValue : Bool}
    {doEvaluate : Bool → Bool → Bool} {left left' right right' : Evaluation}
    (hleft : ∀ x, Keeps left left' (some x)) (hright : ∀ y, Keeps right right' (some y)) :
    Keeps (evaluateBooleanShortCircuit canSkip shortCircuitValue doEvaluate .lazy left right)
      (evaluateBooleanShortCircuit canSkip shortCircuitValue doEvaluate .lazy left' right')
      (some v) := by
  refine Keeps.bind fun leftValue _ hreturns => ?_
  cases leftValue with
  | none =>
      rw [if_pos rfl] at hreturns
      cases hreturns.eq_of_pure
  | some x =>
      refine ⟨hleft x, Keeps.assertTypeguard fun a _ => Keeps.ite (Keeps.pure _ _) ?_⟩
      refine Keeps.bind fun rightValue _ hreturns => ?_
      cases rightValue with
      | none => cases hreturns.eq_of_pure
      | some y => exact ⟨hright y, Keeps.assertTypeguard fun b _ => Keeps.pure _ _⟩

theorem binaryEvaluator_keeps_lazily {operator : BinaryExpressionOperator}
    {left left' right right' : Evaluation} (hleft : ∀ x, Keeps left left' (some x))
    (hright : ∀ y, Keeps right right' (some y)) :
    Keeps (binaryEvaluator runtime expression operator .lazy left right)
      (binaryEvaluator runtime expression operator .lazy left' right') (some v) := by
  cases operator
  case and | or => exact evaluateBooleanShortCircuit_keeps_lazily hleft hright
  all_goals exact binaryEvaluator_keeps hleft (fun _ _ _ => rfl) fun _ _ => hright

end Operators

/-! ## Expressions -/

section Expressions

variable {runtime : JsRuntime} {env env' : EvaluationContext}
  {strategy strategy' : EvaluationStrategy}

theorem evaluateExpressions_keeps_of_within {values : List Expression}
    (h : ∀ value ∈ values, ∀ v, Keeps (evaluateExpression runtime env strategy value)
      (evaluateExpression runtime env' strategy' value) (some v)) (vs : List Value) :
    Keeps (evaluateExpressions runtime env strategy values)
      (evaluateExpressions runtime env' strategy' values) (vs.map some) := by
  induction values generalizing vs with
  | nil => exact Keeps.pure _ _
  | cons value values ih =>
      rw [List.forall_mem_cons] at h
      refine Keeps.bind fun head _ hreturns => ?_
      obtain ⟨tail, _, hall⟩ := hreturns.bind
      cases vs with
      | nil => cases hall.eq_of_pure
      | cons v vs =>
          obtain ⟨rfl, rfl⟩ := List.cons.inj hall.eq_of_pure
          refine ⟨h.1 v, Keeps.bind fun tail _ hreturns => ?_⟩
          obtain ⟨_, rfl⟩ := List.cons.inj hreturns.eq_of_pure
          exact ⟨ih h.2 vs, Keeps.pure _ _⟩

/-- A value is found again in every larger context, by a strategy that evaluates no more. -/
theorem evaluateExpression_keeps_of_within (hwithin : env.Within env')
    (hstrategy : strategy = .lazy → strategy' = .lazy) (expression : Expression) :
    ∀ v, Keeps (evaluateExpression runtime env strategy expression)
      (evaluateExpression runtime env' strategy' expression) (some v) := by
  induction expression using Expression.inductionOnChildren with
  | step expression ih =>
    intro v
    cases expression with
    | collectionLiteral values =>
        exact collection_keeps (evaluateExpressions_keeps_of_within ih) v
    | unaryExpression operator operand =>
        exact unaryEvaluator_keeps (ih operand (by simp [Expression.children]))
    | binaryExpression operator left right =>
        have hleft := ih left (by simp [Expression.children])
        have hright := ih right (by simp [Expression.children])
        cases strategy with
        | exhaustive =>
            exact binaryEvaluator_keeps hleft (fun hlazy => by cases hlazy) fun _ _ => hright
        | lazy =>
            obtain rfl := hstrategy rfl
            exact binaryEvaluator_keeps_lazily hleft hright
    | ternaryExpression operator first second third =>
        exact ternaryEvaluator_keeps (ih first (by simp [Expression.children]))
          (fun _ _ => ih second (by simp [Expression.children]))
          fun _ _ => ih third (by simp [Expression.children])
    | regexLiteral value =>
        rw [evaluateExpression, evaluateExpression]
        exact Keeps.ite (Keeps.pure _ _) (Keeps.throw _ _ _)
    | cellRangeLiteral literal =>
        rw [evaluateExpression, evaluateExpression]
        exact Keeps.ite (Keeps.pure _ _) (Keeps.pure _ _)
    | valueKeywordLiteral lengthAccess =>
        intro hreturns diagnostics
        rw [evaluateExpression] at hreturns ⊢
        cases hvalue : env.valueKeywordValue with
        | none =>
            rw [EvaluationContext.getValueForValueKeyword, hvalue] at hreturns
            cases hreturns.eq_of_pure
        | some value =>
            have hsame : env'.getValueForValueKeyword lengthAccess =
                env.getValueForValueKeyword lengthAccess := by
              rw [EvaluationContext.getValueForValueKeyword, hwithin.keyword value hvalue,
                EvaluationContext.getValueForValueKeyword, hvalue]
            rw [hsame]
            exact Keeps.ofExcept _ _ hreturns diagnostics
    | referenceLiteral dereferenced =>
        intro hreturns diagnostics
        rw [evaluateExpression] at hreturns ⊢
        rw [hwithin.reference dereferenced v hreturns.eq_of_pure.symm]
        exact ⟨_, rfl⟩
    | _ => exact Keeps.pure _ _

end Expressions

end Jayvee
