import Jayvee.Verification.Expressions.Subexpressions

/-! # The replacement of subexpressions -/

namespace Jayvee

open Foundation

/-! ## Expressions with other expressions inside -/

namespace Expression

/-- The same operator or collection with other expressions directly inside. -/
def withChildren : Expression → List Expression → Expression
  | collectionLiteral _, values => collectionLiteral values
  | unaryExpression operator _, [expression] => unaryExpression operator expression
  | binaryExpression operator _ _, [left, right] => binaryExpression operator left right
  | ternaryExpression operator _ _ _, [first, second, third] =>
      ternaryExpression operator first second third
  | expression, _ => expression

theorem withChildren_self (expression : Expression) :
    expression.withChildren expression.children = expression := by
  cases expression <;> rfl

theorem children_withChildren (expression : Expression) (others : List Expression)
    (h : others.length = expression.children.length) :
    (expression.withChildren others).children = others := by
  cases expression with
  | collectionLiteral _ => rfl
  | unaryExpression _ _ =>
      obtain ⟨_, rfl⟩ := List.length_eq_one_iff.mp h
      rfl
  | binaryExpression _ _ _ =>
      obtain ⟨_, _, rfl⟩ := List.length_eq_two.mp h
      rfl
  | ternaryExpression _ _ _ _ =>
      obtain ⟨_, _, _, rfl⟩ := List.length_eq_three.mp h
      rfl
  | _ =>
      rw [List.length_eq_zero_iff.mp h]
      rfl

end Expression

/-! ## Operators on operands with the same results -/

section Evaluators

variable {A B C : Type} {firstGuard : Value → Option A} {secondGuard : Value → Option B}
  {thirdGuard : Value → Option C} {strategy : EvaluationStrategy}
  {first first' second second' third third' : Evaluation}

theorem accept_sameResult (severity : Severity) (message : String) (info info' : DiagnosticInfo) :
    Exec.SameResult (accept severity message info) (accept severity message info') :=
  Exec.SameResult.modify _ _

theorem arithmeticError_sameResult (message : String) (expression expression' : Expression) :
    Exec.SameResult (arithmeticError message expression) (arithmeticError message expression') :=
  (accept_sameResult _ _ _ _).bind fun _ => .pure _

theorem finiteResult_sameResult (resultingValue : JsNumber) {otherwise otherwise' : Evaluation}
    (h : Exec.SameResult otherwise otherwise') :
    Exec.SameResult (finiteResult resultingValue otherwise)
      (finiteResult resultingValue otherwise') :=
  Exec.SameResult.ite h (.pure _)

theorem assertTypeguard_sameResult (value : Value) :
    Exec.SameResult (assertTypeguard firstGuard value) (assertTypeguard firstGuard value) := by
  unfold assertTypeguard
  split
  · exact Exec.SameResult.pure _
  · exact Exec.SameResult.throw _

theorem evaluateUnary_sameResult {doEvaluate doEvaluate' : A → Evaluation}
    (hdo : ∀ a, Exec.SameResult (doEvaluate a) (doEvaluate' a))
    (hfirst : Exec.SameResult first first') :
    Exec.SameResult (evaluateUnary firstGuard doEvaluate first)
      (evaluateUnary firstGuard doEvaluate' first') := by
  refine hfirst.bind fun value => ?_
  cases value with
  | none => exact Exec.SameResult.pure none
  | some value => exact (assertTypeguard_sameResult value).bind hdo

theorem evaluateBinary_sameResult {doEvaluate doEvaluate' : A → B → Evaluation}
    (hdo : ∀ a b, Exec.SameResult (doEvaluate a b) (doEvaluate' a b))
    (hfirst : Exec.SameResult first first') (hsecond : Exec.SameResult second second') :
    Exec.SameResult (evaluateBinary firstGuard secondGuard doEvaluate strategy first second)
      (evaluateBinary firstGuard secondGuard doEvaluate' strategy first' second') := by
  refine hfirst.bind fun leftValue => Exec.SameResult.ite (.pure none) ?_
  refine hsecond.bind fun rightValue => ?_
  cases leftValue with
  | none => exact Exec.SameResult.pure none
  | some leftValue =>
      cases rightValue with
      | none => exact Exec.SameResult.pure none
      | some rightValue =>
          exact (assertTypeguard_sameResult leftValue).bind fun a =>
            (assertTypeguard_sameResult rightValue).bind fun b => hdo a b

theorem evaluateBooleanShortCircuit_sameResult (canSkip : Bool → Bool) (shortCircuitValue : Bool)
    (doEvaluate : Bool → Bool → Bool) (hfirst : Exec.SameResult first first')
    (hsecond : Exec.SameResult second second') :
    Exec.SameResult
      (evaluateBooleanShortCircuit canSkip shortCircuitValue doEvaluate strategy first second)
      (evaluateBooleanShortCircuit canSkip shortCircuitValue doEvaluate strategy first'
        second') := by
  refine hfirst.bind fun leftValue => ?_
  cases leftValue with
  | none => exact Exec.SameResult.ite (.pure none) (hsecond.bind fun _ => .pure none)
  | some leftValue =>
      refine (assertTypeguard_sameResult leftValue).bind fun a => ?_
      refine Exec.SameResult.ite (.pure _) (hsecond.bind fun rightValue => ?_)
      cases rightValue with
      | none => exact Exec.SameResult.pure none
      | some rightValue => exact (assertTypeguard_sameResult rightValue).bind fun b => .pure _

theorem evaluateTernary_sameResult {doEvaluate doEvaluate' : A → B → C → Evaluation}
    (hdo : ∀ a b c, Exec.SameResult (doEvaluate a b c) (doEvaluate' a b c))
    (hfirst : Exec.SameResult first first') (hsecond : Exec.SameResult second second')
    (hthird : Exec.SameResult third third') :
    Exec.SameResult
      (evaluateTernary firstGuard secondGuard thirdGuard doEvaluate strategy first second third)
      (evaluateTernary firstGuard secondGuard thirdGuard doEvaluate' strategy first' second'
        third') := by
  refine hfirst.bind fun firstValue => Exec.SameResult.ite (.pure none) ?_
  refine hsecond.bind fun secondValue => hthird.bind fun thirdValue => ?_
  cases firstValue with
  | none => exact Exec.SameResult.pure none
  | some firstValue =>
      cases secondValue with
      | none => exact Exec.SameResult.pure none
      | some secondValue =>
          cases thirdValue with
          | none => exact Exec.SameResult.pure none
          | some thirdValue =>
              exact (assertTypeguard_sameResult firstValue).bind fun a =>
                (assertTypeguard_sameResult secondValue).bind fun b =>
                  (assertTypeguard_sameResult thirdValue).bind fun c => hdo a b c

end Evaluators

section Operators

variable {runtime : JsRuntime} {strategy : EvaluationStrategy}
  {first first' second second' third third' : Evaluation}

theorem unaryEvaluator_sameResult (expression expression' : Expression)
    (operator : UnaryExpressionOperator) (h : Exec.SameResult first first') :
    Exec.SameResult (unaryEvaluator runtime expression operator first)
      (unaryEvaluator runtime expression' operator first') := by
  have hparse : ∀ (kind : PrimitiveValueType) (description : String),
      Exec.SameResult (evaluateParse runtime kind description first)
        (evaluateParse runtime kind description first') := by
    intro kind description
    refine evaluateUnary_sameResult (fun text => ?_) h
    split
    · exact Exec.SameResult.pure _
    · exact Exec.SameResult.throw _
  cases operator
  case sqrt =>
    refine evaluateUnary_sameResult (fun x => finiteResult_sameResult _ ?_) h
    exact Exec.SameResult.ite (arithmeticError_sameResult _ _ _) (.throw _)
  case asDecimal => exact hparse _ _
  case asInteger => exact hparse _ _
  case asBoolean => exact hparse _ _
  all_goals exact evaluateUnary_sameResult (fun _ => .pure _) h

theorem binaryEvaluator_sameResult (expression expression' : Expression)
    (operator : BinaryExpressionOperator) (hfirst : Exec.SameResult first first')
    (hsecond : Exec.SameResult second second') :
    Exec.SameResult (binaryEvaluator runtime expression operator strategy first second)
      (binaryEvaluator runtime expression' operator strategy first' second') := by
  cases operator
  case pow | modulo =>
    refine evaluateBinary_sameResult (fun x y => finiteResult_sameResult _ ?_) hfirst hsecond
    exact Exec.SameResult.ite (arithmeticError_sameResult _ _ _)
      (arithmeticError_sameResult _ _ _)
  case root =>
    refine evaluateBinary_sameResult (fun x y => finiteResult_sameResult _ ?_) hfirst hsecond
    exact Exec.SameResult.ite (arithmeticError_sameResult _ _ _)
      (Exec.SameResult.ite (arithmeticError_sameResult _ _ _) (arithmeticError_sameResult _ _ _))
  case divide =>
    refine evaluateBinary_sameResult (fun x y => finiteResult_sameResult _ ?_) hfirst hsecond
    exact Exec.SameResult.ite (arithmeticError_sameResult _ _ _) (.throw _)
  case and => exact evaluateBooleanShortCircuit_sameResult _ _ _ hfirst hsecond
  case or => exact evaluateBooleanShortCircuit_sameResult _ _ _ hfirst hsecond
  all_goals exact evaluateBinary_sameResult (fun _ _ => .pure _) hfirst hsecond

theorem ternaryEvaluator_sameResult (operator : TernaryExpressionOperator)
    (hfirst : Exec.SameResult first first') (hsecond : Exec.SameResult second second')
    (hthird : Exec.SameResult third third') :
    Exec.SameResult (ternaryEvaluator runtime operator strategy first second third)
      (ternaryEvaluator runtime operator strategy first' second' third') := by
  cases operator
  exact evaluateTernary_sameResult (fun _ _ _ => .pure _) hfirst hsecond hthird

end Operators

/-! ## Expressions with the same results -/

section Expressions

variable (runtime : JsRuntime) (env : EvaluationContext) (strategy : EvaluationStrategy)

/-- The evaluation of both expressions returns or throws the same. -/
def SameEvaluation (expression expression' : Expression) : Prop :=
  Exec.SameResult (evaluateExpression runtime env strategy expression)
    (evaluateExpression runtime env strategy expression')

variable {runtime env strategy}

theorem evaluateExpressions_sameResult {values values' : List Expression}
    (h : List.Forall₂ (SameEvaluation runtime env strategy) values values') :
    Exec.SameResult (evaluateExpressions runtime env strategy values)
      (evaluateExpressions runtime env strategy values') := by
  induction h with
  | nil => exact Exec.SameResult.pure []
  | cons hhead _ ih => exact hhead.bind fun _ => ih.bind fun _ => .pure _

theorem sameEvaluation_isCongruence :
    IsCongruence Expression.children Expression.withChildren
      (SameEvaluation runtime env strategy) := by
  intro expression others h
  cases expression with
  | collectionLiteral values =>
      exact (evaluateExpressions_sameResult h).bind fun _ => .pure _
  | unaryExpression operator operand =>
      obtain _ | ⟨hoperand, _ | _⟩ := h
      exact unaryEvaluator_sameResult _ _ operator hoperand
  | binaryExpression operator left right =>
      obtain _ | ⟨hleft, _ | ⟨hright, _ | _⟩⟩ := h
      exact binaryEvaluator_sameResult _ _ operator hleft hright
  | ternaryExpression operator first second third =>
      obtain _ | ⟨hfirst, _ | ⟨hsecond, _ | ⟨hthird, _ | _⟩⟩⟩ := h
      exact ternaryEvaluator_sameResult operator hfirst hsecond hthird
  | regexLiteral value => exact Exec.SameResult.ite (.pure _) (.throw _)
  | cellRangeLiteral literal => exact Exec.SameResult.ite (.pure _) (.pure _)
  | valueKeywordLiteral lengthAccess => exact Exec.SameResult.ofExcept _
  | _ => exact Exec.SameResult.pure _

theorem SameEvaluation.refl (expression : Expression) :
    SameEvaluation runtime env strategy expression expression := by
  induction expression using Expression.inductionOnChildren with
  | step expression ih =>
    have hchildren : List.Forall₂ (SameEvaluation runtime env strategy) expression.children
        expression.children := List.forall₂_same.mpr ih
    have hsame := sameEvaluation_isCongruence expression _ hchildren
    rwa [Expression.withChildren_self] at hsame

end Expressions

end Jayvee
