import Jayvee.Model.BlockTypeWrapper

/-! # Evaluation ends -/

namespace Jayvee

open Foundation

variable {σ : Type}

/-! ## Operators -/

section Evaluators

variable {A B C : Type}

theorem accept_ends (severity : Severity) (message : String) (info : DiagnosticInfo) :
    Exec.Ends (accept severity message info) :=
  Exec.Ends.modify _

theorem assertTypeguard_ends (typeguard : Value → Option A) (value : Value) :
    Exec.Ends (assertTypeguard typeguard value) := by
  unfold assertTypeguard
  split
  · exact Exec.Ends.pure _
  · exact Exec.Ends.throw _

theorem arithmeticError_ends (message : String) (expression : Expression) :
    Exec.Ends (arithmeticError message expression) :=
  Exec.Ends.bind (accept_ends _ _ _) fun _ => Exec.Ends.pure _

theorem finiteResult_ends (resultingValue : JsNumber) {otherwise : Evaluation}
    (h : Exec.Ends otherwise) : Exec.Ends (finiteResult resultingValue otherwise) :=
  Exec.Ends.ite h (Exec.Ends.pure _)

theorem evaluateUnary_ends {operandValueTypeguard : Value → Option A}
    {doEvaluate : A → Evaluation} (hdo : ∀ a, Exec.Ends (doEvaluate a)) {operand : Evaluation}
    (hoperand : Exec.Ends operand) :
    Exec.Ends (evaluateUnary operandValueTypeguard doEvaluate operand) := by
  refine Exec.Ends.bind hoperand fun value => ?_
  cases value with
  | none => exact Exec.Ends.pure _
  | some value => exact Exec.Ends.bind (assertTypeguard_ends _ _) fun a => hdo a

theorem evaluateBinary_ends {leftValueTypeguard : Value → Option A}
    {rightValueTypeguard : Value → Option B} {doEvaluate : A → B → Evaluation}
    (hdo : ∀ a b, Exec.Ends (doEvaluate a b)) (strategy : EvaluationStrategy)
    {left right : Evaluation} (hleft : Exec.Ends left) (hright : Exec.Ends right) :
    Exec.Ends (evaluateBinary leftValueTypeguard rightValueTypeguard doEvaluate strategy left
      right) := by
  refine Exec.Ends.bind hleft fun leftValue => Exec.Ends.ite (Exec.Ends.pure _) ?_
  refine Exec.Ends.bind hright fun rightValue => ?_
  split
  · refine Exec.Ends.bind (assertTypeguard_ends _ _) fun a => ?_
    exact Exec.Ends.bind (assertTypeguard_ends _ _) fun b => hdo a b
  · exact Exec.Ends.pure _

theorem evaluateBooleanShortCircuit_ends (canSkipRightOperandEvaluation : Bool → Bool)
    (shortCircuitValue : Bool) (doEvaluate : Bool → Bool → Bool) (strategy : EvaluationStrategy)
    {left right : Evaluation} (hleft : Exec.Ends left) (hright : Exec.Ends right) :
    Exec.Ends (evaluateBooleanShortCircuit canSkipRightOperandEvaluation shortCircuitValue
      doEvaluate strategy left right) := by
  refine Exec.Ends.bind hleft fun leftValue => ?_
  cases leftValue with
  | none =>
      refine Exec.Ends.ite (Exec.Ends.pure _) ?_
      exact Exec.Ends.bind hright fun _ => Exec.Ends.pure _
  | some leftValue =>
      refine Exec.Ends.bind (assertTypeguard_ends _ _) fun leftValue => ?_
      refine Exec.Ends.ite (Exec.Ends.pure _) (Exec.Ends.bind hright fun rightValue => ?_)
      cases rightValue with
      | none => exact Exec.Ends.pure _
      | some rightValue =>
          exact Exec.Ends.bind (assertTypeguard_ends _ _) fun _ => Exec.Ends.pure _

theorem evaluateTernary_ends {firstValueTypeguard : Value → Option A}
    {secondValueTypeguard : Value → Option B} {thirdValueTypeguard : Value → Option C}
    {doEvaluate : A → B → C → Evaluation} (hdo : ∀ a b c, Exec.Ends (doEvaluate a b c))
    (strategy : EvaluationStrategy) {first second third : Evaluation}
    (hfirst : Exec.Ends first) (hsecond : Exec.Ends second) (hthird : Exec.Ends third) :
    Exec.Ends (evaluateTernary firstValueTypeguard secondValueTypeguard thirdValueTypeguard
      doEvaluate strategy first second third) := by
  refine Exec.Ends.bind hfirst fun firstValue => Exec.Ends.ite (Exec.Ends.pure _) ?_
  refine Exec.Ends.bind hsecond fun secondValue => Exec.Ends.bind hthird fun thirdValue => ?_
  split
  · refine Exec.Ends.bind (assertTypeguard_ends _ _) fun a => ?_
    refine Exec.Ends.bind (assertTypeguard_ends _ _) fun b => ?_
    exact Exec.Ends.bind (assertTypeguard_ends _ _) fun c => hdo a b c
  · exact Exec.Ends.pure _

end Evaluators

variable (runtime : JsRuntime)

theorem unaryEvaluator_ends (expression : Expression) (operator : UnaryExpressionOperator)
    {operand : Evaluation} (h : Exec.Ends operand) :
    Exec.Ends (unaryEvaluator runtime expression operator operand) := by
  cases operator <;> refine evaluateUnary_ends (fun value => ?_) h
  case sqrt =>
    exact finiteResult_ends _ (Exec.Ends.ite (arithmeticError_ends _ _) (Exec.Ends.throw _))
  case asDecimal | asInteger | asBoolean =>
    split
    · exact Exec.Ends.pure _
    · exact Exec.Ends.throw _
  all_goals exact Exec.Ends.pure _

theorem binaryEvaluator_ends (expression : Expression) (operator : BinaryExpressionOperator)
    (strategy : EvaluationStrategy) {left right : Evaluation} (hleft : Exec.Ends left)
    (hright : Exec.Ends right) :
    Exec.Ends (binaryEvaluator runtime expression operator strategy left right) := by
  cases operator
  case and | or => exact evaluateBooleanShortCircuit_ends _ _ _ strategy hleft hright
  all_goals refine evaluateBinary_ends (fun leftValue rightValue => ?_) strategy hleft hright
  case pow | modulo =>
    refine finiteResult_ends _ ?_
    exact Exec.Ends.ite (arithmeticError_ends _ _) (arithmeticError_ends _ _)
  case root =>
    refine finiteResult_ends _ (Exec.Ends.ite (arithmeticError_ends _ _) ?_)
    exact Exec.Ends.ite (arithmeticError_ends _ _) (arithmeticError_ends _ _)
  case divide =>
    exact finiteResult_ends _ (Exec.Ends.ite (arithmeticError_ends _ _) (Exec.Ends.throw _))
  all_goals exact Exec.Ends.pure _

theorem ternaryEvaluator_ends (operator : TernaryExpressionOperator)
    (strategy : EvaluationStrategy) {first second third : Evaluation}
    (hfirst : Exec.Ends first) (hsecond : Exec.Ends second) (hthird : Exec.Ends third) :
    Exec.Ends (ternaryEvaluator runtime operator strategy first second third) := by
  cases operator
  exact evaluateTernary_ends (fun _ _ _ => Exec.Ends.pure _) strategy hfirst hsecond hthird

/-! ## Expressions -/

mutual

theorem evaluateExpression_ends (env : EvaluationContext) (strategy : EvaluationStrategy) :
    ∀ expression, Exec.Ends (evaluateExpression runtime env strategy expression)
  | .textLiteral _ => Exec.Ends.pure _
  | .numericLiteral _ => Exec.Ends.pure _
  | .booleanLiteral _ => Exec.Ends.pure _
  | .valuetypeAssignmentLiteral _ => Exec.Ends.pure _
  | .regexLiteral _ => Exec.Ends.ite (Exec.Ends.pure _) (Exec.Ends.throw _)
  | .cellRangeLiteral _ => Exec.Ends.ite (Exec.Ends.pure _) (Exec.Ends.pure _)
  | .collectionLiteral values =>
      Exec.Ends.bind (evaluateExpressions_ends env strategy values) fun _ => Exec.Ends.pure _
  | .valueKeywordLiteral _ => Exec.Ends.ofExcept _
  | .referenceLiteral _ => Exec.Ends.pure _
  | .unaryExpression operator expression =>
      unaryEvaluator_ends runtime _ operator (evaluateExpression_ends env strategy expression)
  | .binaryExpression operator left right =>
      binaryEvaluator_ends runtime _ operator strategy (evaluateExpression_ends env strategy left)
        (evaluateExpression_ends env strategy right)
  | .ternaryExpression operator first second third =>
      ternaryEvaluator_ends runtime operator strategy
        (evaluateExpression_ends env strategy first)
        (evaluateExpression_ends env strategy second)
        (evaluateExpression_ends env strategy third)

theorem evaluateExpressions_ends (env : EvaluationContext) (strategy : EvaluationStrategy) :
    ∀ values, Exec.Ends (evaluateExpressions runtime env strategy values)
  | [] => Exec.Ends.pure _
  | value :: values =>
      Exec.Ends.bind (evaluateExpression_ends env strategy value) fun _ =>
        Exec.Ends.bind (evaluateExpressions_ends env strategy values) fun _ => Exec.Ends.pure _

end

section Agrees

variable {s s' : σ}

theorem evaluateExpressionSilently_agrees (env : EvaluationContext) (expression : Expression) :
    Exec.Agrees (evaluateExpressionSilently runtime env expression :
      Exec σ JsError (Option Value)) s s' :=
  Exec.Agrees.isolate (evaluateExpression_ends runtime env .lazy expression) []

theorem evaluateExpressionSilently_reads (env : EvaluationContext) (expression : Expression) :
    Exec.Reads (evaluateExpressionSilently runtime env expression :
      Exec σ JsError (Option Value)) :=
  Exec.Agrees.reads fun _ => evaluateExpressionSilently_agrees runtime env expression

theorem evaluatePropertyValue_agrees (ast : Ast) (property : PropertyAssignment)
    (env : EvaluationContext) (valueType : ValueType) :
    Exec.Agrees (evaluatePropertyValue ast runtime property env valueType :
      Exec σ JsError (Option Value)) s s' := by
  unfold evaluatePropertyValue
  cases property.value with
  | runtimeParameter name =>
      refine Exec.Agrees.bind (Exec.Agrees.ofExcept _) fun result _ => ?_
      cases result with
      | none => exact Exec.Agrees.pure _
      | some value =>
          apply Exec.Agrees.bind (Exec.Agrees.ofExcept _)
          exact fun _ _ => Exec.Agrees.ite (Exec.Agrees.pure _) (Exec.Agrees.throw _)
  | expression expression =>
      refine Exec.Agrees.bind (evaluateExpressionSilently_agrees runtime env expression) ?_
      intro result _
      cases result with
      | none => exact Exec.Agrees.pure _
      | some value =>
          apply Exec.Agrees.bind (Exec.Agrees.ofExcept _)
          exact fun _ _ => Exec.Agrees.ite (Exec.Agrees.pure _) (Exec.Agrees.throw _)

/-! ## Block types and constraint types -/

variable (ast : Ast)

theorem BlockTypeWrapper.constructProperty_agrees (property : BlockTypeProperty) :
    Exec.Agrees (constructProperty ast runtime property :
      Exec σ JsError PropertySpecification) s s' := by
  unfold constructProperty
  refine Exec.Agrees.bind (Exec.Agrees.ofExcept _) fun valueType _ => ?_
  cases valueType with
  | none => exact Exec.Agrees.throw _
  | some valueType =>
      cases property.defaultValue with
      | none => exact Exec.Agrees.pure _
      | some expression =>
          refine Exec.Agrees.bind (evaluateExpressionSilently_agrees runtime _ expression) ?_
          exact fun _ _ => Exec.Agrees.pure _

theorem BlockTypeWrapper.getPortIOType_agrees (port : Option BlockTypeIO) :
    Exec.Agrees (getPortIOType port : Exec σ JsError IOType) s s' := by
  cases port with
  | none => exact Exec.Agrees.throw _
  | some port => exact Exec.Agrees.ofExcept _

theorem BlockTypeWrapper.wrap_agrees (toBeWrapped : Option ReferenceableBlockTypeDefinition) :
    Exec.Agrees (wrap ast runtime toBeWrapped : Exec σ JsError BlockTypeWrapper) s s' := by
  cases toBeWrapped with
  | none => exact Exec.Agrees.throw _
  | some blockTypeDefinition =>
      refine Exec.Agrees.ite ?_ (Exec.Agrees.throw _)
      refine Exec.Agrees.bind
        (Exec.Agrees.mapM (constructProperty_agrees runtime ast)) fun _ _ => ?_
      refine Exec.Agrees.bind (getPortIOType_agrees _) fun _ _ => ?_
      exact Exec.Agrees.bind (getPortIOType_agrees _) fun _ _ => Exec.Agrees.pure _

theorem ConstraintTypeWrapper.wrap_agrees
    (toBeWrapped : Option BuiltinConstrainttypeDefinition) :
    Exec.Agrees (wrap ast runtime toBeWrapped : Exec σ JsError ConstraintTypeWrapper) s s' := by
  cases toBeWrapped with
  | none => exact Exec.Agrees.throw _
  | some constraintTypeDefinition =>
      refine Exec.Agrees.ite ?_ (Exec.Agrees.throw _)
      refine Exec.Agrees.bind
        (Exec.Agrees.mapM (BlockTypeWrapper.constructProperty_agrees runtime ast)) fun _ _ => ?_
      refine Exec.Agrees.bind (Exec.Agrees.ofExcept _) fun valueType _ => ?_
      cases valueType with
      | none => exact Exec.Agrees.throw _
      | some valueType => exact Exec.Agrees.pure _

end Agrees

end Jayvee
