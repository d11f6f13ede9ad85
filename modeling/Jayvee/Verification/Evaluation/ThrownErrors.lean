import Jayvee.Verification.Evaluation.Meaning
import Jayvee.Verification.Typing.Preservation

/-! # When evaluation throws

It throws at texts that cannot be converted, and where a root or a quotient overflows. -/

namespace Jayvee

open Foundation

/-! ## Evaluations that throw -/

section Throws

variable {α β A B C : Type} {strategy : EvaluationStrategy}

/-- The evaluation throws. -/
def Throws (m : Validation α) : Prop :=
  ∃ error, Exec.Yields m (.error error)

theorem Throws.error (error : JsError) : Throws (Exec.throw error : Validation α) :=
  ⟨error, Exec.Yields.throw error⟩

theorem TypeguardFails.throws {m : Validation α} (h : TypeguardFails m) : Throws m :=
  ⟨_, h⟩

theorem Throws.bind_left {m : Validation α} {f : α → Validation β} (hm : Throws m) :
    Throws (m >>= f) := by
  obtain ⟨error, herror⟩ := hm
  exact ⟨error, herror.bind_error⟩

theorem Throws.bind {m : Validation α} {f : α → Validation β} {a : α} (hm : Computes m a)
    (hf : Throws (f a)) : Throws (m >>= f) := by
  cases hm with
  | inl hm =>
      obtain ⟨error, herror⟩ := hf
      exact ⟨error, hm.bind herror⟩
  | inr hm => exact (TypeguardFails.throws hm).bind_left

/-- What comes behind a type guard throws, or the type guard does. -/
theorem Throws.assertTypeguard {typeguard : Value → Option A} {value : Value}
    {f : A → Validation β} (hf : ∀ a, typeguard value = some a → Throws (f a)) :
    Throws (Jayvee.assertTypeguard typeguard value >>= f) := by
  unfold Jayvee.assertTypeguard
  cases hvalue : typeguard value with
  | none => exact (Throws.error _).bind_left
  | some a => exact hf a hvalue

theorem Throws.finiteResult {x : JsNumber} {otherwise : Evaluation}
    (hinfinite : ¬ x.isFinite = true) (hotherwise : Throws otherwise) :
    Throws (Jayvee.finiteResult x otherwise) := by
  rwa [Jayvee.finiteResult, if_pos (by simpa using hinfinite)]

theorem evaluateParse_throws {runtime : JsRuntime} {kind : PrimitiveValueType} {description : String}
    {meaning : Value → Option Value}
    (hmeaning : ∀ text, meaning (.string text) = kind.fromString runtime.nearest text)
    {operand : Evaluation} {v : Value} (hoperand : Computes operand (some v))
    (hfails : meaning v = none) : Throws (evaluateParse runtime kind description operand) := by
  apply Throws.bind hoperand
  apply Throws.assertTypeguard
  intro text htext
  obtain rfl := stringTypeguard_eq_some_iff.mp htext
  rw [hmeaning] at hfails
  dsimp only
  rw [hfails]
  exact Throws.error _

theorem evaluateBinary_throws {leftGuard : Value → Option A} {rightGuard : Value → Option B}
    {doEvaluate : A → B → Evaluation} {left right : Evaluation} {leftValue : Option Value}
    (hleft : Computes left leftValue) (hevaluated : strategy = .lazy → leftValue ≠ none)
    (hright : Throws right) :
    Throws (evaluateBinary leftGuard rightGuard doEvaluate strategy left right) := by
  apply Throws.bind hleft
  rw [if_neg (by simpa using hevaluated)]
  exact hright.bind_left

theorem evaluateBooleanShortCircuit_throws {skipped shortCircuitValue : Bool}
    {doEvaluate : Bool → Bool → Bool} {left right : Evaluation} {leftValue : Option Value}
    (hleft : Computes left leftValue)
    (hevaluated : strategy = .lazy → leftValue ≠ none ∧ leftValue ≠ some (.boolean skipped))
    (hright : Throws right) :
    Throws (evaluateBooleanShortCircuit (fun leftValue => leftValue == skipped)
      shortCircuitValue doEvaluate strategy left right) := by
  apply Throws.bind hleft
  cases leftValue with
  | none =>
      have hexhaustive : strategy ≠ .lazy := fun hlazy => (hevaluated hlazy).1 rfl
      dsimp only
      rw [if_neg hexhaustive]
      exact hright.bind_left
  | some x =>
      apply Throws.assertTypeguard
      intro a ha
      obtain rfl := booleanTypeguard_eq_some_iff.mp ha
      rw [if_neg (by simpa using hevaluated)]
      exact hright.bind_left

theorem evaluateTernary_throws {firstGuard : Value → Option A} {secondGuard : Value → Option B}
    {thirdGuard : Value → Option C} {doEvaluate : A → B → C → Evaluation}
    {first second third : Evaluation} {firstValue : Option Value}
    (hfirst : Computes first firstValue) (hevaluated : strategy = .lazy → firstValue ≠ none)
    (hthrows : Throws second ∨ (∃ secondValue, Computes second secondValue) ∧ Throws third) :
    Throws (evaluateTernary firstGuard secondGuard thirdGuard doEvaluate strategy first second
      third) := by
  apply Throws.bind hfirst
  rw [if_neg (by simpa using hevaluated)]
  cases hthrows with
  | inl hsecond => exact hsecond.bind_left
  | inr hthird =>
      obtain ⟨⟨secondValue, hsecond⟩, hthird⟩ := hthird
      exact Throws.bind hsecond hthird.bind_left

end Throws

section Operators

variable {runtime : JsRuntime} {expression : Expression} {strategy : EvaluationStrategy}

theorem unaryEvaluator_throws_of_operand {operator : UnaryExpressionOperator}
    {operand : Evaluation} (hoperand : Throws operand) :
    Throws (unaryEvaluator runtime expression operator operand) := by
  cases operator <;> exact hoperand.bind_left

theorem sqrtOperatorEvaluator_throws {operand : Evaluation} {v : Value}
    (hoperand : Computes operand (some v)) (hfails : ¬ UnarySucceeds runtime .sqrt v) :
    Throws (sqrtOperatorEvaluator runtime expression operand) := by
  apply Throws.bind hoperand
  apply Throws.assertTypeguard
  intro x hx
  obtain rfl := numberTypeguard_eq_some_iff.mp hx
  obtain ⟨hinfinite, hnonneg⟩ := not_or.mp hfails
  refine Throws.finiteResult hinfinite ?_
  rw [if_neg hnonneg]
  exact Throws.error _

theorem unaryEvaluator_throws {operator : UnaryExpressionOperator} {operand : Evaluation}
    {v : Value} (hoperand : Computes operand (some v))
    (hfails : ¬ UnarySucceeds runtime operator v) :
    Throws (unaryEvaluator runtime expression operator operand) := by
  cases operator
  case asDecimal | asInteger | asBoolean =>
    refine evaluateParse_throws ?_ hoperand (not_not.mp hfails)
    exact fun _ => rfl
  case sqrt => exact sqrtOperatorEvaluator_throws hoperand hfails
  all_goals exact (hfails trivial).elim

theorem binaryEvaluator_throws_of_left {operator : BinaryExpressionOperator}
    {left right : Evaluation} (hleft : Throws left) :
    Throws (binaryEvaluator runtime expression operator strategy left right) := by
  cases operator <;> exact hleft.bind_left

theorem defined_of_skipsRight {operator : BinaryExpressionOperator} {leftValue : Option Value}
    (h : skipsRight strategy operator leftValue = false) (hlazy : strategy = .lazy) :
    leftValue ≠ none := by
  rintro rfl
  simp [skipsRight, hlazy] at h

theorem binaryEvaluator_throws {operator : BinaryExpressionOperator} {left right : Evaluation}
    {leftValue : Option Value} (hleft : Computes left leftValue)
    (hevaluated : skipsRight strategy operator leftValue = false) (hright : Throws right) :
    Throws (binaryEvaluator runtime expression operator strategy left right) := by
  cases operator
  case and | or =>
    apply evaluateBooleanShortCircuit_throws hleft ?_ hright
    intro hlazy
    refine ⟨defined_of_skipsRight hevaluated hlazy, ?_⟩
    rintro rfl
    simp [skipsRight, skips, hlazy] at hevaluated
  all_goals exact evaluateBinary_throws hleft (defined_of_skipsRight hevaluated) hright

/-- Only a division throws on its operands. -/
theorem binaryEvaluator_throws_of_operands {operator : BinaryExpressionOperator}
    {left right : Evaluation} {x y : Value} (hleft : Computes left (some x))
    (hright : Computes right (some y)) (hfails : ¬ BinarySucceeds runtime operator x y) :
    Throws (binaryEvaluator runtime expression operator strategy left right) := by
  cases operator
  case divide =>
    apply Throws.bind hleft
    rw [if_neg (by simp)]
    apply Throws.bind hright
    refine Throws.assertTypeguard fun a ha => Throws.assertTypeguard fun b hb => ?_
    obtain rfl := numberTypeguard_eq_some_iff.mp ha
    obtain rfl := numberTypeguard_eq_some_iff.mp hb
    obtain ⟨hinfinite, hnonzero⟩ := not_or.mp hfails
    refine Throws.finiteResult hinfinite ?_
    rw [if_neg hnonzero]
    exact Throws.error _
  all_goals exact (hfails (by cases x <;> trivial)).elim

/-- The operands of a division that throws are both evaluated. -/
theorem skipsRight_of_not_succeeds (strategy : EvaluationStrategy)
    {operator : BinaryExpressionOperator} {x y : Value}
    (hfails : ¬ BinarySucceeds runtime operator x y) :
    skipsRight strategy operator (some x) = false := by
  cases operator
  case divide => simp [skipsRight, skips]
  all_goals exact (hfails (by cases x <;> trivial)).elim

end Operators

/-! ## Operations that succeed -/

section Operations

variable {ast : Ast} {runtime : JsRuntime} {env : EvaluationContext}
  {strategy : EvaluationStrategy}

mutual

/-- No operator that is evaluated throws, and every regular expression is one. -/
def OperationsSucceed (runtime : JsRuntime) (env : EvaluationContext)
    (strategy : EvaluationStrategy) : Expression → Prop
  | .regexLiteral value => runtime.isRegExp value = true
  | .collectionLiteral values => AllOperationsSucceed runtime env strategy values
  | .unaryExpression operator expression =>
      OperationsSucceed runtime env strategy expression ∧
        ∀ v, meaning runtime env strategy expression = some v → UnarySucceeds runtime operator v
  | .binaryExpression operator left right =>
      OperationsSucceed runtime env strategy left ∧
        (skipsRight strategy operator (meaning runtime env strategy left) = false →
          OperationsSucceed runtime env strategy right) ∧
        ∀ x y, meaning runtime env strategy left = some x →
          meaning runtime env strategy right = some y → BinarySucceeds runtime operator x y
  | .ternaryExpression _ first second third =>
      OperationsSucceed runtime env strategy first ∧
        ((strategy = .lazy → meaning runtime env strategy first ≠ none) →
          OperationsSucceed runtime env strategy second ∧
            OperationsSucceed runtime env strategy third)
  | _ => True

def AllOperationsSucceed (runtime : JsRuntime) (env : EvaluationContext)
    (strategy : EvaluationStrategy) : List Expression → Prop
  | [] => True
  | value :: values =>
      OperationsSucceed runtime env strategy value ∧
        AllOperationsSucceed runtime env strategy values

end

theorem valueKeywordLiteral_computes (lengthAccess : Bool) :
    Computes (evaluateExpression runtime env strategy (.valueKeywordLiteral lengthAccess))
      (meaning runtime env strategy (.valueKeywordLiteral lengthAccess)) := by
  rw [evaluateExpression, EvaluationContext.getValueForValueKeyword]
  cases hvalue : env.valueKeywordValue with
  | none => cases lengthAccess <;> simp [meaning, hvalue] <;> exact Computes.pure none
  | some v =>
      cases lengthAccess with
      | false =>
          simp [meaning, hvalue]
          exact Computes.pure (some v)
      | true =>
          cases htext : v.stringTypeguard with
          | none =>
              simp only [htext]
              exact .inr (Exec.Yields.ofExcept _)
          | some text =>
              simp [meaning, hvalue, htext]
              exact Computes.pure _

mutual

theorem evaluateExpression_computes : ∀ {e : Expression},
    OperationsSucceed runtime env strategy e →
    Computes (evaluateExpression runtime env strategy e) (meaning runtime env strategy e)
  | .textLiteral _, _ => Computes.pure _
  | .numericLiteral _, _ => Computes.pure _
  | .booleanLiteral _, _ => Computes.pure _
  | .valuetypeAssignmentLiteral _, _ => Computes.pure _
  | .regexLiteral value, h => by
      have hvalid : runtime.isRegExp value = true := h
      simp only [evaluateExpression, meaning, hvalid, if_true]
      exact Computes.pure _
  | .cellRangeLiteral literal, _ => by
      by_cases hliteral : literal.canBeWrapped = true
      · simp only [evaluateExpression, meaning, hliteral, if_true]
        exact Computes.pure _
      · simp only [evaluateExpression, meaning, hliteral, if_false, Bool.false_eq_true]
        exact Computes.pure _
  | .collectionLiteral values, h =>
      have hvalues : AllOperationsSucceed runtime env strategy values := h
      Computes.bind (evaluateExpressions_computes hvalues) (Computes.pure _)
  | .valueKeywordLiteral lengthAccess, _ => valueKeywordLiteral_computes lengthAccess
  | .referenceLiteral _, _ => Computes.pure _
  | .unaryExpression _ _, h => unaryEvaluator_computes (evaluateExpression_computes h.1) h.2
  | .binaryExpression _ _ _, h =>
      binaryEvaluator_computes (evaluateExpression_computes h.1)
        (fun hevaluated => evaluateExpression_computes (h.2.1 hevaluated)) h.2.2
  | .ternaryExpression _ _ _ _, h =>
      ternaryEvaluator_computes (evaluateExpression_computes h.1)
        (fun hdefined => evaluateExpression_computes (h.2 hdefined).1)
        (fun hdefined => evaluateExpression_computes (h.2 hdefined).2)

theorem evaluateExpressions_computes : ∀ {es : List Expression},
    AllOperationsSucceed runtime env strategy es →
    Computes (evaluateExpressions runtime env strategy es) (meanings runtime env strategy es)
  | [], _ => Computes.pure _
  | _ :: _, h =>
      Computes.bind (evaluateExpression_computes h.1)
        (Computes.bind (evaluateExpressions_computes h.2) (Computes.pure _))

end

mutual

theorem evaluateExpression_throws : ∀ {e : Expression},
    ¬ OperationsSucceed runtime env strategy e →
    Throws (evaluateExpression runtime env strategy e)
  | .textLiteral _, h => (h trivial).elim
  | .numericLiteral _, h => (h trivial).elim
  | .booleanLiteral _, h => (h trivial).elim
  | .valuetypeAssignmentLiteral _, h => (h trivial).elim
  | .cellRangeLiteral _, h => (h trivial).elim
  | .valueKeywordLiteral _, h => (h trivial).elim
  | .referenceLiteral _, h => (h trivial).elim
  | .regexLiteral value, h => by
      have hinvalid : ¬ runtime.isRegExp value = true := h
      rw [evaluateExpression, if_neg hinvalid]
      exact Throws.error _
  | .collectionLiteral values, h =>
      have hvalues : ¬ AllOperationsSucceed runtime env strategy values := h
      (evaluateExpressions_throws hvalues).bind_left
  | .unaryExpression operator expression, h => by
      by_cases hoperand : OperationsSucceed runtime env strategy expression
      · obtain ⟨v, hv, hfails⟩ : ∃ v, meaning runtime env strategy expression = some v ∧
            ¬ UnarySucceeds runtime operator v := by
          by_contra hno
          exact h ⟨hoperand, fun v hv => by_contra fun hfails => hno ⟨v, hv, hfails⟩⟩
        have hcomputes := evaluateExpression_computes hoperand
        rw [hv] at hcomputes
        exact unaryEvaluator_throws hcomputes hfails
      · exact unaryEvaluator_throws_of_operand (evaluateExpression_throws hoperand)
  | .binaryExpression operator left right, h => by
      by_cases hleft : OperationsSucceed runtime env strategy left
      · have hcomputes := evaluateExpression_computes hleft
        by_cases hright : skipsRight strategy operator (meaning runtime env strategy left) = false →
            OperationsSucceed runtime env strategy right
        · obtain ⟨x, y, hx, hy, hfails⟩ : ∃ x y, meaning runtime env strategy left = some x ∧
              meaning runtime env strategy right = some y ∧
                ¬ BinarySucceeds runtime operator x y := by
            by_contra hno
            exact h ⟨hleft, hright, fun x y hx hy => by_contra fun hfails =>
              hno ⟨x, y, hx, hy, hfails⟩⟩
          have hevaluated := skipsRight_of_not_succeeds strategy hfails
          have hother := evaluateExpression_computes (hright (hx ▸ hevaluated))
          rw [hx] at hcomputes
          rw [hy] at hother
          exact binaryEvaluator_throws_of_operands hcomputes hother hfails
        · obtain ⟨hevaluated, hfails⟩ := Classical.not_imp.mp hright
          exact binaryEvaluator_throws hcomputes hevaluated (evaluateExpression_throws hfails)
      · exact binaryEvaluator_throws_of_left (evaluateExpression_throws hleft)
  | .ternaryExpression operator first second third, h => by
      cases operator
      by_cases hfirst : OperationsSucceed runtime env strategy first
      · have hfails : ¬ ((strategy = .lazy → meaning runtime env strategy first ≠ none) →
            OperationsSucceed runtime env strategy second ∧
              OperationsSucceed runtime env strategy third) := fun hrest => h ⟨hfirst, hrest⟩
        rw [Classical.not_imp] at hfails
        obtain ⟨hevaluated, hrest⟩ := hfails
        apply evaluateTernary_throws (evaluateExpression_computes hfirst) hevaluated
        by_cases hsecond : OperationsSucceed runtime env strategy second
        · have hthird := fun hthird => hrest ⟨hsecond, hthird⟩
          exact .inr ⟨⟨_, evaluateExpression_computes hsecond⟩, evaluateExpression_throws hthird⟩
        · exact .inl (evaluateExpression_throws hsecond)
      · exact (evaluateExpression_throws hfirst).bind_left

theorem evaluateExpressions_throws : ∀ {es : List Expression},
    ¬ AllOperationsSucceed runtime env strategy es →
    Throws (evaluateExpressions runtime env strategy es)
  | [], h => (h trivial).elim
  | e :: es, h => by
      rw [evaluateExpressions]
      by_cases he : OperationsSucceed runtime env strategy e
      · have hes := fun hes => h ⟨he, hes⟩
        exact Throws.bind (evaluateExpression_computes he)
          (evaluateExpressions_throws hes).bind_left
      · exact (evaluateExpression_throws he).bind_left

end

theorem evaluateExpression_yields {ast : Ast} {container : Option ValueTypeReference}
    {e : Expression} {T : ValueType} {d d' : List Diagnostic}
    (henv : WellTyped ast container env e.references)
    (hinfer : inferExpressionType ast container e d = some (.ok (some T), d'))
    (h : OperationsSucceed runtime env strategy e) :
    Exec.Yields (evaluateExpression runtime env strategy e)
      (.ok (meaning runtime env strategy e)) := by
  cases evaluateExpression_computes h with
  | inl hyields => exact hyields
  | inr hfails =>
      obtain ⟨log, hlog⟩ := hfails
      have hpreserves : typeguardError ≠ typeguardError :=
        evaluateExpression_sound_blind henv hinfer _ _ _ (hlog [])
      exact (hpreserves rfl).elim

/-- The evaluation of a well-typed expression returns, namely what the expression means, if
and only if no operator on the way throws: texts can be converted, and roots and quotients do not
overflow. -/
theorem evaluateExpression_returns_iff (ast : Ast) (runtime : JsRuntime)
    (container : Option ValueTypeReference) (env : EvaluationContext) (e : Expression)
    (T : ValueType) (d d' : List Diagnostic)
    (henv : WellTyped ast container env e.references)
    (hinfer : inferExpressionType ast container e d = some (.ok (some T), d'))
    (strategy : EvaluationStrategy) :
    (∀ diagnostics, ∃ value after,
      evaluateExpression runtime env strategy e diagnostics = some (.ok value, after)) ↔
    OperationsSucceed runtime env strategy e := by
  constructor
  · intro hreturns
    by_contra hfails
    obtain ⟨error, log, herror⟩ := evaluateExpression_throws hfails
    obtain ⟨value, after, hvalue⟩ := hreturns []
    cases hvalue.symm.trans (herror [])
  · intro hsucceeds diagnostics
    obtain ⟨log, hlog⟩ := evaluateExpression_yields henv hinfer hsucceeds
    exact ⟨_, _, hlog diagnostics⟩

/-- The expression can be evaluated: no operator on the way throws, and the result is a value. -/
structure CanBeEvaluated (runtime : JsRuntime) (env : EvaluationContext)
    (strategy : EvaluationStrategy) (e : Expression) : Prop where
  succeeds : OperationsSucceed runtime env strategy e
  defined : meaning runtime env strategy e ≠ none

section CanBeEvaluated

variable {ast : Ast} {container : Option ValueTypeReference} {e : Expression} {T : ValueType}
  {d d' : List Diagnostic}

theorem CanBeEvaluated.yields (h : CanBeEvaluated runtime env strategy e)
    (henv : WellTyped ast container env e.references)
    (hinfer : inferExpressionType ast container e d = some (.ok (some T), d')) :
    ∃ value, meaning runtime env strategy e = some value ∧
      Exec.Yields (evaluateExpression runtime env strategy e) (.ok (some value)) := by
  obtain ⟨value, hvalue⟩ := Option.ne_none_iff_exists'.mp h.defined
  have hyields := evaluateExpression_yields henv hinfer h.succeeds
  rw [hvalue] at hyields
  exact ⟨value, hvalue, hyields⟩

theorem evaluateExpression_of_not_canBeEvaluated
    (henv : WellTyped ast container env e.references)
    (hinfer : inferExpressionType ast container e d = some (.ok (some T), d'))
    (h : ¬ CanBeEvaluated runtime env strategy e) :
    Exec.Yields (evaluateExpression runtime env strategy e) (.ok none) ∨
      Throws (evaluateExpression runtime env strategy e) := by
  by_cases hsucceeds : OperationsSucceed runtime env strategy e
  · have hnone : meaning runtime env strategy e = none := by
      by_contra hdefined
      exact h ⟨hsucceeds, hdefined⟩
    have hyields := evaluateExpression_yields henv hinfer hsucceeds
    rw [hnone] at hyields
    exact .inl hyields
  · exact .inr (evaluateExpression_throws hsucceeds)

end CanBeEvaluated

end Operations

/-- `"text" asInteger`. -/
def textAsInteger (text : String) : Expression :=
  .unaryExpression .asInteger (.textLiteral text)

theorem textAsInteger_wellTyped (text : String) :
    WellTyped ageAst none ageContext (textAsInteger text).references := by
  refine ⟨?_, ?_, by simp⟩
  · intro port hport
    simp [textAsInteger, Expression.references] at hport
  · intro name valueType hproperty
    simp [textAsInteger, Expression.references] at hproperty

theorem evaluateExpression_returns_five :
    ∃ value after, evaluateExpression sampleRuntime ageContext .lazy (textAsInteger "5") [] =
      some (.ok value, after) := by
  have hreturns := (evaluateExpression_returns_iff ageAst sampleRuntime none ageContext
    (textAsInteger "5") ValueType.Integer [] [] (textAsInteger_wellTyped "5") rfl .lazy).mpr
  refine hreturns ⟨trivial, ?_⟩ []
  rintro v ⟨⟩
  show unaryMeaning sampleRuntime .asInteger (.string "5") ≠ none
  decide +kernel

theorem not_evaluateExpression_returns_abc :
    ¬ ∀ (ast : Ast) (runtime : JsRuntime) (container : Option ValueTypeReference)
      (env : EvaluationContext) (e : Expression) (T : ValueType) (d d' : List Diagnostic),
      WellTyped ast container env e.references →
      inferExpressionType ast container e d = some (.ok (some T), d') →
      ∀ (strategy : EvaluationStrategy) (diagnostics : List Diagnostic), ∃ value after,
        evaluateExpression runtime env strategy e diagnostics = some (.ok value, after) := by
  intro hreturns
  obtain ⟨value, after, hvalue⟩ := hreturns ageAst sampleRuntime none ageContext
    (textAsInteger "abc") ValueType.Integer [] [] (textAsInteger_wellTyped "abc") rfl .lazy []
  cases hvalue

end Jayvee
