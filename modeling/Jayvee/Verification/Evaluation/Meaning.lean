import Jayvee.Model.Evaluation

/-! # What an expression means

An expression means a value or `undefined`, whether or not its evaluation gets that far. -/

namespace Jayvee

open Foundation

section Meaning

variable (runtime : JsRuntime)

/-! ## Operators -/

/-- The number, if it is finite. -/
def finiteNumber (x : JsNumber) : Option Value :=
  if x.isFinite then some (.number x) else none

def unaryMeaning : UnaryExpressionOperator → Value → Option Value
  | .not, .boolean value => some (.boolean !value)
  | .plus, .number value => some (.number value)
  | .minus, .number value => some (.number (-value))
  | .sqrt, .number value => finiteNumber (value.sqrt runtime.squareRoot)
  | .floor, .number value => some (.number value.floor)
  | .ceil, .number value => some (.number value.ceil)
  | .round, .number value => some (.number value.round)
  | .lowercase, .string text => some (.string (runtime.toLowerCase text))
  | .uppercase, .string text => some (.string (runtime.toUpperCase text))
  | .asDecimal, .string text => PrimitiveValueType.decimal.fromString runtime.nearest text
  | .asInteger, .string text => PrimitiveValueType.integer.fromString runtime.nearest text
  | .asBoolean, .string text => PrimitiveValueType.boolean.fromString runtime.nearest text
  | .asText, .string text => some (.string text)
  | _, _ => none

def binaryMeaning : BinaryExpressionOperator → Value → Value → Option Value
  | .pow, .number x, .number y => finiteNumber (runtime.pow x y)
  | .root, .number x, .number y => finiteNumber (runtime.pow x (JsNumber.div runtime.nearest 1 y))
  | .multiply, .number x, .number y => some (.number (JsNumber.mul runtime.nearest x y))
  | .divide, .number x, .number y => finiteNumber (JsNumber.div runtime.nearest x y)
  | .modulo, .number x, .number y => finiteNumber (x.modulo y)
  | .plus, .number x, .number y => some (.number (JsNumber.add runtime.nearest x y))
  | .minus, .number x, .number y => some (.number (JsNumber.sub runtime.nearest x y))
  | .matches, .string text, .regExp source => some (.boolean (runtime.test source text))
  | .in, x, .collection values => some (.boolean (values.any fun value => value.sameValueZero x))
  | .less, .number x, .number y => some (.boolean (x < y))
  | .lessEqual, .number x, .number y => some (.boolean (x ≤ y))
  | .greater, .number x, .number y => some (.boolean (x > y))
  | .greaterEqual, .number x, .number y => some (.boolean (x ≥ y))
  | .equal, x, y => some (.boolean (x.strictEquals y))
  | .unequal, x, y => some (.boolean !(x.strictEquals y))
  | .xor, .boolean a, .boolean b => some (.boolean ((a && !b) || (!a && b)))
  | .and, .boolean a, .boolean b => some (.boolean (a && b))
  | .or, .boolean a, .boolean b => some (.boolean (a || b))
  | _, _, _ => none

def ternaryMeaning : TernaryExpressionOperator → Value → Value → Value → Option Value
  | .replace, .string text, .regExp source, .string replacement =>
      some (.string (runtime.replace text source replacement))
  | _, _, _, _ => none

/-- The operator does not throw: a text can be converted, and a number has a finite root or is
negative. -/
def UnarySucceeds : UnaryExpressionOperator → Value → Prop
  | .asDecimal, v => unaryMeaning runtime .asDecimal v ≠ none
  | .asInteger, v => unaryMeaning runtime .asInteger v ≠ none
  | .asBoolean, v => unaryMeaning runtime .asBoolean v ≠ none
  | .sqrt, .number x => (x.sqrt runtime.squareRoot).isFinite = true ∨ x < 0
  | _, _ => True

/-- The operator does not throw: a quotient is finite, or the divisor is zero. -/
def BinarySucceeds : BinaryExpressionOperator → Value → Value → Prop
  | .divide, .number x, .number y =>
      (JsNumber.div runtime.nearest x y).isFinite = true ∨ y.strictEquals 0 = true
  | _, _, _ => True

/-- The left operand determines the result. -/
def skips : BinaryExpressionOperator → (left : Value) → Bool
  | .and, .boolean value => !value
  | .or, .boolean value => value
  | _, _ => false

/-- The right operand is not evaluated. -/
def skipsRight (strategy : EvaluationStrategy) (operator : BinaryExpressionOperator) :
    (left : Option Value) → Bool
  | none => strategy = .lazy
  | some left => strategy = .lazy ∧ skips operator left

/-- The result of a binary operator whose right operand may be skipped. -/
def binaryResult (operator : BinaryExpressionOperator) (strategy : EvaluationStrategy)
    (left right : Option Value) : Option Value :=
  if skipsRight strategy operator left then
    left
  else
    left.bind fun x => right.bind (binaryMeaning runtime operator x)

/-! ## Expressions -/

mutual

def meaning (env : EvaluationContext) (strategy : EvaluationStrategy) :
    Expression → Option Value
  | .textLiteral value => some (.string value)
  | .numericLiteral value => some (.number value)
  | .booleanLiteral value => some (.boolean value)
  | .valuetypeAssignmentLiteral value => some (.valuetypeAssignment value)
  | .regexLiteral value => if runtime.isRegExp value then some (.regExp value) else none
  | .cellRangeLiteral literal => if literal.canBeWrapped then some (.cellRange literal) else none
  | .collectionLiteral values =>
      (isEveryValueDefined (meanings env strategy values)).map Value.collection
  | .valueKeywordLiteral true => do
      let text ← env.valueKeywordValue.bind Value.stringTypeguard
      return .number (.finite (JsRuntime.length text))
  | .valueKeywordLiteral false => env.valueKeywordValue
  | .referenceLiteral value => env.getValueForReference value
  | .unaryExpression operator expression =>
      (meaning env strategy expression).bind (unaryMeaning runtime operator)
  | .binaryExpression operator left right =>
      binaryResult runtime operator strategy (meaning env strategy left)
        (meaning env strategy right)
  | .ternaryExpression operator first second third =>
      (meaning env strategy first).bind fun x =>
        (meaning env strategy second).bind fun y =>
          (meaning env strategy third).bind (ternaryMeaning runtime operator x y)

def meanings (env : EvaluationContext) (strategy : EvaluationStrategy) :
    List Expression → List (Option Value)
  | [] => []
  | value :: values => meaning env strategy value :: meanings env strategy values

end

end Meaning

/-! ## Type guards -/

@[simp] theorem numberTypeguard_eq_some_iff {v : Value} {x : JsNumber} :
    v.numberTypeguard = some x ↔ v = .number x := by
  cases v <;> simp [Value.numberTypeguard]

@[simp] theorem booleanTypeguard_eq_some_iff {v : Value} {b : Bool} :
    v.booleanTypeguard = some b ↔ v = .boolean b := by
  cases v <;> simp [Value.booleanTypeguard]

@[simp] theorem stringTypeguard_eq_some_iff {v : Value} {text : String} :
    v.stringTypeguard = some text ↔ v = .string text := by
  cases v <;> simp [Value.stringTypeguard]

@[simp] theorem regexpTypeguard_eq_some_iff {v : Value} {source : String} :
    v.regexpTypeguard = some source ↔ v = .regExp source := by
  cases v <;> simp [Value.regexpTypeguard]

/-! ## Computing a meaning -/

section Computes

variable {α β A : Type}

/-- A type guard fails in the evaluation. -/
def TypeguardFails (m : Validation α) : Prop :=
  Exec.Yields m (.error typeguardError)

/-- The evaluation yields `a`, unless a type guard fails. -/
def Computes (m : Validation α) (a : α) : Prop :=
  Exec.Yields m (.ok a) ∨ TypeguardFails m

theorem Computes.pure (a : α) : Computes (pure a) a :=
  .inl (Exec.Yields.pure a)

theorem Computes.bind {m : Validation α} {f : α → Validation β} {a : α} {b : β}
    (hm : Computes m a) (hf : Computes (f a) b) : Computes (m >>= f) b := by
  cases hm with
  | inl hm =>
      cases hf with
      | inl hf => exact .inl (hm.bind hf)
      | inr hf => exact .inr (hm.bind hf)
  | inr hm => exact .inr (Exec.Yields.bind_error hm)

theorem Computes.ite {c : Prop} [Decidable c] {m m' : Validation α} {a : α}
    (hm : c → Computes m a) (hm' : ¬ c → Computes m' a) : Computes (if c then m else m') a := by
  by_cases h : c
  · rw [if_pos h]
    exact hm h
  · rw [if_neg h]
    exact hm' h

/-- Only a type guard fails between a value and what is done behind its type guard. -/
theorem Computes.assertTypeguard {typeguard : Value → Option A} {value : Value}
    {f : A → Validation β} {b : β} (hf : ∀ a, typeguard value = some a → Computes (f a) b) :
    Computes (Jayvee.assertTypeguard typeguard value >>= f) b := by
  unfold Jayvee.assertTypeguard
  cases hvalue : typeguard value with
  | none => exact .inr (Exec.Yields.throw _).bind_error
  | some a => exact hf a hvalue

theorem Computes.arithmeticError (message : String) (expression : Expression) :
    Computes (arithmeticError message expression) none := by
  have haccept : ∀ info, Exec.Yields (accept .error message info) (.ok ()) :=
    fun info => ⟨[_], fun _ => rfl⟩
  exact .inl ((haccept _).bind (Exec.Yields.pure none))

/-- What is done where the result is not finite yields `undefined`. -/
theorem Computes.finiteResult {x : JsNumber} {otherwise : Evaluation}
    (h : x.isFinite = false → Computes otherwise none) :
    Computes (Jayvee.finiteResult x otherwise) (finiteNumber x) := by
  unfold Jayvee.finiteResult finiteNumber
  cases hx : x.isFinite with
  | true => exact Computes.pure _
  | false => exact h hx

end Computes

/-! ## Operator evaluators -/

section Evaluators

variable {A B C : Type} {strategy : EvaluationStrategy}

theorem evaluateUnary_computes {typeguard : Value → Option A} {doEvaluate : A → Evaluation}
    {meaning : Value → Option Value} {operand : Evaluation} {value : Option Value}
    (hoperand : Computes operand value)
    (hdo : ∀ v a, value = some v → typeguard v = some a → Computes (doEvaluate a) (meaning v)) :
    Computes (evaluateUnary typeguard doEvaluate operand) (value.bind meaning) := by
  apply hoperand.bind
  cases value with
  | none => exact Computes.pure none
  | some v => exact Computes.assertTypeguard fun a ha => hdo v a rfl ha

theorem evaluateBinary_computes {leftGuard : Value → Option A} {rightGuard : Value → Option B}
    {doEvaluate : A → B → Evaluation} {meaning : Value → Value → Option Value}
    {left right : Evaluation} {leftValue rightValue : Option Value}
    (hdo : ∀ x y a b, leftValue = some x → rightValue = some y → leftGuard x = some a →
      rightGuard y = some b → Computes (doEvaluate a b) (meaning x y))
    (hleft : Computes left leftValue)
    (hright : (strategy = .lazy → leftValue ≠ none) → Computes right rightValue) :
    Computes (evaluateBinary leftGuard rightGuard doEvaluate strategy left right)
      (leftValue.bind fun x => rightValue.bind (meaning x)) := by
  apply hleft.bind
  cases leftValue with
  | none =>
      apply Computes.ite
      · intro _
        exact Computes.pure none
      · intro hexhaustive
        apply Computes.bind (hright _)
        · exact Computes.pure none
        · intro hlazy
          simp [hlazy] at hexhaustive
  | some x =>
      apply Computes.ite
      · intro hnone
        simp at hnone
      · intro _
        apply Computes.bind (hright (by simp))
        cases rightValue with
        | none => exact Computes.pure none
        | some y =>
            exact Computes.assertTypeguard fun a ha => Computes.assertTypeguard fun b hb =>
              hdo x y a b rfl rfl ha hb

theorem evaluateBooleanShortCircuit_computes {skipped : Bool} {doEvaluate : Bool → Bool → Bool}
    {meaning : Value → Value → Option Value}
    (hdo : ∀ a b, meaning (.boolean a) (.boolean b) = some (.boolean (doEvaluate a b)))
    {left right : Evaluation} {leftValue rightValue : Option Value}
    (hleft : Computes left leftValue)
    (hright : (strategy = .lazy →
      leftValue ≠ none ∧ leftValue.bind Value.booleanTypeguard ≠ some skipped) →
      Computes right rightValue) :
    Computes
      (evaluateBooleanShortCircuit (fun leftValue => leftValue == skipped) skipped doEvaluate
        strategy left right)
      (if strategy = .lazy ∧ leftValue.bind Value.booleanTypeguard = some skipped then
        leftValue
      else
        leftValue.bind fun x => rightValue.bind (meaning x)) := by
  apply hleft.bind
  cases leftValue with
  | none =>
      show Computes _ (ite _ none none)
      rw [ite_self]
      apply Computes.ite
      · intro _
        exact Computes.pure none
      · intro hexhaustive
        apply Computes.bind (hright fun hlazy => (hexhaustive hlazy).elim)
        exact Computes.pure none
  | some x =>
      apply Computes.assertTypeguard
      intro a ha
      obtain rfl := booleanTypeguard_eq_some_iff.mp ha
      by_cases hskip : strategy = .lazy ∧ a = skipped
      · rw [if_pos (by simpa using hskip), if_pos (by simpa [Value.booleanTypeguard] using hskip),
          hskip.2]
        exact Computes.pure _
      · rw [if_neg (by simpa using hskip), if_neg (by simpa [Value.booleanTypeguard] using hskip)]
        apply Computes.bind (hright _)
        · cases rightValue with
          | none => exact Computes.pure none
          | some y =>
              apply Computes.assertTypeguard
              intro b hb
              obtain rfl := booleanTypeguard_eq_some_iff.mp hb
              show Computes _ (meaning (.boolean a) (.boolean b))
              rw [hdo]
              exact Computes.pure _
        · intro hlazy
          simpa [hlazy, Value.booleanTypeguard] using hskip

theorem evaluateTernary_computes {firstGuard : Value → Option A}
    {secondGuard : Value → Option B} {thirdGuard : Value → Option C}
    {doEvaluate : A → B → C → Evaluation} {meaning : Value → Value → Value → Option Value}
    (hdo : ∀ x y z a b c, firstGuard x = some a → secondGuard y = some b →
      thirdGuard z = some c → Computes (doEvaluate a b c) (meaning x y z))
    {first second third : Evaluation} {firstValue secondValue thirdValue : Option Value}
    (hfirst : Computes first firstValue)
    (hsecond : (strategy = .lazy → firstValue ≠ none) → Computes second secondValue)
    (hthird : (strategy = .lazy → firstValue ≠ none) → Computes third thirdValue) :
    Computes (evaluateTernary firstGuard secondGuard thirdGuard doEvaluate strategy first second
        third)
      (firstValue.bind fun x => secondValue.bind fun y => thirdValue.bind (meaning x y)) := by
  apply hfirst.bind
  cases firstValue with
  | none =>
      apply Computes.ite
      · intro _
        exact Computes.pure none
      · intro hexhaustive
        have hlazy : strategy ≠ .lazy := by simpa using hexhaustive
        apply Computes.bind (hsecond fun h => (hlazy h).elim)
        apply Computes.bind (hthird fun h => (hlazy h).elim)
        exact Computes.pure none
  | some x =>
      apply Computes.ite
      · intro hnone
        simp at hnone
      · intro _
        apply Computes.bind (hsecond (by simp))
        apply Computes.bind (hthird (by simp))
        cases secondValue with
        | none => exact Computes.pure none
        | some y =>
            cases thirdValue with
            | none => exact Computes.pure none
            | some z =>
                exact Computes.assertTypeguard fun a ha => Computes.assertTypeguard fun b hb =>
                  Computes.assertTypeguard fun c hc => hdo x y z a b c ha hb hc

end Evaluators

/-! ## Operators -/

section Operators

variable {runtime : JsRuntime} {expression : Expression}

theorem evaluateParse_computes {kind : PrimitiveValueType} {description : String}
    {meaning : Value → Option Value}
    (hmeaning : ∀ text, meaning (.string text) = kind.fromString runtime.nearest text)
    {operand : Evaluation} {value : Option Value} (hoperand : Computes operand value)
    (hconverts : ∀ v, value = some v → meaning v ≠ none) :
    Computes (evaluateParse runtime kind description operand) (value.bind meaning) := by
  apply evaluateUnary_computes hoperand
  intro v text hv htext
  obtain rfl := stringTypeguard_eq_some_iff.mp htext
  obtain ⟨result, hresult⟩ := Option.ne_none_iff_exists'.mp (hconverts _ hv)
  rw [hresult]
  rw [hmeaning] at hresult
  rw [hresult]
  exact Computes.pure _

theorem evaluateNumber_computes {f : JsNumber → JsNumber} {meaning : Value → Option Value}
    (hmeaning : ∀ x, meaning (.number x) = some (.number (f x))) {operand : Evaluation}
    {value : Option Value} (hoperand : Computes operand value) :
    Computes (evaluateNumber f operand) (value.bind meaning) := by
  apply evaluateUnary_computes hoperand
  intro v x _ hx
  obtain rfl := numberTypeguard_eq_some_iff.mp hx
  rw [hmeaning]
  exact Computes.pure _

theorem evaluateText_computes {f : String → String} {meaning : Value → Option Value}
    (hmeaning : ∀ text, meaning (.string text) = some (.string (f text))) {operand : Evaluation}
    {value : Option Value} (hoperand : Computes operand value) :
    Computes (evaluateText f operand) (value.bind meaning) := by
  apply evaluateUnary_computes hoperand
  intro v text _ htext
  obtain rfl := stringTypeguard_eq_some_iff.mp htext
  rw [hmeaning]
  exact Computes.pure _

theorem sqrtOperatorEvaluator_computes {operand : Evaluation} {value : Option Value}
    (hoperand : Computes operand value)
    (hsucceeds : ∀ v, value = some v → UnarySucceeds runtime .sqrt v) :
    Computes (sqrtOperatorEvaluator runtime expression operand)
      (value.bind (unaryMeaning runtime .sqrt)) := by
  apply evaluateUnary_computes hoperand
  intro v x hv hx
  obtain rfl := numberTypeguard_eq_some_iff.mp hx
  refine Computes.finiteResult fun hinfinite => ?_
  obtain hfinite | hnegative := hsucceeds _ hv
  · exact absurd hfinite (Bool.eq_false_iff.mp hinfinite)
  · rw [if_pos hnegative]
    exact Computes.arithmeticError _ _

theorem unaryEvaluator_computes {operator : UnaryExpressionOperator} {operand : Evaluation}
    {value : Option Value} (hoperand : Computes operand value)
    (hsucceeds : ∀ v, value = some v → UnarySucceeds runtime operator v) :
    Computes (unaryEvaluator runtime expression operator operand)
      (value.bind (unaryMeaning runtime operator)) := by
  cases operator
  case asDecimal | asInteger | asBoolean =>
    exact evaluateParse_computes (fun _ => rfl) hoperand hsucceeds
  case sqrt => exact sqrtOperatorEvaluator_computes hoperand hsucceeds
  case plus | minus | floor | ceil | round =>
    refine evaluateNumber_computes ?_ hoperand
    exact fun _ => rfl
  case lowercase | uppercase | asText =>
    refine evaluateText_computes ?_ hoperand
    exact fun _ => rfl
  case not =>
    apply evaluateUnary_computes hoperand
    intro v b _ hb
    obtain rfl := booleanTypeguard_eq_some_iff.mp hb
    exact Computes.pure _

theorem evaluateNumbers_computes {strategy : EvaluationStrategy}
    {doEvaluate : JsNumber → JsNumber → Evaluation} {meaning : Value → Value → Option Value}
    {left right : Evaluation} {leftValue rightValue : Option Value}
    (hdo : ∀ x y, leftValue = some (.number x) → rightValue = some (.number y) →
      Computes (doEvaluate x y) (meaning (.number x) (.number y)))
    (hleft : Computes left leftValue)
    (hright : (strategy = .lazy → leftValue ≠ none) → Computes right rightValue) :
    Computes
      (evaluateBinary Value.numberTypeguard Value.numberTypeguard doEvaluate strategy left right)
      (leftValue.bind fun x => rightValue.bind (meaning x)) := by
  refine evaluateBinary_computes ?_ hleft hright
  intro v w x y hv hw hx hy
  obtain rfl := numberTypeguard_eq_some_iff.mp hx
  obtain rfl := numberTypeguard_eq_some_iff.mp hy
  exact hdo x y hv hw

theorem inOperatorEvaluator_computes {strategy : EvaluationStrategy} {left right : Evaluation}
    {leftValue rightValue : Option Value} (hleft : Computes left leftValue)
    (hright : (strategy = .lazy → leftValue ≠ none) → Computes right rightValue) :
    Computes (inOperatorEvaluator strategy left right)
      (leftValue.bind fun x => rightValue.bind (binaryMeaning runtime .in x)) := by
  refine evaluateBinary_computes ?_ hleft hright
  intro x y a values _ hvalue hx hy
  clear hvalue
  cases y <;> try cases hy
  rename_i elements
  have hvalues : elements = values := by
    rw [isRightOperandMatchingValueRepresentationTypeguard] at hy
    split at hy
    · exact Option.some.inj hy
    · cases hy
  have ha : x = a := by
    cases x <;> cases hx <;> rfl
  subst hvalues ha
  simp only [binaryMeaning]
  exact Computes.pure _

theorem skips_eq_false {operator : BinaryExpressionOperator} (hand : operator ≠ .and)
    (hor : operator ≠ .or) (x : Value) : skips operator x = false := by
  cases operator
  case and => exact (hand rfl).elim
  case or => exact (hor rfl).elim
  all_goals cases x <;> rfl

theorem binaryEvaluator_computes_of_strict {operator : BinaryExpressionOperator}
    {strategy : EvaluationStrategy} (hand : operator ≠ .and) (hor : operator ≠ .or)
    {left right : Evaluation} {leftValue rightValue : Option Value}
    (hleft : Computes left leftValue)
    (hright : (strategy = .lazy → leftValue ≠ none) → Computes right rightValue)
    (hsucceeds : ∀ x y, leftValue = some x → rightValue = some y →
      BinarySucceeds runtime operator x y) :
    Computes (binaryEvaluator runtime expression operator strategy left right)
      (leftValue.bind fun x => rightValue.bind (binaryMeaning runtime operator x)) := by
  cases operator
  case and => exact (hand rfl).elim
  case or => exact (hor rfl).elim
  case multiply | plus | minus | less | lessEqual | greater | greaterEqual =>
    refine evaluateNumbers_computes ?_ hleft hright
    exact fun _ _ _ _ => Computes.pure _
  case pow | modulo =>
    refine evaluateNumbers_computes (fun x y _ _ => Computes.finiteResult fun _ => ?_) hleft hright
    exact Computes.ite (fun _ => Computes.arithmeticError _ _) fun _ =>
      Computes.arithmeticError _ _
  case root =>
    refine evaluateNumbers_computes (fun x y _ _ => Computes.finiteResult fun _ => ?_) hleft hright
    apply Computes.ite fun _ => Computes.arithmeticError _ _
    exact fun _ => Computes.ite (fun _ => Computes.arithmeticError _ _) fun _ =>
      Computes.arithmeticError _ _
  case divide =>
    refine evaluateNumbers_computes (fun x y hx hy => ?_) hleft hright
    refine Computes.finiteResult fun hinfinite => ?_
    obtain hfinite | hzero := hsucceeds _ _ hx hy
    · exact absurd hfinite (Bool.eq_false_iff.mp hinfinite)
    · rw [if_pos hzero]
      exact Computes.arithmeticError _ _
  case «in» => exact inOperatorEvaluator_computes hleft hright
  case «matches» =>
    refine evaluateBinary_computes ?_ hleft hright
    intro v w text source _ _ htext hsource
    obtain rfl := stringTypeguard_eq_some_iff.mp htext
    obtain rfl := regexpTypeguard_eq_some_iff.mp hsource
    exact Computes.pure _
  case equal | unequal =>
    refine evaluateBinary_computes ?_ hleft hright
    rintro v w _ _ _ _ ⟨⟩ ⟨⟩
    cases v <;> exact Computes.pure _
  case xor =>
    refine evaluateBinary_computes ?_ hleft hright
    intro v w a b _ _ ha hb
    obtain rfl := booleanTypeguard_eq_some_iff.mp ha
    obtain rfl := booleanTypeguard_eq_some_iff.mp hb
    exact Computes.pure _

theorem booleanShortCircuit_computes {operator : BinaryExpressionOperator} {skipped : Bool}
    {doEvaluate : Bool → Bool → Bool} {strategy : EvaluationStrategy}
    (hskips : ∀ x, skips operator x = true ↔ x = .boolean skipped)
    (hdo : ∀ a b,
      binaryMeaning runtime operator (.boolean a) (.boolean b) = some (.boolean (doEvaluate a b)))
    {left right : Evaluation} {leftValue rightValue : Option Value}
    (hleft : Computes left leftValue)
    (hright : skipsRight strategy operator leftValue = false → Computes right rightValue) :
    Computes
      (evaluateBooleanShortCircuit (fun leftValue => leftValue == skipped) skipped doEvaluate
        strategy left right)
      (binaryResult runtime operator strategy leftValue rightValue) := by
  have hresult : binaryResult runtime operator strategy leftValue rightValue =
      if strategy = .lazy ∧ leftValue.bind Value.booleanTypeguard = some skipped then
        leftValue
      else
        leftValue.bind fun x => rightValue.bind (binaryMeaning runtime operator x) := by
    cases leftValue with
    | none => simp [binaryResult]
    | some x => exact if_congr (by simp [skipsRight, hskips]) rfl rfl
  rw [hresult]
  apply evaluateBooleanShortCircuit_computes hdo hleft
  intro hevaluated
  apply hright
  cases leftValue with
  | none => simpa [skipsRight] using hevaluated
  | some x => simpa [skipsRight, ← hskips] using hevaluated

theorem binaryEvaluator_computes {operator : BinaryExpressionOperator}
    {strategy : EvaluationStrategy} {left right : Evaluation}
    {leftValue rightValue : Option Value} (hleft : Computes left leftValue)
    (hright : skipsRight strategy operator leftValue = false → Computes right rightValue)
    (hsucceeds : ∀ x y, leftValue = some x → rightValue = some y →
      BinarySucceeds runtime operator x y) :
    Computes (binaryEvaluator runtime expression operator strategy left right)
      (binaryResult runtime operator strategy leftValue rightValue) := by
  by_cases hand : operator = .and
  · subst hand
    refine booleanShortCircuit_computes ?_ (fun _ _ => rfl) hleft hright
    intro x
    cases x <;> simp [skips]
  by_cases hor : operator = .or
  · subst hor
    refine booleanShortCircuit_computes ?_ (fun _ _ => rfl) hleft hright
    intro x
    cases x <;> simp [skips]
  have hstrict : binaryResult runtime operator strategy leftValue rightValue =
      leftValue.bind fun x => rightValue.bind (binaryMeaning runtime operator x) := by
    cases leftValue with
    | none => simp [binaryResult]
    | some x => simp [binaryResult, skipsRight, skips_eq_false hand hor]
  rw [hstrict]
  refine binaryEvaluator_computes_of_strict hand hor hleft (fun hdefined => ?_) hsucceeds
  apply hright
  cases leftValue with
  | none => simpa [skipsRight] using hdefined
  | some x => simp [skipsRight, skips_eq_false hand hor]

theorem ternaryEvaluator_computes {operator : TernaryExpressionOperator}
    {strategy : EvaluationStrategy} {first second third : Evaluation}
    {firstValue secondValue thirdValue : Option Value} (hfirst : Computes first firstValue)
    (hsecond : (strategy = .lazy → firstValue ≠ none) → Computes second secondValue)
    (hthird : (strategy = .lazy → firstValue ≠ none) → Computes third thirdValue) :
    Computes (ternaryEvaluator runtime operator strategy first second third)
      (firstValue.bind fun x => secondValue.bind fun y =>
        thirdValue.bind (ternaryMeaning runtime operator x y)) := by
  cases operator
  refine evaluateTernary_computes ?_ hfirst hsecond hthird
  intro u v w text source replacement htext hsource hreplacement
  obtain rfl := stringTypeguard_eq_some_iff.mp htext
  obtain rfl := regexpTypeguard_eq_some_iff.mp hsource
  obtain rfl := stringTypeguard_eq_some_iff.mp hreplacement
  exact Computes.pure _

end Operators

end Jayvee
