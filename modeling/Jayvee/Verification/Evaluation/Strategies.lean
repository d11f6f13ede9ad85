import Jayvee.Verification.Evaluation.Meaning
import Jayvee.Verification.Typing.Preservation

/-! # The strategies of evaluation -/

namespace Jayvee

open Foundation

/-! ## Results that are kept -/

section Keeps

variable {α β A B C : Type}

/-- Some evaluation of `m` returns `a`. -/
def Returns (m : Validation α) (a : α) : Prop :=
  ∃ diagnostics after, m diagnostics = some (.ok a, after)

/-- Where one evaluation returns `a`, the other one always does. -/
def Keeps (m m' : Validation α) (a : α) : Prop :=
  Returns m a → ∀ diagnostics, ∃ after, m' diagnostics = some (.ok a, after)

theorem Returns.bind {m : Validation α} {f : α → Validation β} {b : β}
    (h : Returns (m >>= f) b) : ∃ a, Returns m a ∧ Returns (f a) b := by
  obtain ⟨diagnostics, after, h⟩ := h
  obtain ⟨a, between, hm, hf⟩ := Exec.bind_eq_ok_iff.mp h
  exact ⟨a, ⟨_, _, hm⟩, ⟨_, _, hf⟩⟩

theorem Returns.eq_of_pure {a b : α} (h : Returns (pure a) b) : b = a := by
  obtain ⟨diagnostics, after, h⟩ := h
  cases h
  rfl

/-- A value does not come from the branch that returns `undefined`. -/
theorem Returns.of_ite {c : Prop} [Decidable c] {m : Evaluation} {v : Value}
    (h : Returns (if c then pure none else m) (some v)) : Returns m (some v) := by
  split at h
  · cases h.eq_of_pure
  · exact h

theorem Keeps.of_eq {m : Validation α} {a b : α} (h : Returns m b → b = a) :
    Keeps m (pure a) b := by
  intro hreturns diagnostics
  rw [h hreturns]
  exact ⟨_, rfl⟩

theorem Keeps.pure (a b : α) : Keeps (pure a) (pure a) b :=
  Keeps.of_eq Returns.eq_of_pure

theorem Keeps.throw (error : JsError) (m : Validation α) (b : α) :
    Keeps (Exec.throw error) m b := by
  rintro ⟨diagnostics, after, h⟩
  cases h

/-- Only what leads to the result has to be kept. -/
theorem Keeps.bind {m m' : Validation α} {f f' : α → Validation β} {b : β}
    (h : ∀ a, Returns m a → Returns (f a) b → Keeps m m' a ∧ Keeps (f a) (f' a) b) :
    Keeps (m >>= f) (m' >>= f') b := by
  intro hreturns diagnostics
  obtain ⟨a, hm, hf⟩ := hreturns.bind
  obtain ⟨hkeepsm, hkeepsf⟩ := h a hm hf
  obtain ⟨between, hbetween⟩ := hkeepsm hm diagnostics
  obtain ⟨after, hafter⟩ := hkeepsf hf between
  exact ⟨after, by rw [Exec.bind_of_ok hbetween, hafter]⟩

theorem Keeps.ite {c : Prop} [Decidable c] {m m' n n' : Validation α} {a : α}
    (hm : Keeps m m' a) (hn : Keeps n n' a) :
    Keeps (if c then m else n) (if c then m' else n') a := by
  split
  · exact hm
  · exact hn

theorem Keeps.finiteResult (x : JsNumber) {otherwise otherwise' : Evaluation} {v : Option Value}
    (h : Keeps otherwise otherwise' v) :
    Keeps (Jayvee.finiteResult x otherwise) (Jayvee.finiteResult x otherwise') v :=
  Keeps.ite h (Keeps.pure _ _)

theorem Keeps.assertTypeguard {typeguard : Value → Option A} {value : Value}
    {f f' : A → Validation β} {b : β}
    (h : ∀ a, typeguard value = some a → Keeps (f a) (f' a) b) :
    Keeps (Jayvee.assertTypeguard typeguard value >>= f)
      (Jayvee.assertTypeguard typeguard value >>= f') b := by
  unfold Jayvee.assertTypeguard
  cases hvalue : typeguard value with
  | none =>
      intro hreturns
      obtain ⟨a, hthrows, _⟩ := hreturns.bind
      obtain ⟨diagnostics, after, hthrows⟩ := hthrows
      cases hthrows
  | some a => exact h a hvalue

theorem Keeps.ofExcept (r : Except JsError α) (b : α) :
    Keeps (Exec.ofExcept r) (Exec.ofExcept r) b := by
  rintro ⟨diagnostics, after, h⟩ diagnostics'
  obtain rfl : r = .ok b := by
    rw [Exec.ofExcept_apply] at h
    exact (Prod.mk.inj (Option.some.inj h)).1
  exact ⟨_, rfl⟩

theorem Keeps.arithmeticError (message : String) (expression : Expression) (v : Value) :
    Keeps (arithmeticError message expression) (arithmeticError message expression) (some v) := by
  intro h
  obtain ⟨_, _, hreturns⟩ := h.bind
  cases hreturns.eq_of_pure

end Keeps

/-! ## Operators -/

section Evaluators

variable {A B C : Type} {strategy strategy' : EvaluationStrategy} {v : Value}

theorem evaluateUnary_keeps {typeguard : Value → Option A} {doEvaluate : A → Evaluation}
    (hdo : ∀ a, Keeps (doEvaluate a) (doEvaluate a) (some v)) {operand operand' : Evaluation}
    (hoperand : ∀ x, Keeps operand operand' (some x)) :
    Keeps (evaluateUnary typeguard doEvaluate operand)
      (evaluateUnary typeguard doEvaluate operand') (some v) := by
  refine Keeps.bind fun value _ hreturns => ?_
  cases value with
  | none => cases hreturns.eq_of_pure
  | some x => exact ⟨hoperand x, Keeps.assertTypeguard fun a _ => hdo a⟩

theorem evaluateBinary_keeps {leftGuard : Value → Option A} {rightGuard : Value → Option B}
    {doEvaluate : A → B → Evaluation}
    (hdo : ∀ a b, Keeps (doEvaluate a b) (doEvaluate a b) (some v))
    {left left' right right' : Evaluation} (hleft : ∀ x, Keeps left left' (some x))
    (hright : ∀ x, Returns left (some x) → ∀ y, Keeps right right' (some y)) :
    Keeps (evaluateBinary leftGuard rightGuard doEvaluate strategy left right)
      (evaluateBinary leftGuard rightGuard doEvaluate strategy' left' right') (some v) := by
  refine Keeps.bind fun leftValue hleftReturns hreturns => ?_
  cases leftValue with
  | none =>
      obtain ⟨rightValue, _, hnone⟩ := hreturns.of_ite.bind
      cases hnone.eq_of_pure
  | some x =>
      rw [if_neg (by simp), if_neg (by simp)]
      refine ⟨hleft x, Keeps.bind fun rightValue _ hreturns => ?_⟩
      cases rightValue with
      | none => cases hreturns.eq_of_pure
      | some y =>
          refine ⟨hright x hleftReturns y, ?_⟩
          exact Keeps.assertTypeguard fun a _ => Keeps.assertTypeguard fun b _ => hdo a b

theorem evaluateBooleanShortCircuit_keeps {skipped : Bool} {doEvaluate : Bool → Bool → Bool}
    (hdo : ∀ b, doEvaluate skipped b = skipped) {left left' right right' : Evaluation}
    (hleft : ∀ x, Keeps left left' (some x))
    (hskips : strategy = .lazy → ¬ Returns left (some (.boolean skipped)))
    (hright : ∀ x, Returns left (some x) → ∀ y, Keeps right right' (some y)) :
    Keeps
      (evaluateBooleanShortCircuit (fun leftValue => leftValue == skipped) skipped doEvaluate
        strategy left right)
      (evaluateBooleanShortCircuit (fun leftValue => leftValue == skipped) skipped doEvaluate
        strategy' left' right') (some v) := by
  refine Keeps.bind fun leftValue hleftReturns hreturns => ?_
  cases leftValue with
  | none =>
      obtain ⟨_, _, hnone⟩ := hreturns.of_ite.bind
      cases hnone.eq_of_pure
  | some x =>
      refine ⟨hleft x, Keeps.assertTypeguard fun a ha => ?_⟩
      obtain rfl := booleanTypeguard_eq_some_iff.mp ha
      have hevaluated : ¬ (strategy = .lazy ∧ (a == skipped) = true) := by
        rintro ⟨hlazy, hskipped⟩
        obtain rfl : a = skipped := by simpa using hskipped
        exact hskips hlazy hleftReturns
      rw [if_neg hevaluated]
      by_cases hskipped' : strategy' = .lazy ∧ (a == skipped) = true
      · rw [if_pos hskipped']
        obtain rfl : a = skipped := by simpa using hskipped'.2
        refine Keeps.of_eq fun hreturns => ?_
        obtain ⟨rightValue, _, hreturns⟩ := hreturns.bind
        cases rightValue with
        | none => cases hreturns.eq_of_pure
        | some y =>
            obtain ⟨b, _, hreturns⟩ := hreturns.bind
            rw [hreturns.eq_of_pure, hdo]
      · rw [if_neg hskipped']
        refine Keeps.bind fun rightValue _ hreturns => ?_
        cases rightValue with
        | none => cases hreturns.eq_of_pure
        | some y =>
            refine ⟨hright _ hleftReturns y, ?_⟩
            exact Keeps.assertTypeguard fun b _ => Keeps.pure _ _

theorem evaluateTernary_keeps {firstGuard : Value → Option A} {secondGuard : Value → Option B}
    {thirdGuard : Value → Option C} {doEvaluate : A → B → C → Evaluation}
    (hdo : ∀ a b c, Keeps (doEvaluate a b c) (doEvaluate a b c) (some v))
    {first first' second second' third third' : Evaluation}
    (hfirst : ∀ x, Keeps first first' (some x))
    (hsecond : ∀ x, Returns first (some x) → ∀ y, Keeps second second' (some y))
    (hthird : ∀ x, Returns first (some x) → ∀ z, Keeps third third' (some z)) :
    Keeps (evaluateTernary firstGuard secondGuard thirdGuard doEvaluate strategy first second third)
      (evaluateTernary firstGuard secondGuard thirdGuard doEvaluate strategy' first' second' third')
      (some v) := by
  refine Keeps.bind fun firstValue hfirstReturns hreturns => ?_
  cases firstValue with
  | none =>
      obtain ⟨_, _, hreturns⟩ := hreturns.of_ite.bind
      obtain ⟨_, _, hnone⟩ := hreturns.bind
      cases hnone.eq_of_pure
  | some x =>
      rw [if_neg (by simp), if_neg (by simp)]
      refine ⟨hfirst x, Keeps.bind fun secondValue _ hreturns => ?_⟩
      cases secondValue with
      | none =>
          obtain ⟨_, _, hnone⟩ := hreturns.bind
          cases hnone.eq_of_pure
      | some y =>
          refine ⟨hsecond x hfirstReturns y, Keeps.bind fun thirdValue _ hreturns => ?_⟩
          cases thirdValue with
          | none => cases hreturns.eq_of_pure
          | some z =>
              refine ⟨hthird x hfirstReturns z, ?_⟩
              exact Keeps.assertTypeguard fun a _ => Keeps.assertTypeguard fun b _ =>
                Keeps.assertTypeguard fun c _ => hdo a b c

end Evaluators

section Operators

variable {runtime : JsRuntime} {expression : Expression}
  {strategy strategy' : EvaluationStrategy} {v : Value}

theorem unaryEvaluator_keeps {operator : UnaryExpressionOperator} {operand operand' : Evaluation}
    (hoperand : ∀ x, Keeps operand operand' (some x)) :
    Keeps (unaryEvaluator runtime expression operator operand)
      (unaryEvaluator runtime expression operator operand') (some v) := by
  cases operator
  case sqrt =>
    refine evaluateUnary_keeps (fun x => Keeps.finiteResult _ ?_) hoperand
    exact Keeps.ite (Keeps.arithmeticError _ _ _) (Keeps.throw _ _ _)
  case asDecimal | asInteger | asBoolean =>
    refine evaluateUnary_keeps (fun text => ?_) hoperand
    cases PrimitiveValueType.fromString runtime.nearest text _ with
    | some result => exact Keeps.pure _ _
    | none => exact Keeps.throw _ _ _
  all_goals exact evaluateUnary_keeps (fun _ => Keeps.pure _ _) hoperand

theorem binaryEvaluator_keeps {operator : BinaryExpressionOperator}
    {left left' right right' : Evaluation} (hleft : ∀ x, Keeps left left' (some x))
    (hskips : strategy = .lazy → ∀ x, Returns left (some x) → skips operator x = false)
    (hright : ∀ x, Returns left (some x) → ∀ y, Keeps right right' (some y)) :
    Keeps (binaryEvaluator runtime expression operator strategy left right)
      (binaryEvaluator runtime expression operator strategy' left' right') (some v) := by
  cases operator
  case and | or =>
    refine evaluateBooleanShortCircuit_keeps (fun _ => rfl) hleft (fun hlazy hreturns => ?_) hright
    cases hskips hlazy _ hreturns
  case pow | modulo =>
    refine evaluateBinary_keeps (fun x y => Keeps.finiteResult _ ?_) hleft hright
    exact Keeps.ite (Keeps.arithmeticError _ _ _) (Keeps.arithmeticError _ _ _)
  case root =>
    refine evaluateBinary_keeps (fun x y => Keeps.finiteResult _ ?_) hleft hright
    exact Keeps.ite (Keeps.arithmeticError _ _ _)
      (Keeps.ite (Keeps.arithmeticError _ _ _) (Keeps.arithmeticError _ _ _))
  case divide =>
    refine evaluateBinary_keeps (fun x y => Keeps.finiteResult _ ?_) hleft hright
    exact Keeps.ite (Keeps.arithmeticError _ _ _) (Keeps.throw _ _ _)
  all_goals exact evaluateBinary_keeps (fun _ _ => Keeps.pure _ _) hleft hright

theorem ternaryEvaluator_keeps {operator : TernaryExpressionOperator}
    {first first' second second' third third' : Evaluation}
    (hfirst : ∀ x, Keeps first first' (some x))
    (hsecond : ∀ x, Returns first (some x) → ∀ y, Keeps second second' (some y))
    (hthird : ∀ x, Returns first (some x) → ∀ z, Keeps third third' (some z)) :
    Keeps (ternaryEvaluator runtime operator strategy first second third)
      (ternaryEvaluator runtime operator strategy' first' second' third') (some v) := by
  cases operator
  exact evaluateTernary_keeps (fun _ _ _ => Keeps.pure _ _) hfirst hsecond hthird

end Operators

/-! ## Expressions -/

section Expressions

mutual

/-- In the lazy evaluation, some `and` or `or` is decided by its left operand. -/
def ShortCircuits (runtime : JsRuntime) (env : EvaluationContext) : Expression → Prop
  | .collectionLiteral values => AnyShortCircuits runtime env values
  | .unaryExpression _ expression => ShortCircuits runtime env expression
  | .binaryExpression operator left right =>
      ShortCircuits runtime env left ∨
        ∃ x, Returns (evaluateExpression runtime env .lazy left) (some x) ∧
          (skips operator x = true ∨ ShortCircuits runtime env right)
  | .ternaryExpression _ first second third =>
      ShortCircuits runtime env first ∨
        (∃ x, Returns (evaluateExpression runtime env .lazy first) (some x)) ∧
          (ShortCircuits runtime env second ∨ ShortCircuits runtime env third)
  | _ => False

def AnyShortCircuits (runtime : JsRuntime) (env : EvaluationContext) : List Expression → Prop
  | [] => False
  | value :: values => ShortCircuits runtime env value ∨ AnyShortCircuits runtime env values

end

variable {runtime : JsRuntime} {env : EvaluationContext}
  {strategy strategy' : EvaluationStrategy}

theorem collection_keeps {m m' : Validation (List (Option Value))}
    (h : ∀ vs : List Value, Keeps m m' (vs.map some)) (v : Value) :
    Keeps (m >>= fun values => return (isEveryValueDefined values).map Value.collection)
      (m' >>= fun values => return (isEveryValueDefined values).map Value.collection) (some v) := by
  refine Keeps.bind fun values _ hreturns => ?_
  cases hdefined : isEveryValueDefined values with
  | none =>
      rw [hdefined] at hreturns
      cases hreturns.eq_of_pure
  | some vs =>
      obtain rfl := isEveryValueDefined_eq_some.mp hdefined
      exact ⟨h vs, Keeps.pure _ _⟩

mutual

/-- Without a short circuit, both strategies return the same defined values. -/
theorem evaluateExpression_keeps : ∀ {e : Expression},
    (strategy = .lazy → ¬ ShortCircuits runtime env e) → ∀ v,
      Keeps (evaluateExpression runtime env strategy e)
        (evaluateExpression runtime env strategy' e) (some v)
  | .textLiteral _, _, _ => Keeps.pure _ _
  | .numericLiteral _, _, _ => Keeps.pure _ _
  | .booleanLiteral _, _, _ => Keeps.pure _ _
  | .valuetypeAssignmentLiteral _, _, _ => Keeps.pure _ _
  | .regexLiteral value, _, _ => by
      rw [evaluateExpression, evaluateExpression]
      exact Keeps.ite (Keeps.pure _ _) (Keeps.throw _ _ _)
  | .cellRangeLiteral literal, _, _ => by
      rw [evaluateExpression, evaluateExpression]
      exact Keeps.ite (Keeps.pure _ _) (Keeps.pure _ _)
  | .valueKeywordLiteral _, _, _ => Keeps.ofExcept _ _
  | .referenceLiteral _, _, _ => Keeps.pure _ _
  | .collectionLiteral values, h, v => by
      have hvalues : strategy = .lazy → ¬ AnyShortCircuits runtime env values := h
      exact collection_keeps (fun vs => evaluateExpressions_keeps hvalues vs) v
  | .unaryExpression _ expression, h, _ => by
      have hoperand : strategy = .lazy → ¬ ShortCircuits runtime env expression := h
      exact unaryEvaluator_keeps fun x => evaluateExpression_keeps hoperand x
  | .binaryExpression operator left right, h, _ => by
      have hshort : strategy = .lazy → ¬ (ShortCircuits runtime env left ∨
          ∃ x, Returns (evaluateExpression runtime env .lazy left) (some x) ∧
            (skips operator x = true ∨ ShortCircuits runtime env right)) := h
      have hleft : strategy = .lazy → ¬ ShortCircuits runtime env left :=
        fun hlazy hleft => hshort hlazy (.inl hleft)
      refine binaryEvaluator_keeps (fun x => evaluateExpression_keeps hleft x) ?_ ?_
      · rintro rfl x hx
        by_contra hskips
        exact hshort rfl (.inr ⟨x, hx, .inl (by simpa using hskips)⟩)
      · intro x hx y
        refine evaluateExpression_keeps ?_ y
        rintro rfl hright
        exact hshort rfl (.inr ⟨x, hx, .inr hright⟩)
  | .ternaryExpression operator first second third, h, _ => by
      have hshort : strategy = .lazy → ¬ (ShortCircuits runtime env first ∨
          (∃ x, Returns (evaluateExpression runtime env .lazy first) (some x)) ∧
            (ShortCircuits runtime env second ∨ ShortCircuits runtime env third)) := h
      have hfirst : strategy = .lazy → ¬ ShortCircuits runtime env first :=
        fun hlazy hfirst => hshort hlazy (.inl hfirst)
      refine ternaryEvaluator_keeps (fun x => evaluateExpression_keeps hfirst x) ?_ ?_
      · intro x hx y
        refine evaluateExpression_keeps ?_ y
        rintro rfl hsecond
        exact hshort rfl (.inr ⟨⟨x, hx⟩, .inl hsecond⟩)
      · intro x hx z
        refine evaluateExpression_keeps ?_ z
        rintro rfl hthird
        exact hshort rfl (.inr ⟨⟨x, hx⟩, .inr hthird⟩)

theorem evaluateExpressions_keeps : ∀ {es : List Expression},
    (strategy = .lazy → ¬ AnyShortCircuits runtime env es) → ∀ vs : List Value,
      Keeps (evaluateExpressions runtime env strategy es)
        (evaluateExpressions runtime env strategy' es) (vs.map some)
  | [], _, _ => Keeps.pure _ _
  | e :: es, h, vs => by
      have hshort : strategy = .lazy →
          ¬ (ShortCircuits runtime env e ∨ AnyShortCircuits runtime env es) := h
      have hhead : strategy = .lazy → ¬ ShortCircuits runtime env e :=
        fun hlazy he => hshort hlazy (.inl he)
      have htail : strategy = .lazy → ¬ AnyShortCircuits runtime env es :=
        fun hlazy hes => hshort hlazy (.inr hes)
      rw [evaluateExpressions, evaluateExpressions]
      refine Keeps.bind fun value _ hreturns => ?_
      obtain ⟨values, _, hvalues⟩ := hreturns.bind
      cases vs with
      | nil => cases hvalues.eq_of_pure
      | cons v vs =>
          obtain ⟨rfl, rfl⟩ := List.cons.inj hvalues.eq_of_pure
          refine ⟨evaluateExpression_keeps hhead v, Keeps.bind fun values _ hreturns => ?_⟩
          obtain ⟨_, rfl⟩ := List.cons.inj hreturns.eq_of_pure
          exact ⟨evaluateExpressions_keeps htail vs, Keeps.pure _ _⟩

end

/-- What the exhaustive evaluation returns, the lazy one returns as well; only a short circuit
makes the lazy one return a value where the exhaustive one returns `undefined`. -/
theorem lazy_refines_exhaustive (runtime : JsRuntime) (env : EvaluationContext) (e : Expression) :
    (∀ v : Value, Returns (evaluateExpression runtime env .exhaustive e) (some v) →
      ∀ diagnostics, ∃ after,
        evaluateExpression runtime env .lazy e diagnostics = some (.ok (some v), after)) ∧
    (∀ v : Value, Returns (evaluateExpression runtime env .lazy e) (some v) →
      Returns (evaluateExpression runtime env .exhaustive e) none →
      ShortCircuits runtime env e) := by
  constructor
  · intro v hreturns
    have hkeeps : Keeps (evaluateExpression runtime env .exhaustive e)
        (evaluateExpression runtime env .lazy e) (some v) :=
      evaluateExpression_keeps (fun hlazy => by cases hlazy) v
    exact hkeeps hreturns
  · intro v hlazy hexhaustive
    by_contra hshort
    have hkeeps : Keeps (evaluateExpression runtime env .lazy e)
        (evaluateExpression runtime env .exhaustive e) (some v) :=
      evaluateExpression_keeps (fun _ => hshort) v
    obtain ⟨diagnostics, _, hnone⟩ := hexhaustive
    obtain ⟨_, hsome⟩ := hkeeps hlazy diagnostics
    rw [hnone] at hsome
    cases hsome

end Expressions

end Jayvee
