import Jayvee.Verification.Evaluation.Strategies
import Jayvee.Verification.Expressions.Subexpressions

/-! # Values without diagnostics -/

namespace Jayvee

open Foundation

/-! ## Programs that report nothing -/

/-- Where the result has the property, nothing was reported. -/
def QuietIf {α : Type} (P : α → Prop) (m : Validation α) : Prop :=
  ∀ diagnostics a after, m diagnostics = some (.ok a, after) → P a → after = diagnostics

/-- An evaluation with a value reports nothing. -/
abbrev Quiet (m : Evaluation) : Prop :=
  QuietIf (fun value => value.isSome = true) m

namespace QuietIf

variable {α β : Type} {P : α → Prop} {Q : β → Prop}

theorem of_reads {m : Validation α} (h : Exec.Reads m) : QuietIf P m :=
  fun _ _ _ hrun _ => h.same hrun

theorem bind {m : Validation α} {f : α → Validation β} (hm : QuietIf P m)
    (hf : ∀ a, P a → QuietIf Q (f a))
    (hneeds : ∀ a diagnostics b after, f a diagnostics = some (.ok b, after) → Q b → P a) :
    QuietIf Q (m >>= f) := by
  intro diagnostics b after hrun hb
  obtain ⟨a, between, hfirst, hsecond⟩ := Exec.bind_eq_ok_iff.mp hrun
  have ha := hneeds a between b after hsecond hb
  rw [hf a ha between b after hsecond hb, hm diagnostics a between hfirst ha]

/-- The operand of an operator without a value has none either. -/
theorem bind_operand {m : Evaluation} {f : Option Value → Evaluation} (hm : Quiet m)
    (hf : ∀ value, Quiet (f (some value)))
    (hnone : ∀ diagnostics value after, f none diagnostics = some (.ok value, after) →
      value = none) : Quiet (m >>= f) := by
  refine hm.bind (fun value hvalue => ?_) fun value diagnostics result after hrun hresult => ?_
  · obtain ⟨value, rfl⟩ := Option.isSome_iff_exists.mp hvalue
    exact hf value
  · cases value with
    | none =>
        rw [hnone diagnostics result after hrun] at hresult
        cases hresult
    | some value => rfl

theorem bind_typeguard {A : Type} {typeguard : Value → Option A} {value : Value}
    {f : A → Validation β} (hf : ∀ a, QuietIf Q (f a)) :
    QuietIf Q (assertTypeguard typeguard value >>= f) := by
  refine bind (P := fun _ => True) (of_reads ?_) (fun a _ => hf a) fun _ _ _ _ _ _ => trivial
  unfold assertTypeguard
  split
  · exact Exec.Reads.pure _
  · exact Exec.Reads.throw _

end QuietIf

/-! ## Operators -/

section Evaluators

variable {A B C : Type} {firstGuard : Value → Option A} {secondGuard : Value → Option B}
  {thirdGuard : Value → Option C} {strategy : EvaluationStrategy}
  {first second third : Evaluation}

theorem arithmeticError_quiet (message : String) (expression : Expression) :
    Quiet (arithmeticError message expression) := by
  intro diagnostics value after hrun hvalue
  cases hrun
  cases hvalue

theorem evaluateUnary_quiet {doEvaluate : A → Evaluation} (hdo : ∀ a, Quiet (doEvaluate a))
    (hfirst : Quiet first) : Quiet (evaluateUnary firstGuard doEvaluate first) := by
  refine hfirst.bind_operand (fun value => QuietIf.bind_typeguard hdo) ?_
  rintro diagnostics value after ⟨⟩
  rfl

theorem evaluateBinary_quiet {doEvaluate : A → B → Evaluation}
    (hdo : ∀ a b, Quiet (doEvaluate a b)) (hfirst : Quiet first) (hsecond : Quiet second) :
    Quiet (evaluateBinary firstGuard secondGuard doEvaluate strategy first second) := by
  refine hfirst.bind_operand (fun leftValue => ?_) ?_
  · rw [if_neg (by simp)]
    refine hsecond.bind_operand (fun rightValue => ?_) ?_
    · exact QuietIf.bind_typeguard fun a => QuietIf.bind_typeguard fun b => hdo a b
    · rintro diagnostics value after ⟨⟩
      rfl
  · intro diagnostics value after hrun
    split at hrun
    · cases hrun
      rfl
    · obtain ⟨rightValue, _, _, hrun⟩ := Exec.bind_eq_ok_iff.mp hrun
      cases hrun
      rfl

theorem evaluateBooleanShortCircuit_quiet (canSkip : Bool → Bool) (shortCircuitValue : Bool)
    (doEvaluate : Bool → Bool → Bool) (hfirst : Quiet first) (hsecond : Quiet second) :
    Quiet (evaluateBooleanShortCircuit canSkip shortCircuitValue doEvaluate strategy first
      second) := by
  refine hfirst.bind_operand (fun leftValue => QuietIf.bind_typeguard fun a => ?_) ?_
  · split
    · exact QuietIf.of_reads (Exec.Reads.pure _)
    · refine hsecond.bind_operand (fun rightValue => ?_) ?_
      · exact QuietIf.bind_typeguard fun b => QuietIf.of_reads (Exec.Reads.pure _)
      · rintro diagnostics value after ⟨⟩
        rfl
  · intro diagnostics value after hrun
    dsimp only at hrun
    split at hrun
    · cases hrun
      rfl
    · obtain ⟨rightValue, _, _, hrun⟩ := Exec.bind_eq_ok_iff.mp hrun
      cases hrun
      rfl

theorem evaluateTernary_quiet {doEvaluate : A → B → C → Evaluation}
    (hdo : ∀ a b c, Quiet (doEvaluate a b c)) (hfirst : Quiet first) (hsecond : Quiet second)
    (hthird : Quiet third) :
    Quiet (evaluateTernary firstGuard secondGuard thirdGuard doEvaluate strategy first second
      third) := by
  refine hfirst.bind_operand (fun firstValue => ?_) ?_
  · rw [if_neg (by simp)]
    refine hsecond.bind_operand (fun secondValue => ?_) ?_
    · refine hthird.bind_operand (fun thirdValue => ?_) ?_
      · exact QuietIf.bind_typeguard fun a => QuietIf.bind_typeguard fun b =>
          QuietIf.bind_typeguard fun c => hdo a b c
      · rintro diagnostics value after ⟨⟩
        rfl
    · intro diagnostics value after hrun
      obtain ⟨thirdValue, _, _, hrun⟩ := Exec.bind_eq_ok_iff.mp hrun
      cases hrun
      rfl
  · intro diagnostics value after hrun
    split at hrun
    · cases hrun
      rfl
    · obtain ⟨secondValue, _, _, hrun⟩ := Exec.bind_eq_ok_iff.mp hrun
      obtain ⟨thirdValue, _, _, hrun⟩ := Exec.bind_eq_ok_iff.mp hrun
      cases hrun
      rfl

end Evaluators

/-! ## Expressions -/

section Expressions

variable {runtime : JsRuntime} {env : EvaluationContext} {strategy : EvaluationStrategy}
  {first second third : Evaluation}

theorem Quiet.pure (value : Option Value) : Quiet (pure value) :=
  QuietIf.of_reads (Exec.Reads.pure value)

theorem Quiet.throw (error : JsError) : Quiet (Exec.throw error) :=
  QuietIf.of_reads (Exec.Reads.throw error)

theorem Quiet.ite {c : Prop} [Decidable c] {m m' : Evaluation} (hm : Quiet m) (hm' : Quiet m') :
    Quiet (if c then m else m') := by
  split
  · exact hm
  · exact hm'

theorem Quiet.finiteResult (x : JsNumber) {otherwise : Evaluation} (h : Quiet otherwise) :
    Quiet (Jayvee.finiteResult x otherwise) :=
  Quiet.ite h (Quiet.pure _)

theorem unaryEvaluator_quiet (expression : Expression) (operator : UnaryExpressionOperator)
    (h : Quiet first) : Quiet (unaryEvaluator runtime expression operator first) := by
  have hparse : ∀ (kind : PrimitiveValueType) (description : String),
      Quiet (evaluateParse runtime kind description first) := by
    intro kind description
    refine evaluateUnary_quiet (fun text => ?_) h
    split
    · exact Quiet.pure _
    · exact Quiet.throw _
  cases operator
  case sqrt =>
    refine evaluateUnary_quiet (fun x => Quiet.finiteResult _ ?_) h
    exact Quiet.ite (arithmeticError_quiet _ _) (Quiet.throw _)
  case asDecimal => exact hparse _ _
  case asInteger => exact hparse _ _
  case asBoolean => exact hparse _ _
  all_goals exact evaluateUnary_quiet (fun _ => Quiet.pure _) h

theorem binaryEvaluator_quiet (expression : Expression) (operator : BinaryExpressionOperator)
    (hfirst : Quiet first) (hsecond : Quiet second) :
    Quiet (binaryEvaluator runtime expression operator strategy first second) := by
  cases operator
  case pow | modulo =>
    refine evaluateBinary_quiet (fun x y => Quiet.finiteResult _ ?_) hfirst hsecond
    exact Quiet.ite (arithmeticError_quiet _ _) (arithmeticError_quiet _ _)
  case root =>
    refine evaluateBinary_quiet (fun x y => Quiet.finiteResult _ ?_) hfirst hsecond
    exact Quiet.ite (arithmeticError_quiet _ _)
      (Quiet.ite (arithmeticError_quiet _ _) (arithmeticError_quiet _ _))
  case divide =>
    refine evaluateBinary_quiet (fun x y => Quiet.finiteResult _ ?_) hfirst hsecond
    exact Quiet.ite (arithmeticError_quiet _ _) (Quiet.throw _)
  case and => exact evaluateBooleanShortCircuit_quiet _ _ _ hfirst hsecond
  case or => exact evaluateBooleanShortCircuit_quiet _ _ _ hfirst hsecond
  all_goals exact evaluateBinary_quiet (fun _ _ => Quiet.pure _) hfirst hsecond

theorem ternaryEvaluator_quiet (operator : TernaryExpressionOperator) (hfirst : Quiet first)
    (hsecond : Quiet second) (hthird : Quiet third) :
    Quiet (ternaryEvaluator runtime operator strategy first second third) := by
  cases operator
  exact evaluateTernary_quiet (fun _ _ _ => Quiet.pure _) hfirst hsecond hthird

theorem evaluateExpressions_quiet {values : List Expression}
    (h : ∀ value ∈ values, Quiet (evaluateExpression runtime env strategy value)) :
    QuietIf (fun evaluated => (isEveryValueDefined evaluated).isSome = true)
      (evaluateExpressions runtime env strategy values) := by
  induction values with
  | nil => exact QuietIf.of_reads (Exec.Reads.pure [])
  | cons value values ih =>
      rw [List.forall_mem_cons] at h
      intro diagnostics evaluated after hrun hdefined
      obtain ⟨head, between, hhead, hrun⟩ := Exec.bind_eq_ok_iff.mp hrun
      obtain ⟨tail, _, htail, hrun⟩ := Exec.bind_eq_ok_iff.mp hrun
      cases hrun
      obtain ⟨all, hall⟩ := Option.isSome_iff_exists.mp hdefined
      have hvalues := isEveryValueDefined_eq_some.mp hall
      cases all with
      | nil => cases hvalues
      | cons first rest =>
          obtain ⟨rfl, rfl⟩ := List.cons.inj hvalues
          have hrest : (isEveryValueDefined (rest.map some)).isSome = true :=
            Option.isSome_iff_exists.mpr ⟨rest, isEveryValueDefined_eq_some.mpr rfl⟩
          rw [ih h.2 _ _ _ htail hrest, h.1 _ _ _ hhead rfl]

theorem evaluateExpression_quiet (expression : Expression) :
    Quiet (evaluateExpression runtime env strategy expression) := by
  induction expression using Expression.inductionOnChildren with
  | step expression ih =>
    cases expression with
    | collectionLiteral values =>
        refine (evaluateExpressions_quiet ih).bind (fun evaluated _ => Quiet.pure _) ?_
        rintro evaluated diagnostics value after ⟨⟩ hvalue
        rwa [Option.isSome_map] at hvalue
    | unaryExpression operator operand =>
        exact unaryEvaluator_quiet _ operator (ih operand (by simp [Expression.children]))
    | binaryExpression operator left right =>
        exact binaryEvaluator_quiet _ operator (ih left (by simp [Expression.children]))
          (ih right (by simp [Expression.children]))
    | ternaryExpression operator first second third =>
        exact ternaryEvaluator_quiet operator (ih first (by simp [Expression.children]))
          (ih second (by simp [Expression.children])) (ih third (by simp [Expression.children]))
    | regexLiteral value => exact Quiet.ite (Quiet.pure _) (Quiet.throw _)
    | cellRangeLiteral literal => exact Quiet.ite (Quiet.pure _) (Quiet.pure _)
    | valueKeywordLiteral lengthAccess => exact QuietIf.of_reads (Exec.Reads.ofExcept _)
    | _ => exact Quiet.pure _

end Expressions

end Jayvee
