import Jayvee.Verification.Typing.CollectionTypes
import Jayvee.Verification.Typing.NumberReadings
import Jayvee.Verification.Typing.TypingRules

/-! # Evaluation preserves the inferred type -/

namespace Jayvee

open Foundation ValueType

/-! ## Sound evaluations -/

/-- An outcome for an expression of type `T`: `undefined`, a value of `T`, or an error that
no assertion raised. -/
def Preserves (ast : Ast) (T : ValueType) : Except JsError (Option Value) → Prop
  | .ok none => True
  | .ok (some v) => HasType ast T v
  | .error e => e.isAssertionError = false

variable {ast : Ast} {runtime : JsRuntime} {reading : Reading runtime}

/-- The value has the type if its numbers are taken for what they are read as. -/
def Reading.HasType (reading : Reading runtime) (ast : Ast) (T : ValueType) (v : Value) : Prop :=
  ValueType.HasType ast T (v.mapNumbers reading.read)

/-- An outcome for an expression of type `T` under a reading of numbers. -/
def Reading.Preserves (reading : Reading runtime) (ast : Ast) (T : ValueType) :
    Except JsError (Option Value) → Prop
  | .ok none => True
  | .ok (some v) => reading.HasType ast T v
  | .error e => reading.mayThrow e

/-- Every outcome of `m` is one for an expression of type `T`. -/
def Sound (reading : Reading runtime) (ast : Ast) (T : ValueType) (m : Evaluation) : Prop :=
  ∀ diagnostics, Exec.Post m diagnostics fun r _ => reading.Preserves ast T r

theorem Reading.hasType_of_hasType {T : ValueType} {v : Value} (h : ValueType.HasType ast T v) :
    reading.HasType ast T v :=
  h.mapNumbers reading.keepsTypes

theorem Reading.hasType_collection_iff {T : ValueType} {v : Value} :
    reading.HasType ast (.collection T) v ↔
      ∃ values, v = .collection values ∧ ∀ value ∈ values, reading.HasType ast T value := by
  refine ValueType.hasType_collection.trans ⟨fun h => ?_, fun h => ?_⟩
  · obtain ⟨mapped, heq, hvalues⟩ := h
    cases v with
    | collection values =>
        cases heq
        rw [Value.mapNumbersOfList_eq_map, List.forall_mem_map] at hvalues
        exact ⟨values, rfl, hvalues⟩
    | _ => cases heq
  · obtain ⟨values, rfl, hvalues⟩ := h
    refine ⟨_, rfl, ?_⟩
    rwa [Value.mapNumbersOfList_eq_map, List.forall_mem_map]

theorem preserves_exact_iff {hexact : ∀ v, runtime.nearest v = .finite v} {T : ValueType}
    {r : Except JsError (Option Value)} :
    (Reading.exact hexact).Preserves ast T r ↔ Preserves ast T r := by
  cases r with
  | error e => exact Iff.rfl
  | ok value =>
      cases value with
      | none => exact Iff.rfl
      | some v =>
          show HasType ast T (v.mapNumbers id) ↔ _
          rw [Value.mapNumbers_id]
          exact Iff.rfl

theorem sound_return_none {T : ValueType} : Sound reading ast T (pure none) :=
  fun _ => Exec.Post.pure trivial

theorem sound_return_some {T : ValueType} {v : Value} (hv : reading.HasType ast T v) :
    Sound reading ast T (pure (some v)) :=
  fun _ => Exec.Post.pure hv

theorem sound_throw {T : ValueType} {e : JsError} (he : reading.mayThrow e) :
    Sound reading ast T (Exec.throw e) :=
  fun _ => Exec.Post.throw he

theorem sound_arithmeticError {T : ValueType} (message : String) (expression : Expression) :
    Sound reading ast T (arithmeticError message expression) := by
  intro diagnostics
  refine Exec.Post.bind (P := fun r _ => r = .ok ()) ?_ ?_ ?_
  · exact Exec.Post.modify rfl
  · intro _ t _
    exact sound_return_none t
  · intro e t he
    cases he

theorem Sound.bind {T U : ValueType} {m : Evaluation} {f : Option Value → Evaluation}
    (hm : Sound reading ast T m)
    (hf : ∀ r : Option Value, (∀ v, r = some v → reading.HasType ast T v) →
      Sound reading ast U (f r)) :
    Sound reading ast U (m >>= f) := by
  intro diagnostics
  refine Exec.Post.bind (hm diagnostics) ?_ (fun e t he => he)
  intro r t hr
  refine hf r ?_ t
  rintro v rfl
  exact hr

theorem assertTypeguard_of_some {A : Type} {typeguard : Value → Option A} {v : Value} {a : A}
    (h : typeguard v = some a) : assertTypeguard typeguard v = pure a := by
  rw [assertTypeguard, h]

/-! ## Operator evaluators -/

section Evaluators

variable {A B C : Type} {S T R U : ValueType}

theorem evaluateUnary_sound {typeguard : Value → Option A} {doEvaluate : A → Evaluation}
    {operand : Evaluation} {P : A → Prop} (hoperand : Sound reading ast T operand)
    (hguard : ∀ v, reading.HasType ast T v → ∃ a, typeguard v = some a ∧ P a)
    (hdo : ∀ a, P a → Sound reading ast U (doEvaluate a)) :
    Sound reading ast U (evaluateUnary typeguard doEvaluate operand) := by
  refine hoperand.bind fun operandValue hvalue => ?_
  cases operandValue with
  | none => exact sound_return_none
  | some v =>
      obtain ⟨a, ha, hP⟩ := hguard v (hvalue v rfl)
      simp only [assertTypeguard_of_some ha]
      exact hdo a hP

theorem evaluateBinary_sound {leftGuard : Value → Option A} {rightGuard : Value → Option B}
    {doEvaluate : A → B → Evaluation} {strategy : EvaluationStrategy} {left right : Evaluation}
    {P : A → Prop} {Q : B → Prop} (hleft : Sound reading ast T left)
    (hright : Sound reading ast R right)
    (hleftGuard : ∀ v, reading.HasType ast T v → ∃ a, leftGuard v = some a ∧ P a)
    (hrightGuard : ∀ v, reading.HasType ast R v → ∃ b, rightGuard v = some b ∧ Q b)
    (hdo : ∀ a b, P a → Q b → Sound reading ast U (doEvaluate a b)) :
    Sound reading ast U (evaluateBinary leftGuard rightGuard doEvaluate strategy left right) := by
  refine hleft.bind fun leftValue hleftValue => ?_
  split
  · exact sound_return_none
  · refine hright.bind fun rightValue hrightValue => ?_
    cases leftValue with
    | none => exact sound_return_none
    | some l =>
        cases rightValue with
        | none => exact sound_return_none
        | some r =>
            obtain ⟨a, ha, hP⟩ := hleftGuard l (hleftValue l rfl)
            obtain ⟨b, hb, hQ⟩ := hrightGuard r (hrightValue r rfl)
            simp only [assertTypeguard_of_some ha, assertTypeguard_of_some hb]
            exact hdo a b hP hQ

theorem evaluateTernary_sound {firstGuard : Value → Option A} {secondGuard : Value → Option B}
    {thirdGuard : Value → Option C} {doEvaluate : A → B → C → Evaluation}
    {strategy : EvaluationStrategy} {first second third : Evaluation}
    (hfirst : Sound reading ast S first) (hsecond : Sound reading ast T second)
    (hthird : Sound reading ast R third)
    (hfirstGuard : ∀ v, reading.HasType ast S v → ∃ a, firstGuard v = some a)
    (hsecondGuard : ∀ v, reading.HasType ast T v → ∃ b, secondGuard v = some b)
    (hthirdGuard : ∀ v, reading.HasType ast R v → ∃ c, thirdGuard v = some c)
    (hdo : ∀ a b c, Sound reading ast U (doEvaluate a b c)) :
    Sound reading ast U (evaluateTernary firstGuard secondGuard thirdGuard doEvaluate strategy
      first second third) := by
  refine hfirst.bind fun firstValue hfirstValue => ?_
  split
  · exact sound_return_none
  · refine hsecond.bind fun secondValue hsecondValue => ?_
    refine hthird.bind fun thirdValue hthirdValue => ?_
    cases firstValue with
    | none => exact sound_return_none
    | some x =>
        cases secondValue with
        | none => exact sound_return_none
        | some y =>
            cases thirdValue with
            | none => exact sound_return_none
            | some z =>
                obtain ⟨a, ha⟩ := hfirstGuard x (hfirstValue x rfl)
                obtain ⟨b, hb⟩ := hsecondGuard y (hsecondValue y rfl)
                obtain ⟨c, hc⟩ := hthirdGuard z (hthirdValue z rfl)
                simp only [assertTypeguard_of_some ha, assertTypeguard_of_some hb,
                  assertTypeguard_of_some hc]
                exact hdo a b c

/-- Both operands are checked to be boolean, also where the right one is not evaluated. -/
theorem evaluateBooleanShortCircuit_sound {canSkip : Bool → Bool} {shortCircuitValue : Bool}
    {doEvaluate : Bool → Bool → Bool} {strategy : EvaluationStrategy} {left right : Evaluation}
    (hleft : Sound reading ast T left) (hright : Sound reading ast R right)
    (hleftGuard : ∀ v, reading.HasType ast T v → ∃ a, v.booleanTypeguard = some a)
    (hrightGuard : ∀ v, reading.HasType ast R v → ∃ b, v.booleanTypeguard = some b) :
    Sound reading ast Boolean (evaluateBooleanShortCircuit canSkip shortCircuitValue doEvaluate
      strategy left right) := by
  have hboolean : ∀ b, reading.HasType ast Boolean (.boolean b) :=
    fun b => hasType_primitive.mpr rfl
  refine hleft.bind fun leftValue hleftValue => ?_
  cases leftValue with
  | none =>
      simp only
      split
      · exact sound_return_none
      · exact hright.bind fun _ _ => sound_return_none
  | some l =>
      obtain ⟨a, ha⟩ := hleftGuard l (hleftValue l rfl)
      simp only [assertTypeguard_of_some ha, pure_bind]
      split
      · exact sound_return_some (hboolean _)
      · refine hright.bind fun rightValue hrightValue => ?_
        cases rightValue with
        | none => exact sound_return_none
        | some r =>
            obtain ⟨b, hb⟩ := hrightGuard r (hrightValue r rfl)
            simp only [assertTypeguard_of_some hb]
            exact sound_return_some (hboolean _)

end Evaluators

/-! ## Type guards -/

section Guards

variable {T : ValueType} {v : Value}

theorem numberTypeguard_of_hasType (hT : T.isConvertibleTo ast Decimal = .ok true) (v : Value)
    (hv : reading.HasType ast T v) :
    ∃ x, v.numberTypeguard = some x ∧ HasType ast T (.number (reading.read x)) := by
  have hdecimal := hasType_primitive.mp (hv.convert hT)
  cases v with
  | number x => exact ⟨x, rfl, hv⟩
  | _ => cases hdecimal

theorem isFinite_of_hasType {x : JsNumber} (hT : T.isConvertibleTo ast Decimal = .ok true)
    (hx : HasType ast T (.number x)) : x.isFinite = true :=
  hasType_decimal_iff.mp (hx.convert hT)

theorem stringTypeguard_of_hasType (hT : T.isConvertibleTo ast Text = .ok true) (v : Value)
    (hv : reading.HasType ast T v) : ∃ s, v.stringTypeguard = some s := by
  have htext := hasType_primitive.mp (hv.convert hT)
  cases v with
  | string s => exact ⟨s, rfl⟩
  | _ => cases htext

theorem booleanTypeguard_of_hasType (hT : T.isConvertibleTo ast Boolean = .ok true) (v : Value)
    (hv : reading.HasType ast T v) : ∃ b, v.booleanTypeguard = some b := by
  have hboolean := hasType_primitive.mp (hv.convert hT)
  cases v with
  | boolean b => exact ⟨b, rfl⟩
  | _ => cases hboolean

theorem regexpTypeguard_of_hasType (hT : T.isConvertibleTo ast Regex = .ok true) (v : Value)
    (hv : reading.HasType ast T v) : ∃ source, v.regexpTypeguard = some source := by
  have hregex := hasType_primitive.mp (hv.convert hT)
  cases v with
  | regExp source => exact ⟨source, rfl⟩
  | _ => cases hregex

end Guards

/-! ## Numbers -/

theorem sound_return_decimal {x : JsNumber} (hx : (reading.read x).isFinite = true) :
    Sound reading ast Decimal (pure (some (.number x))) :=
  sound_return_some (hasType_decimal_iff.mpr hx)

/-- The result is a decimal if it is finite, and what is done otherwise is sound. -/
theorem finiteResult_sound {x : JsNumber} {otherwise : Evaluation}
    (h : x.isFinite = false → Sound reading ast Decimal otherwise) :
    Sound reading ast Decimal (finiteResult x otherwise) := by
  unfold finiteResult
  cases hx : x.isFinite with
  | true => exact sound_return_decimal ((reading.keepsTypes x).isFinite hx)
  | false => exact h hx

/-! ## Unary operators -/

section UnaryOperators

variable {T U : ValueType} {operand : Evaluation}

theorem evaluateNumber_sound {f : JsNumber → JsNumber} (hoperand : Sound reading ast T operand)
    (hT : T.isConvertibleTo ast Decimal = .ok true)
    (hf : ∀ x, HasType ast T (.number (reading.read x)) →
      HasType ast U (.number (reading.read (f x)))) :
    Sound reading ast U (evaluateNumber f operand) :=
  evaluateUnary_sound hoperand (numberTypeguard_of_hasType hT)
    fun x hx => sound_return_some (hf x hx)

theorem evaluateText_sound {f : String → String} (hoperand : Sound reading ast T operand)
    (hT : T.isConvertibleTo ast Text = .ok true) :
    Sound reading ast Text (evaluateText f operand) := by
  refine evaluateUnary_sound (P := fun _ => True) hoperand ?_ ?_
  · simpa using stringTypeguard_of_hasType hT
  · intro s _
    exact sound_return_some (hasType_primitive.mpr rfl)

/-- What a value type parses a text to is a value of it. -/
theorem hasType_of_fromString {kind : PrimitiveValueType} {s : String} {v : Value}
    (h : kind.fromString runtime.nearest s = some v) :
    reading.HasType ast (.primitive kind) v := by
  apply hasType_primitive.mpr
  cases kind with
  | boolean =>
      simp only [PrimitiveValueType.fromString] at h
      split at h
      · cases h; rfl
      · split at h
        · cases h; rfl
        · cases h
  | decimal =>
      obtain ⟨x, hx, rfl⟩ := Option.map_eq_some_iff.mp h
      exact reading.parseDecimal s x hx
  | integer =>
      obtain ⟨x, hx, rfl⟩ := Option.map_eq_some_iff.mp h
      exact reading.parseInteger s x hx
  | text => cases h; rfl
  | _ => cases h

theorem evaluateParse_sound {kind : PrimitiveValueType} {description : String}
    (hoperand : Sound reading ast T operand) (hT : T.isConvertibleTo ast Text = .ok true) :
    Sound reading ast (.primitive kind) (evaluateParse runtime kind description operand) := by
  refine evaluateUnary_sound (P := fun _ => True) hoperand ?_ ?_
  · simpa using stringTypeguard_of_hasType hT
  · intro s _
    cases hparse : kind.fromString runtime.nearest s with
    | none => exact sound_throw (reading.mayThrow_of_not_assertionError _ rfl)
    | some v => exact sound_return_some (hasType_of_fromString hparse)

theorem sqrtOperatorEvaluator_sound {expression : Expression}
    (hoperand : Sound reading ast T operand) (hT : T.isConvertibleTo ast Decimal = .ok true) :
    Sound reading ast Decimal (sqrtOperatorEvaluator runtime expression operand) := by
  refine evaluateUnary_sound hoperand (numberTypeguard_of_hasType hT) ?_
  intro x hx
  refine finiteResult_sound fun hsqrt => ?_
  split
  · exact sound_arithmeticError _ _
  · rename_i hnonneg
    exact sound_throw (reading.sqrt x (isFinite_of_hasType hT hx) hsqrt hnonneg)

theorem unaryEvaluator_sound {operator : UnaryExpressionOperator}
    {operandNode expression : Expression} {d d' : List Diagnostic}
    (h : unaryTypeComputer ast operator T operandNode d = some (.ok (some U), d'))
    (hoperand : Sound reading ast T operand) :
    Sound reading ast U (unaryEvaluator runtime expression operator operand) := by
  obtain ⟨hT, rfl, _⟩ := unaryTypeComputer_eq_ok_iff.mp h
  cases operator with
  | not =>
      refine evaluateUnary_sound (P := fun _ => True) hoperand ?_ ?_
      · simpa using booleanTypeguard_of_hasType hT
      · intro b _
        exact sound_return_some (hasType_primitive.mpr rfl)
  | plus =>
      exact evaluateNumber_sound hoperand hT fun x hx => hx
  | minus =>
      exact evaluateNumber_sound hoperand hT fun x hx => hx.of_number (reading.neg x)
  | sqrt =>
      exact sqrtOperatorEvaluator_sound hoperand hT
  | floor | ceil | round =>
      refine evaluateNumber_sound hoperand hT fun x hx => hasType_integer_iff.mpr ?_
      exact reading.toInteger _ x (isFinite_of_hasType hT hx)
  | lowercase | uppercase | asText =>
      exact evaluateText_sound hoperand hT
  | asDecimal | asInteger | asBoolean =>
      exact evaluateParse_sound hoperand hT

end UnaryOperators

/-! ## Binary operators -/

section BinaryOperators

variable {T R U : ValueType} {strategy : EvaluationStrategy} {left right : Evaluation}

theorem evaluateArithmetic_sound {g : JsNumber → JsNumber → JsNumber}
    (hg : g ∈ [JsNumber.add runtime.nearest, JsNumber.sub runtime.nearest,
      JsNumber.mul runtime.nearest])
    (hleft : Sound reading ast T left) (hright : Sound reading ast R right)
    (hT : T.isConvertibleTo ast Decimal = .ok true)
    (hR : R.isConvertibleTo ast Decimal = .ok true) :
    Sound reading ast (if T = Integer ∧ R = Integer then Integer else Decimal)
      (evaluateArithmetic g strategy left right) := by
  refine evaluateBinary_sound hleft hright (numberTypeguard_of_hasType hT)
    (numberTypeguard_of_hasType hR) ?_
  intro x y hx hy
  obtain ⟨hfinite, hinteger⟩ := reading.arithmetic g hg x y
  split
  · rename_i htypes
    obtain ⟨rfl, rfl⟩ := htypes
    refine sound_return_some (hasType_integer_iff.mpr ?_)
    exact hinteger (hasType_integer_iff.mp hx) (hasType_integer_iff.mp hy)
  · exact sound_return_decimal (hfinite (isFinite_of_hasType hT hx) (isFinite_of_hasType hR hy))

/-- Operators on two finite numbers. -/
theorem evaluateNumbers_sound {doEvaluate : JsNumber → JsNumber → Evaluation}
    (hleft : Sound reading ast T left) (hright : Sound reading ast R right)
    (hT : T.isConvertibleTo ast Decimal = .ok true)
    (hR : R.isConvertibleTo ast Decimal = .ok true)
    (hdo : ∀ x y, (reading.read x).isFinite = true → (reading.read y).isFinite = true →
      Sound reading ast U (doEvaluate x y)) :
    Sound reading ast U (evaluateBinary Value.numberTypeguard Value.numberTypeguard doEvaluate
      strategy left right) :=
  evaluateBinary_sound hleft hright (numberTypeguard_of_hasType hT)
    (numberTypeguard_of_hasType hR) fun x y hx hy =>
      hdo x y (isFinite_of_hasType hT hx) (isFinite_of_hasType hR hy)

theorem hasType_boolean (b : Bool) : reading.HasType ast Boolean (.boolean b) :=
  hasType_primitive.mpr rfl

theorem evaluateRelation_sound {f : JsNumber → JsNumber → Bool} (hleft : Sound reading ast T left)
    (hright : Sound reading ast R right) (hT : T.isConvertibleTo ast Decimal = .ok true)
    (hR : R.isConvertibleTo ast Decimal = .ok true) :
    Sound reading ast Boolean (evaluateRelation f strategy left right) :=
  evaluateNumbers_sound hleft hright hT hR fun _ _ _ _ => sound_return_some (hasType_boolean _)

private theorem lookupTypeguard_of_hasType (hT : T ∈ [Text, Integer, Decimal]) (v : Value)
    (hv : reading.HasType ast T v) :
    ∃ w, isLeftOperandMatchingValueRepresentationTypeguard v = some w := by
  have hkind : ∃ kind ∈ [PrimitiveValueType.text, .integer, .decimal],
      kind.isInternalValueRepresentation (v.mapNumbers reading.read) = true := by
    simp only [List.mem_cons, List.not_mem_nil, or_false] at hT
    rcases hT with rfl | rfl | rfl
    · exact ⟨.text, by simp, hasType_primitive.mp hv⟩
    · exact ⟨.integer, by simp, hasType_primitive.mp hv⟩
    · exact ⟨.decimal, by simp, hasType_primitive.mp hv⟩
  obtain ⟨kind, hmem, hvalue⟩ := hkind
  simp only [List.mem_cons, List.not_mem_nil, or_false] at hmem
  cases v with
  | string s => exact ⟨_, rfl⟩
  | number x => exact ⟨_, rfl⟩
  | _ => rcases hmem with rfl | rfl | rfl <;> cases hvalue

theorem inOperatorEvaluator_sound (hleft : Sound reading ast T left)
    (hright : Sound reading ast R right)
    (hT : T ∈ [Text, Integer, Decimal])
    (hR : ∃ E ∈ [Text, Integer, Decimal], R = .collection E) :
    Sound reading ast Boolean (inOperatorEvaluator strategy left right) := by
  obtain ⟨E, hE, rfl⟩ := hR
  refine evaluateBinary_sound (P := fun _ => True) (Q := fun _ => True) hleft hright ?_ ?_
    fun _ _ _ _ => sound_return_some (hasType_boolean _)
  · simpa using lookupTypeguard_of_hasType hT
  · intro v hv
    obtain ⟨values, rfl, hvalues⟩ := Reading.hasType_collection_iff.mp hv
    refine ⟨values, ?_, trivial⟩
    rw [isRightOperandMatchingValueRepresentationTypeguard, if_pos]
    rw [List.all_eq_true]
    intro value hvalue
    obtain ⟨w, hw⟩ := lookupTypeguard_of_hasType hE value (hvalues value hvalue)
    rw [hw]
    rfl

theorem binaryEvaluator_sound {operator : BinaryExpressionOperator}
    {expression node leftNode rightNode : Expression} {d d' : List Diagnostic}
    (h : binaryTypeComputer ast operator T R node leftNode rightNode d =
      some (.ok (some U), d'))
    (hleft : Sound reading ast T left) (hright : Sound reading ast R right) :
    Sound reading ast U (binaryEvaluator runtime expression operator strategy left right) := by
  unfold binaryTypeComputer at h
  cases operator with
  | pow | modulo =>
      obtain ⟨hT, hR, rfl, _⟩ := computeBinaryType_eq_ok_iff.mp h
      refine evaluateNumbers_sound hleft hright hT hR fun x y _ _ => finiteResult_sound fun _ => ?_
      split <;> exact sound_arithmeticError _ _
  | root =>
      obtain ⟨hT, hR, rfl, _⟩ := computeBinaryType_eq_ok_iff.mp h
      refine evaluateNumbers_sound hleft hright hT hR fun x y _ _ => finiteResult_sound fun _ => ?_
      split
      · exact sound_arithmeticError _ _
      · split <;> exact sound_arithmeticError _ _
  | multiply =>
      obtain ⟨hT, hR, rfl, _⟩ := computeBinaryType_eq_ok_iff.mp h
      exact evaluateArithmetic_sound (by simp) hleft hright hT hR
  | plus =>
      obtain ⟨hT, hR, rfl, _⟩ := computeBinaryType_eq_ok_iff.mp h
      exact evaluateArithmetic_sound (by simp) hleft hright hT hR
  | minus =>
      obtain ⟨hT, hR, rfl, _⟩ := computeBinaryType_eq_ok_iff.mp h
      exact evaluateArithmetic_sound (by simp) hleft hright hT hR
  | divide =>
      obtain ⟨hT, hR, rfl, _⟩ := computeBinaryType_eq_ok_iff.mp h
      refine evaluateNumbers_sound hleft hright hT hR fun x y hx hy => ?_
      refine finiteResult_sound fun hquotient => ?_
      split
      · exact sound_arithmeticError _ _
      · rename_i hzero
        exact sound_throw (reading.divide x y hx hy hquotient (Bool.eq_false_iff.mpr hzero))
  | «matches» =>
      obtain ⟨hT, hR, rfl, _⟩ := computeBinaryType_eq_ok_iff.mp h
      refine evaluateBinary_sound (P := fun _ => True) (Q := fun _ => True) hleft hright ?_ ?_
        fun _ _ _ _ => sound_return_some (hasType_boolean _)
      · simpa using stringTypeguard_of_hasType hT
      · simpa using regexpTypeguard_of_hasType hR
  | «in» =>
      obtain ⟨hT, E, hE, rfl, _, rfl, _⟩ := inOperatorTypeComputer_eq_ok_iff.mp h
      exact inOperatorEvaluator_sound hleft hright hT ⟨E, hE, rfl⟩
  | less | lessEqual | greater | greaterEqual =>
      obtain ⟨hT, hR, rfl, _⟩ := computeBinaryType_eq_ok_iff.mp h
      exact evaluateRelation_sound hleft hright hT hR
  | equal | unequal =>
      obtain ⟨_, _, rfl, _⟩ := equalityOperatorTypeComputer_eq_ok_iff.mp h
      exact evaluateBinary_sound (P := fun _ => True) (Q := fun _ => True) hleft hright
        (fun v _ => ⟨v, rfl, trivial⟩) (fun v _ => ⟨v, rfl, trivial⟩)
        fun _ _ _ _ => sound_return_some (hasType_boolean _)
  | xor =>
      obtain ⟨hT, hR, rfl, _⟩ := computeBinaryType_eq_ok_iff.mp h
      refine evaluateBinary_sound (P := fun _ => True) (Q := fun _ => True) hleft hright ?_ ?_
        fun _ _ _ _ => sound_return_some (hasType_boolean _)
      · simpa using booleanTypeguard_of_hasType hT
      · simpa using booleanTypeguard_of_hasType hR
  | and | or =>
      obtain ⟨hT, hR, rfl, _⟩ := computeBinaryType_eq_ok_iff.mp h
      exact evaluateBooleanShortCircuit_sound hleft hright (booleanTypeguard_of_hasType hT)
        (booleanTypeguard_of_hasType hR)

theorem ternaryEvaluator_sound {S : ValueType} {operator : TernaryExpressionOperator}
    {firstNode secondNode thirdNode : Expression} {d d' : List Diagnostic} {first : Evaluation}
    (h : ternaryTypeComputer ast operator S T R firstNode secondNode thirdNode d =
      some (.ok (some U), d'))
    (hfirst : Sound reading ast S first) (hsecond : Sound reading ast T left)
    (hthird : Sound reading ast R right) :
    Sound reading ast U (ternaryEvaluator runtime operator strategy first left right) := by
  obtain ⟨hS, hT, hR, rfl, _⟩ := ternaryTypeComputer_eq_ok_iff.mp h
  cases operator with
  | replace =>
      exact evaluateTernary_sound hfirst hsecond hthird (stringTypeguard_of_hasType hS)
        (regexpTypeguard_of_hasType hT) (stringTypeguard_of_hasType hR)
        fun _ _ _ => sound_return_some (hasType_primitive.mpr rfl)

end BinaryOperators

/-! ## Well-typed environments -/

mutual

/-- The nodes that an expression refers to. -/
def Expression.references : Expression → List Referencable
  | .referenceLiteral (some value) => [value]
  | .collectionLiteral values => Expression.referencesOfList values
  | .unaryExpression _ expression => expression.references
  | .binaryExpression _ left right => left.references ++ right.references
  | .ternaryExpression _ first second third =>
      first.references ++ second.references ++ third.references
  | _ => []

def Expression.referencesOfList : List Expression → List Referencable
  | [] => []
  | value :: values => value.references ++ Expression.referencesOfList values

end

mutual

def Expression.numericLiterals : Expression → List JsNumber
  | .numericLiteral value => [value]
  | .collectionLiteral values => Expression.numericLiteralsOfList values
  | .unaryExpression _ expression => expression.numericLiterals
  | .binaryExpression _ left right => left.numericLiterals ++ right.numericLiterals
  | .ternaryExpression _ first second third =>
      first.numericLiterals ++ second.numericLiterals ++ third.numericLiterals
  | _ => []

def Expression.numericLiteralsOfList : List Expression → List JsNumber
  | [] => []
  | value :: values => value.numericLiterals ++ Expression.numericLiteralsOfList values

end

/-- Every port, every property and the value keyword hold a value of their declared type,
if they hold one at all. -/
structure WellTyped (ast : Ast) (container : Option ValueTypeReference)
    (evaluationContext : EvaluationContext) (references : List Referencable) : Prop where
  port : ∀ port, .transformPortDefinition port ∈ references → ∀ T v,
    ValueType.wrap ast port.valueType = .ok (some T) →
    evaluationContext.variableValues port.name = some v → HasType ast T v
  property : ∀ name (valueType : ValueTypeReference), .blockTypeProperty name valueType ∈ references → ∀ T v,
    ValueType.wrap ast valueType = .ok (some T) →
    evaluationContext.variableValues name = some v → HasType ast T v
  valueKeyword : ∀ valueType, container = some valueType → ∀ T v,
    ValueType.wrap ast valueType = .ok (some T) →
    evaluationContext.valueKeywordValue = some v → HasType ast T v

section WellTyped

variable {container : Option ValueTypeReference} {evaluationContext : EvaluationContext}
  {d d' : List Diagnostic}

theorem WellTyped.mono {references references' : List Referencable}
    (h : WellTyped ast container evaluationContext references)
    (hsub : ∀ r ∈ references', r ∈ references) :
    WellTyped ast container evaluationContext references' where
  port port hport := h.port port (hsub _ hport)
  property name valueType hproperty := h.property name valueType (hsub _ hproperty)
  valueKeyword := h.valueKeyword

theorem WellTyped.left {references references' : List Referencable}
    (h : WellTyped ast container evaluationContext (references ++ references')) :
    WellTyped ast container evaluationContext references :=
  h.mono fun _ hr => List.mem_append_left _ hr

theorem WellTyped.right {references references' : List Referencable}
    (h : WellTyped ast container evaluationContext (references ++ references')) :
    WellTyped ast container evaluationContext references' :=
  h.mono fun _ hr => List.mem_append_right _ hr

/-! ## Literals -/

theorem referenceLiteral_sound {value : Option Referencable} {T : ValueType}
    (henv : WellTyped ast container evaluationContext
      (Expression.referenceLiteral value).references)
    (h : inferTypeFromReferenceLiteral ast value = .ok (some T)) :
    Sound reading ast T (pure (evaluationContext.getValueForReference value)) := by
  cases hvalue : evaluationContext.getValueForReference value with
  | none => exact sound_return_none
  | some v =>
      refine sound_return_some ?_
      cases value with
      | none => cases h
      | some referenced =>
          cases referenced with
          | constraintDefinition id =>
              cases h
              cases hvalue
              exact hasType_primitive.mpr rfl
          | transformDefinition id =>
              cases h
              cases hvalue
              exact hasType_primitive.mpr rfl
          | blockTypeProperty name valueType =>
              refine Reading.hasType_of_hasType ?_
              exact henv.property name valueType (by simp [Expression.references]) T v h hvalue
          | transformPortDefinition port =>
              refine Reading.hasType_of_hasType ?_
              exact henv.port port (by simp [Expression.references]) T v h hvalue

theorem valueKeywordLiteral_sound {references : List Referencable} {lengthAccess : Bool}
    {T : ValueType} (henv : WellTyped ast container evaluationContext references)
    (h : inferTypeFromValueKeyword ast container lengthAccess d = some (.ok (some T), d')) :
    Sound reading ast T
      (Exec.ofExcept (evaluationContext.getValueForValueKeyword lengthAccess)) := by
  intro diagnostics
  refine Exec.Post.ofExcept ?_
  cases hvalue : evaluationContext.valueKeywordValue with
  | none =>
      rw [EvaluationContext.getValueForValueKeyword, hvalue]
      trivial
  | some v =>
      cases container with
      | none =>
          obtain ⟨_, _, _, h⟩ := Exec.bind_eq_ok_iff.mp h
          cases h
      | some valueType =>
          cases infers_of_valueKeyword h with
          | literal hT => cases hT
          | valueKeyword hT =>
              simp only [EvaluationContext.getValueForValueKeyword, hvalue]
              exact Reading.hasType_of_hasType (henv.valueKeyword valueType rfl T v hT hvalue)
          | @valueLength S hT htext =>
              have hv : reading.HasType ast S v :=
                Reading.hasType_of_hasType (henv.valueKeyword valueType rfl S v hT hvalue)
              obtain ⟨s, hs⟩ := stringTypeguard_of_hasType htext v hv
              simp only [EvaluationContext.getValueForValueKeyword, hvalue, hs]
              refine Reading.hasType_of_hasType (hasType_integer_iff.mpr ?_)
              exact JsNumber.isInteger_iff.mpr ⟨JsRuntime.length s, by simp⟩

theorem numericLiteral_sound {value : JsNumber} (h : (reading.read value).isFinite = true) :
    Sound reading ast (if value.isInteger then Integer else Decimal)
      (pure (some (.number value))) := by
  split
  · rename_i hinteger
    exact sound_return_some (Reading.hasType_of_hasType (hasType_integer_iff.mpr hinteger))
  · exact sound_return_decimal h

end WellTyped

/-! ## Expressions -/

theorem isEveryValueDefined_eq_some {α : Type} {xs : List (Option α)} {ys : List α} :
    isEveryValueDefined xs = some ys ↔ xs = ys.map some := by
  induction xs generalizing ys with
  | nil => cases ys <;> simp [isEveryValueDefined]
  | cons x xs ih =>
      cases x with
      | none => cases ys <;> simp [isEveryValueDefined]
      | some x =>
          simp only [isEveryValueDefined, Option.map_eq_some_iff, ih]
          cases ys with
          | nil => simp
          | cons y ys => simp [and_comm, eq_comm]

section Expressions

variable {container : Option ValueTypeReference} {evaluationContext : EvaluationContext}
  {strategy : EvaluationStrategy}

/-- The outcomes that evaluating the elements of a collection may have. -/
private def PreservesAll (reading : Reading runtime) (ast : Ast) (types : List ValueType) :
    Except JsError (List (Option Value)) → Prop
  | .ok values => List.Forall₂ (fun T r => ∀ v, r = some v → reading.HasType ast T v) types values
  | .error e => reading.mayThrow e

private theorem forall₂_hasType {types : List ValueType} {values : List Value}
    (h : List.Forall₂ (fun T r => ∀ v, r = some v → reading.HasType ast T v) types
      (values.map some)) :
    List.Forall₂ (HasType ast) types (Value.mapNumbersOfList reading.read values) := by
  rw [Value.mapNumbersOfList_eq_map, List.forall₂_map_right_iff]
  rw [List.forall₂_map_right_iff] at h
  exact h.imp fun T v hv => hv v rfl

private theorem collectionLiteral_sound {node : Expression} {values : List Expression}
    {types : List ValueType} {T : ValueType} {d d' : List Diagnostic}
    (hinfer : inferCollectionType ast node types d = some (.ok (some T), d'))
    (hvalues : ∀ diagnostics, Exec.Post
      (evaluateExpressions runtime evaluationContext strategy values) diagnostics
      fun r _ => PreservesAll reading ast types r) :
    Sound reading ast T (evaluateExpression runtime evaluationContext strategy
      (.collectionLiteral values)) := by
  intro diagnostics
  rw [evaluateExpression]
  refine Exec.Post.bind (hvalues diagnostics) ?_ (fun e t he => he)
  intro evaluated t hevaluated
  refine Exec.Post.pure ?_
  cases hdefined : isEveryValueDefined evaluated with
  | none => trivial
  | some defined =>
      obtain rfl := isEveryValueDefined_eq_some.mp hdefined
      exact inferCollectionType_sound hinfer (forall₂_hasType hevaluated)

mutual

theorem evaluateExpression_sound : ∀ {e : Expression} {T : ValueType} {d d' : List Diagnostic},
    WellTyped ast container evaluationContext e.references →
    (∀ x ∈ e.numericLiterals, (reading.read x).isFinite = true) →
    inferExpressionType ast container e d = some (.ok (some T), d') →
    Sound reading ast T (evaluateExpression runtime evaluationContext strategy e)
  | .textLiteral value, T, d, d', _, _, h => by
      cases h
      exact sound_return_some (hasType_primitive.mpr rfl)
  | .booleanLiteral value, T, d, d', _, _, h => by
      cases h
      exact sound_return_some (hasType_boolean value)
  | .numericLiteral value, T, d, d', _, hliterals, h => by
      cases h
      exact numericLiteral_sound (hliterals value (List.mem_singleton_self value))
  | .cellRangeLiteral literal, T, d, d', _, _, h => by
      cases h
      rw [evaluateExpression]
      split
      · exact sound_return_some (hasType_primitive.mpr rfl)
      · exact sound_return_none
  | .regexLiteral value, T, d, d', _, _, h => by
      cases h
      rw [evaluateExpression]
      split
      · exact sound_return_some (hasType_primitive.mpr rfl)
      · exact sound_throw (reading.mayThrow_of_not_assertionError _ rfl)
  | .valuetypeAssignmentLiteral value, T, d, d', _, _, h => by
      cases h
      exact sound_return_some (hasType_primitive.mpr rfl)
  | .collectionLiteral values, T, d, d', henv, hliterals, h => by
      obtain ⟨inferred, _, hinferred, h⟩ := Exec.bind_eq_ok_iff.mp h
      cases htypes : isEveryValueDefined inferred with
      | none =>
          simp only [htypes] at h
          cases h
      | some types =>
          simp only [htypes] at h
          obtain rfl := isEveryValueDefined_eq_some.mp htypes
          exact collectionLiteral_sound h (evaluateExpressions_sound henv hliterals hinferred)
  | .valueKeywordLiteral lengthAccess, T, d, d', henv, _, h => valueKeywordLiteral_sound henv h
  | .referenceLiteral value, T, d, d', henv, _, h => by
      simp only [inferExpressionType, Exec.ofExcept_apply, Option.some.injEq,
        Prod.mk.injEq] at h
      exact referenceLiteral_sound henv h.1
  | .unaryExpression operator expression, T, d, d', henv, hliterals, h => by
      obtain ⟨S, _, hinner, h⟩ := inferExpressionType_unary_eq_ok h
      exact unaryEvaluator_sound h (evaluateExpression_sound henv hliterals hinner)
  | .binaryExpression operator left right, T, d, d', henv, hliterals, h => by
      obtain ⟨S, R, _, _, hleft, hright, h⟩ := inferExpressionType_binary_eq_ok h
      obtain ⟨hinLeft, hinRight⟩ := List.forall_mem_append.mp hliterals
      exact binaryEvaluator_sound h (evaluateExpression_sound henv.left hinLeft hleft)
        (evaluateExpression_sound henv.right hinRight hright)
  | .ternaryExpression operator first second third, T, d, d', henv, hliterals, h => by
      obtain ⟨S, R, U, _, _, _, hfirst, hsecond, hthird, h⟩ := inferExpressionType_ternary_eq_ok h
      obtain ⟨hinOthers, hinThird⟩ := List.forall_mem_append.mp hliterals
      obtain ⟨hinFirst, hinSecond⟩ := List.forall_mem_append.mp hinOthers
      exact ternaryEvaluator_sound h (evaluateExpression_sound henv.left.left hinFirst hfirst)
        (evaluateExpression_sound henv.left.right hinSecond hsecond)
        (evaluateExpression_sound henv.right hinThird hthird)

theorem evaluateExpressions_sound : ∀ {es : List Expression} {types : List ValueType}
    {d d' : List Diagnostic},
    WellTyped ast container evaluationContext (Expression.referencesOfList es) →
    (∀ x ∈ Expression.numericLiteralsOfList es, (reading.read x).isFinite = true) →
    inferCollectionElementTypes ast container es d = some (.ok (types.map some), d') →
    ∀ diagnostics, Exec.Post (evaluateExpressions runtime evaluationContext strategy es)
      diagnostics fun r _ => PreservesAll reading ast types r
  | [], types, d, d', _, _, h => by
      intro diagnostics
      simp only [inferCollectionElementTypes, Exec.pure_apply, Option.some.injEq, Prod.mk.injEq,
        Except.ok.injEq, List.nil_eq, List.map_eq_nil_iff] at h
      obtain rfl := h.1
      exact Exec.Post.pure .nil
  | e :: es, types, d, d', henv, hliterals, h => by
      intro diagnostics
      obtain ⟨type, _, htype, h⟩ := Exec.bind_eq_ok_iff.mp h
      obtain ⟨rest, _, hrest, h⟩ := Exec.bind_eq_ok_iff.mp h
      simp only [Exec.pure_apply, Option.some.injEq, Prod.mk.injEq, Except.ok.injEq] at h
      obtain ⟨hcons, _⟩ := h
      cases types with
      | nil => cases hcons
      | cons T types =>
          cases hcons
          obtain ⟨hinHead, hinTail⟩ := List.forall_mem_append.mp hliterals
          rw [evaluateExpressions]
          refine Exec.Post.bind (evaluateExpression_sound henv.left hinHead htype diagnostics) ?_
            (fun error t he => he)
          intro evaluated t hevaluated
          refine Exec.Post.bind (evaluateExpressions_sound henv.right hinTail hrest t) ?_
            (fun error t he => he)
          intro evaluatedRest u hevaluatedRest
          refine Exec.Post.pure (.cons ?_ hevaluatedRest)
          rintro v rfl
          exact hevaluated

end

end Expressions

section Exact

variable {container : Option ValueTypeReference} {evaluationContext : EvaluationContext}
  {e : Expression} {T : ValueType} {d d' : List Diagnostic}

/-- No value that an operator computes is of another type, whether numbers overflow or not. -/
theorem evaluateExpression_sound_blind {strategy : EvaluationStrategy}
    (henv : WellTyped ast container evaluationContext e.references)
    (hinfer : inferExpressionType ast container e d = some (.ok (some T), d')) :
    Sound (.blind runtime) ast T (evaluateExpression runtime evaluationContext strategy e) :=
  evaluateExpression_sound henv (fun _ _ => rfl) hinfer

variable (hexact : ∀ v, runtime.nearest v = .finite v)
  (henv : WellTyped ast container evaluationContext e.references)
  (hliterals : ∀ x ∈ e.numericLiterals, x.isFinite = true)
  (hinfer : inferExpressionType ast container e d = some (.ok (some T), d'))
include hexact henv hliterals hinfer

theorem evaluateExpression_preserves (strategy : EvaluationStrategy)
    (diagnostics : List Diagnostic) :
    Exec.Post (evaluateExpression runtime evaluationContext strategy e) diagnostics
      fun r _ => Preserves ast T r := by
  intro r t hr
  have hsound : Sound (.exact hexact) ast T
      (evaluateExpression runtime evaluationContext strategy e) :=
    evaluateExpression_sound henv hliterals hinfer
  exact preserves_exact_iff.mp (hsound diagnostics r t hr)

/-- The value of a property is checked against a type that its expression's type is
convertible to, so the check succeeds. -/
theorem evaluatePropertyValue_preserves {target : ValueType}
    (htarget : T.isConvertibleTo ast target = .ok true) (name : String) {σ : Type} (s : σ) :
    Exec.Post (evaluatePropertyValue ast runtime ⟨name, .expression e⟩ evaluationContext target) s
      fun r _ => Preserves ast target r := by
  have hsilent : Exec.Post (evaluateExpressionSilently runtime evaluationContext e) s
      fun r _ => Preserves ast T r := by
    intro r t hr
    obtain ⟨out, hout, heq⟩ := Option.map_eq_some_iff.mp hr
    cases heq
    exact evaluateExpression_preserves hexact henv hliterals hinfer .lazy [] out.1 out.2 hout
  refine Exec.Post.bind hsilent ?_ (fun error t he => he)
  intro result t hresult
  cases result with
  | none => exact Exec.Post.pure trivial
  | some v =>
      have hv : HasType ast target v := HasType.convert hresult htarget
      have hcheck : target.isInternalValueRepresentation ast v = .ok true := hv
      simp only [hcheck]
      exact Exec.Post.pure hv

end Exact

/-- Type preservation where numbers are exact and literals finite: evaluating an expression of
type `T` yields `undefined`, a value of `T`, or an error that no assertion raised; where it is the
value of a property whose type `T` is convertible to, the final check of the property value never
fails. -/
theorem type_preservation (ast : Ast) (runtime : JsRuntime)
    (hexact : ∀ v, runtime.nearest v = .finite v)
    (container : Option ValueTypeReference) (evaluationContext : EvaluationContext)
    (e : Expression) (T : ValueType) (d d' : List Diagnostic)
    (henv : WellTyped ast container evaluationContext e.references)
    (hliterals : ∀ x ∈ e.numericLiterals, x.isFinite = true)
    (hinfer : inferExpressionType ast container e d = some (.ok (some T), d')) :
    (∀ strategy diagnostics,
      Exec.Post (evaluateExpression runtime evaluationContext strategy e) diagnostics
        fun r _ => Preserves ast T r) ∧
    ∀ (name : String) (target : ValueType), T.isConvertibleTo ast target = .ok true →
      ∀ diagnostics : List Diagnostic,
        Exec.Post (evaluatePropertyValue ast runtime ⟨name, .expression e⟩ evaluationContext
          target) diagnostics fun r _ => Preserves ast target r :=
  ⟨fun strategy diagnostics =>
      evaluateExpression_preserves hexact henv hliterals hinfer strategy diagnostics,
    fun name _ htarget =>
      evaluatePropertyValue_preserves hexact henv hliterals hinfer htarget name⟩

/-- `valuetype Age oftype integer`. -/
def ageAst : Ast where
  valuetypes := [⟨"integer", true, none, none, none⟩, ⟨"Age", false, some ⟨some 0, []⟩, none, none⟩]
  constraints := []
  transforms := []
  blocks := []
  blockTypes := []

def agePort : TransformPortDefinition :=
  ⟨.from, "age", ⟨some 1, []⟩⟩

def ageContext : EvaluationContext where
  runtimeParameterProvider := ⟨fun _ => none, none⟩
  variableValues name := if name = "age" then some (.number 3) else none
  valueKeywordValue := none

/-- `[-age, 1]`. -/
def ageExpression : Expression :=
  .collectionLiteral [.unaryExpression .minus
    (.referenceLiteral (some (.transformPortDefinition agePort))), .numericLiteral 1]

/-- A runtime that does not round. -/
def exactRuntime : JsRuntime :=
  { sampleRuntime with nearest := .finite }

theorem type_preservation_age :
    (∀ strategy diagnostics,
      Exec.Post (evaluateExpression exactRuntime ageContext strategy ageExpression) diagnostics
        fun r _ => Preserves ageAst (.collection .Integer) r) ∧
    ∀ (name : String) (target : ValueType),
      (ValueType.collection .Integer).isConvertibleTo ageAst target = .ok true →
      ∀ diagnostics : List Diagnostic,
        Exec.Post (evaluatePropertyValue ageAst exactRuntime ⟨name, .expression ageExpression⟩
          ageContext target) diagnostics fun r _ => Preserves ageAst target r := by
  refine type_preservation ageAst exactRuntime (fun _ => rfl) none ageContext ageExpression _ [] []
    ⟨?_, ?_, by simp⟩ ?_ rfl
  · intro port hport T v hwrap hvalue
    obtain rfl : port = agePort := by
      simpa [ageExpression, Expression.references, Expression.referencesOfList] using hport
    cases hwrap
    cases hvalue
    rfl
  · intro name valueType hproperty
    simp [ageExpression, Expression.references, Expression.referencesOfList] at hproperty
  · decide

end Jayvee
