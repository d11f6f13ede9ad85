import Jayvee.Verification.Evaluation.ThrownErrors
import Jayvee.Verification.Expressions.Subexpressions

/-! # The simplification of expressions -/

namespace Jayvee

open Foundation

/-! ## Values of operators -/

namespace Value

def isScalar : Value → Bool
  | boolean _ | number _ | string _ => true
  | _ => false

theorem internalValueToString_of_isScalar {value : Value} (h : value.isScalar = true) (ast : Ast)
    (runtime : JsRuntime) : ∃ text, internalValueToString ast runtime value = .ok text := by
  cases value with
  | boolean value => exact ⟨_, rfl⟩
  | number value =>
      rw [internalValueToString]
      split_ifs <;> exact ⟨_, rfl⟩
  | string value => exact ⟨_, rfl⟩
  | _ => cases h

end Value

section Scalars

variable {runtime : JsRuntime} {env : EvaluationContext} {value : Value}

theorem fromString_isScalar {kind : PrimitiveValueType} {text : String}
    (h : kind.fromString runtime.nearest text = some value) : value.isScalar = true := by
  cases kind with
  | boolean =>
      simp only [PrimitiveValueType.fromString] at h
      split_ifs at h <;> cases h <;> rfl
  | decimal =>
      obtain ⟨number, _, rfl⟩ := Option.map_eq_some_iff.mp h
      rfl
  | integer =>
      obtain ⟨number, _, rfl⟩ := Option.map_eq_some_iff.mp h
      rfl
  | text =>
      cases h
      rfl
  | _ => cases h

theorem finiteNumber_isScalar (x : JsNumber) : (finiteNumber x).all Value.isScalar = true := by
  unfold finiteNumber
  split <;> rfl

theorem unaryMeaning_isScalar (operator : UnaryExpressionOperator) (operand : Value) :
    (unaryMeaning runtime operator operand).all Value.isScalar = true := by
  have hparse : ∀ (kind : PrimitiveValueType) (text : String),
      (kind.fromString runtime.nearest text).all Value.isScalar = true := fun kind text => by
    simpa [Option.all_eq_true] using fun value => fromString_isScalar
  fun_cases unaryMeaning runtime operator operand <;>
    first
    | rfl
    | exact hparse .decimal _
    | exact hparse .integer _
    | exact hparse .boolean _
    | exact finiteNumber_isScalar _

theorem binaryMeaning_isScalar (operator : BinaryExpressionOperator) (left right : Value) :
    (binaryMeaning runtime operator left right).all Value.isScalar = true := by
  fun_cases binaryMeaning runtime operator left right <;>
    first
    | rfl
    | exact finiteNumber_isScalar _

theorem ternaryMeaning_isScalar (operator : TernaryExpressionOperator)
    (first second third : Value) :
    (ternaryMeaning runtime operator first second third).all Value.isScalar = true := by
  fun_cases ternaryMeaning runtime operator first second third <;> rfl

/-- Operators yield booleans, numbers and texts. -/
theorem meaning_isScalar {expression : Expression} (hoperator : expression.isExpressionLiteral = false)
    (h : meaning runtime env .exhaustive expression = some value) : value.isScalar = true := by
  cases expression with
  | unaryExpression operator operand =>
      obtain ⟨x, _, hx⟩ := Option.bind_eq_some_iff.mp h
      exact (Option.all_eq_true _ _).mp (unaryMeaning_isScalar operator x) value hx
  | binaryExpression operator left right =>
      have hevaluated : ∀ left : Option Value, skipsRight .exhaustive operator left = false := by
        intro left
        cases left <;> rfl
      rw [meaning, binaryResult, hevaluated] at h
      obtain ⟨x, _, hx⟩ := Option.bind_eq_some_iff.mp h
      obtain ⟨y, _, hy⟩ := Option.bind_eq_some_iff.mp hx
      exact (Option.all_eq_true _ _).mp (binaryMeaning_isScalar operator x y) value hy
  | ternaryExpression operator first second third =>
      obtain ⟨x, _, hx⟩ := Option.bind_eq_some_iff.mp h
      obtain ⟨y, _, hy⟩ := Option.bind_eq_some_iff.mp hx
      obtain ⟨z, _, hz⟩ := Option.bind_eq_some_iff.mp hy
      exact (Option.all_eq_true _ _).mp (ternaryMeaning_isScalar operator x y z) value hz
  | _ => cases hoperator

end Scalars

/-! ## Types of operands -/

section Operands

variable {ast : Ast} {container : Option ValueTypeReference} {expression inner : Expression}
  {d d' : List Diagnostic} {T : ValueType}

/-- Where the type of an operator is inferred, those of its operands are. -/
theorem inferExpressionType_of_mem_operands (hinner : inner ∈ expression.operands)
    (h : inferExpressionType ast container expression d = some (.ok (some T), d')) :
    ∃ U c c', inferExpressionType ast container inner c = some (.ok (some U), c') := by
  cases expression with
  | unaryExpression operator operand =>
      obtain rfl := List.mem_singleton.mp hinner
      obtain ⟨type, between, htype, hrest⟩ := Exec.bind_eq_ok_iff.mp h
      cases type with
      | none => cases hrest
      | some U => exact ⟨U, _, _, htype⟩
  | binaryExpression operator left right =>
      obtain ⟨leftType, between, hleft, h⟩ := Exec.bind_eq_ok_iff.mp h
      obtain ⟨rightType, between', hright, hrest⟩ := Exec.bind_eq_ok_iff.mp h
      cases leftType with
      | none => cases hrest
      | some U =>
          cases rightType with
          | none => cases hrest
          | some V =>
              rcases List.mem_pair.mp hinner with rfl | rfl
              · exact ⟨U, _, _, hleft⟩
              · exact ⟨V, _, _, hright⟩
  | ternaryExpression operator first second third =>
      obtain ⟨firstType, between, hfirst, h⟩ := Exec.bind_eq_ok_iff.mp h
      obtain ⟨secondType, between', hsecond, h⟩ := Exec.bind_eq_ok_iff.mp h
      obtain ⟨thirdType, between'', hthird, hrest⟩ := Exec.bind_eq_ok_iff.mp h
      cases firstType with
      | none => cases hrest
      | some U =>
          cases secondType with
          | none => cases hrest
          | some V =>
              cases thirdType with
              | none => cases hrest
              | some W =>
                  have hmem : inner = first ∨ inner = second ∨ inner = third := by
                    simpa [Expression.operands, pruned, Expression.isCollectionLiteral,
                      Expression.children] using hinner
                  rcases hmem with rfl | rfl | rfl
                  · exact ⟨U, _, _, hfirst⟩
                  · exact ⟨V, _, _, hsecond⟩
                  · exact ⟨W, _, _, hthird⟩
  | _ => cases hinner

theorem inferExpressionType_of_operandAt {path : List Nat}
    (hinner : subtermAt Expression.operands expression path = some inner)
    (h : inferExpressionType ast container expression d = some (.ok (some T), d')) :
    ∃ U c c', inferExpressionType ast container inner c = some (.ok (some U), c') := by
  induction path generalizing expression d d' T with
  | nil =>
      cases hinner
      exact ⟨T, d, d', h⟩
  | cons i path ih =>
      obtain ⟨child, hchild, hinner⟩ := subtermAt_cons_eq_some.mp hinner
      obtain ⟨U, c, c', hinfer⟩ :=
        inferExpressionType_of_mem_operands (List.mem_of_getElem? hchild) h
      exact ih hinner hinfer

end Operands

/-! ## One subexpression -/

/-- The evaluation context of the validation, in which nothing has a value. -/
def ValidationEnvironment (props : JayveeValidationProps) : Prop :=
  ∃ provider, props.evaluationContext = .construct provider

theorem ValidationEnvironment.wellTyped {props : JayveeValidationProps}
    (h : ValidationEnvironment props) (container : Option ValueTypeReference)
    (references : List Referencable) :
    WellTyped props.ast container props.evaluationContext references := by
  obtain ⟨provider, h⟩ := h
  rw [h]
  refine ⟨?_, ?_, ?_⟩
  · intro port _ T v _ hvalue
    cases hvalue
  · intro name valueType _ T v _ hvalue
    cases hvalue
  · intro valueType _ T v _ hvalue
    cases hvalue

/-- The expression has a value where nothing else has. -/
def HasConstantValue (props : JayveeValidationProps) (expression : Expression) : Prop :=
  CanBeEvaluated props.runtime props.evaluationContext .exhaustive expression

section Simplification

variable {props : JayveeValidationProps} {container : Option ValueTypeReference}
  {expression : Expression} {T : ValueType}

theorem checkSimplification_of_hasConstantValue (hprops : ValidationEnvironment props)
    {node : ExpressionNode} {d d' : List Diagnostic}
    (hinfer : inferExpressionType props.ast container node.term d = some (.ok (some T), d'))
    (hoperator : isSimplifiableExpression node.term = true)
    (h : HasConstantValue props node.term) :
    Exec.Yields (checkSimplification props node) (.ok ()) := by
  obtain ⟨value, hvalue, hevaluate⟩ := h.yields (hprops.wellTyped container _) hinfer
  have hliteral : node.term.isExpressionLiteral = false := by
    simpa using ((Bool.and_eq_true _ _).mp hoperator).1
  obtain ⟨text, htext⟩ :=
    Value.internalValueToString_of_isScalar (meaning_isScalar hliteral hvalue) props.ast
      props.runtime
  refine hevaluate.bind ?_
  simp only [htext]
  exact (Exec.Yields.ofExcept (.ok text)).bind (accept_logs _ _ _).yields

theorem checkSimplification_throws (hprops : ValidationEnvironment props)
    (node : ExpressionNode) {d d' : List Diagnostic}
    (hinfer : inferExpressionType props.ast container node.term d = some (.ok (some T), d'))
    (h : ¬ HasConstantValue props node.term) : Throws (checkSimplification props node) := by
  cases evaluateExpression_of_not_canBeEvaluated (hprops.wellTyped container _) hinfer h with
  | inl hnone => exact ⟨_, hnone.bind (Exec.Yields.throw _)⟩
  | inr hthrows => exact hthrows.bind_left

/-! ## The check -/

/-- The maximal constant operators of the expression, other than negative numbers, have a value.
Collections are taken for constants. -/
def ConstantsHaveValues (props : JayveeValidationProps) (expression : Expression) : Prop :=
  ∀ path inner, IsMaximalOperand expression path inner → isSimplifiableExpression inner = true →
    HasConstantValue props inner

theorem inferExpressionType_of_isMaximalOperand
    (hinfer : Exec.Yields (inferExpressionType props.ast container expression) (.ok (some T)))
    {path : List Nat} {inner : Expression} (hinner : IsMaximalOperand expression path inner) :
    ∃ U c c', inferExpressionType props.ast container inner c = some (.ok (some U), c') := by
  obtain ⟨log, hlog⟩ := hinfer
  exact inferExpressionType_of_operandAt hinner.subterm_eq (hlog [])

theorem checkExpressionSimplification_yields (hprops : ValidationEnvironment props)
    (hinfer : Exec.Yields (inferExpressionType props.ast container expression) (.ok (some T)))
    (h : ConstantsHaveValues props expression) :
    Exec.Yields (checkExpressionSimplification expression props) (.ok ()) := by
  refine Exec.Yields.forEach fun node hnode => ?_
  obtain ⟨hcollected, hsimplifiable⟩ := List.mem_filter.mp hnode
  have hinner := mem_collectSubExpressions.mp hcollected
  obtain ⟨U, c, c', htype⟩ := inferExpressionType_of_isMaximalOperand hinfer hinner
  exact checkSimplification_of_hasConstantValue hprops htype hsimplifiable
    (h _ _ hinner hsimplifiable)

/-- A loop throws if one of its steps does, and every other one returns or throws. -/
theorem Throws.forEach {α : Type} {xs : List α} {body : α → Validation Unit} {x : α}
    (hall : ∀ y ∈ xs, Exec.Yields (body y) (.ok ()) ∨ Throws (body y)) (hx : x ∈ xs)
    (hthrows : Throws (body x)) : Throws (Exec.forEach xs body) := by
  induction xs with
  | nil => cases hx
  | cons y ys ih =>
      rw [Exec.forEach_cons]
      cases hall y List.mem_cons_self with
      | inr hhead => exact hhead.bind_left
      | inl hhead =>
          cases List.mem_cons.mp hx with
          | inl heq =>
              obtain ⟨error, herror⟩ := hthrows
              rw [heq] at herror
              cases hhead.unique herror
          | inr hmem =>
              obtain ⟨error, herror⟩ :=
                ih (fun z hz => hall z (List.mem_cons_of_mem _ hz)) hmem
              exact ⟨error, hhead.bind herror⟩

theorem checkExpressionSimplification_throws (hprops : ValidationEnvironment props)
    (hinfer : Exec.Yields (inferExpressionType props.ast container expression) (.ok (some T)))
    (h : ¬ ConstantsHaveValues props expression) :
    Throws (checkExpressionSimplification expression props) := by
  simp only [ConstantsHaveValues, not_forall] at h
  obtain ⟨path, inner, hinner, hsimplifiable, hno⟩ := h
  have hmem : ⟨path, inner⟩ ∈ (collectSubExpressionsWithoutFreeVariables [] expression).filter
      fun node => isSimplifiableExpression node.term :=
    List.mem_filter.mpr ⟨mem_collectSubExpressions.mpr hinner, hsimplifiable⟩
  refine Throws.forEach (fun node hnode => ?_) hmem ?_
  · obtain ⟨hcollected, hnodeSimplifiable⟩ := List.mem_filter.mp hnode
    obtain ⟨U, c, c', htype⟩ :=
      inferExpressionType_of_isMaximalOperand hinfer (mem_collectSubExpressions.mp hcollected)
    by_cases hconstant : HasConstantValue props node.term
    · exact .inl (checkSimplification_of_hasConstantValue hprops htype hnodeSimplifiable hconstant)
    · exact .inr (checkSimplification_throws hprops node htype hconstant)
  · obtain ⟨U, c, c', htype⟩ := inferExpressionType_of_isMaximalOperand hinfer hinner
    exact checkSimplification_throws hprops ⟨path, inner⟩ htype hno

end Simplification

/-! ## Where the check is made -/

/-- The checks of an expression with the inferred type `T`, in the places where one is made after
the type is found to be the right one. -/
inductive ChecksSimplification (props : JayveeValidationProps) (expression : Expression)
    (T : ValueType) : Option ValueTypeReference → Validation Unit → Prop where
  | direct {container : Option ValueTypeReference} :
      ChecksSimplification props expression T container
        (checkExpressionSimplification expression props)
  | outputAssignment {outPort : TransformPortDefinition} {expectedType : ValueType}
      (hexpected : ValueType.wrap props.ast outPort.valueType = .ok (some expectedType))
      (hconvertible : T.isConvertibleTo props.ast expectedType = .ok true) :
      ChecksSimplification props expression T none
        (checkOutputValueTyping ⟨some outPort, expression⟩ props)
  | constraint {constraintType : ValueTypeReference}
      (hconvertible : T.isConvertibleTo props.ast .Boolean = .ok true) :
      ChecksSimplification props expression T (some constraintType)
        (checkConstraintExpression constraintType expression props)
  | property {name : String} {propertyType : ValueType}
      (hconvertible : T.isConvertibleTo props.ast propertyType = .ok true) :
      ChecksSimplification props expression T none
        (checkPropertyValueTyping ⟨name, .expression expression⟩ propertyType props)

/-- The check returns, whatever was reported before. -/
def CheckReturns (check : Validation Unit) : Prop :=
  ∀ diagnostics, ∃ after, check diagnostics = some (.ok (), after)

section Checks

variable {props : JayveeValidationProps} {container : Option ValueTypeReference}
  {expression : Expression} {T : ValueType} {check : Validation Unit} {r : Except JsError Unit}

theorem checkInferredType_yields {expectedType : ValueType}
    (hconvertible : T.isConvertibleTo props.ast expectedType = .ok true) (subject : String)
    (h : Exec.Yields (checkExpressionSimplification expression props) r) :
    Exec.Yields (checkInferredType props subject expression T expectedType) r := by
  rw [checkInferredType, hconvertible]
  exact (Exec.Yields.ofExcept (.ok true)).bind h

/-- The check ends as that of the simplification does. -/
theorem ChecksSimplification.yields (hcheck : ChecksSimplification props expression T container check)
    (hinfer : Exec.Yields (inferExpressionType props.ast container expression) (.ok (some T)))
    (h : Exec.Yields (checkExpressionSimplification expression props) r) :
    Exec.Yields check r := by
  cases hcheck with
  | direct => exact h
  | outputAssignment hexpected hconvertible =>
      refine hinfer.bind ?_
      simp only [hexpected]
      exact (Exec.Yields.ofExcept (.ok _)).bind (checkInferredType_yields hconvertible _ h)
  | constraint hconvertible => exact hinfer.bind (checkInferredType_yields hconvertible _ h)
  | property hconvertible => exact hinfer.bind (checkInferredType_yields hconvertible _ h)

/-- Wherever it is made, the check of the simplification of an expression returns exactly if its
maximal constant operators have values. -/
theorem checksSimplification_returns_iff (props : JayveeValidationProps)
    (container : Option ValueTypeReference) (expression : Expression) (T : ValueType)
    (hprops : ValidationEnvironment props)
    (hinfer : Exec.Yields (inferExpressionType props.ast container expression) (.ok (some T)))
    (check : Validation Unit) (hcheck : ChecksSimplification props expression T container check) :
    CheckReturns check ↔ ConstantsHaveValues props expression := by
  constructor
  · intro hreturns
    by_contra hno
    obtain ⟨error, herror⟩ := checkExpressionSimplification_throws hprops hinfer hno
    obtain ⟨log, hlog⟩ := hcheck.yields hinfer herror
    obtain ⟨after, hrun⟩ := hreturns []
    cases hrun.symm.trans (hlog [])
  · intro h diagnostics
    obtain ⟨log, hlog⟩ :=
      hcheck.yields hinfer (checkExpressionSimplification_yields hprops hinfer h)
    exact ⟨_, hlog diagnostics⟩

end Checks

/-- `1 / divisor`. -/
def reciprocal (divisor : JsNumber) : Expression :=
  .binaryExpression .divide (.numericLiteral 1) (.numericLiteral divisor)

theorem reciprocal_operandsHaveNoFreeVariables (divisor : JsNumber) :
    (reciprocal divisor).OperandsHaveNoFreeVariables := by
  refine Expression.operandsHaveNoFreeVariables_iff.mpr ⟨rfl, fun child hchild => ?_⟩
  rcases List.mem_pair.mp hchild with rfl | rfl <;>
    exact Expression.operandsHaveNoFreeVariables_of_isValueLiteral rfl

/-- `1 / 2`, as the value of a decimal property. -/
theorem checksSimplification_returns_half :
    CheckReturns
      (checkPropertyValueTyping ⟨"factor", .expression (reciprocal 2)⟩ .Decimal sampleProps) := by
  refine (checksSimplification_returns_iff sampleProps none (reciprocal 2) .Decimal ⟨_, rfl⟩
    ⟨[], fun _ => by simp [reciprocal]; rfl⟩ _ (.property rfl)).mpr ?_
  intro path inner hinner _
  obtain ⟨rfl, rfl⟩ := (isOutermostAt_of_holds (reciprocal_operandsHaveNoFreeVariables 2)).mp hinner
  have hfinite : (JsNumber.div sampleNearest 1 2).isFinite = true := by decide +kernel
  refine ⟨⟨trivial, fun _ => trivial, ?_⟩, ?_⟩
  · rintro x y ⟨⟩ ⟨⟩
    exact .inl hfinite
  · show finiteNumber (JsNumber.div sampleNearest 1 2) ≠ none
    simp [finiteNumber, hfinite]

theorem not_checksSimplification_returns_zero :
    ¬ ∀ (props : JayveeValidationProps) (container : Option ValueTypeReference)
      (expression : Expression) (T : ValueType), ValidationEnvironment props →
      Exec.Yields (inferExpressionType props.ast container expression) (.ok (some T)) →
      ∀ check, ChecksSimplification props expression T container check → CheckReturns check := by
  intro h
  obtain ⟨after, hreturns⟩ := h sampleProps none (reciprocal 0) .Decimal ⟨_, rfl⟩
    ⟨[], fun _ => by simp [reciprocal]; rfl⟩ _ .direct []
  have hthrows : ∃ error log, checkExpressionSimplification (reciprocal 0) sampleProps [] =
      some (.error error, log) := ⟨_, _, rfl⟩
  obtain ⟨error, log, herror⟩ := hthrows
  cases hreturns.symm.trans herror

end Jayvee
