import Jayvee.Model.PropertyValidation
import Jayvee.Verification.Evaluation.ThrownErrors
import Jayvee.Verification.Imports.UniqueExports
import Jayvee.Verification.Typing.InferenceReports

/-! # Checks of properties withdraw no diagnostics -/

namespace Jayvee

open Foundation

/-! ## Evaluation and type inference -/

section Expressions

variable {ast : Ast} {runtime : JsRuntime} {props : JayveeValidationProps}
  {container : Option ValueTypeReference}

theorem evaluateExpression_moves (env : EvaluationContext) (strategy : EvaluationStrategy)
    (expression : Expression) :
    Exec.Moves StillReported (evaluateExpression runtime env strategy expression) := by
  by_cases hsucceeds : OperationsSucceed runtime env strategy expression
  · cases evaluateExpression_computes hsucceeds with
    | inl hyields => exact hyields.kept
    | inr hfails => exact Exec.Yields.kept hfails
  · obtain ⟨_, hyields⟩ := evaluateExpression_throws hsucceeds
    exact hyields.kept

theorem checkSimplification_moves (node : ExpressionNode) :
    Exec.Moves StillReported (checkSimplification props node) := by
  refine (evaluateExpression_moves _ _ _).bind fun evaluated => ?_
  cases evaluated with
  | none => exact Exec.Moves.throw _
  | some value => exact (Exec.Moves.ofExcept _).bind fun _ => accept_moves _ _ _

theorem checkExpressionSimplification_moves (expression : Expression) :
    Exec.Moves StillReported (checkExpressionSimplification expression props) :=
  Exec.Moves.forEach checkSimplification_moves

theorem inferTypeFromValueKeyword_moves (lengthAccess : Bool) :
    Exec.Moves StillReported (inferTypeFromValueKeyword ast container lengthAccess) := by
  cases container with
  | none => exact (accept_moves _ _ _).bind fun _ => Exec.Moves.pure none
  | some reference =>
      refine (Exec.Moves.ofExcept _).bind fun wrapped => ?_
      cases wrapped with
      | none => exact Exec.Moves.pure none
      | some valueType =>
          refine Exec.Moves.ite (Exec.Moves.pure _) ?_
          refine (Exec.Moves.ofExcept _).bind fun isText => ?_
          refine Exec.Moves.ite (Exec.Moves.pure _) ?_
          exact (accept_moves _ _ _).bind fun _ => Exec.Moves.pure none

theorem inferCollectionElementTypes_moves {values : List Expression}
    (h : ∀ value ∈ values, Exec.Moves StillReported (inferExpressionType ast container value)) :
    Exec.Moves StillReported (inferCollectionElementTypes ast container values) := by
  induction values with
  | nil => exact Exec.Moves.pure []
  | cons value values ih =>
      rw [List.forall_mem_cons] at h
      exact h.1.bind fun _ => (ih h.2).bind fun _ => Exec.Moves.pure _

theorem inferExpressionType_moves (expression : Expression) :
    Exec.Moves StillReported (inferExpressionType ast container expression) := by
  induction expression using Expression.inductionOnChildren with
  | step expression ih =>
    cases expression with
    | collectionLiteral values =>
        refine (inferCollectionElementTypes_moves ih).bind fun types => ?_
        cases isEveryValueDefined types with
        | none => exact Exec.Moves.pure none
        | some elementValuetypes => exact (inferCollectionType_reports ast _ _).moves
    | unaryExpression operator operand =>
        refine (ih operand (by simp [Expression.children])).bind fun innerType => ?_
        cases innerType with
        | none => exact Exec.Moves.pure none
        | some T =>
            rw [unaryTypeComputer_eq]
            exact (computeUnaryType_reports _ _ _ _).moves
    | binaryExpression operator left right =>
        refine (ih left (by simp [Expression.children])).bind fun leftType => ?_
        refine (ih right (by simp [Expression.children])).bind fun rightType => ?_
        cases leftType with
        | none => exact Exec.Moves.pure none
        | some S =>
            cases rightType with
            | none => exact Exec.Moves.pure none
            | some T => exact (binaryTypeComputer_reports _ _ _ _ _ _).moves
    | ternaryExpression operator first second third =>
        refine (ih first (by simp [Expression.children])).bind fun firstType => ?_
        refine (ih second (by simp [Expression.children])).bind fun secondType => ?_
        refine (ih third (by simp [Expression.children])).bind fun thirdType => ?_
        cases firstType with
        | none => exact Exec.Moves.pure none
        | some S =>
            cases secondType with
            | none => exact Exec.Moves.pure none
            | some T =>
                cases thirdType with
                | none => exact Exec.Moves.pure none
                | some U =>
                    cases operator
                    exact (computeTernaryType_reports _ _ _ _ _ _ _ _ _ _).moves
    | valueKeywordLiteral lengthAccess => exact inferTypeFromValueKeyword_moves lengthAccess
    | referenceLiteral value => exact Exec.Moves.ofExcept _
    | _ => exact Exec.Moves.pure _

theorem checkInferredType_moves (subject : String) (expression : Expression)
    (inferredType expectedType : ValueType) :
    Exec.Moves StillReported
      (checkInferredType props subject expression inferredType expectedType) := by
  refine (Exec.Moves.ofExcept _).bind fun _ => ?_
  exact Exec.Moves.ite (accept_moves _ _ _) (checkExpressionSimplification_moves _)

theorem checkPropertyValueTyping_moves (property : PropertyAssignment) (propertyType : ValueType) :
    Exec.Moves StillReported (checkPropertyValueTyping property propertyType props) := by
  unfold checkPropertyValueTyping
  cases property.value with
  | runtimeParameter name =>
      refine (Exec.Moves.ofExcept _).bind fun _ => ?_
      exact Exec.Moves.ite (accept_moves _ _ _) (Exec.Moves.pure ())
  | expression propertyValue =>
      refine (inferExpressionType_moves propertyValue).bind fun inferredType => ?_
      cases inferredType with
      | none => exact Exec.Moves.pure ()
      | some inferredType => exact checkInferredType_moves _ _ _ _

theorem evaluatePropertyValue_moves (property : PropertyAssignment) (env : EvaluationContext)
    (valueType : ValueType) :
    Exec.Moves StillReported (evaluatePropertyValue ast runtime property env valueType) :=
  (Exec.Agrees.reads fun _ => evaluatePropertyValue_agrees runtime ast property env valueType).moves

end Expressions

/-! ## Properties of block types -/

section Checks

variable {props : JayveeValidationProps}

theorem checkUniqueElementNames_moves (elementTypeDetails : String)
    (nodes : List (String × AstNode)) :
    Exec.Moves StillReported (checkUniqueElementNames elementTypeDetails nodes) := by
  refine Exec.Moves.forEach fun nodeName => ?_
  exact Exec.Moves.ite (Exec.Moves.forEach fun _ => accept_moves _ _ _) (Exec.Moves.pure ())

theorem checkPropertyValueOneOf_moves (propValue : Value) (allowedValues : List Value)
    (property : PropertyAssignment) :
    Exec.Moves StillReported (checkPropertyValueOneOf props propValue allowedValues property) := by
  refine Exec.Moves.ite ?_ (Exec.Moves.pure ())
  exact (Exec.Moves.ofExcept _).bind fun _ => accept_moves _ _ _

theorem checkNotSmallerThan_moves (minimum : Nat) (propValue : Value)
    (property : PropertyAssignment) :
    Exec.Moves StillReported (checkNotSmallerThan minimum propValue property) := by
  cases propValue with
  | number value => exact Exec.Moves.ite (accept_moves _ _ _) (Exec.Moves.pure ())
  | _ => exact Exec.Moves.pure ()

theorem checkCellWriterProperty_moves (property : PropertyAssignment) :
    Exec.Moves StillReported (checkCellWriterProperty props property) := by
  refine Exec.Moves.ite (Exec.Moves.pure ()) ?_
  refine (evaluatePropertyValue_moves _ _ _).bind fun value => ?_
  cases value.bind LineKind.cellRangeTypeguard with
  | none => exact Exec.Moves.pure ()
  | some cellRange =>
      refine Exec.Moves.ite (Exec.Moves.pure ()) ?_
      refine (Exec.Moves.ofExcept _).bind fun _ => ?_
      exact Exec.Moves.ite (accept_moves _ _ _) (Exec.Moves.pure ())

theorem checkHttpExtractorProperty_moves (propValue : Value) (property : PropertyAssignment) :
    Exec.Moves StillReported (checkHttpExtractorProperty props propValue property) := by
  have hstrategy : Exec.Moves StillReported (if property.name = "retryBackoffStrategy" then
      checkPropertyValueOneOf props propValue [.string "exponential", .string "linear"] property
      else return) :=
    Exec.Moves.ite (checkPropertyValueOneOf_moves _ _ _) (Exec.Moves.pure ())
  refine Exec.Moves.ite ((checkNotSmallerThan_moves _ _ _).bind fun _ => ?_) ?_
  all_goals
    refine Exec.Moves.ite ?_ hstrategy
    exact (checkNotSmallerThan_moves _ _ _).bind fun _ => hstrategy

theorem checkLocalFileExtractorProperty_moves (propValue : Value)
    (property : PropertyAssignment) :
    Exec.Moves StillReported (checkLocalFileExtractorProperty props propValue property) := by
  refine Exec.Moves.ite ((Exec.Moves.ofExcept _).bind fun _ => ?_) (Exec.Moves.pure ())
  exact Exec.Moves.ite (accept_moves _ _ _) (Exec.Moves.pure ())

theorem checkTableInterpreterProperty_moves (property : PropertyAssignment) :
    Exec.Moves StillReported (checkTableInterpreterProperty props property) := by
  refine Exec.Moves.ite (Exec.Moves.pure ()) ?_
  refine (evaluatePropertyValue_moves _ _ _).bind fun value => ?_
  cases value with
  | none => exact Exec.Moves.pure ()
  | some value => exact checkUniqueElementNames_moves _ _

theorem LineKind.checkCellRange_moves (this : LineKind) (cellRange : CellRangeLiteral) :
    Exec.Moves StillReported (this.checkCellRange cellRange) := by
  refine Exec.Moves.ite (Exec.Moves.pure ()) ?_
  refine (Exec.Moves.ofExcept _).bind fun _ => ?_
  exact Exec.Moves.ite (accept_moves _ _ _) (Exec.Moves.pure ())

theorem LineKind.checkDeleterProperty_moves (this : LineKind) (services : ExecutionServices)
    (env : EvaluationContext) (property : PropertyAssignment) :
    Exec.Moves StillReported (this.checkDeleterProperty services env property) := by
  refine Exec.Moves.ite (Exec.Moves.pure ()) ?_
  refine (evaluatePropertyValue_moves _ _ _).bind fun value => ?_
  cases value with
  | none => exact Exec.Moves.pure ()
  | some value => exact Exec.Moves.forEach this.checkCellRange_moves

theorem checkTextLineDeleterProperty_moves (services : ExecutionServices)
    (env : EvaluationContext) (property : PropertyAssignment) :
    Exec.Moves StillReported
      (TextLineDeleterExecutor.checkTextLineDeleterProperty services env property) := by
  refine Exec.Moves.ite (Exec.Moves.pure ()) ?_
  refine (evaluatePropertyValue_moves _ _ _).bind fun value => ?_
  cases value with
  | none => exact Exec.Moves.pure ()
  | some value =>
      refine Exec.Moves.forEach fun line => ?_
      exact Exec.Moves.ite (accept_moves _ _ _) (Exec.Moves.pure ())

theorem checkPropertyOfType_moves (typeName : Option String) (propValue : Value)
    (property : PropertyAssignment) :
    Exec.Moves StillReported (checkPropertyOfType props typeName propValue property) := by
  unfold checkPropertyOfType
  split
  · exact Exec.Moves.ite (checkPropertyValueOneOf_moves _ _ _) (Exec.Moves.pure ())
  · exact checkCellWriterProperty_moves property
  · exact LineKind.checkDeleterProperty_moves .column _ _ _
  · exact Exec.Moves.ite (checkPropertyValueOneOf_moves _ _ _) (Exec.Moves.pure ())
  · exact checkHttpExtractorProperty_moves propValue property
  · exact checkLocalFileExtractorProperty_moves propValue property
  · exact LineKind.checkDeleterProperty_moves .row _ _ _
  · exact checkTableInterpreterProperty_moves property
  · exact Exec.Moves.ite (checkPropertyValueOneOf_moves _ _ _) (Exec.Moves.pure ())
  · exact checkTextLineDeleterProperty_moves _ _ _
  · exact Exec.Moves.ite (checkNotSmallerThan_moves _ _ _) (Exec.Moves.pure ())
  · exact Exec.Moves.pure ()

theorem checkBlockTypeSpecificProperties_moves (container : PropertyBodyContainer)
    (property : PropertyAssignment) (propertySpec : PropertySpecification) :
    Exec.Moves StillReported
      (checkBlockTypeSpecificProperties props container property propertySpec) := by
  refine (evaluatePropertyValue_moves _ _ _).bind fun value => ?_
  cases value with
  | none => exact Exec.Moves.pure ()
  | some propValue => exact checkPropertyOfType_moves _ _ _

/-! ## Property assignments -/

theorem hasErrorOccurred_moves : Exec.Moves StillReported hasErrorOccurred :=
  (Exec.Reads.get.bind fun _ => Exec.Reads.pure _).moves

theorem validatePropertyAssignment_moves (container : PropertyBodyContainer)
    (wrapper : List PropertySpecification) (property : PropertyAssignment) :
    Exec.Moves StillReported (validatePropertyAssignment props container wrapper property) := by
  unfold validatePropertyAssignment
  dsimp only
  cases getPropertySpecification wrapper property.name with
  | none => exact (accept_moves _ _ _).bind fun _ => Exec.Moves.pure ()
  | some propertySpec =>
      refine (Exec.Moves.pure ()).bind fun _ => ?_
      refine (checkPropertyValueTyping_moves _ _).bind fun _ => ?_
      refine hasErrorOccurred_moves.bind fun _ => ?_
      exact Exec.Moves.ite (Exec.Moves.pure ()) (checkBlockTypeSpecificProperties_moves _ _ _)

/-! ## Property bodies -/

theorem evaluateBound_moves (property : PropertyAssignment) (valueType : ValueType) :
    Exec.Moves StillReported (evaluateBound props property valueType) :=
  (evaluatePropertyValue_moves _ _ _).bind fun _ => Exec.Moves.pure _

theorem evaluateBounds_moves (properties : List PropertyAssignment)
    (lowerName upperName : String) (valueType : ValueType) :
    Exec.Moves StillReported
      (evaluateBounds props properties lowerName upperName valueType) := by
  unfold evaluateBounds
  split
  · refine (evaluateBound_moves _ _).bind fun lower => ?_
    refine (evaluateBound_moves _ _).bind fun upper => ?_
    split <;> exact Exec.Moves.pure _
  · exact Exec.Moves.pure none

theorem checkBoundsOrder_moves (lower upper : PropertyAssignment × JsNumber) (message : String) :
    Exec.Moves StillReported (checkBoundsOrder lower upper message) :=
  Exec.Moves.ite (Exec.Moves.forEach fun _ => accept_moves _ _ _) (Exec.Moves.pure ())

theorem checkTextRangeSelectorPropertyBody_moves (properties : List PropertyAssignment) :
    Exec.Moves StillReported (checkTextRangeSelectorPropertyBody props properties) := by
  refine (evaluateBounds_moves _ _ _ _).bind fun bounds => ?_
  cases bounds with
  | none => exact Exec.Moves.pure ()
  | some bounds => exact checkBoundsOrder_moves _ _ _

theorem checkCellWriterPropertyBody_moves (properties : List PropertyAssignment) :
    Exec.Moves StillReported (checkCellWriterPropertyBody props properties) := by
  unfold checkCellWriterPropertyBody
  dsimp only
  split
  · refine (evaluatePropertyValue_moves _ _ _).bind fun writeValues => ?_
    refine (evaluatePropertyValue_moves _ _ _).bind fun atValue => ?_
    split
    · refine Exec.Moves.ite (Exec.Moves.pure ()) ?_
      refine (Exec.Moves.ofExcept _).bind fun _ => ?_
      exact Exec.Moves.ite (Exec.Moves.forEach fun _ => accept_moves _ _ _) (Exec.Moves.pure ())
    · exact Exec.Moves.pure ()
  · exact Exec.Moves.pure ()

theorem checkTableTransformerPropertyBody_moves (properties : List PropertyAssignment) :
    Exec.Moves StillReported (checkTableTransformerPropertyBody props properties) := by
  unfold checkTableTransformerPropertyBody checkInputColumnsMatchTransformationPorts
  split
  · refine (evaluatePropertyValue_moves _ _ _).bind fun transform => ?_
    refine (evaluatePropertyValue_moves _ _ _).bind fun inputColumns => ?_
    dsimp only
    split
    · exact Exec.Moves.ite (accept_moves _ _ _) (Exec.Moves.pure ())
    · exact Exec.Moves.pure ()
  · exact Exec.Moves.pure ()

theorem checkBlockTypeSpecificPropertyBody_moves (typeName : Option String)
    (properties : List PropertyAssignment) :
    Exec.Moves StillReported (checkBlockTypeSpecificPropertyBody props typeName properties) := by
  unfold checkBlockTypeSpecificPropertyBody
  split
  · exact checkTextRangeSelectorPropertyBody_moves properties
  · exact checkCellWriterPropertyBody_moves properties
  · exact checkTableTransformerPropertyBody_moves properties
  · exact Exec.Moves.pure ()

theorem evaluateInclusive_moves (inclusiveProperty : Option PropertyAssignment) :
    Exec.Moves StillReported (evaluateInclusive props inclusiveProperty) := by
  cases inclusiveProperty with
  | none => exact Exec.Moves.pure _
  | some property => exact (evaluatePropertyValue_moves _ _ _).bind fun _ => Exec.Moves.pure _

theorem checkInclusive_moves (inclusiveProperty : Option PropertyAssignment) (inclusive : Bool) :
    Exec.Moves StillReported (checkInclusive inclusiveProperty inclusive) := by
  cases inclusiveProperty with
  | none => exact Exec.Moves.pure _
  | some property => exact Exec.Moves.ite (accept_moves _ _ _) (Exec.Moves.pure ())

theorem checkAnyBound_moves (container : PropertyBodyContainer)
    (lowerProperty upperProperty : Option PropertyAssignment) :
    Exec.Moves StillReported (checkAnyBound container lowerProperty upperProperty) :=
  Exec.Moves.ite (accept_moves _ _ _) (Exec.Moves.pure ())

theorem checkLengthConstraintPropertyBody_moves (container : PropertyBodyContainer)
    (properties : List PropertyAssignment) :
    Exec.Moves StillReported (checkLengthConstraintPropertyBody props container properties) := by
  refine (checkAnyBound_moves _ _ _).bind fun _ => ?_
  refine (evaluateBounds_moves _ _ _ _).bind fun bounds => ?_
  cases bounds with
  | none => exact Exec.Moves.pure ()
  | some bounds => exact checkBoundsOrder_moves _ _ _

/-- The checks of the bounds of a range that are in order. -/
def checkIdenticalBounds (props : JayveeValidationProps) (properties : List PropertyAssignment)
    (lowerBound upperBound : JsNumber) : Validation Unit := do
  if !lowerBound.strictEquals upperBound then
    return
  let lowerBoundInclusiveProperty := findProperty properties "lowerBoundInclusive"
  let upperBoundInclusiveProperty := findProperty properties "upperBoundInclusive"
  match ← evaluateInclusive props lowerBoundInclusiveProperty with
  | none => return
  | some lowerBoundInclusive =>
      match ← evaluateInclusive props upperBoundInclusiveProperty with
      | none => return
      | some upperBoundInclusive => do
          checkInclusive lowerBoundInclusiveProperty lowerBoundInclusive
          checkInclusive upperBoundInclusiveProperty upperBoundInclusive

theorem checkIdenticalBounds_moves (properties : List PropertyAssignment)
    (lowerBound upperBound : JsNumber) :
    Exec.Moves StillReported (checkIdenticalBounds props properties lowerBound upperBound) := by
  refine Exec.Moves.ite (Exec.Moves.pure ()) ?_
  refine (evaluateInclusive_moves _).bind fun lowerBoundInclusive => ?_
  cases lowerBoundInclusive with
  | none => exact Exec.Moves.pure ()
  | some lowerBoundInclusive =>
      refine (evaluateInclusive_moves _).bind fun upperBoundInclusive => ?_
      cases upperBoundInclusive with
      | none => exact Exec.Moves.pure ()
      | some upperBoundInclusive =>
          exact (checkInclusive_moves _ _).bind fun _ => checkInclusive_moves _ _

theorem checkRangeConstraintPropertyBody_moves (container : PropertyBodyContainer)
    (properties : List PropertyAssignment) :
    Exec.Moves StillReported (checkRangeConstraintPropertyBody props container properties) := by
  refine (checkAnyBound_moves _ _ _).bind fun _ => ?_
  refine (evaluateBounds_moves _ _ _ _).bind fun bounds => ?_
  cases bounds with
  | none => exact Exec.Moves.pure ()
  | some bounds =>
      exact (checkBoundsOrder_moves _ _ _).bind fun _ => checkIdenticalBounds_moves _ _ _

theorem checkCustomPropertyValidation_moves (container : PropertyBodyContainer)
    (properties : List PropertyAssignment) :
    Exec.Moves StillReported (checkCustomPropertyValidation props container properties) := by
  cases container with
  | block block => exact checkBlockTypeSpecificPropertyBody_moves _ _
  | constraint constraint =>
      change Exec.Moves StillReported (checkConstraintTypeSpecificPropertyBody props _ _ _)
      unfold checkConstraintTypeSpecificPropertyBody
      split
      · exact checkLengthConstraintPropertyBody_moves _ _
      · exact checkRangeConstraintPropertyBody_moves _ _
      · exact Exec.Moves.pure ()

end Checks

end Jayvee
