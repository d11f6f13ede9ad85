import Jayvee.Verification.Execution.Validity
import Jayvee.Verification.Properties.ConstraintBounds

/-! # Value types with validated constraints

The constraint types of the standard library have a meaning that the validation fixes: what a
constraint accepts depends on the values that the validation has found for its properties only. -/

namespace Jayvee

open Foundation ExecutionContext ValueType

/-! ## The value of a property -/

/-- The validation finds at most one value. -/
theorem IsValueOf.unique {props : JayveeValidationProps} {container : PropertyBodyContainer}
    {propertySpec : PropertySpecification} {value value' : Value}
    (h : IsValueOf props container propertySpec value)
    (h' : IsValueOf props container propertySpec value') : value = value' := by
  cases hfind : findProperty (container.properties props.ast) propertySpec.name with
  | none =>
      have habsent := findProperty_eq_none hfind
      exact Option.some.inj ((h.left_out habsent).symm.trans (h'.left_out habsent))
  | some property =>
      have hrun := h.evaluatePropertyValue_apply hfind []
      rw [h'.evaluatePropertyValue_apply hfind []] at hrun
      cases hrun
      rfl

theorem IsNumberOf.unique {props : JayveeValidationProps} {container : PropertyBodyContainer}
    {propertySpec : PropertySpecification} {v v' : ℚ}
    (h : IsNumberOf props container propertySpec v)
    (h' : IsNumberOf props container propertySpec v') : v = v' := by
  obtain ⟨x, hx, hvalueOf⟩ := h
  obtain ⟨x', hx', hvalueOf'⟩ := h'
  cases hvalueOf.unique hvalueOf'
  exact Option.some.inj (hx.symm.trans hx')

/-! ## Meanings of the constraint types -/

/-- What a constraint on texts accepts that compares them with the value of its property. -/
def AcceptsTexts {A : Type} (props : JayveeValidationProps) (constraint : ConstraintId)
    (propertySpec : PropertySpecification) (toValue : A → Value) (compare : A → String → Prop)
    (value : Value) : Prop :=
  ∃ text a, value = .string text ∧
    IsValueOf props (.constraint constraint) propertySpec (toValue a) ∧ compare a text

namespace AllowlistConstraintExecutor

/-- The property in `AllowlistConstraint.jv`. -/
def allowlist : PropertySpecification :=
  ⟨"allowlist", .collection .Text, none⟩

def Accepts (props : JayveeValidationProps) (constraint : ConstraintId) : Value → Prop :=
  AcceptsTexts props constraint allowlist .collection fun values text => .string text ∈ values

end AllowlistConstraintExecutor

namespace DenylistConstraintExecutor

/-- The property in `DenylistConstraint.jv`. -/
def denylist : PropertySpecification :=
  ⟨"denylist", .collection .Text, none⟩

def Accepts (props : JayveeValidationProps) (constraint : ConstraintId) : Value → Prop :=
  AcceptsTexts props constraint denylist .collection fun values text => .string text ∉ values

end DenylistConstraintExecutor

namespace RegexConstraintExecutor

/-- The property in `RegexConstraint.jv`. -/
def regex : PropertySpecification :=
  ⟨"regex", Regex, none⟩

def Accepts (props : JayveeValidationProps) (constraint : ConstraintId) : Value → Prop :=
  AcceptsTexts props constraint regex .regExp fun source text =>
    props.runtime.test source text = true

end RegexConstraintExecutor

namespace LengthConstraintExecutor

def Accepts (props : JayveeValidationProps) (constraint : ConstraintId) (value : Value) : Prop :=
  ∃ lower upper : ℚ, IsNumberOf props (.constraint constraint) minLength lower ∧
    IsNumberOf props (.constraint constraint) maxLength upper ∧
    ∃ text, value = .string text ∧ (JsRuntime.length text : ℚ) ∈ Set.Icc lower upper

end LengthConstraintExecutor

namespace RangeConstraintExecutor

def Accepts (props : JayveeValidationProps) (constraint : ConstraintId) (value : Value) : Prop :=
  ∃ bounds : Bounds, bounds.AreValuesOf props (.constraint constraint) ∧
    ∃ x ∈ bounds.interval, numericValue props.runtime value = some x

end RangeConstraintExecutor

/-- What a constraint of the standard library accepts. -/
def AcceptsValue (props : JayveeValidationProps) (constraint : ConstraintId) : Value → Prop :=
  match (PropertyBodyContainer.constraint constraint).typeName props.ast with
  | some "AllowlistConstraint" => AllowlistConstraintExecutor.Accepts props constraint
  | some "DenylistConstraint" => DenylistConstraintExecutor.Accepts props constraint
  | some "RegexConstraint" => RegexConstraintExecutor.Accepts props constraint
  | some "LengthConstraint" => LengthConstraintExecutor.Accepts props constraint
  | some "RangeConstraint" => RangeConstraintExecutor.Accepts props constraint
  | _ => fun _ => False

/-! ## Constraints with a validated body -/

/-- The constraint has a type of the standard library and a validated body. -/
def IsValidatedAs (props : JayveeValidationProps) (constraint : ConstraintId) (typeName : String)
    (wrapper : List PropertySpecification) : Prop :=
  (PropertyBodyContainer.constraint constraint).typeName props.ast = some typeName ∧
    ValidatedContainer props (.constraint constraint) wrapper

inductive HasValidatedBody (props : JayveeValidationProps) (constraint : ConstraintId) : Prop
  | allowlist (h : IsValidatedAs props constraint "AllowlistConstraint"
      [AllowlistConstraintExecutor.allowlist])
  | denylist (h : IsValidatedAs props constraint "DenylistConstraint"
      [DenylistConstraintExecutor.denylist])
  | regex (h : IsValidatedAs props constraint "RegexConstraint" [RegexConstraintExecutor.regex])
  | length (h : IsValidatedAs props constraint "LengthConstraint"
      LengthConstraintExecutor.propertySpecifications)
  | range (h : IsValidatedAs props constraint "RangeConstraint"
      RangeConstraintExecutor.propertySpecifications)

/-! ## Checks of a value -/

/-- The check answers in the context, and `accepts` says what. -/
def Answers {δ : Type} (isValid : ConstraintExecutor δ) (context : ExecutionContext δ)
    (accepts : Value → Prop) : Prop :=
  ∀ value, ∃ accepted, isValid value context = some (.ok accepted, context) ∧
    (accepted = true ↔ accepts value)

section Executors

variable {δ : Type} {props : JayveeValidationProps} {services : ExecutionServices}
  {context : ExecutionContext δ} {constraint : ConstraintId}

/-- A check of texts that compares them with the value of its property. -/
theorem answers_acceptsTexts {A : Type} {propertySpec : PropertySpecification}
    {toValue : A → Value} (hinjective : Function.Injective toValue) {compare : A → String → Prop}
    {isValid : ConstraintExecutor δ} {a : A}
    (hvalueOf : IsValueOf props (.constraint constraint) propertySpec (toValue a))
    (htext : ∀ text, ∃ accepted, isValid (.string text) context = some (.ok accepted, context) ∧
      (accepted = true ↔ compare a text))
    (hother : ∀ value, (∀ text, value ≠ .string text) →
      isValid value context = some (.ok false, context)) :
    Answers isValid context (AcceptsTexts props constraint propertySpec toValue compare) := by
  intro value
  by_cases hstring : ∃ text, value = .string text
  · obtain ⟨text, rfl⟩ := hstring
    obtain ⟨accepted, hrun, hiff⟩ := htext text
    refine ⟨accepted, hrun, hiff.trans ⟨fun hcompare => ⟨text, a, rfl, hvalueOf, hcompare⟩, ?_⟩⟩
    rintro ⟨_, a', heq, hvalueOf', hcompare⟩
    cases heq
    rwa [hinjective (hvalueOf.unique hvalueOf')]
  · refine ⟨false, hother value fun text heq => hstring ⟨text, heq⟩, ?_⟩
    refine iff_of_false Bool.false_ne_true ?_
    rintro ⟨text, _, heq, _⟩
    exact hstring ⟨text, heq⟩

theorem includes_iff {values : List Value} {text : String} :
    includes values text = true ↔ Value.string text ∈ values := by
  have hequal : ∀ value : Value, value.strictEquals (.string text) = true ↔
      value = .string text := by
    intro value
    cases value <;> simp [Value.strictEquals]
  simp [includes, hequal]

theorem exists_texts {wrapper : List PropertySpecification} (name : String)
    (h : ValidatedContainer props (.constraint constraint) wrapper)
    (hcontext : IsInside props (.constraint constraint) services context)
    (hspec : getPropertySpecification wrapper name = some ⟨name, .collection .Text, none⟩) :
    ∃ values, getTypedPropertyValue services collectionTypeguard name (.collection .Text) context =
        some (.ok values, context) ∧
      IsValueOf props (.constraint constraint) ⟨name, .collection .Text, none⟩
        (.collection values) := by
  refine exists_typedValue ⟨name, .collection .Text, none⟩ h hcontext hspec Value.collection
    fun value htype => ?_
  obtain ⟨values, rfl, _⟩ := hasType_collection.mp htype
  exact ⟨values, rfl, rfl⟩

theorem AllowlistConstraintExecutor.isValid_answers
    (h : ValidatedContainer props (.constraint constraint) [allowlist])
    (hcontext : IsInside props (.constraint constraint) services context) :
    Answers (isValid services) context (Accepts props constraint) := by
  obtain ⟨values, hrun, hvalueOf⟩ := exists_texts "allowlist" h hcontext rfl
  refine answers_acceptsTexts (fun _ _ => Value.collection.inj) hvalueOf (fun text => ?_)
    fun value hvalue => ?_
  · refine ⟨includes values text, ?_, includes_iff⟩
    rw [isValid, Exec.bind_of_ok hrun]
    rfl
  · cases value with
    | string text => exact (hvalue text rfl).elim
    | _ => rfl

theorem DenylistConstraintExecutor.isValid_answers
    (h : ValidatedContainer props (.constraint constraint) [denylist])
    (hcontext : IsInside props (.constraint constraint) services context) :
    Answers (isValid services) context (Accepts props constraint) := by
  obtain ⟨values, hrun, hvalueOf⟩ := exists_texts "denylist" h hcontext rfl
  refine answers_acceptsTexts (fun _ _ => Value.collection.inj) hvalueOf (fun text => ?_)
    fun value hvalue => ?_
  · refine ⟨!includes values text, ?_, ?_⟩
    · rw [isValid, Exec.bind_of_ok hrun]
      rfl
    · rw [Bool.not_eq_true', ← Bool.not_eq_true, includes_iff]
  · cases value with
    | string text => exact (hvalue text rfl).elim
    | _ => rfl

theorem RegexConstraintExecutor.isValid_answers
    (h : ValidatedContainer props (.constraint constraint) [regex])
    (hcontext : IsInside props (.constraint constraint) services context) :
    Answers (isValid services) context (Accepts props constraint) := by
  have hguard : ∀ value, HasType props.ast Regex value →
      ∃ source, value.regexpTypeguard = some source ∧ value = .regExp source := by
    intro value htype
    cases value with
    | regExp source => exact ⟨source, rfl, rfl⟩
    | _ => cases hasType_primitive.mp htype
  obtain ⟨source, hrun, hvalueOf⟩ := exists_typedValue regex h hcontext rfl Value.regExp hguard
  refine answers_acceptsTexts (fun _ _ => Value.regExp.inj) hvalueOf (fun text => ?_)
    fun value hvalue => ?_
  · refine ⟨services.runtime.test source text, ?_, ?_⟩
    · rw [isValid]
      exact Exec.bind_of_ok hrun
    · rw [hcontext.runtime]
  · cases value with
    | string text => exact (hvalue text rfl).elim
    | _ => rfl

theorem LengthConstraintExecutor.isValid_answers
    (h : ValidatedContainer props (.constraint constraint) propertySpecifications)
    (hcontext : IsInside props (.constraint constraint) services context) :
    Answers (isValid services) context (Accepts props constraint) := by
  obtain ⟨lower, hlowerValue, x, hx, hlower⟩ := exists_number minLength h hcontext rfl rfl
  obtain ⟨upper, hupperValue, y, hy, hupper⟩ := exists_number maxLength h hcontext rfl rfl
  intro value
  obtain ⟨accepted, hrun, hiff⟩ := isValid_apply hx hy hlower hupper value
  refine ⟨accepted, hrun, hiff.trans ⟨fun h => ⟨lower, upper, hlowerValue, hupperValue, h⟩, ?_⟩⟩
  rintro ⟨lower', upper', hlowerValue', hupperValue', haccepted⟩
  cases hlowerValue.unique hlowerValue'
  cases hupperValue.unique hupperValue'
  exact haccepted

end Executors

namespace RangeConstraintExecutor

theorem Bounds.AreValuesOf.unique {bounds bounds' : Bounds} {props : JayveeValidationProps}
    {container : PropertyBodyContainer} (h : bounds.AreValuesOf props container)
    (h' : bounds'.AreValuesOf props container) : bounds = bounds' := by
  have hlower := IsNumberOf.unique h.lower h'.lower
  have hlowerInclusive := Value.boolean.inj (h.lowerInclusive.unique h'.lowerInclusive)
  have hupper := IsNumberOf.unique h.upper h'.upper
  have hupperInclusive := Value.boolean.inj (h.upperInclusive.unique h'.upperInclusive)
  exact Bounds.ext hlower hlowerInclusive hupper hupperInclusive

theorem isValid_answers {δ : Type} {props : JayveeValidationProps} {services : ExecutionServices}
    {context : ExecutionContext δ} {constraint : ConstraintId}
    (h : ValidatedContainer props (.constraint constraint) propertySpecifications)
    (hcontext : IsInside props (.constraint constraint) services context) :
    Answers (isValid services) context (Accepts props constraint) := by
  obtain ⟨bounds, hvalues, hread⟩ := exists_bounds h hcontext
  intro value
  obtain ⟨accepted, hrun, hiff⟩ := isValid_apply hread value
  rw [hcontext.runtime] at hiff
  refine ⟨accepted, hrun, hiff.trans ⟨fun haccepted => ⟨bounds, hvalues, haccepted⟩, ?_⟩⟩
  rintro ⟨bounds', hvalues', haccepted⟩
  rwa [hvalues.unique hvalues']

end RangeConstraintExecutor

/-! ## Decisions of the constraints -/

/-- The execution of the validated model, outside the checks of values. -/
structure RunsModel {δ : Type} (props : JayveeValidationProps) (services : ExecutionServices)
    (context : ExecutionContext δ) : Prop where
  ast : services.ast = props.ast
  runtime : services.runtime = props.runtime
  parameters : context.evaluationContext.runtimeParameterProvider =
    props.evaluationContext.runtimeParameterProvider
  keyword : context.evaluationContext.valueKeywordValue = none

section Decisions

variable {δ : Type} {props : JayveeValidationProps} {services : ExecutionServices}
  {context : ExecutionContext δ} {constraint : ConstraintId} {value : Value}

theorem RunsModel.entered (h : RunsModel props services context) (constraint : ConstraintId) :
    IsInside props (.constraint constraint) services
      (entered context (.constraint constraint)) where
  ast := h.ast
  runtime := h.runtime
  node := List.getLast?_concat
  parameters := h.parameters

theorem createConstraintExecutor_of_typeName {typeName : String}
    {constraintExecutor : ConstraintExecutor δ}
    (htypeName : (PropertyBodyContainer.constraint constraint).typeName services.ast =
      some typeName)
    (hlookup : (getConstraintExecutors services).lookup typeName = some constraintExecutor) :
    createConstraintExecutor services constraint = .ok constraintExecutor := by
  obtain ⟨type, htype, rfl⟩ := Option.map_eq_some_iff.mp htypeName
  unfold PropertyBodyContainer.constraintTypeOf at htype
  unfold createConstraintExecutor
  cases hconstraint : services.ast.constraints[constraint]? with
  | none =>
      rw [hconstraint] at htype
      cases htype
  | some definition =>
      rw [hconstraint] at htype
      cases definition with
      | typed name found body =>
          cases htype
          dsimp only
          rw [hlookup]
      | expression => cases htype

theorem Decides.unique {isAccepted isAccepted' : Bool}
    (h : Decides services context value constraint isAccepted)
    (h' : Decides services context value constraint isAccepted') : isAccepted = isAccepted' := by
  obtain ⟨constraintExecutor, _, hcreate, hrun⟩ := h
  obtain ⟨constraintExecutor', _, hcreate', hrun'⟩ := h'
  cases hcreate.symm.trans hcreate'
  cases hrun.symm.trans hrun'
  rfl

theorem decides_of_answers {typeName : String} {constraintExecutor : ConstraintExecutor δ}
    {accepts : Value → Prop} (hcontext : RunsModel props services context)
    (htypeName : (PropertyBodyContainer.constraint constraint).typeName props.ast = some typeName)
    (hlookup : (getConstraintExecutors services).lookup typeName = some constraintExecutor)
    (hanswers : Answers constraintExecutor (entered context (.constraint constraint)) accepts)
    (value : Value) : ∃ isAccepted, Decides services context value constraint isAccepted ∧
      (isAccepted = true ↔ accepts value) := by
  obtain ⟨isAccepted, hrun, hiff⟩ := hanswers value
  rw [← hcontext.ast] at htypeName
  have hcreate := createConstraintExecutor_of_typeName htypeName hlookup
  exact ⟨isAccepted, ⟨constraintExecutor, _, hcreate, hrun⟩, hiff⟩

/-- One case for each constraint type of the standard library. -/
theorem HasValidatedBody.decides (h : HasValidatedBody props constraint)
    (hcontext : RunsModel props services context) (value : Value) :
    ∃ isAccepted, Decides services context value constraint isAccepted ∧
      (isAccepted = true ↔ AcceptsValue props constraint value) := by
  have hinside := hcontext.entered constraint
  unfold AcceptsValue
  cases h with
  | allowlist h =>
      rw [h.1]
      exact decides_of_answers hcontext h.1 rfl
        (AllowlistConstraintExecutor.isValid_answers h.2 hinside) value
  | denylist h =>
      rw [h.1]
      exact decides_of_answers hcontext h.1 rfl
        (DenylistConstraintExecutor.isValid_answers h.2 hinside) value
  | regex h =>
      rw [h.1]
      exact decides_of_answers hcontext h.1 rfl
        (RegexConstraintExecutor.isValid_answers h.2 hinside) value
  | length h =>
      rw [h.1]
      exact decides_of_answers hcontext h.1 rfl
        (LengthConstraintExecutor.isValid_answers h.2 hinside) value
  | range h =>
      rw [h.1]
      exact decides_of_answers hcontext h.1 rfl
        (RangeConstraintExecutor.isValid_answers h.2 hinside) value

theorem HasValidatedBody.decides_true_iff (h : HasValidatedBody props constraint)
    (hcontext : RunsModel props services context) (value : Value) :
    Decides services context value constraint true ↔ AcceptsValue props constraint value := by
  obtain ⟨isAccepted, hdecides, hiff⟩ := h.decides hcontext value
  rw [← hiff]
  constructor
  · exact fun htrue => hdecides.unique htrue
  · rintro rfl
    exact hdecides

end Decisions

/-! ## Values of a validated type -/

/-- The value represents the primitive type at the root, and all constraints on the way there
accept it. -/
structure IsValueOfType (props : JayveeValidationProps) (value : Value) (T : ValueType) :
    Prop where
  primitive : ∃ root, Above props.ast T root ∧ (∀ astNode, root ≠ .atomic astNode) ∧
    root.isInternalValueRepresentation props.ast value = .ok true
  constraints : ∀ astNode, Above props.ast T (.atomic astNode) →
    ∀ constraint, Lists props.ast astNode constraint → AcceptsValue props constraint value

/-- The constraints of the value type, and of those above it, have validated bodies. -/
def HasValidatedConstraints (props : JayveeValidationProps) (T : ValueType) : Prop :=
  ∀ astNode, Above props.ast T (.atomic astNode) →
    ∀ constraint, Lists props.ast astNode constraint → HasValidatedBody props constraint

section Validity

variable {δ : Type} {props : JayveeValidationProps} {services : ExecutionServices}
  {context : ExecutionContext δ} {T : ValueType}

theorem validRepresentation_iff_isValueOfType (hconstraints : HasValidatedConstraints props T)
    (hcontext : RunsModel props services context) (value : Value) :
    ValidRepresentation services context value T ↔ IsValueOfType props value T := by
  have hast := hcontext.ast
  constructor
  · rintro ⟨hprimitive, haccepted⟩
    rw [hast] at hprimitive haccepted
    exact ⟨hprimitive, fun astNode habove constraint hlists =>
      ((hconstraints astNode habove constraint hlists).decides_true_iff hcontext value).mp
        (haccepted astNode habove constraint hlists)⟩
  · rintro ⟨hprimitive, haccepted⟩
    constructor
    · rw [hast]
      exact hprimitive
    · rw [hast]
      exact fun astNode habove constraint hlists =>
        ((hconstraints astNode habove constraint hlists).decides_true_iff hcontext value).mpr
          (haccepted astNode habove constraint hlists)

theorem isValidValueRepresentation_iff (hresolved : ResolvedHierarchy props.ast)
    (hT : IsDefined props.ast T) (hconstraints : HasValidatedConstraints props T)
    (hcontext : RunsModel props services context) (value : Value) :
    ∃ isValid,
      isValidValueRepresentation services value T context = some (.ok isValid, context) ∧
      (isValid = true ↔ IsValueOfType props value T) := by
  have hast := hcontext.ast
  have hdecides : ∀ astNode, Above services.ast T (.atomic astNode) →
      ∀ constraint, Lists services.ast astNode constraint →
        ∃ isAccepted, Decides services context value constraint isAccepted := by
    intro astNode habove constraint hlists
    rw [hast] at habove hlists
    obtain ⟨isAccepted, hdecides, _⟩ :=
      (hconstraints astNode habove constraint hlists).decides hcontext value
    exact ⟨isAccepted, hdecides⟩
  have hacyclic : hasSupertypeCycle services.ast (hierarchyDepth services.ast) [] T =
      .ok false := by
    rw [hast]
    exact hresolved.acyclic T hT
  obtain ⟨isValid, hrun, hiff⟩ := visitValueRepresentation_eq (by rwa [hast]) hcontext.keyword
    hacyclic (by rwa [hast]) hdecides
  exact ⟨isValid, hrun,
    hiff.trans (validRepresentation_iff_isValueOfType hconstraints hcontext value)⟩

end Validity

/-- The check of a value never throws where the bodies of all constraints are validated. One
predicate answers it in every state of the execution: what the validation has found fixes which
values are valid. -/
theorem isValidValueRepresentation_of_validated (props : JayveeValidationProps)
    (hresolved : ResolvedHierarchy props.ast) (T : ValueType) (hT : IsDefined props.ast T)
    (hconstraints : HasValidatedConstraints props T) :
    ∃ isValid : Value → Bool, (∀ value, isValid value = true ↔ IsValueOfType props value T) ∧
      ∀ (δ : Type) (services : ExecutionServices) (context : ExecutionContext δ),
        RunsModel props services context → ∀ value,
          isValidValueRepresentation services value T context =
            some (.ok (isValid value), context) := by
  classical
  refine ⟨fun value => decide (IsValueOfType props value T), fun value => decide_eq_true_iff,
    fun δ services context hcontext value => ?_⟩
  obtain ⟨isValid, hrun, hiff⟩ :=
    isValidValueRepresentation_iff hresolved hT hconstraints hcontext value
  have hsame : isValid = decide (IsValueOfType props value T) := by
    rw [Bool.eq_iff_iff, hiff, decide_eq_true_iff]
  rw [hrun, hsame]

/-! ## A value type with a constraint -/

section ShortAnswer

open LengthConstraintExecutor

theorem eq_two_of_isDefined {astNode : ValuetypeId}
    (h : IsDefined shortAnswerAst (.atomic astNode)) : astNode = 2 := by
  obtain ⟨definition, hdefinition, hcustom⟩ := h
  rcases astNode with _ | _ | _ | astNode
  · cases hdefinition
    cases hcustom
  · cases hdefinition
    cases hcustom
  · rfl
  · cases hdefinition

theorem shortAnswer_resolved : ResolvedHierarchy shortAnswerAst where
  acyclic T hT := by
    cases T with
    | atomic astNode =>
        obtain rfl := eq_two_of_isDefined hT
        rfl
    | primitive kind => rfl
    | emptyCollection => rfl
    | collection elementType => rfl
  supertype astNode hT := by
    obtain rfl := eq_two_of_isDefined hT
    exact ⟨Text, rfl⟩
  constraints astNode hT := by
    obtain rfl := eq_two_of_isDefined hT
    exact ⟨[0], rfl⟩

theorem shortAnswer_hasValidatedBody {astNode : ValuetypeId} {constraint : ConstraintId}
    (h : Lists shortAnswerAst astNode constraint) :
    HasValidatedBody shortAnswerProps constraint := by
  obtain ⟨constraints, hconstraints, hmem⟩ := h
  rcases astNode with _ | _ | _ | astNode
  · cases hconstraints
  · cases hconstraints
  · cases hconstraints
    have hconstraint : constraint = 0 := by simpa [constraintReference] using hmem
    subst hconstraint
    exact .length ⟨rfl, shortAnswer_validated⟩
  · cases hconstraints

theorem isValidValueRepresentation_of_validated_shortAnswer :
    ∃ isValid : Value → Bool,
      (∀ value, isValid value = true ↔ IsValueOfType shortAnswerProps value (.atomic 2)) ∧
      isValidValueRepresentation (sampleServices shortAnswerAst) (.string "Yes") (.atomic 2)
          (construct shortAnswerProps.evaluationContext : ExecutionContext Unit) =
        some (.ok (isValid (.string "Yes")), construct shortAnswerProps.evaluationContext) := by
  obtain ⟨isValid, hiff, hrun⟩ := isValidValueRepresentation_of_validated shortAnswerProps
    shortAnswer_resolved (.atomic 2) ⟨_, rfl, rfl⟩
      fun _ _ _ hlists => shortAnswer_hasValidatedBody hlists
  exact ⟨isValid, hiff, hrun Unit (sampleServices shortAnswerAst)
    (construct shortAnswerProps.evaluationContext) ⟨rfl, rfl, rfl, rfl⟩ (.string "Yes")⟩

end ShortAnswer

end Jayvee
