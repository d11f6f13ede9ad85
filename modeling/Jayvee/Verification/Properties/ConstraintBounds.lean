import Jayvee.Verification.Properties.ValidatedValues

/-! # Validated constraints with bounds -/

namespace Jayvee

open Foundation ExecutionContext ValueType

/-! ## Lengths -/

namespace LengthConstraintExecutor

/-- The properties in `LengthConstraint.jv`. -/
def minLength : PropertySpecification :=
  ⟨"minLength", Integer, some (.number 0)⟩

def maxLength : PropertySpecification :=
  ⟨"maxLength", Integer, some (.number 9007199254740991)⟩

def propertySpecifications : List PropertySpecification :=
  [minLength, maxLength]

theorem isValid_apply {δ : Type} {services : ExecutionServices} {context : ExecutionContext δ}
    {x y : JsNumber} {lower upper : ℚ} (hx : x.value = some lower) (hy : y.value = some upper)
    (hlower : getTypedPropertyValue services Value.numberTypeguard "minLength" .Integer context =
      some (.ok x, context))
    (hupper : getTypedPropertyValue services Value.numberTypeguard "maxLength" .Integer context =
      some (.ok y, context)) (value : Value) :
    ∃ accepted, isValid services value context = some (.ok accepted, context) ∧
      (accepted = true ↔ ∃ text, value = .string text ∧
        (JsRuntime.length text : ℚ) ∈ Set.Icc lower upper) := by
  cases value with
  | string text =>
      rw [isValid, Exec.bind_of_ok hlower, Exec.bind_of_ok hupper]
      refine ⟨_, rfl, ?_⟩
      simp [JsNumber.le_iff hx (JsNumber.value_finite _),
        JsNumber.le_iff (JsNumber.value_finite _) hy]
  | _ => exact ⟨false, rfl, by simp⟩

/-- The bounds are in order if both are assigned. -/
theorem le_of_assigned {props : JayveeValidationProps} {constraint : ConstraintId} {lower upper : ℚ}
    (haccepts : AcceptsBody props (.constraint constraint) propertySpecifications)
    (htypeName : (PropertyBodyContainer.constraint constraint).typeName props.ast =
      some "LengthConstraint")
    (hlower : IsNumberOf props (.constraint constraint) minLength lower)
    (hupper : IsNumberOf props (.constraint constraint) maxLength upper)
    (hassignedLower : IsAssigned props (.constraint constraint) minLength)
    (hassignedUpper : IsAssigned props (.constraint constraint) maxLength) : lower ≤ upper := by
  obtain ⟨lowerProperty, hfindLower⟩ := exists_findProperty hassignedLower
  obtain ⟨upperProperty, hfindUpper⟩ := exists_findProperty hassignedUpper
  obtain ⟨x, hx, hlower⟩ := hlower
  obtain ⟨y, hy, hupper⟩ := hupper
  have hpasses : Exec.Passes _ (checkLengthConstraintPropertyBody props _ _) () :=
    haccepts.constraintBody htypeName
  obtain ⟨_, _, _, _, hpasses⟩ := hpasses.bind_last
  obtain ⟨bounds, before, after, hbounds, hpasses⟩ := hpasses.bind_last
  cases hbounds.symm.trans (evaluateBounds_apply hlower hupper rfl hfindLower hfindUpper before)
  exact le_of_checkBoundsOrder hx hy hpasses

/-- A validated constraint never throws. It accepts the texts with a length between its bounds, as
the validation has found them, which are in order if both are assigned. -/
theorem acceptsLengths_of_validated {δ : Type} (props : JayveeValidationProps)
    (constraint : ConstraintId)
    (h : ValidatedContainer props (.constraint constraint) propertySpecifications)
    (htypeName : (PropertyBodyContainer.constraint constraint).typeName props.ast =
      some "LengthConstraint")
    (services : ExecutionServices) (context : ExecutionContext δ)
    (hcontext : IsInside props (.constraint constraint) services context) :
    ∃ lower upper : ℚ,
      IsNumberOf props (.constraint constraint) minLength lower ∧
      IsNumberOf props (.constraint constraint) maxLength upper ∧
      (IsAssigned props (.constraint constraint) minLength →
        IsAssigned props (.constraint constraint) maxLength → lower ≤ upper) ∧
      ∀ value, ∃ accepted, isValid services value context = some (.ok accepted, context) ∧
        (accepted = true ↔ ∃ text, value = .string text ∧
          (JsRuntime.length text : ℚ) ∈ Set.Icc lower upper) := by
  obtain ⟨lower, hlowerValue, x, hx, hlower⟩ := exists_number minLength h hcontext rfl rfl
  obtain ⟨upper, hupperValue, y, hy, hupper⟩ := exists_number maxLength h hcontext rfl rfl
  exact ⟨lower, upper, hlowerValue, hupperValue,
    le_of_assigned h.body htypeName hlowerValue hupperValue, isValid_apply hx hy hlower hupper⟩

/-! ## A validated length -/

/-- `constraint ShortAnswerConstraint oftype LengthConstraint { minLength: 0; maxLength: 20; }`
and a value type `ShortAnswer` with it. -/
def shortAnswerAst : Ast where
  valuetypes := [⟨"integer", true, none, none, none⟩, ⟨"text", true, none, none, none⟩,
    ⟨"ShortAnswer", false, some ⟨some 1, []⟩,
      some [.referenceLiteral (some (.constraintDefinition 0))], none⟩]
  constraints := [.typed "ShortAnswerConstraint" (some ⟨"LengthConstraint", ⟨some 1, []⟩,
      [⟨"minLength", ⟨some 0, []⟩, some (.numericLiteral 0)⟩,
        ⟨"maxLength", ⟨some 0, []⟩, some (.numericLiteral 9007199254740991)⟩]⟩)
    [⟨"minLength", .expression (.numericLiteral 0)⟩,
      ⟨"maxLength", .expression (.numericLiteral 20)⟩]]
  transforms := []
  blocks := []
  blockTypes := []

def shortAnswerProps : JayveeValidationProps :=
  { sampleProps with ast := shortAnswerAst }

def shortAnswerContext : ExecutionContext Unit :=
  { construct shortAnswerProps.evaluationContext with stack := [.constraint 0] }

theorem shortAnswer_validated :
    ValidatedContainer shortAnswerProps (.constraint 0) propertySpecifications := by
  refine ⟨⟨_, rfl⟩, ⟨⟨[], by rfl, by simp⟩, fun _ _ => rfl⟩, fun property hproperty => ?_,
    fun propertySpec hspec value hvalue => ?_⟩
  · rcases List.mem_pair.mp hproperty with rfl | rfl <;>
      exact fun hreturns => by cases hreturns.eq_of_pure
  · rcases List.mem_pair.mp hspec with rfl | rfl <;>
    · cases hvalue
      rfl

theorem acceptsLengths_of_validated_shortAnswer :
    ∃ lower upper : ℚ, lower ≤ upper ∧ ∀ value, ∃ accepted,
      isValid (sampleServices shortAnswerAst) value shortAnswerContext =
          some (.ok accepted, shortAnswerContext) ∧
        (accepted = true ↔ ∃ text, value = .string text ∧
          (JsRuntime.length text : ℚ) ∈ Set.Icc lower upper) := by
  obtain ⟨lower, upper, _, _, horder, hvalid⟩ := acceptsLengths_of_validated shortAnswerProps 0
    shortAnswer_validated rfl (sampleServices shortAnswerAst) shortAnswerContext
      ⟨rfl, rfl, rfl, rfl⟩
  exact ⟨lower, upper, horder ⟨_, List.mem_cons_self, rfl⟩
    ⟨_, List.mem_cons_of_mem _ List.mem_cons_self, rfl⟩, hvalid⟩

end LengthConstraintExecutor

/-! ## Ranges -/

namespace RangeConstraintExecutor

/-- The properties in `RangeConstraint.jv`. -/
def lowerBound : PropertySpecification :=
  ⟨"lowerBound", Decimal, some (.number (.finite (-9007199254740991)))⟩

def lowerBoundInclusive : PropertySpecification :=
  ⟨"lowerBoundInclusive", Boolean, some (.boolean true)⟩

def upperBound : PropertySpecification :=
  ⟨"upperBound", Decimal, some (.number 9007199254740991)⟩

def upperBoundInclusive : PropertySpecification :=
  ⟨"upperBoundInclusive", Boolean, some (.boolean true)⟩

def propertySpecifications : List PropertySpecification :=
  [lowerBound, lowerBoundInclusive, upperBound, upperBoundInclusive]

/-- The values of the four properties. -/
@[ext]
structure Bounds where
  lower : ℚ
  lowerInclusive : Bool
  upper : ℚ
  upperInclusive : Bool

/-- The interval between the bounds. -/
def Bounds.interval (bounds : Bounds) : Set ℚ :=
  (if bounds.lowerInclusive then Set.Ici bounds.lower else Set.Ioi bounds.lower) ∩
    (if bounds.upperInclusive then Set.Iic bounds.upper else Set.Iio bounds.upper)

/-- What the validation finds for the four properties. -/
structure Bounds.AreValuesOf (bounds : Bounds) (props : JayveeValidationProps)
    (container : PropertyBodyContainer) : Prop where
  lower : IsNumberOf props container lowerBound bounds.lower
  lowerInclusive : IsValueOf props container lowerBoundInclusive (.boolean bounds.lowerInclusive)
  upper : IsNumberOf props container upperBound bounds.upper
  upperInclusive : IsValueOf props container upperBoundInclusive (.boolean bounds.upperInclusive)

/-- What the execution reads for the four properties. -/
structure Bounds.AreReadFrom {δ : Type} (bounds : Bounds) (services : ExecutionServices)
    (context : ExecutionContext δ) : Prop where
  lower : ∃ x, x.value = some bounds.lower ∧ getTypedPropertyValue services Value.numberTypeguard
    "lowerBound" .Decimal context = some (.ok x, context)
  lowerInclusive : getTypedPropertyValue services Value.booleanTypeguard "lowerBoundInclusive"
    .Boolean context = some (.ok bounds.lowerInclusive, context)
  upper : ∃ x, x.value = some bounds.upper ∧ getTypedPropertyValue services Value.numberTypeguard
    "upperBound" .Decimal context = some (.ok x, context)
  upperInclusive : getTypedPropertyValue services Value.booleanTypeguard "upperBoundInclusive"
    .Boolean context = some (.ok bounds.upperInclusive, context)

/-- The number that is compared with the bounds, if it is finite. -/
def numericValue (runtime : JsRuntime) : Value → Option ℚ
  | .string text => (runtime.parseFloat text).value
  | .number x => x.value
  | _ => none

section Executor

variable {δ : Type} {bounds : Bounds} {services : ExecutionServices} {context : ExecutionContext δ}
  (h : bounds.AreReadFrom services context)
include h

theorem isInRange_apply (x : JsNumber) :
    ∃ accepted, isInRange services x context = some (.ok accepted, context) ∧
      (accepted = true ↔ ∃ v ∈ bounds.interval, x.value = some v) := by
  obtain ⟨lower, hlower, hreadLower⟩ := h.lower
  obtain ⟨upper, hupper, hreadUpper⟩ := h.upper
  rw [isInRange, Exec.bind_of_ok hreadLower, Exec.bind_of_ok h.lowerInclusive,
    Exec.bind_of_ok hreadUpper, Exec.bind_of_ok h.upperInclusive]
  refine ⟨_, rfl, ?_⟩
  cases hx : x.value with
  | none =>
      refine iff_of_false (fun haccepted => ?_) (by simp)
      have hfinite : x.isFinite = true := by
        obtain ⟨habove, hbelow⟩ := (Bool.and_eq_true _ _).mp haccepted
        refine JsNumber.isFinite_of_between hlower hupper ?_ ?_
        · split at habove
          · exact .inl (of_decide_eq_true habove)
          · exact .inr (of_decide_eq_true habove)
        · split at hbelow
          · exact .inl (of_decide_eq_true hbelow)
          · exact .inr (of_decide_eq_true hbelow)
      obtain ⟨v, hv⟩ := JsNumber.isFinite_iff.mp hfinite
      cases hx.symm.trans hv
  | some v =>
      unfold Bounds.interval
      cases bounds.lowerInclusive <;> cases bounds.upperInclusive <;>
        simp [JsNumber.le_iff hlower hx, JsNumber.lt_iff hlower hx, JsNumber.le_iff hx hupper,
          JsNumber.lt_iff hx hupper]

theorem isValid_apply (value : Value) :
    ∃ accepted, isValid services value context = some (.ok accepted, context) ∧
      (accepted = true ↔ ∃ x ∈ bounds.interval, numericValue services.runtime value = some x) := by
  cases value with
  | string text => exact isInRange_apply h _
  | number x => exact isInRange_apply h x
  | _ => exact ⟨false, rfl, by simp [numericValue]⟩

end Executor

/-! ## Bounds that are in order -/

section Order

variable {props : JayveeValidationProps} {container : PropertyBodyContainer} {name : String}
  {b : Bool}

/-- The validation finds whether a bound is inclusive. -/
theorem evaluateInclusive_apply
    (h : IsValueOf props container ⟨name, Boolean, some (.boolean true)⟩ (.boolean b))
    (diagnostics : List Diagnostic) :
    evaluateInclusive props (findProperty (container.properties props.ast) name) diagnostics =
      some (.ok (some b), diagnostics) := by
  cases hfind : findProperty (container.properties props.ast) name with
  | none =>
      cases h.left_out (findProperty_eq_none hfind)
      rfl
  | some property =>
      rw [evaluateInclusive, Exec.bind_of_ok (h.evaluatePropertyValue_apply hfind diagnostics)]
      rfl

theorem eq_true_of_checkInclusive
    (h : IsValueOf props container ⟨name, Boolean, some (.boolean true)⟩ (.boolean b))
    (hpasses : Exec.Passes Diagnostic.IsError
      (checkInclusive (findProperty (container.properties props.ast) name) b) ()) : b = true := by
  cases hfind : findProperty (container.properties props.ast) name with
  | none =>
      cases h.left_out (findProperty_eq_none hfind)
      rfl
  | some property =>
      by_contra hexclusive
      rw [hfind, checkInclusive, if_pos (by simpa using hexclusive)] at hpasses
      exact not_passes_accept _ _ hpasses

theorem inclusive_of_checkIdenticalBounds {bounds : Bounds}
    (h : bounds.AreValuesOf props container) {lower upper : JsNumber}
    (hequal : lower.strictEquals upper = true)
    (hpasses : Exec.Passes Diagnostic.IsError (checkIdenticalBounds props
      (container.properties props.ast) lower upper) ()) :
    bounds.lowerInclusive = true ∧ bounds.upperInclusive = true := by
  rw [checkIdenticalBounds, if_neg (by simpa using hequal)] at hpasses
  obtain ⟨found, before, after, hfound, hpasses⟩ := hpasses.bind_last
  cases hfound.symm.trans (evaluateInclusive_apply h.lowerInclusive before)
  obtain ⟨found, before, after, hfound, hpasses⟩ := hpasses.bind_last
  cases hfound.symm.trans (evaluateInclusive_apply h.upperInclusive before)
  obtain ⟨_, hlower, hupper⟩ := hpasses.bind fun _ => checkInclusive_moves _ _
  exact ⟨eq_true_of_checkInclusive h.lowerInclusive hlower,
    eq_true_of_checkInclusive h.upperInclusive hupper⟩

/-- The bounds are in order if both are assigned, and inclusive where they are identical. -/
theorem lt_or_inclusive_of_assigned {constraint : ConstraintId} {bounds : Bounds}
    (haccepts : AcceptsBody props (.constraint constraint) propertySpecifications)
    (htypeName : (PropertyBodyContainer.constraint constraint).typeName props.ast =
      some "RangeConstraint")
    (h : bounds.AreValuesOf props (.constraint constraint))
    (hassignedLower : IsAssigned props (.constraint constraint) lowerBound)
    (hassignedUpper : IsAssigned props (.constraint constraint) upperBound) :
    bounds.lower < bounds.upper ∨ bounds.lower = bounds.upper ∧
      bounds.lowerInclusive = true ∧ bounds.upperInclusive = true := by
  obtain ⟨lowerProperty, hfindLower⟩ := exists_findProperty hassignedLower
  obtain ⟨upperProperty, hfindUpper⟩ := exists_findProperty hassignedUpper
  obtain ⟨x, hx, hlower⟩ := h.lower
  obtain ⟨y, hy, hupper⟩ := h.upper
  have hpasses : Exec.Passes _ (checkRangeConstraintPropertyBody props _ _) () :=
    haccepts.constraintBody htypeName
  obtain ⟨_, _, _, _, hpasses⟩ := hpasses.bind_last
  obtain ⟨found, before, after, hfound, hpasses⟩ := hpasses.bind_last
  cases hfound.symm.trans
    (evaluateBounds_apply hlower hupper rfl hfindLower hfindUpper before)
  obtain ⟨_, horder, hidentical⟩ := hpasses.bind fun _ => checkIdenticalBounds_moves _ _ _
  rcases (le_of_checkBoundsOrder hx hy horder).lt_or_eq with hless | hequal
  · exact .inl hless
  · exact .inr ⟨hequal, inclusive_of_checkIdenticalBounds h
      ((JsNumber.strictEquals_iff hx hy).mpr hequal) hidentical⟩

end Order

/-- The execution reads what the validation has found. -/
theorem exists_bounds {δ : Type} {props : JayveeValidationProps} {constraint : ConstraintId}
    {services : ExecutionServices} {context : ExecutionContext δ}
    (h : ValidatedContainer props (.constraint constraint) propertySpecifications)
    (hcontext : IsInside props (.constraint constraint) services context) :
    ∃ bounds : Bounds, bounds.AreValuesOf props (.constraint constraint) ∧
      bounds.AreReadFrom services context := by
  obtain ⟨lower, hlowerValue, hlower⟩ := exists_number lowerBound h hcontext rfl rfl
  obtain ⟨lowerInclusive, hlowerInclusive, hlowerInclusiveValue⟩ :=
    exists_boolean lowerBoundInclusive h hcontext rfl rfl
  obtain ⟨upper, hupperValue, hupper⟩ := exists_number upperBound h hcontext rfl rfl
  obtain ⟨upperInclusive, hupperInclusive, hupperInclusiveValue⟩ :=
    exists_boolean upperBoundInclusive h hcontext rfl rfl
  exact ⟨⟨lower, lowerInclusive, upper, upperInclusive⟩,
    ⟨hlowerValue, hlowerInclusiveValue, hupperValue, hupperInclusiveValue⟩,
    ⟨hlower, hlowerInclusive, hupper, hupperInclusive⟩⟩

/-- A validated constraint never throws. It accepts the numbers, and the texts that start with a
number, in the interval between its bounds, as the validation has found them. Where both bounds
are assigned, they are in order, and inclusive if they are identical. -/
theorem acceptsInterval_of_validated {δ : Type} (props : JayveeValidationProps)
    (constraint : ConstraintId)
    (h : ValidatedContainer props (.constraint constraint) propertySpecifications)
    (htypeName : (PropertyBodyContainer.constraint constraint).typeName props.ast =
      some "RangeConstraint")
    (services : ExecutionServices) (context : ExecutionContext δ)
    (hcontext : IsInside props (.constraint constraint) services context) :
    ∃ bounds : Bounds, bounds.AreValuesOf props (.constraint constraint) ∧
      (IsAssigned props (.constraint constraint) lowerBound →
        IsAssigned props (.constraint constraint) upperBound →
        bounds.lower < bounds.upper ∨ bounds.lower = bounds.upper ∧
          bounds.lowerInclusive = true ∧ bounds.upperInclusive = true) ∧
      ∀ value, ∃ accepted, isValid services value context = some (.ok accepted, context) ∧
        (accepted = true ↔
          ∃ x ∈ bounds.interval, numericValue services.runtime value = some x) := by
  obtain ⟨bounds, hvalues, hread⟩ := exists_bounds h hcontext
  exact ⟨bounds, hvalues, lt_or_inclusive_of_assigned h.body htypeName hvalues,
    isValid_apply hread⟩

/-! ## A validated range -/

/-- `constraint HundredScale oftype RangeConstraint { lowerBound: 1; lowerBoundInclusive: false;
upperBound: 100; }` -/
def hundredScaleAst : Ast where
  valuetypes := [⟨"decimal", true, none, none, none⟩, ⟨"boolean", true, none, none, none⟩]
  constraints := [.typed "HundredScale" (some ⟨"RangeConstraint", ⟨some 0, []⟩,
      [⟨"lowerBound", ⟨some 0, []⟩,
          some (.unaryExpression .minus (.numericLiteral 9007199254740991))⟩,
        ⟨"lowerBoundInclusive", ⟨some 1, []⟩, some (.booleanLiteral true)⟩,
        ⟨"upperBound", ⟨some 0, []⟩, some (.numericLiteral 9007199254740991)⟩,
        ⟨"upperBoundInclusive", ⟨some 1, []⟩, some (.booleanLiteral true)⟩]⟩)
    [⟨"lowerBound", .expression (.numericLiteral 1)⟩,
      ⟨"lowerBoundInclusive", .expression (.booleanLiteral false)⟩,
      ⟨"upperBound", .expression (.numericLiteral 100)⟩]]
  transforms := []
  blocks := []
  blockTypes := []

def hundredScaleProps : JayveeValidationProps :=
  { sampleProps with ast := hundredScaleAst }

def hundredScaleContext : ExecutionContext Unit :=
  { construct hundredScaleProps.evaluationContext with stack := [.constraint 0] }

theorem acceptsInterval_of_validated_hundredScale :
    ∃ bounds : Bounds, bounds.lower ≤ bounds.upper ∧ ∀ value, ∃ accepted,
      isValid (sampleServices hundredScaleAst) value hundredScaleContext =
          some (.ok accepted, hundredScaleContext) ∧
        (accepted = true ↔ ∃ x ∈ bounds.interval, numericValue sampleRuntime value = some x) := by
  have hvalidated :
      ValidatedContainer hundredScaleProps (.constraint 0) propertySpecifications := by
    refine ⟨⟨_, rfl⟩, ⟨⟨[], by rfl, by simp⟩, fun _ _ => rfl⟩, fun property hproperty => ?_,
      fun propertySpec hspec value hvalue => ?_⟩
    · rcases List.mem_cons.mp hproperty with rfl | hproperty
      · exact fun hreturns => by cases hreturns.eq_of_pure
      · rcases List.mem_pair.mp hproperty with rfl | rfl <;>
          exact fun hreturns => by cases hreturns.eq_of_pure
    · simp only [propertySpecifications, List.mem_cons, List.not_mem_nil, or_false] at hspec
      rcases hspec with rfl | rfl | rfl | rfl <;> cases hvalue <;> rfl
  obtain ⟨bounds, _, horder, hvalid⟩ := acceptsInterval_of_validated hundredScaleProps 0
    hvalidated rfl (sampleServices hundredScaleAst) hundredScaleContext ⟨rfl, rfl, rfl, rfl⟩
  have hordered := horder ⟨_, List.mem_cons_self, rfl⟩
    ⟨_, List.mem_cons_of_mem _ (List.mem_cons_of_mem _ List.mem_cons_self), rfl⟩
  exact ⟨bounds, hordered.elim le_of_lt fun hequal => hequal.1.le, hvalid⟩

end RangeConstraintExecutor

end Jayvee
