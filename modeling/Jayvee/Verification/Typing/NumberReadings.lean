import Jayvee.Model.Evaluation
import Jayvee.Verification.Evaluation.Numerals
import Jayvee.Verification.Typing.Convertibility

/-! # Readings of numbers

Operators keep to their types where numbers are exact. Where numbers are rounded, a result may
overflow, but it is still a number. -/

namespace Jayvee

open Foundation ValueType

/-! ## Numbers in values -/

namespace Value

mutual

def mapNumbers (f : JsNumber → JsNumber) : Value → Value
  | number value => number (f value)
  | collection values => collection (mapNumbersOfList f values)
  | value => value

def mapNumbersOfList (f : JsNumber → JsNumber) : List Value → List Value
  | [] => []
  | value :: values => value.mapNumbers f :: mapNumbersOfList f values

end

variable {f : JsNumber → JsNumber}

theorem mapNumbersOfList_eq_map (values : List Value) :
    mapNumbersOfList f values = values.map (mapNumbers f) := by
  induction values with
  | nil => rfl
  | cons value values ih => rw [mapNumbersOfList, ih, List.map_cons]

mutual

theorem mapNumbers_id : ∀ value : Value, value.mapNumbers id = value
  | number _ | boolean _ | string _ | regExp _ | cellRange _ | constraint _
  | valuetypeAssignment _ | transform _ => rfl
  | collection values => congrArg collection (mapNumbersOfList_id values)

theorem mapNumbersOfList_id : ∀ values : List Value, mapNumbersOfList id values = values
  | [] => rfl
  | value :: values => congrArg₂ List.cons (mapNumbers_id value) (mapNumbersOfList_id values)

end

end Value

/-! ## Numbers of a type -/

/-- The second number has the number types that the first one has. -/
structure KeepsTypes (x y : JsNumber) : Prop where
  isFinite : x.isFinite = true → y.isFinite = true
  isInteger : x.isInteger = true → y.isInteger = true

theorem keepsTypes_neg (x : JsNumber) : KeepsTypes x (-x) := by
  constructor
  · intro h
    obtain ⟨v, hv⟩ := JsNumber.isFinite_iff.mp h
    exact JsNumber.isFinite_iff.mpr ⟨-v, by rw [JsNumber.value_neg, hv, Option.map_some]⟩
  · intro h
    obtain ⟨n, hn⟩ := JsNumber.isInteger_iff.mp h
    refine JsNumber.isInteger_iff.mpr ⟨-n, ?_⟩
    rw [JsNumber.value_neg, hn, Option.map_some, Int.cast_neg]

section HasType

variable {ast : Ast} {x y : JsNumber} {f : JsNumber → JsNumber}

theorem hasType_decimal_iff : HasType ast Decimal (.number x) ↔ x.isFinite = true :=
  hasType_primitive

theorem hasType_integer_iff : HasType ast Integer (.number x) ↔ x.isInteger = true :=
  hasType_primitive

theorem ValueType.HasType.of_number {T : ValueType} (hx : HasType ast T (.number x))
    (hxy : KeepsTypes x y) : HasType ast T (.number y) := by
  obtain ⟨root, hroot, hvalue⟩ := hx.root
  refine HasType.of_root hroot ?_
  cases root with
  | atomic astNode => cases hroot.own
  | emptyCollection => cases hasType_emptyCollection.mp hvalue
  | collection elementType =>
      obtain ⟨_, hcollection, _⟩ := hasType_collection.mp hvalue
      cases hcollection
  | primitive kind =>
      have hkind := hasType_primitive.mp hvalue
      cases kind with
      | decimal => exact hasType_decimal_iff.mpr (hxy.isFinite (hasType_decimal_iff.mp hvalue))
      | integer => exact hasType_integer_iff.mpr (hxy.isInteger (hasType_integer_iff.mp hvalue))
      | _ => cases hkind

mutual

theorem ValueType.HasType.mapNumbers (hf : ∀ x, KeepsTypes x (f x)) :
    ∀ {v : Value} {T : ValueType}, HasType ast T v → HasType ast T (v.mapNumbers f)
  | .number x, _, h => h.of_number (hf x)
  | .boolean _, _, h | .string _, _, h | .regExp _, _, h | .cellRange _, _, h
  | .constraint _, _, h | .valuetypeAssignment _, _, h | .transform _, _, h => h
  | .collection values, _, h => by
      obtain ⟨root, hroot, hvalue⟩ := h.root
      refine HasType.of_root hroot ?_
      cases root with
      | atomic astNode => cases hroot.own
      | emptyCollection => cases hasType_emptyCollection.mp hvalue; exact hvalue
      | primitive kind => cases kind <;> cases hasType_primitive.mp hvalue
      | collection elementType =>
          obtain ⟨_, ⟨⟩, hvalues⟩ := hasType_collection.mp hvalue
          exact hasType_collection.mpr ⟨_, rfl, hasType_mapNumbersOfList hf hvalues⟩

theorem hasType_mapNumbersOfList (hf : ∀ x, KeepsTypes x (f x)) :
    ∀ {values : List Value} {T : ValueType}, (∀ v ∈ values, HasType ast T v) →
      ∀ v ∈ Value.mapNumbersOfList f values, HasType ast T v
  | [], _, h => h
  | _ :: _, _, h =>
      List.forall_mem_cons.mpr ⟨(List.forall_mem_cons.mp h).1.mapNumbers hf,
        hasType_mapNumbersOfList hf (List.forall_mem_cons.mp h).2⟩

end

end HasType

/-! ## Readings -/

/-- What numbers are taken for, so that the operators keep to the types of their results, and the
errors that they may throw. -/
structure Reading (runtime : JsRuntime) where
  read : JsNumber → JsNumber
  mayThrow : JsError → Prop
  mayThrow_of_not_assertionError : ∀ error, error.isAssertionError = false → mayThrow error
  keepsTypes : ∀ x, KeepsTypes x (read x)
  neg : ∀ x, KeepsTypes (read x) (read (-x))
  toInteger : ∀ g x, (read x).isFinite = true → (read (x.toInteger g)).isInteger = true
  arithmetic : ∀ g ∈ [JsNumber.add runtime.nearest, JsNumber.sub runtime.nearest,
    JsNumber.mul runtime.nearest], ∀ x y,
      ((read x).isFinite = true → (read y).isFinite = true → (read (g x y)).isFinite = true) ∧
      ((read x).isInteger = true → (read y).isInteger = true → (read (g x y)).isInteger = true)
  parseDecimal : ∀ s x, DecimalValuetype.fromString runtime.nearest s = some x →
    (read x).isFinite = true
  parseInteger : ∀ s x, IntegerValuetype.fromString runtime.nearest s = some x →
    (read x).isInteger = true
  sqrt : ∀ x, (read x).isFinite = true → (x.sqrt runtime.squareRoot).isFinite = false →
    ¬ x < 0 → mayThrow (falsyAssertion "operandValue < 0")
  divide : ∀ x y, (read x).isFinite = true → (read y).isFinite = true →
    (JsNumber.div runtime.nearest x y).isFinite = false → y.strictEquals 0 = false →
    mayThrow (falsyAssertion "rightValue === 0")

namespace Reading

variable {runtime : JsRuntime}

/-- Whether numbers are finite is not looked at, but no type guard fails. -/
def blind (runtime : JsRuntime) : Reading runtime where
  read _ := 0
  mayThrow error := error ≠ typeguardError
  mayThrow_of_not_assertionError := by
    rintro _ herror rfl
    cases herror
  keepsTypes _ := ⟨fun _ => rfl, fun _ => rfl⟩
  neg _ := ⟨fun _ => rfl, fun _ => rfl⟩
  toInteger _ _ _ := rfl
  arithmetic _ _ _ _ := ⟨fun _ _ => rfl, fun _ _ => rfl⟩
  parseDecimal _ _ _ := rfl
  parseInteger _ _ _ := rfl
  sqrt _ _ _ _ := by decide
  divide _ _ _ _ _ _ := by decide

section Exact

variable (hexact : ∀ v, runtime.nearest v = .finite v) {x y : JsNumber}
include hexact

theorem arithmetic_of_exact {g : JsNumber → JsNumber → JsNumber}
    (hg : g ∈ [JsNumber.add runtime.nearest, JsNumber.sub runtime.nearest,
      JsNumber.mul runtime.nearest]) :
    (x.isFinite = true → y.isFinite = true → (g x y).isFinite = true) ∧
      (x.isInteger = true → y.isInteger = true → (g x y).isInteger = true) := by
  obtain ⟨op, hop, hinteger⟩ : ∃ op : ℚ → ℚ → ℚ,
      (∀ v w, x.value = some v → y.value = some w → (g x y).value = some (op v w)) ∧
        ∀ m n : ℤ, ∃ k : ℤ, op m n = k := by
    simp only [List.mem_cons, List.not_mem_nil, or_false] at hg
    rcases hg with rfl | rfl | rfl
    · exact ⟨_, fun _ _ => JsNumber.value_add_of_exact hexact, fun m n => ⟨m + n, by simp⟩⟩
    · exact ⟨_, fun _ _ => JsNumber.value_sub_of_exact hexact, fun m n => ⟨m - n, by simp⟩⟩
    · exact ⟨_, fun _ _ => JsNumber.value_mul_of_exact hexact, fun m n => ⟨m * n, by simp⟩⟩
  constructor
  · intro hx hy
    obtain ⟨v, hv⟩ := JsNumber.isFinite_iff.mp hx
    obtain ⟨w, hw⟩ := JsNumber.isFinite_iff.mp hy
    exact JsNumber.isFinite_iff.mpr ⟨_, hop v w hv hw⟩
  · intro hx hy
    obtain ⟨m, hm⟩ := JsNumber.isInteger_iff.mp hx
    obtain ⟨n, hn⟩ := JsNumber.isInteger_iff.mp hy
    obtain ⟨k, hk⟩ := hinteger m n
    exact JsNumber.isInteger_iff.mpr ⟨k, by rw [hop m n hm hn, hk]⟩

theorem value_parseDecimal_of_exact {s : String}
    (h : DecimalValuetype.parseDecimal runtime.nearest s = some x) : ∃ v, x.value = some v := by
  obtain ⟨numeral, _, rfl⟩ := DecimalValuetype.exists_numeral_of_parseDecimal h
  have hzero : (runtime.nearest 0).value = some 0 := by rw [hexact, JsNumber.value_finite]
  exact ⟨_, by rw [JsNumber.value_ofNumeral hzero, hexact, JsNumber.value_finite]⟩

theorem isInteger_fromString_of_exact {s : String}
    (h : IntegerValuetype.fromString runtime.nearest s = some x) : x.isInteger = true := by
  obtain ⟨d, hd, _⟩ := Option.bind_eq_some_iff.mp h
  obtain ⟨v, hv⟩ := value_parseDecimal_of_exact hexact hd
  obtain ⟨hx, z, rfl⟩ := IntegerValuetype.value_of_fromString hd hv h
  exact JsNumber.isInteger_iff.mpr ⟨z, hx⟩

omit hexact in
/-- A finite number without a finite root is negative. -/
theorem lt_zero_of_sqrt (hx : x.isFinite = true)
    (hsqrt : (x.sqrt runtime.squareRoot).isFinite = false) : x < 0 := by
  cases x with
  | finite v =>
      by_cases hv : v < 0
      · exact (JsNumber.lt_iff rfl rfl).mpr hv
      · rw [JsNumber.sqrt, if_neg hv] at hsqrt
        cases hsqrt
  | negativeZero => cases hsqrt
  | infinite _ => cases hx
  | nan => cases hx

theorem strictEquals_zero_of_div (hx : x.isFinite = true) (hy : y.isFinite = true)
    (hdiv : (JsNumber.div runtime.nearest x y).isFinite = false) : y.strictEquals 0 = true := by
  obtain ⟨v, hv⟩ := JsNumber.isFinite_iff.mp hx
  obtain ⟨w, hw⟩ := JsNumber.isFinite_iff.mp hy
  rw [JsNumber.strictEquals_iff hw rfl]
  by_contra hne
  have hquotient := JsNumber.value_div_of_exact hexact hv hw hne
  rw [JsNumber.isFinite, hquotient] at hdiv
  cases hdiv

/-- Exact numbers do not overflow, and no assertion fails. -/
def exact : Reading runtime where
  read := id
  mayThrow error := error.isAssertionError = false
  mayThrow_of_not_assertionError _ herror := herror
  keepsTypes _ := ⟨id, id⟩
  neg x := keepsTypes_neg x
  toInteger g _ := JsNumber.isInteger_toInteger g
  arithmetic _ hg _ _ := arithmetic_of_exact hexact hg
  parseDecimal _ _ h := JsNumber.isFinite_iff.mpr (value_parseDecimal_of_exact hexact h)
  parseInteger _ _ h := isInteger_fromString_of_exact hexact h
  sqrt _ hx hsqrt hnonneg := (hnonneg (lt_zero_of_sqrt hx hsqrt)).elim
  divide _ _ hx hy hdiv hne :=
    absurd (strictEquals_zero_of_div hexact hx hy hdiv) (Bool.eq_false_iff.mp hne)

end Exact

end Reading

end Jayvee
