import Jayvee.Verification.Evaluation.Numerals
import Jayvee.Model.Evaluation

/-! # Parsed numbers

Numbers are parsed as the nearest double, and a text whose nearest double is an integer is an
integer. -/

namespace Jayvee

open Foundation

namespace NumberParsing

variable {s : String} {v w : ℚ}

/-! ## Texts of numerals -/

/-- The text matches the grammar, and its numeral has the value. -/
def Denotes (s : String) (v : ℚ) : Prop :=
  ∃ numeral : Numeral, numeral.text = s ∧ numeral.value = v

theorem exists_denotes_iff : (∃ v, Denotes s v) ↔ numberRegex.rmatch s.toList = true := by
  rw [numberRegex_rmatch_iff]
  constructor
  · intro h
    obtain ⟨_, numeral, rfl, _⟩ := h
    exact ⟨numeral, String.toList_ofList.symm⟩
  · intro h
    obtain ⟨numeral, hchars⟩ := h
    refine ⟨numeral.value, numeral, ?_, rfl⟩
    rw [Numeral.text, hchars, String.ofList_toList]

theorem Denotes.unique (hv : Denotes s v) (hw : Denotes s w) : v = w := by
  obtain ⟨numeral, rfl, rfl⟩ := hv
  obtain ⟨other, htext, rfl⟩ := hw
  have hread : DecimalValuetype.parseDecimal .finite other.text = _ :=
    DecimalValuetype.parseDecimal_text other
  rw [htext, DecimalValuetype.parseDecimal_text, Option.some.injEq] at hread
  have hvalues := congrArg JsNumber.value hread
  rw [JsNumber.value_ofNumeral rfl, JsNumber.value_ofNumeral rfl] at hvalues
  exact Option.some.inj hvalues

/-! ## Promises -/

/-- The conversion operator applied to a text returns the number. -/
def ConvertsTo (evaluator : JsRuntime → Evaluation → Evaluation) (s : String) (x : JsNumber) :
    Prop :=
  ∃ (runtime : JsRuntime) (diagnostics after : List Diagnostic), runtime.nearest = Double.ofRat ∧
    evaluator runtime (pure (some (.string s))) diagnostics = some (.ok (some (.number x)), after)

/-- Every defined result is finite and a number of the value type. -/
structure StaysInType (s : String) : Prop where
  decimal : ∀ x, DecimalValuetype.fromString Double.ofRat s = some x →
    x.isFinite = true ∧ DecimalValuetype.isInternalValueRepresentation x = true
  asDecimal : ∀ x, ConvertsTo asDecimalOperatorEvaluator s x →
    x.isFinite = true ∧ DecimalValuetype.isInternalValueRepresentation x = true
  asInteger : ∀ x, ConvertsTo asIntegerOperatorEvaluator s x →
    x.isFinite = true ∧ IntegerValuetype.isInternalValueRepresentation x = true

/-- The texts of integers are integers, and no others are. -/
structure ParsesExactly (s : String) (v : ℚ) : Prop extends StaysInType s where
  integer_isSome :
    (IntegerValuetype.fromString Double.ofRat s).isSome = true ↔ ∃ z : ℤ, v = z
  integer_eq : (∃ z : ℤ, v = z) → IsRepresentable v →
    ∃ x, IntegerValuetype.fromString Double.ofRat s = some x ∧ x.value = some v

/-- The texts are integers whose nearest double is an integer. -/
structure ParsesNearest (s : String) (v : ℚ) : Prop extends StaysInType s where
  isRepresentable : IsRepresentable (nearest v)
  decimal_eq :
    ∃ x, DecimalValuetype.fromString Double.ofRat s = some x ∧ x.value = some (nearest v)
  integer_isSome :
    (IntegerValuetype.fromString Double.ofRat s).isSome = true ↔ ∃ z : ℤ, |v - z| ≤ ulp v / 2
  integer_nearest : ∀ x, IntegerValuetype.fromString Double.ofRat s = some x →
    x.value = some (nearest v)
  integer_eq : (∃ z : ℤ, v = z) → IsRepresentable v →
    ∃ x, IntegerValuetype.fromString Double.ofRat s = some x ∧ x.value = some v

/-! ## Results -/

theorem value_of_parseDecimal (hs : Denotes s v) : ∃ x,
    DecimalValuetype.parseDecimal Double.ofRat s = some x ∧ x.value = (Double.ofRat v).value := by
  obtain ⟨numeral, rfl, rfl⟩ := hs
  have hzero : (Double.ofRat 0).value = some 0 :=
    Double.value_ofRat_of_isRepresentable ⟨0, 0, by norm_num, by norm_num, by norm_num, by norm_num⟩
  exact ⟨_, DecimalValuetype.parseDecimal_text numeral, JsNumber.value_ofNumeral hzero _ _⟩

/-- Exactly small numbers are parsed without an overflow. -/
theorem isFinite_decimal_iff (hs : Denotes s v) :
    (∀ x, DecimalValuetype.fromString Double.ofRat s = some x → x.isFinite = true) ↔
      |v| < 2 ^ 1024 - 2 ^ 970 := by
  obtain ⟨d, hd, hvalue⟩ := value_of_parseDecimal hs
  have hfinite : d.isFinite = true ↔ (Double.ofRat v).isFinite = true := by
    rw [JsNumber.isFinite_iff, JsNumber.isFinite_iff, hvalue]
  rw [← Double.isFinite_ofRat_iff, ← hfinite]
  constructor
  · intro h
    exact h d hd
  · intro h x hx
    obtain rfl := Option.some.inj (hd.symm.trans hx)
    exact h

theorem fromString_decimal (hs : Denotes s v) (h : |v| < 2 ^ 1024 - 2 ^ 970) : ∃ x,
    DecimalValuetype.fromString Double.ofRat s = some x ∧ x.value = some (nearest v) := by
  obtain ⟨x, hx, hvalue⟩ := value_of_parseDecimal hs
  exact ⟨x, hx, by rw [hvalue, Double.value_ofRat h]⟩

theorem ConvertsTo.fromString {kind : PrimitiveValueType} {description : String}
    {x : JsNumber} (h : ConvertsTo (fun runtime => evaluateParse runtime kind description) s x) :
    kind.fromString Double.ofRat s = some (.number x) := by
  obtain ⟨runtime, diagnostics, after, hnearest, hrun⟩ := h
  rw [← hnearest]
  dsimp only at hrun
  rw [evaluateParse, evaluateUnary, Exec.bind_of_ok (Exec.pure_apply _ _)] at hrun
  cases hparse : kind.fromString runtime.nearest s with
  | none =>
      simp [assertTypeguard, Value.stringTypeguard, hparse] at hrun
  | some value =>
      simp [assertTypeguard, Value.stringTypeguard, hparse] at hrun
      exact congrArg some hrun.1

/-- Finite results are numbers of their value types. -/
theorem staysInType (hs : Denotes s v) (h : |v| < 2 ^ 1024 - 2 ^ 970) : StaysInType s := by
  obtain ⟨d, hd, hvalue⟩ := fromString_decimal hs h
  have hdecimal := (isFinite_decimal_iff hs).mpr h
  constructor
  case decimal => exact fun x hx => ⟨hdecimal x hx, hdecimal x hx⟩
  case asDecimal =>
    intro x hx
    obtain ⟨_, hdefined, hnumber⟩ := Option.map_eq_some_iff.mp hx.fromString
    cases hnumber
    exact ⟨hdecimal x hdefined, hdecimal x hdefined⟩
  case asInteger =>
    intro x hx
    obtain ⟨_, hdefined, hnumber⟩ := Option.map_eq_some_iff.mp hx.fromString
    cases hnumber
    obtain ⟨hx, z, hz⟩ := IntegerValuetype.value_of_fromString hd hvalue hdefined
    have hinteger : x.isInteger = true := JsNumber.isInteger_iff.mpr ⟨z, hz ▸ hx⟩
    exact ⟨JsNumber.isFinite_of_isInteger hinteger, hinteger⟩

/-- Texts are parsed as the nearest double, and as integers if it is one. -/
theorem fromString_nearest (s : String) (v : ℚ) (hs : Denotes s v)
    (h : |v| < 2 ^ 1024 - 2 ^ 970) : ParsesNearest s v := by
  obtain ⟨d, hd, hvalue⟩ := fromString_decimal hs h
  refine ⟨staysInType hs h, isRepresentable_nearest (abs_nearest_lt h), ⟨d, hd, hvalue⟩, ?_, ?_,
    ?_⟩
  · rw [Option.isSome_iff_exists, ← exists_nearest_eq_intCast_iff]
    simp only [IntegerValuetype.fromString_eq_some_iff hd hvalue, exists_eq_left]
  · exact fun x hx => (IntegerValuetype.value_of_fromString hd hvalue hx).1
  · intro hinteger hrepresentable
    rw [nearest_eq_self hrepresentable] at hvalue
    have hdefined := (IntegerValuetype.fromString_eq_some_iff hd hvalue).mpr ⟨rfl, hinteger⟩
    exact ⟨_, hdefined, (IntegerValuetype.value_of_fromString hd hvalue hdefined).1⟩

/-- `5.3e3` -/
def scientific : Numeral where
  sign := none
  integer := some ⟨[5], false⟩
  digits := [3]
  digits_ne_nil := List.cons_ne_nil 3 []
  exponent := some ⟨false, none, [3], List.cons_ne_nil 3 []⟩

theorem fromString_nearest_scientific : ParsesNearest "5.3e3" 5300 := by
  have hvalue : scientific.value = 5300 := by
    norm_num [Numeral.value, Numeral.magnitude, mantissaValue, scientific, signValue, digitsValue,
      exponentValue]
  have hbound : (5300 : ℤ) < 2 ^ 1024 - 2 ^ 970 := by decide +kernel
  refine fromString_nearest _ _ ⟨scientific, by decide, hvalue⟩ ?_
  rw [abs_of_pos (by norm_num)]
  exact_mod_cast hbound

/-! ## A numeral below one -/

/-- `0.99999999999999999999` -/
def belowOne : Numeral where
  sign := none
  integer := some ⟨[0], false⟩
  digits := List.replicate 20 9
  digits_ne_nil := List.cons_ne_nil 9 _
  exponent := none

theorem value_belowOne : belowOne.value = 1 - 1 / 10 ^ 20 := by
  have hinteger : digitsValue [0] = 0 := by decide
  have hdigits : digitsValue (List.replicate 20 9) = 10 ^ 20 - 1 := by decide
  norm_num [Numeral.value, Numeral.magnitude, mantissaValue, belowOne, signValue, exponentValue,
    hinteger, hdigits]

/-- The text of a number that is not an integer is parsed as the integer one. -/
theorem not_parsesExactly_belowOne :
    Denotes "0.99999999999999999999" (1 - 1 / 10 ^ 20) ∧
      ¬ ParsesExactly "0.99999999999999999999" (1 - 1 / 10 ^ 20) := by
  have hdenotes : Denotes "0.99999999999999999999" (1 - 1 / 10 ^ 20) :=
    ⟨belowOne, by decide, value_belowOne⟩
  refine ⟨hdenotes, fun h => ?_⟩
  generalize hv : (1 - 1 / 10 ^ 20 : ℚ) = v at *
  have hbetween : 1 / 2 < v ∧ v < 1 := by
    rw [← hv]
    norm_num
  have habs : |v| = v := abs_of_pos (by linarith)
  have hbound : |v| < 2 ^ 1024 - 2 ^ 970 := by
    have hone : (1 : ℤ) < 2 ^ 1024 - 2 ^ 970 := by decide +kernel
    rw [habs]
    exact hbetween.2.trans (by exact_mod_cast hone)
  have hulp : (2 : ℚ) ^ (-1 - 52 : ℤ) ≤ ulp v := le_ulp (by rw [habs]; norm_num; linarith)
  have hnear : |v - (1 : ℤ)| ≤ ulp v / 2 := by
    rw [← hv] at hulp ⊢
    norm_num at hulp ⊢
    linarith
  obtain ⟨d, hd, hvalue⟩ := fromString_decimal hdenotes hbound
  have hparsed := (IntegerValuetype.fromString_eq_some_iff hd hvalue).mpr
    ⟨rfl, exists_nearest_eq_intCast_iff.mpr ⟨1, hnear⟩⟩
  obtain ⟨z, hz⟩ := h.integer_isSome.mp (by rw [hparsed]; rfl)
  rw [hz] at hbetween
  have hpos : 0 < z := by
    exact_mod_cast (by linarith : (0 : ℚ) < z)
  have hlt : z < 1 := by exact_mod_cast hbetween.2
  omega

end NumberParsing

end Jayvee
