import Mathlib.Algebra.Order.Floor.Ring
import Mathlib.Data.Rat.Floor
import Mathlib.Order.WithBot
import Mathlib.Tactic.NormNum

/-! # JavaScript numbers

What a finite result is rounded to is a parameter of the operations. -/

namespace Jayvee.Foundation

/-- Zero is a finite number, and there is a negative zero besides. -/
inductive JsNumber where
  | finite (value : ℚ)
  | negativeZero
  | infinite (negative : Bool)
  | nan
  deriving DecidableEq, Repr

/-- Without the digits after the point. -/
def truncate (x : ℚ) : ℤ :=
  if 0 ≤ x then ⌊x⌋ else ⌈x⌉

namespace JsNumber

instance instOfNat (n : ℕ) : OfNat JsNumber n :=
  ⟨finite n⟩

instance instCoeRat : Coe ℚ JsNumber :=
  ⟨finite⟩

/-- The rational number that a finite number is. -/
def value : JsNumber → Option ℚ
  | finite v => some v
  | negativeZero => some 0
  | infinite _ | nan => none

/-- The integer that a number is. -/
def toInt? (x : JsNumber) : Option ℤ := do
  let v ← x.value
  if v.den = 1 then some v.num else none

/-- `Number.isFinite`. -/
def isFinite (x : JsNumber) : Bool :=
  x.value.isSome

/-- `Number.isInteger`. -/
def isInteger (x : JsNumber) : Bool :=
  x.value.any fun v => v.den == 1

/-- The sign bit. -/
def isNegative : JsNumber → Bool
  | finite v => v < 0
  | negativeZero => true
  | infinite negative => negative
  | nan => false

def zero (negative : Bool) : JsNumber :=
  if negative then negativeZero else finite 0

/-- `Number.MAX_VALUE`. -/
def maxValue : ℚ :=
  (2 ^ 53 - 1) * 2 ^ 971

/-- `Number.MIN_VALUE`, which is positive. -/
def minValue : ℚ :=
  1 / 2 ^ 1074

/-! ## Comparison -/

/-- The place of a number in the order. -/
def place : JsNumber → Option (WithBot (WithTop ℚ))
  | finite v => some ((v : WithTop ℚ) : WithBot (WithTop ℚ))
  | negativeZero => some (((0 : ℚ) : WithTop ℚ) : WithBot (WithTop ℚ))
  | infinite negative => some (if negative then ⊥ else ((⊤ : WithTop ℚ) : WithBot (WithTop ℚ)))
  | nan => none

/-- `===`. -/
def strictEquals (x y : JsNumber) : Bool :=
  x.place.any fun p => y.place.any fun q => p = q

/-- `<`. -/
def lt (x y : JsNumber) : Bool :=
  x.place.any fun p => y.place.any fun q => p < q

/-- `<=`. -/
def le (x y : JsNumber) : Bool :=
  x.place.any fun p => y.place.any fun q => p ≤ q

instance instLT : LT JsNumber :=
  ⟨fun x y => x.lt y = true⟩

instance instLE : LE JsNumber :=
  ⟨fun x y => x.le y = true⟩

instance instDecidableLT (x y : JsNumber) : Decidable (x < y) :=
  inferInstanceAs (Decidable (x.lt y = true))

instance instDecidableLE (x y : JsNumber) : Decidable (x ≤ y) :=
  inferInstanceAs (Decidable (x.le y = true))

/-! ## Operations that are not rounded -/

/-- `-x`. -/
def neg : JsNumber → JsNumber
  | finite v => if v = 0 then negativeZero else finite (-v)
  | negativeZero => finite 0
  | infinite negative => infinite !negative
  | nan => nan

instance instNeg : Neg JsNumber :=
  ⟨neg⟩

/-- An integer that a number with the given sign is rounded to. -/
def ofInteger (negative : Bool) (n : ℤ) : JsNumber :=
  if n = 0 then zero negative else finite n

/-- Rounding to an integer, which leaves zeros, infinite numbers and `NaN` alone. -/
def toInteger (f : ℚ → ℤ) : JsNumber → JsNumber
  | finite v => ofInteger (v < 0) (f v)
  | x => x

/-- `Math.floor`. -/
def floor : JsNumber → JsNumber :=
  toInteger fun v => ⌊v⌋

/-- `Math.ceil`. -/
def ceil : JsNumber → JsNumber :=
  toInteger fun v => ⌈v⌉

/-- `Math.round`, which rounds halves up. -/
def round : JsNumber → JsNumber :=
  toInteger fun v => ⌊v + 1 / 2⌋

/-- `Math.trunc`. -/
def trunc : JsNumber → JsNumber :=
  toInteger truncate

/-- `x % y`, which has the sign of the dividend. -/
def modulo (x y : JsNumber) : JsNumber :=
  match x.value, y.value with
  | some v, some w =>
      let remainder := v - w * truncate (v / w)
      if w = 0 then nan
      else if remainder = 0 then zero x.isNegative
      else finite remainder
  | some _, none => if y = nan then nan else x
  | none, _ => nan

/-! ## Operations that are rounded -/

section Rounded

variable (nearest : ℚ → JsNumber)

/-- `x + y`. -/
def add (x y : JsNumber) : JsNumber :=
  match x.value, y.value with
  | some v, some w =>
      if v + w = 0 then zero (x.isNegative && y.isNegative) else nearest (v + w)
  | some _, none => y
  | none, some _ => x
  | none, none => if x = y then x else nan

/-- `x - y`. -/
def sub (x y : JsNumber) : JsNumber :=
  add nearest x (-y)

/-- `x * y`. -/
def mul (x y : JsNumber) : JsNumber :=
  match x.value, y.value with
  | some v, some w =>
      if v * w = 0 then zero (x.isNegative != y.isNegative) else nearest (v * w)
  | some v, none => if y = nan ∨ v = 0 then nan else infinite (x.isNegative != y.isNegative)
  | none, some w => if x = nan ∨ w = 0 then nan else infinite (x.isNegative != y.isNegative)
  | none, none =>
      if x = nan ∨ y = nan then nan else infinite (x.isNegative != y.isNegative)

/-- `x / y`. -/
def div (x y : JsNumber) : JsNumber :=
  match x.value, y.value with
  | some v, some w =>
      if w = 0 then if v = 0 then nan else infinite (x.isNegative != y.isNegative)
      else if v = 0 then zero (x.isNegative != y.isNegative)
      else nearest (v / w)
  | some _, none => if y = nan then nan else zero (x.isNegative != y.isNegative)
  | none, some _ => if x = nan then nan else infinite (x.isNegative != y.isNegative)
  | none, none => nan

/-- `Math.sqrt`. The rounded root of a positive number is a parameter too. -/
def sqrt (squareRoot : ℚ → ℚ) : JsNumber → JsNumber
  | finite v => if v < 0 then nan else finite (squareRoot v)
  | infinite true => nan
  | x => x

/-- The number nearest to a numeral with the given sign. -/
def ofNumeral (sign : ℤ) (magnitude : ℚ) : JsNumber :=
  if magnitude = 0 then zero (sign < 0) else nearest (sign * magnitude)

end Rounded

/-! ## Finite numbers -/

variable {x y : JsNumber} {v w : ℚ} {nearest : ℚ → JsNumber}

@[simp] theorem value_finite (v : ℚ) : (finite v).value = some v := rfl

@[simp] theorem value_zero (negative : Bool) : (zero negative).value = some 0 := by
  cases negative <;> rfl

theorem isFinite_iff : x.isFinite = true ↔ ∃ v, x.value = some v :=
  Option.isSome_iff_exists

theorem isInteger_iff : x.isInteger = true ↔ ∃ n : ℤ, x.value = some (n : ℚ) := by
  unfold isInteger
  cases x.value with
  | none => simp
  | some v =>
      rw [Option.any_some, beq_iff_eq, Rat.den_eq_one_iff]
      constructor
      · intro h
        exact ⟨v.num, by rw [h]⟩
      · rintro ⟨n, h⟩
        rw [Option.some.inj h]
        simp

theorem isFinite_of_isInteger (h : x.isInteger = true) : x.isFinite = true := by
  obtain ⟨n, hn⟩ := isInteger_iff.mp h
  exact isFinite_iff.mpr ⟨n, hn⟩

theorem place_of_value (h : x.value = some v) :
    x.place = some ((v : WithTop ℚ) : WithBot (WithTop ℚ)) := by
  cases x with
  | finite _ => cases h; rfl
  | negativeZero => cases h; rfl
  | infinite _ => cases h
  | nan => cases h

theorem strictEquals_iff (hx : x.value = some v) (hy : y.value = some w) :
    x.strictEquals y = true ↔ v = w := by
  simp [strictEquals, place_of_value hx, place_of_value hy]

theorem lt_iff (hx : x.value = some v) (hy : y.value = some w) : x < y ↔ v < w := by
  show x.lt y = true ↔ _
  simp [lt, place_of_value hx, place_of_value hy]

theorem le_iff (hx : x.value = some v) (hy : y.value = some w) : x ≤ y ↔ v ≤ w := by
  show x.le y = true ↔ _
  simp [le, place_of_value hx, place_of_value hy]

theorem toInt?_of_value {n : ℤ} (h : x.value = some (n : ℚ)) : x.toInt? = some n := by
  simp [toInt?, h]

/-- What lies between finite numbers is finite. -/
theorem isFinite_of_between {lower upper : JsNumber} (hlower : lower.value = some v)
    (hupper : upper.value = some w) (habove : lower ≤ x ∨ lower < x)
    (hbelow : x ≤ upper ∨ x < upper) : x.isFinite = true := by
  have hpastLower : lower.le x = true ∨ lower.lt x = true := habove
  have hpastUpper : x.le upper = true ∨ x.lt upper = true := hbelow
  rw [le, lt, place_of_value hlower] at hpastLower
  rw [le, lt, place_of_value hupper] at hpastUpper
  cases x with
  | finite _ => rfl
  | negativeZero => rfl
  | infinite negative => cases negative <;> simp [place] at hpastLower hpastUpper
  | nan => simp [place] at hpastLower

theorem value_neg (x : JsNumber) : (-x).value = x.value.map fun v => -v := by
  show (neg x).value = _
  cases x with
  | finite v =>
      by_cases hv : v = 0
      · simp [neg, value, hv]
      · simp [neg, value, hv]
  | negativeZero => simp [neg, value]
  | infinite negative => rfl
  | nan => rfl

theorem value_ofInteger (negative : Bool) (n : ℤ) :
    (ofInteger negative n).value = some (n : ℚ) := by
  by_cases hn : n = 0
  · simp [ofInteger, hn]
  · simp [ofInteger, hn]

theorem isInteger_toInteger (f : ℚ → ℤ) (h : x.isFinite = true) :
    (toInteger f x).isInteger = true := by
  cases x with
  | finite v => exact isInteger_iff.mpr ⟨f v, value_ofInteger _ _⟩
  | negativeZero => rfl
  | infinite _ => cases h
  | nan => cases h

theorem truncate_eq_self_iff : (truncate v : ℚ) = v ↔ ∃ z : ℤ, v = z := by
  constructor
  · intro h
    exact ⟨truncate v, h.symm⟩
  · rintro ⟨z, rfl⟩
    unfold truncate
    split
    · rw [Int.floor_intCast]
    · rw [Int.ceil_intCast]

theorem value_trunc (h : x.value = some v) : x.trunc.value = some (truncate v : ℚ) := by
  cases x with
  | finite _ =>
      cases h
      exact value_ofInteger _ _
  | negativeZero =>
      cases h
      simp [trunc, toInteger, value, truncate]
  | infinite _ => cases h
  | nan => cases h

/-- A finite number is an integer exactly if it is the same without the digits after the point. -/
theorem strictEquals_trunc_iff (h : x.value = some v) :
    x.strictEquals x.trunc = true ↔ ∃ z : ℤ, v = z := by
  rw [strictEquals_iff h (value_trunc h), eq_comm, truncate_eq_self_iff]

/-! ## Numerals -/

theorem ofNumeral_of_ne_zero {sign : ℤ} {magnitude : ℚ} (h : magnitude ≠ 0) :
    ofNumeral nearest sign magnitude = nearest (sign * magnitude) :=
  if_neg h

/-- A zero is read as one, with either sign. -/
theorem value_ofNumeral (hzero : (nearest 0).value = some 0) (sign : ℤ) (magnitude : ℚ) :
    (ofNumeral nearest sign magnitude).value = (nearest (sign * magnitude)).value := by
  by_cases h : magnitude = 0
  · rw [ofNumeral, if_pos h, value_zero, h, mul_zero, hzero]
  · rw [ofNumeral_of_ne_zero h]

/-! ## Exact numbers -/

section Exact

variable (hexact : ∀ v, nearest v = finite v) (hx : x.value = some v) (hy : y.value = some w)
include hexact hx hy

theorem value_add_of_exact : (add nearest x y).value = some (v + w) := by
  by_cases hsum : v + w = 0
  · simp [add, hx, hy, hsum]
  · simp [add, hx, hy, hsum, hexact]

theorem value_sub_of_exact : (sub nearest x y).value = some (v - w) := by
  have hneg : (-y).value = some (-w) := by rw [value_neg, hy, Option.map_some]
  rw [sub, value_add_of_exact hexact hx hneg, sub_eq_add_neg]

theorem value_mul_of_exact : (mul nearest x y).value = some (v * w) := by
  by_cases hproduct : v * w = 0
  · simp [mul, hx, hy, hproduct]
  · simp only [mul, hx, hy, hproduct, hexact, if_false, value_finite]

theorem value_div_of_exact (hw : w ≠ 0) : (div nearest x y).value = some (v / w) := by
  by_cases hv : v = 0
  · simp [div, hx, hy, hw, hv]
  · simp [div, hx, hy, hw, hv, hexact]

end Exact

end JsNumber

end Jayvee.Foundation
