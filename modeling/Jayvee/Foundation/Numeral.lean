import Mathlib.Data.Rat.Defs
import Mathlib.Data.List.FinRange
import Mathlib.Data.List.TakeWhile
import Mathlib.Tactic.Ring

/-! # Decimal numerals

An optional sign, digits with or without a separator among them, and an optional exponent. -/

namespace Jayvee.Foundation

/-! ## Digits -/

namespace Digit

def char (d : Fin 10) : Char :=
  Nat.digitChar d

theorem isDigit_char : ∀ d, (char d).isDigit = true := by decide

theorem toNat_char : ∀ d, (char d).toNat - '0'.toNat = d := by decide

theorem digits_eq : "0123456789".toList = (List.finRange 10).map char := by decide

theorem mem_digits_iff {c : Char} : c ∈ "0123456789".toList ↔ ∃ d, char d = c := by
  rw [digits_eq, List.mem_map]
  exact exists_congr fun d => and_iff_right (List.mem_finRange d)

end Digit

def digitChars (ds : List (Fin 10)) : List Char :=
  ds.map Digit.char

def digitsValue (ds : List (Fin 10)) : ℕ :=
  ds.foldl (fun n d => 10 * n + d.val) 0

/-- The number that a text of digits denotes. -/
def decimalValue (cs : List Char) : ℕ :=
  cs.foldl (fun n c => 10 * n + (c.toNat - '0'.toNat)) 0

theorem decimalValue_digitChars (ds : List (Fin 10)) :
    decimalValue (digitChars ds) = digitsValue ds := by
  rw [decimalValue, digitChars, List.foldl_map, digitsValue]
  simp only [Digit.toNat_char]

theorem isDigit_of_mem_digitChars {ds : List (Fin 10)} {c : Char} (h : c ∈ digitChars ds) :
    c.isDigit = true := by
  obtain ⟨d, _, rfl⟩ := List.mem_map.mp h
  exact Digit.isDigit_char d

theorem digitChars_ne_nil {ds : List (Fin 10)} (h : ds ≠ []) : digitChars ds ≠ [] :=
  mt List.map_eq_nil_iff.mp h

@[simp] theorem length_digitChars (ds : List (Fin 10)) : (digitChars ds).length = ds.length :=
  List.length_map _

theorem exists_digitChars_iff {cs : List Char} :
    (∃ ds, digitChars ds = cs) ↔ ∀ c ∈ cs, c ∈ "0123456789".toList := by
  constructor
  · intro h c hc
    obtain ⟨ds, rfl⟩ := h
    obtain ⟨d, _, rfl⟩ := List.mem_map.mp hc
    exact Digit.mem_digits_iff.mpr ⟨d, rfl⟩
  · intro h
    induction cs with
    | nil => exact ⟨[], rfl⟩
    | cons c cs ih =>
        obtain ⟨hc, hcs⟩ := List.forall_mem_cons.mp h
        obtain ⟨d, rfl⟩ := Digit.mem_digits_iff.mp hc
        obtain ⟨ds, rfl⟩ := ih hcs
        exact ⟨d :: ds, rfl⟩

/-! ## Reading digits -/

/-- The text does not go on with a digit. -/
def NoDigitAhead (rest : List Char) : Prop :=
  ∀ c ∈ rest.head?, c.isDigit = false

theorem noDigitAhead_nil : NoDigitAhead [] := by
  intro c hc
  exact absurd hc (Option.not_mem_none c)

theorem noDigitAhead_cons {c : Char} (rest : List Char) (h : c.isDigit = false) :
    NoDigitAhead (c :: rest) := by
  intro d hd
  rw [List.head?_cons, Option.mem_some_iff] at hd
  exact hd ▸ h

section Reading

variable {rest : List Char}

theorem takeWhile_isDigit (ds : List (Fin 10)) (h : NoDigitAhead rest) :
    (digitChars ds ++ rest).takeWhile Char.isDigit = digitChars ds := by
  rw [List.takeWhile_append_of_pos fun c hc => isDigit_of_mem_digitChars hc]
  cases rest with
  | nil => exact List.append_nil _
  | cons c rest => rw [List.takeWhile_cons_of_neg (by simp [h c rfl]), List.append_nil]

theorem dropWhile_isDigit (ds : List (Fin 10)) (h : NoDigitAhead rest) :
    (digitChars ds ++ rest).dropWhile Char.isDigit = rest := by
  rw [List.dropWhile_append_of_pos fun c hc => isDigit_of_mem_digitChars hc]
  cases rest with
  | nil => rfl
  | cons c rest => exact List.dropWhile_cons_of_neg (by simp [h c rfl])

end Reading

/-! ## Signs -/

inductive Sign where
  | plus | minus
  deriving DecidableEq

namespace Sign

def char : Sign → Char
  | plus => '+'
  | minus => '-'

def value : Sign → ℤ
  | plus => 1
  | minus => -1

end Sign

def signChars : Option Sign → List Char
  | none => []
  | some sign => [sign.char]

def signValue : Option Sign → ℤ
  | none => 1
  | some sign => sign.value

/-! ## Numerals -/

/-- The digits in front of a separator, which is a point or a comma. -/
structure IntegerPart where
  digits : List (Fin 10)
  comma : Bool

structure Exponent where
  uppercase : Bool
  sign : Option Sign
  digits : List (Fin 10)
  digits_ne_nil : digits ≠ []

structure Numeral where
  sign : Option Sign
  integer : Option IntegerPart
  digits : List (Fin 10)
  digits_ne_nil : digits ≠ []
  exponent : Option Exponent

def separatorChar (comma : Bool) : Char :=
  if comma then ',' else '.'

def integerChars (separator : Bool → Char) : Option IntegerPart → List Char
  | none => []
  | some integer => digitChars integer.digits ++ [separator integer.comma]

def exponentChars : Option Exponent → List Char
  | none => []
  | some exponent =>
      (if exponent.uppercase then 'E' else 'e') ::
        (signChars exponent.sign ++ digitChars exponent.digits)

/-- Digits behind a separator are decimals. -/
def mantissaValue (digits : List (Fin 10)) : Option IntegerPart → ℚ
  | none => digitsValue digits
  | some integer => digitsValue integer.digits + digitsValue digits / 10 ^ digits.length

def exponentValue : Option Exponent → ℤ
  | none => 0
  | some exponent => signValue exponent.sign * digitsValue exponent.digits

theorem noDigitAhead_exponentChars (exponent : Option Exponent) :
    NoDigitAhead (exponentChars exponent) := by
  cases exponent with
  | none => exact noDigitAhead_nil
  | some exponent =>
      exact noDigitAhead_cons _ (by cases exponent.uppercase <;> decide)

namespace Numeral

variable (numeral : Numeral)

/-- The characters, with the separator as given. -/
def charsWith (separator : Bool → Char) : List Char :=
  signChars numeral.sign ++
    (integerChars separator numeral.integer ++
      (digitChars numeral.digits ++ exponentChars numeral.exponent))

def chars : List Char :=
  numeral.charsWith separatorChar

def text : String :=
  String.ofList numeral.chars

/-- The value without the sign. -/
def magnitude : ℚ :=
  mantissaValue numeral.digits numeral.integer * 10 ^ exponentValue numeral.exponent

def value : ℚ :=
  signValue numeral.sign * numeral.magnitude

end Numeral

end Jayvee.Foundation
