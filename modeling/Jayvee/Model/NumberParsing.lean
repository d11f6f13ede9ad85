import Jayvee.Foundation.JsNumber
import Jayvee.Foundation.Numeral
import Jayvee.Foundation.RegExp

/-! # Number parsing -/

namespace Jayvee

open Foundation RegularExpression RegExp

namespace NumberParsing

/-! ## The JavaScript runtime -/

/-- The characters that `Number.parseFloat` skips at the start. -/
def isWhiteSpace (c : Char) : Bool :=
  [0x9, 0xA, 0xB, 0xC, 0xD, 0x20, 0xA0, 0x1680, 0x2028, 0x2029, 0x202F, 0x205F, 0x3000,
    0xFEFF].contains c.toNat || (0x2000 ≤ c.toNat && c.toNat ≤ 0x200A)

/-- Splits off a leading `+` or `-`. -/
def parseSign : List Char → ℤ × List Char
  | '+' :: cs => (1, cs)
  | '-' :: cs => (-1, cs)
  | cs => (1, cs)

/-- The decimals behind a point and the text behind them. -/
def readDecimals : List Char → List Char × List Char
  | '.' :: cs => (cs.takeWhile Char.isDigit, cs.dropWhile Char.isDigit)
  | cs => ([], cs)

/-- The exponent at the start of the text; `0` if there is none. -/
def readExponent : List Char → ℤ
  | [] => 0
  | c :: cs =>
      if c = 'e' ∨ c = 'E' then
        let (sign, digits) := parseSign cs
        sign * decimalValue (digits.takeWhile Char.isDigit)
      else
        0

/-- `Number.parseFloat`, which returns the number nearest to the numeral at the start of the
text. -/
def parseFloat (nearest : ℚ → JsNumber) (cs : List Char) : JsNumber :=
  let (sign, unsigned) := parseSign (cs.dropWhile isWhiteSpace)
  let integer := unsigned.takeWhile Char.isDigit
  let (decimals, rest) := readDecimals (unsigned.dropWhile Char.isDigit)
  if "Infinity".toList <+: unsigned then
    .infinite (sign < 0)
  else if integer = [] ∧ decimals = [] then
    .nan
  else
    .ofNumeral nearest sign
      ((decimalValue integer + decimalValue decimals / 10 ^ decimals.length) *
        10 ^ readExponent rest)

/-! ## The grammar -/

def digit : RegularExpression Char :=
  oneOf "0123456789".toList

def sign : RegularExpression Char :=
  oneOf ['+', '-']

/-- `NUMBER_REGEX`, which is `/^[+-]?([0-9]*[,.])?[0-9]+([eE][+-]?\d+)?$/`. -/
def numberRegex : RegularExpression Char :=
  optional sign * (optional (digit.star * oneOf [',', '.']) *
    (atLeastOne digit * optional (oneOf ['e', 'E'] * (optional sign * atLeastOne digit))))

end NumberParsing

/-! ## The value types -/

namespace DecimalValuetype

variable (nearest : ℚ → JsNumber)

def parseDecimal (s : String) : Option JsNumber :=
  if !NumberParsing.numberRegex.rmatch s.toList then
    none
  else
    some (NumberParsing.parseFloat nearest (s.toList.replace ',' '.'))

/-- The operand is a number. -/
def isInternalValueRepresentation (operandValue : JsNumber) : Bool :=
  operandValue.isFinite

def fromString (s : String) : Option JsNumber :=
  parseDecimal nearest s

end DecimalValuetype

namespace IntegerValuetype

/-- The operand is a number. -/
def isInternalValueRepresentation (operandValue : JsNumber) : Bool :=
  operandValue.isInteger

def fromString (nearest : ℚ → JsNumber) (s : String) : Option JsNumber := do
  let decimalNumber ← DecimalValuetype.parseDecimal nearest s
  let integerNumber := decimalNumber.trunc
  if !decimalNumber.strictEquals integerNumber then
    none
  else
    return integerNumber

end IntegerValuetype

end Jayvee
