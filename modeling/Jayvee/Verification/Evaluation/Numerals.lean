import Jayvee.Model.NumberParsing

/-! # The texts of numerals

The regular expression accepts the texts of numerals and no others, and the two parsers read
their values. -/

namespace Jayvee

open Foundation RegularExpression RegExp

/-! ## The grammar -/

namespace NumberParsing

variable {cs : List Char}

theorem mem_digit_star : cs ∈ digit.star.matches' ↔ ∃ ds, digitChars ds = cs :=
  mem_star_oneOf.trans exists_digitChars_iff.symm

theorem mem_atLeastOne_digit :
    cs ∈ (atLeastOne digit).matches' ↔ ∃ ds, ds ≠ [] ∧ digitChars ds = cs := by
  rw [digit, mem_atLeastOne_oneOf, ← exists_digitChars_iff]
  constructor
  · intro h
    obtain ⟨hne, ds, rfl⟩ := h
    exact ⟨ds, fun hnil => hne (hnil ▸ rfl), rfl⟩
  · intro h
    obtain ⟨ds, hne, rfl⟩ := h
    exact ⟨digitChars_ne_nil hne, ds, rfl⟩

theorem mem_optional_sign : cs ∈ (optional sign).matches' ↔ ∃ s, signChars s = cs := by
  rw [mem_optional, sign, mem_oneOf]
  constructor
  · intro h
    rcases h with rfl | ⟨c, hc, rfl⟩
    · exact ⟨none, rfl⟩
    · rcases List.mem_pair.mp hc with rfl | rfl
      · exact ⟨some .plus, rfl⟩
      · exact ⟨some .minus, rfl⟩
  · intro h
    obtain ⟨s, rfl⟩ := h
    cases s with
    | none => exact .inl rfl
    | some s => cases s <;> exact .inr ⟨_, by decide, rfl⟩

theorem mem_optional_integer :
    cs ∈ (optional (digit.star * oneOf [',', '.'])).matches' ↔
      ∃ integer, integerChars separatorChar integer = cs := by
  rw [mem_optional, matches'_mul, Language.mem_mul]
  constructor
  · intro h
    rcases h with rfl | ⟨ds, hds, c, hc, rfl⟩
    · exact ⟨none, rfl⟩
    · obtain ⟨ds, rfl⟩ := mem_digit_star.mp hds
      obtain ⟨separator, hmem, rfl⟩ := mem_oneOf.mp hc
      rcases List.mem_pair.mp hmem with rfl | rfl
      · exact ⟨some ⟨ds, true⟩, rfl⟩
      · exact ⟨some ⟨ds, false⟩, rfl⟩
  · intro h
    obtain ⟨integer, rfl⟩ := h
    cases integer with
    | none => exact .inl rfl
    | some integer =>
        refine .inr ⟨_, mem_digit_star.mpr ⟨integer.digits, rfl⟩, _, mem_oneOf.mpr ?_, rfl⟩
        exact ⟨_, by cases integer.comma <;> decide, rfl⟩

theorem mem_optional_exponent :
    cs ∈ (optional (oneOf ['e', 'E'] * (optional sign * atLeastOne digit))).matches' ↔
      ∃ exponent, exponentChars exponent = cs := by
  rw [mem_optional, matches'_mul, matches'_mul, Language.mem_mul]
  constructor
  · intro h
    rcases h with rfl | ⟨c, hc, rest, hrest, rfl⟩
    · exact ⟨none, rfl⟩
    · obtain ⟨s, hs, ds, hds, rfl⟩ := Language.mem_mul.mp hrest
      obtain ⟨mark, hmark, rfl⟩ := mem_oneOf.mp hc
      obtain ⟨s, rfl⟩ := mem_optional_sign.mp hs
      obtain ⟨ds, hne, rfl⟩ := mem_atLeastOne_digit.mp hds
      rcases List.mem_pair.mp hmark with rfl | rfl
      · exact ⟨some ⟨false, s, ds, hne⟩, rfl⟩
      · exact ⟨some ⟨true, s, ds, hne⟩, rfl⟩
  · intro h
    obtain ⟨exponent, rfl⟩ := h
    cases exponent with
    | none => exact .inl rfl
    | some exponent =>
        refine .inr ⟨_, mem_oneOf.mpr ⟨_, ?_, rfl⟩, _, Language.mem_mul.mpr
          ⟨_, mem_optional_sign.mpr ⟨exponent.sign, rfl⟩,
            _, mem_atLeastOne_digit.mpr ⟨exponent.digits, exponent.digits_ne_nil, rfl⟩, rfl⟩, rfl⟩
        cases exponent.uppercase <;> decide

/-- The regular expression describes the texts of numerals. -/
theorem numberRegex_rmatch_iff :
    numberRegex.rmatch cs ↔ ∃ numeral : Numeral, numeral.chars = cs := by
  rw [rmatch_iff_matches', numberRegex]
  simp only [matches'_mul, Language.mem_mul]
  constructor
  · intro h
    obtain ⟨s, hs, _, ⟨i, hi, _, ⟨ds, hds, e, he, rfl⟩, rfl⟩, rfl⟩ := h
    obtain ⟨s, rfl⟩ := mem_optional_sign.mp hs
    obtain ⟨integer, rfl⟩ := mem_optional_integer.mp hi
    obtain ⟨ds, hne, rfl⟩ := mem_atLeastOne_digit.mp hds
    obtain ⟨exponent, rfl⟩ := mem_optional_exponent.mp he
    exact ⟨⟨s, integer, ds, hne, exponent⟩, rfl⟩
  · intro h
    obtain ⟨numeral, rfl⟩ := h
    exact ⟨_, mem_optional_sign.mpr ⟨numeral.sign, rfl⟩,
      _, ⟨_, mem_optional_integer.mpr ⟨numeral.integer, rfl⟩,
        _, ⟨_, mem_atLeastOne_digit.mpr ⟨numeral.digits, numeral.digits_ne_nil, rfl⟩,
          _, mem_optional_exponent.mpr ⟨numeral.exponent, rfl⟩, rfl⟩, rfl⟩, rfl⟩

/-! ## Signs -/

/-- The text goes on with a digit or a separator. -/
def NumberAhead (rest : List Char) : Prop :=
  ∃ c ∈ "0123456789,.".toList, ∃ cs, rest = c :: cs

theorem numberAhead_digitChars {ds : List (Fin 10)} (h : ds ≠ []) (rest : List Char) :
    NumberAhead (digitChars ds ++ rest) := by
  obtain ⟨d, ds, rfl⟩ := List.exists_cons_of_ne_nil h
  exact ⟨Digit.char d, (by decide : ∀ d, Digit.char d ∈ "0123456789,.".toList) d, _, rfl⟩

theorem numberAhead_integerChars {ds : List (Fin 10)} (hds : ds ≠ [])
    (integer : Option IntegerPart) (rest : List Char) :
    NumberAhead (integerChars (fun _ => '.') integer ++ (digitChars ds ++ rest)) := by
  cases integer with
  | none => exact numberAhead_digitChars hds rest
  | some integer =>
      rw [integerChars, List.append_assoc]
      by_cases hempty : integer.digits = []
      · exact ⟨'.', by decide, digitChars ds ++ rest, by rw [hempty]; rfl⟩
      · exact numberAhead_digitChars hempty _

section NumberAhead

variable {rest : List Char} (s : Option Sign) (h : NumberAhead rest)
include h

theorem parseSign_signChars : parseSign (signChars s ++ rest) = (signValue s, rest) := by
  obtain ⟨c, hc, cs, rfl⟩ := h
  have hsign : ∀ c ∈ "0123456789,.".toList, c ≠ '+' ∧ c ≠ '-' := by simp
  cases s with
  | none =>
      rw [signChars, List.nil_append, parseSign.eq_def]
      split
      · rename_i heq
        exact absurd (List.cons.inj heq).1 (hsign c hc).1
      · rename_i heq
        exact absurd (List.cons.inj heq).1 (hsign c hc).2
      · rfl
  | some s => cases s <;> rfl

theorem dropWhile_isWhiteSpace :
    (signChars s ++ rest).dropWhile isWhiteSpace = signChars s ++ rest := by
  obtain ⟨c, hc, cs, rfl⟩ := h
  have hspace : ∀ c ∈ "0123456789,.".toList, (!isWhiteSpace c) = true :=
    List.all_eq_true.mp (by decide)
  cases s with
  | none => exact List.dropWhile_cons_of_neg (by simpa using hspace c hc)
  | some s => cases s <;> exact List.dropWhile_cons_of_neg (by decide)

omit s in
theorem not_infinity_isPrefix : ¬ "Infinity".toList <+: rest := by
  obtain ⟨c, hc, cs, rfl⟩ := h
  have hletter : ∀ c ∈ "0123456789,.".toList, c ≠ 'I' := by simp
  intro hinfinity
  exact hletter c hc (List.cons_prefix_cons.mp hinfinity).1.symm

end NumberAhead

/-! ## Rounding -/

theorem readDecimals_exponentChars (exponent : Option Exponent) :
    readDecimals (exponentChars exponent) = ([], exponentChars exponent) := by
  cases exponent with
  | none => rfl
  | some exponent =>
      rw [exponentChars]
      cases exponent.uppercase <;> rfl

theorem readDecimals_digitChars (ds : List (Fin 10)) {rest : List Char} (h : NoDigitAhead rest) :
    readDecimals ('.' :: (digitChars ds ++ rest)) = (digitChars ds, rest) := by
  rw [readDecimals, takeWhile_isDigit ds h, dropWhile_isDigit ds h]

theorem readExponent_exponentChars (exponent : Option Exponent) :
    readExponent (exponentChars exponent) = exponentValue exponent := by
  cases exponent with
  | none => rfl
  | some exponent =>
      have hmark : (if exponent.uppercase then 'E' else 'e') = 'e' ∨
          (if exponent.uppercase then 'E' else 'e') = 'E' := by
        cases exponent.uppercase <;> decide
      have hdigits := takeWhile_isDigit exponent.digits noDigitAhead_nil
      have hahead := numberAhead_digitChars exponent.digits_ne_nil []
      rw [List.append_nil] at hdigits hahead
      have hsign := parseSign_signChars exponent.sign hahead
      rw [exponentChars, readExponent, if_pos hmark, hsign]
      simp only [hdigits, decimalValue_digitChars, exponentValue]

/-- The number nearest to the value is read. -/
theorem parseFloat_charsWith (nearest : ℚ → JsNumber) (numeral : Numeral) :
    parseFloat nearest (numeral.charsWith fun _ => '.') =
      .ofNumeral nearest (signValue numeral.sign) numeral.magnitude := by
  obtain ⟨s, integer, ds, hds, exponent⟩ := numeral
  have hexponent := noDigitAhead_exponentChars exponent
  have hahead := numberAhead_integerChars hds integer (exponentChars exponent)
  rw [Numeral.charsWith, parseFloat, dropWhile_isWhiteSpace s hahead,
    parseSign_signChars s hahead]
  dsimp only
  rw [if_neg (not_infinity_isPrefix hahead)]
  cases integer with
  | none =>
      simp only [integerChars, List.nil_append, takeWhile_isDigit ds hexponent,
        dropWhile_isDigit ds hexponent, readDecimals_exponentChars, readExponent_exponentChars,
        decimalValue_digitChars]
      rw [if_neg fun h => digitChars_ne_nil hds h.1]
      simp [Numeral.magnitude, mantissaValue, decimalValue]
  | some integer =>
      have hdecimals := noDigitAhead_cons (digitChars ds ++ exponentChars exponent)
        (by decide : Char.isDigit '.' = false)
      simp only [integerChars, List.append_assoc, List.singleton_append,
        takeWhile_isDigit integer.digits hdecimals, dropWhile_isDigit integer.digits hdecimals,
        readDecimals_digitChars ds hexponent, readExponent_exponentChars, decimalValue_digitChars]
      rw [if_neg fun h => digitChars_ne_nil hds h.2]
      simp [Numeral.magnitude, mantissaValue]

/-! ## The separator -/

theorem comma_notMem_digitChars (ds : List (Fin 10)) : ',' ∉ digitChars ds :=
  fun h => Bool.false_ne_true (isDigit_of_mem_digitChars h)

theorem comma_notMem_signChars (s : Option Sign) : ',' ∉ signChars s := by
  cases s with
  | none => exact List.not_mem_nil
  | some s => cases s <;> decide

theorem comma_notMem_exponentChars (exponent : Option Exponent) :
    ',' ∉ exponentChars exponent := by
  cases exponent with
  | none => exact List.not_mem_nil
  | some exponent =>
      rw [exponentChars, List.mem_cons, List.mem_append]
      intro h
      rcases h with h | h | h
      · revert h
        cases exponent.uppercase <;> decide
      · exact comma_notMem_signChars _ h
      · exact comma_notMem_digitChars _ h

/-- The first comma is the separator. -/
theorem chars_replace (numeral : Numeral) :
    numeral.chars.replace ',' '.' = numeral.charsWith fun _ => '.' := by
  have hrest : ',' ∉ digitChars numeral.digits ++ exponentChars numeral.exponent := fun h =>
    (List.mem_append.mp h).elim (comma_notMem_digitChars _) (comma_notMem_exponentChars _)
  rw [Numeral.chars, Numeral.charsWith, Numeral.charsWith,
    List.replace_append_right (comma_notMem_signChars _)]
  congr 1
  cases numeral.integer with
  | none => exact List.replace_of_not_mem hrest
  | some integer =>
      rw [integerChars, integerChars, List.append_assoc, List.append_assoc,
        List.replace_append_right (comma_notMem_digitChars _)]
      congr 1
      cases integer.comma with
      | false =>
          have hpoint : ',' ∉ [separatorChar false] := by decide
          rw [List.replace_append_right hpoint, List.replace_of_not_mem hrest]
          rfl
      | true => exact List.replace_cons_self

end NumberParsing

/-! ## Parsing -/

namespace DecimalValuetype

variable {nearest : ℚ → JsNumber} {s : String} {x : JsNumber}

theorem parseDecimal_text (numeral : Numeral) :
    parseDecimal nearest numeral.text =
      some (.ofNumeral nearest (signValue numeral.sign) numeral.magnitude) := by
  have hmatch := NumberParsing.numberRegex_rmatch_iff.mpr ⟨numeral, rfl⟩
  rw [parseDecimal, Numeral.text, String.toList_ofList, hmatch, Bool.not_true,
    if_neg Bool.false_ne_true, NumberParsing.chars_replace, NumberParsing.parseFloat_charsWith]

theorem exists_numeral_of_parseDecimal (h : parseDecimal nearest s = some x) :
    ∃ numeral : Numeral, numeral.text = s ∧
      x = .ofNumeral nearest (signValue numeral.sign) numeral.magnitude := by
  have hmatch : NumberParsing.numberRegex.rmatch s.toList = true := by
    by_contra hno
    simp [parseDecimal, hno] at h
  obtain ⟨numeral, hchars⟩ := NumberParsing.numberRegex_rmatch_iff.mp hmatch
  have htext : numeral.text = s := by
    rw [Numeral.text, hchars, String.ofList_toList]
  rw [← htext, parseDecimal_text, Option.some.injEq] at h
  exact ⟨numeral, htext, h.symm⟩

end DecimalValuetype

namespace IntegerValuetype

variable {nearest : ℚ → JsNumber} {s : String} {x d : JsNumber} {w : ℚ}

/-- The integer is the decimal without the digits after the point, which is the same. -/
theorem fromString_eq_some_iff (hd : DecimalValuetype.parseDecimal nearest s = some d)
    (hvalue : d.value = some w) :
    fromString nearest s = some x ↔ x = d.trunc ∧ ∃ z : ℤ, w = z := by
  rw [fromString, hd, ← JsNumber.strictEquals_trunc_iff hvalue]
  show (if (!d.strictEquals d.trunc) = true then none else some d.trunc) = some x ↔ _
  by_cases hinteger : d.strictEquals d.trunc = true
  · rw [hinteger, Bool.not_true, if_neg Bool.false_ne_true, Option.some.injEq, and_iff_left rfl]
    exact eq_comm
  · rw [if_pos (by simpa using hinteger)]
    exact ⟨fun h => (by cases h), fun h => (hinteger h.2).elim⟩

theorem value_of_fromString (hd : DecimalValuetype.parseDecimal nearest s = some d)
    (hvalue : d.value = some w) (hx : fromString nearest s = some x) :
    x.value = some w ∧ ∃ z : ℤ, w = z := by
  obtain ⟨rfl, hinteger⟩ := (fromString_eq_some_iff hd hvalue).mp hx
  rw [JsNumber.value_trunc hvalue, JsNumber.truncate_eq_self_iff.mpr hinteger]
  exact ⟨rfl, hinteger⟩

end IntegerValuetype

end Jayvee
