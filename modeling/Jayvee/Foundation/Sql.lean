import Mathlib.Data.List.Chain
import Mathlib.Data.List.TakeWhile
import Mathlib.Data.Rat.Defs
import Mathlib.Algebra.Order.Field.Rat

/-! # Texts of SQL

The tokens of a text, and texts that are put together from names, literals and fixed parts. -/

namespace Jayvee.Foundation.Sql

/-! ## Tokens -/

inductive Token where
  | word (name : String)
  | identifier (name : String)
  | text (value : String)
  | number (value : ℚ)
  | symbol (character : Char)
  deriving DecidableEq

/-- What is left after the closing quote, and what was quoted. A doubled quote stands for one. -/
def scanQuoted (quote : Char) : List Char → Option (List Char × List Char)
  | [] => none
  | c :: cs =>
      if c = quote then
        match cs with
        | [] => some ([], [])
        | d :: rest =>
            if d = quote then
              (scanQuoted quote rest).map fun scanned => (quote :: scanned.1, scanned.2)
            else
              some ([], d :: rest)
      else
        (scanQuoted quote cs).map fun scanned => (c :: scanned.1, scanned.2)

def digitsValue (digits : List Char) : Nat :=
  digits.foldl (fun n c => 10 * n + (c.toNat - '0'.toNat)) 0

/-- The digits behind a decimal point. -/
def scanFraction : List Char → List Char × List Char
  | '.' :: cs => (cs.takeWhile Char.isDigit, cs.dropWhile Char.isDigit)
  | cs => ([], cs)

def scanSign : List Char → ℤ × List Char
  | '+' :: cs => (1, cs)
  | '-' :: cs => (-1, cs)
  | cs => (1, cs)

def scanExponent : List Char → ℤ × List Char
  | 'e' :: cs =>
      ((scanSign cs).1 * digitsValue ((scanSign cs).2.takeWhile Char.isDigit),
        (scanSign cs).2.dropWhile Char.isDigit)
  | cs => (0, cs)

/-- The number `digits[.digits][e[±]digits]` at the beginning of a text. -/
def scanNumber (cs : List Char) : ℚ × List Char :=
  let integer := cs.takeWhile Char.isDigit
  let fraction := scanFraction (cs.dropWhile Char.isDigit)
  let exponent := scanExponent fraction.2
  ((digitsValue integer + digitsValue fraction.1 / 10 ^ fraction.1.length) * 10 ^ exponent.1,
    exponent.2)

def isWordCharacter (c : Char) : Bool :=
  c.isAlphanum || c = '_'

def isSpace (c : Char) : Bool :=
  c = ' ' || c = '\t' || c = '\n'

def isSymbol (c : Char) : Bool :=
  c ∈ ['(', ')', ',', ';', '.', '=', '<', '>', '+', '-', '*', '/']

/-- The token that begins with a character, if there is one, and the text behind it. -/
def nextToken (c : Char) (cs : List Char) : Option (Option Token × List Char) :=
  if isSpace c then
    some (none, cs)
  else if c = '"' then
    (scanQuoted '"' cs).map fun scanned => (some (.identifier (.ofList scanned.1)), scanned.2)
  else if c = '\'' then
    (scanQuoted '\'' cs).map fun scanned => (some (.text (.ofList scanned.1)), scanned.2)
  else if c.isDigit then
    some (some (.number (scanNumber (c :: cs)).1), (scanNumber (c :: cs)).2)
  else if isWordCharacter c then
    some (some (.word (.ofList (c :: cs.takeWhile isWordCharacter))),
      cs.dropWhile isWordCharacter)
  else if c = '-' ∧ cs.head? = some '-' then
    -- a comment ends with its line
    some (none, cs.dropWhile (· ≠ '\n'))
  else if isSymbol c then
    some (some (.symbol c), cs)
  else
    none

def tokensWithin : (fuel : Nat) → List Char → Option (List Token)
  | _, [] => some []
  | 0, _ :: _ => none
  | fuel + 1, c :: cs =>
      (nextToken c cs).bind fun next =>
        (tokensWithin fuel next.2).map fun tokens => next.1.toList ++ tokens

/-- The tokens of a text; none if a quote is not closed or a character is not known. -/
def tokenize (text : List Char) : Option (List Token) :=
  tokensWithin text.length text

/-! ## Quoting -/

section Quoting

variable {quote c : Char} {cs name value rest : List Char} {scanned : List Char × List Char}

theorem scanQuoted_closing (h : cs.head? ≠ some quote) :
    scanQuoted quote (quote :: cs) = some ([], cs) := by
  cases cs with
  | nil => rw [scanQuoted, if_pos rfl]
  | cons d rest =>
      have hd : d ≠ quote := by simpa using h
      rw [scanQuoted, if_pos rfl, if_neg hd]

theorem scanQuoted_doubled : scanQuoted quote (quote :: quote :: cs) =
    (scanQuoted quote cs).map fun scanned => (quote :: scanned.1, scanned.2) := by
  rw [scanQuoted, if_pos rfl, if_pos rfl]

theorem scanQuoted_cons (h : c ≠ quote) : scanQuoted quote (c :: cs) =
    (scanQuoted quote cs).map fun scanned => (c :: scanned.1, scanned.2) := by
  rw [scanQuoted.eq_def]
  simp only [if_neg h]

theorem length_scanQuoted_lt (h : scanQuoted quote cs = some scanned) :
    scanned.2.length < cs.length := by
  induction cs using scanQuoted.induct quote generalizing scanned with
  | case1 => cases h
  | case2 =>
      rw [scanQuoted_closing (by simp)] at h
      cases h
      simp
  | case3 rest ih =>
      rw [scanQuoted_doubled] at h
      obtain ⟨inner, hinner, rfl⟩ := Option.map_eq_some_iff.mp h
      have hlt := ih hinner
      simp only [List.length_cons]
      omega
  | case4 d rest hd =>
      rw [scanQuoted_closing (by simpa using hd)] at h
      cases h
      simp
  | case5 d rest hd ih =>
      rw [scanQuoted_cons hd] at h
      obtain ⟨inner, hinner, rfl⟩ := Option.map_eq_some_iff.mp h
      have hlt := ih hinner
      simp only [List.length_cons]
      omega

/-- The characters of a value between quotes. -/
def escapeQuotes (quote : Char) (value : List Char) : List Char :=
  value.flatMap fun c => if c = quote then [quote, quote] else [c]

theorem escapeQuotes_of_not_mem (h : quote ∉ name) : escapeQuotes quote name = name := by
  induction name with
  | nil => rfl
  | cons c name ih =>
      rw [List.mem_cons, not_or] at h
      rw [escapeQuotes, List.flatMap_cons, if_neg (Ne.symm h.1), List.singleton_append]
      exact congrArg (c :: ·) (ih h.2)

/-- Whatever the value is, it is read up to the quote behind it. -/
theorem scanQuoted_escapeQuotes (h : rest.head? ≠ some quote) :
    scanQuoted quote (escapeQuotes quote value ++ quote :: rest) = some (value, rest) := by
  induction value with
  | nil => exact scanQuoted_closing h
  | cons c value ih =>
      rw [escapeQuotes, List.flatMap_cons, List.append_assoc, ← escapeQuotes]
      by_cases hc : c = quote
      · rw [if_pos hc, List.cons_append, List.singleton_append, scanQuoted_doubled, ih, hc]
        rfl
      · rw [if_neg hc, List.singleton_append, scanQuoted_cons hc, ih]
        rfl

/-- A name that is not escaped is not read as itself: reading ends too early, takes a quote for
two, or runs over the closing quote. The quotes that were taken for two are added up in front. -/
theorem scanned_ne_of_mem {surplus : Nat} (hrest : rest.head? ≠ some quote)
    (hmem : 0 < surplus ∨ quote ∈ name)
    (h : scanQuoted quote (name ++ quote :: rest) = some scanned) :
    scanned.1 ≠ List.replicate surplus quote ++ name := by
  induction name using scanQuoted.induct quote generalizing surplus scanned with
  | case1 =>
      rw [List.nil_append, scanQuoted_closing hrest] at h
      cases h
      have hsurplus : surplus ≠ 0 := by simpa [Nat.pos_iff_ne_zero] using hmem
      simpa using hsurplus
  | case2 =>
      rw [List.singleton_append, scanQuoted_doubled] at h
      obtain ⟨inner, hinner, rfl⟩ := Option.map_eq_some_iff.mp h
      have hfront : List.replicate surplus quote ++ [quote] =
          quote :: List.replicate surplus quote := by
        rw [← List.replicate_succ', List.replicate_succ]
      rw [hfront, Ne, List.cons.injEq, not_and]
      intro _ heq
      -- the text runs on with a character that is no quote
      cases rest with
      | nil => simp [scanQuoted] at hinner
      | cons c rest =>
          have hc : c ≠ quote := by simpa using hrest
          rw [scanQuoted_cons hc] at hinner
          obtain ⟨further, _, rfl⟩ := Option.map_eq_some_iff.mp hinner
          have hmem : c ∈ List.replicate surplus quote := by
            rw [← heq]
            exact List.mem_cons_self
          exact hc (List.eq_of_mem_replicate hmem)
  | case3 name ih =>
      rw [List.cons_append, List.cons_append, scanQuoted_doubled] at h
      obtain ⟨inner, hinner, rfl⟩ := Option.map_eq_some_iff.mp h
      have hfront : List.replicate surplus quote ++ quote :: quote :: name =
          quote :: (List.replicate (surplus + 1) quote ++ name) := by
        rw [List.append_cons, ← List.replicate_succ', List.append_cons, ← List.replicate_succ',
          List.replicate_succ, List.cons_append]
      rw [hfront, Ne, List.cons.injEq, not_and]
      exact fun _ => ih (Or.inl (Nat.succ_pos surplus)) hinner
  | case4 d name hd =>
      rw [List.cons_append, List.cons_append, scanQuoted_closing (by simpa using hd)] at h
      cases h
      simp
  | case5 d name hd ih =>
      rw [List.cons_append, scanQuoted_cons hd] at h
      obtain ⟨inner, hinner, rfl⟩ := Option.map_eq_some_iff.mp h
      cases surplus with
      | zero =>
          have hname : quote ∈ name := by simpa [Ne.symm hd] using hmem
          rw [List.replicate_zero, List.nil_append, Ne, List.cons.injEq, not_and]
          intro _
          have hne : inner.1 ≠ List.replicate 0 quote ++ name := ih (Or.inr hname) hinner
          simpa using hne
      | succ surplus =>
          rw [List.replicate_succ, List.cons_append, Ne, List.cons.injEq, not_and]
          exact fun heq => absurd heq hd

/-- A name between quotes is read as itself exactly if it has no quote. -/
theorem scanQuoted_eq_name_iff (hrest : rest.head? ≠ some quote) :
    (∃ behind, scanQuoted quote (name ++ quote :: rest) = some (name, behind)) ↔
      quote ∉ name := by
  constructor
  · rintro ⟨behind, hscanned⟩ hmem
    have hne : name ≠ List.replicate 0 quote ++ name :=
      scanned_ne_of_mem hrest (Or.inr hmem) hscanned
    exact hne rfl
  · intro hfree
    refine ⟨rest, ?_⟩
    have hscanned : scanQuoted quote (escapeQuotes quote name ++ quote :: rest) =
        some (name, rest) := scanQuoted_escapeQuotes hrest
    rwa [escapeQuotes_of_not_mem hfree] at hscanned

end Quoting

/-! ## One token after the other -/

theorem length_dropWhile_le (p : Char → Bool) (cs : List Char) :
    (cs.dropWhile p).length ≤ cs.length :=
  (List.dropWhile_suffix p).length_le

theorem length_scanFraction_le (cs : List Char) : (scanFraction cs).2.length ≤ cs.length := by
  rw [scanFraction.eq_def]
  split
  · exact Nat.le_succ_of_le (length_dropWhile_le _ _)
  · exact Nat.le_refl _

theorem length_scanSign_le (cs : List Char) : (scanSign cs).2.length ≤ cs.length := by
  rw [scanSign.eq_def]
  split <;> simp

theorem length_scanExponent_le (cs : List Char) : (scanExponent cs).2.length ≤ cs.length := by
  rw [scanExponent.eq_def]
  split
  · rename_i cs
    have hsign := length_scanSign_le cs
    have hdigits := length_dropWhile_le Char.isDigit (scanSign cs).2
    simp only [List.length_cons]
    omega
  · exact Nat.le_refl _

theorem length_scanNumber_le {c : Char} {cs : List Char} (h : c.isDigit = true) :
    (scanNumber (c :: cs)).2.length ≤ cs.length := by
  have hdigits := length_dropWhile_le Char.isDigit cs
  have hfraction := length_scanFraction_le (cs.dropWhile Char.isDigit)
  have hexponent := length_scanExponent_le (scanFraction (cs.dropWhile Char.isDigit)).2
  simp only [scanNumber, List.dropWhile_cons, h, if_true]
  omega

theorem length_nextToken_le {c : Char} {cs : List Char} {next : Option Token × List Char}
    (h : nextToken c cs = some next) : next.2.length ≤ cs.length := by
  rw [nextToken] at h
  split at h
  · cases h
    exact Nat.le_refl _
  · split at h
    · obtain ⟨scanned, hscanned, rfl⟩ := Option.map_eq_some_iff.mp h
      exact Nat.le_of_lt (length_scanQuoted_lt hscanned)
    · split at h
      · obtain ⟨scanned, hscanned, rfl⟩ := Option.map_eq_some_iff.mp h
        exact Nat.le_of_lt (length_scanQuoted_lt hscanned)
      · split at h
        · rename_i hdigit
          cases h
          exact length_scanNumber_le hdigit
        · split at h
          · cases h
            exact length_dropWhile_le _ _
          · split at h
            · cases h
              exact length_dropWhile_le _ _
            · split at h
              · cases h
                exact Nat.le_refl _
              · cases h

/-- More fuel than there are characters is not used. -/
theorem tokensWithin_eq_tokenize {fuel : Nat} {cs : List Char} (h : cs.length ≤ fuel) :
    tokensWithin fuel cs = tokenize cs := by
  induction fuel using Nat.strong_induction_on generalizing cs with
  | _ fuel ih =>
      cases cs with
      | nil => simp [tokenize, tokensWithin]
      | cons c cs =>
          cases fuel with
          | zero => simp at h
          | succ fuel =>
              rw [List.length_cons] at h
              rw [tokenize, List.length_cons, tokensWithin, tokensWithin]
              refine Option.bind_congr fun next hnext => ?_
              have hlength := length_nextToken_le hnext
              rw [ih fuel (Nat.lt_succ_self fuel) (by omega),
                ih cs.length (by omega) hlength]

theorem tokenize_nil : tokenize [] = some [] := by
  rw [tokenize, tokensWithin]

theorem tokenize_cons (c : Char) (cs : List Char) : tokenize (c :: cs) =
    (nextToken c cs).bind fun next =>
      (tokenize next.2).map fun tokens => next.1.toList ++ tokens := by
  rw [tokenize, List.length_cons, tokensWithin]
  refine Option.bind_congr fun next hnext => ?_
  rw [tokensWithin_eq_tokenize (length_nextToken_le hnext)]

/-! ## Spelled tokens -/

/-- What a text is put together from. The name between the quotes of an identifier is spelled as
it is, and the quotes in a literal are doubled. -/
inductive Lexeme where
  | space
  | word (name : String)
  | symbol (character : Char)
  | identifier (name : String)
  | text (value : String)
  | number (spelling : String)

/-- The number that a spelling is read as, with or without a minus sign. -/
def readNumber : List Char → Option ℚ
  | '-' :: cs =>
      if cs.head?.any Char.isDigit ∧ (scanNumber cs).2 = [] then some (-(scanNumber cs).1)
      else none
  | cs =>
      if cs.head?.any Char.isDigit ∧ (scanNumber cs).2 = [] then some (scanNumber cs).1
      else none

def numberTokens : List Char → List Token
  | '-' :: cs => [.symbol '-', .number (scanNumber cs).1]
  | cs => [.number (scanNumber cs).1]

namespace Lexeme

def spelling : Lexeme → List Char
  | space => [' ']
  | word name => name.toList
  | symbol character => [character]
  | identifier name => '"' :: (name.toList ++ ['"'])
  | text value => '\'' :: (escapeQuotes '\'' value.toList ++ ['\''])
  | number spelling => spelling.toList

def tokens : Lexeme → List Token
  | space => []
  | word name => [.word name]
  | symbol character => [.symbol character]
  | identifier name => [.identifier name]
  | text value => [.text value]
  | number spelling => numberTokens spelling.toList

def isSeparator : Lexeme → Bool
  | space | symbol _ => true
  | _ => false

def isPunctuation (c : Char) : Bool :=
  c ∈ ['(', ')', ',', ';']

def isWord : List Char → Bool
  | [] => false
  | c :: cs => !c.isDigit && isWordCharacter c && cs.all isWordCharacter

/-- A word, a symbol or a number that is spelled as one. -/
def isWellSpelled : Lexeme → Bool
  | word name => isWord name.toList
  | symbol character => isPunctuation character
  | number spelling => (readNumber spelling.toList).isSome
  | _ => true

/-- No two lexemes run together. -/
def Separated (lexemes : List Lexeme) : Prop :=
  lexemes.IsChain fun lexeme next => lexeme.isSeparator = true ∨ next.isSeparator = true

instance (lexemes : List Lexeme) : Decidable (Separated lexemes) :=
  inferInstanceAs (Decidable (lexemes.IsChain _))

/-- The names do not end the identifiers that they are spelled in. -/
def QuoteFree : Lexeme → Prop
  | identifier name => '"' ∉ name.toList
  | _ => True

/-- Nothing, or a text that begins with a space or with punctuation. -/
def Delimited (cs : List Char) : Prop :=
  ∀ c ∈ cs.head?, c = ' ' ∨ isPunctuation c = true

theorem eq_of_isPunctuation {c : Char} (h : isPunctuation c = true) :
    c = '(' ∨ c = ')' ∨ c = ',' ∨ c = ';' := by
  simpa [isPunctuation] using h

variable {cs rest : List Char}

/-- A test that delimiters do not pass stops before them. -/
theorem Delimited.head? (h : Delimited rest) (p : Char → Bool)
    (hp : (!p ' ' && !p '(' && !p ')' && !p ',' && !p ';') = true) :
    ∀ c ∈ rest.head?, p c = false := by
  simp only [Bool.and_eq_true, Bool.not_eq_true'] at hp
  intro c hc
  rcases h c hc with rfl | hpunctuation
  · exact hp.1.1.1.1
  · rcases eq_of_isPunctuation hpunctuation with rfl | rfl | rfl | rfl
    · exact hp.1.1.1.2
    · exact hp.1.1.2
    · exact hp.1.2
    · exact hp.2

theorem takeWhile_append_of_head? {p : Char → Bool} (h : ∀ c ∈ rest.head?, p c = false) :
    (cs ++ rest).takeWhile p = cs.takeWhile p := by
  induction cs with
  | nil =>
      cases rest with
      | nil => rfl
      | cons c rest => simp [h c rfl]
  | cons c cs ih =>
      rw [List.cons_append, List.takeWhile_cons, List.takeWhile_cons, ih]

theorem dropWhile_append_of_head? {p : Char → Bool} (h : ∀ c ∈ rest.head?, p c = false) :
    (cs ++ rest).dropWhile p = cs.dropWhile p ++ rest := by
  induction cs with
  | nil =>
      cases rest with
      | nil => rfl
      | cons c rest => simp [h c rfl]
  | cons c cs ih =>
      rw [List.cons_append, List.dropWhile_cons, List.dropWhile_cons, ih]
      split
      · rfl
      · rfl

theorem scanFraction_of_head? (h : ∀ c ∈ cs.head?, (c == '.') = false) :
    scanFraction cs = ([], cs) := by
  cases cs with
  | nil => rfl
  | cons c cs =>
      rw [scanFraction]
      rintro cs' heq
      cases heq
      exact absurd (h '.' rfl) (by decide)

theorem scanFraction_append (h : Delimited rest) : scanFraction (cs ++ rest) =
    ((scanFraction cs).1, (scanFraction cs).2 ++ rest) := by
  have hdigit : ∀ c ∈ rest.head?, c.isDigit = false := h.head? Char.isDigit (by decide)
  cases cs with
  | nil => exact scanFraction_of_head? (h.head? (· == '.') (by decide))
  | cons c cs =>
      by_cases hc : c = '.'
      · rw [hc, List.cons_append, scanFraction, scanFraction, takeWhile_append_of_head? hdigit,
          dropWhile_append_of_head? hdigit]
      · have hhead : (c == '.') = false := by simpa using hc
        rw [scanFraction_of_head? (by simpa using hhead),
          scanFraction_of_head? (by simpa using hhead)]

theorem scanSign_of_head? (hplus : ∀ c ∈ cs.head?, (c == '+') = false)
    (hminus : ∀ c ∈ cs.head?, (c == '-') = false) : scanSign cs = (1, cs) := by
  cases cs with
  | nil => rfl
  | cons c cs =>
      rw [scanSign]
      · rintro cs' heq
        cases heq
        exact absurd (hplus '+' rfl) (by decide)
      · rintro cs' heq
        cases heq
        exact absurd (hminus '-' rfl) (by decide)

theorem scanSign_append (h : Delimited rest) : scanSign (cs ++ rest) =
    ((scanSign cs).1, (scanSign cs).2 ++ rest) := by
  cases cs with
  | nil => exact scanSign_of_head? (h.head? (· == '+') (by decide)) (h.head? (· == '-') (by decide))
  | cons c cs =>
      by_cases hplus : c = '+'
      · rw [hplus, List.cons_append, scanSign, scanSign]
      · by_cases hminus : c = '-'
        · rw [hminus, List.cons_append, scanSign, scanSign]
        · rw [scanSign_of_head? (by simpa using hplus) (by simpa using hminus),
            scanSign_of_head? (by simpa using hplus) (by simpa using hminus)]

theorem scanExponent_of_head? (h : ∀ c ∈ cs.head?, (c == 'e') = false) :
    scanExponent cs = (0, cs) := by
  cases cs with
  | nil => rfl
  | cons c cs =>
      rw [scanExponent]
      rintro cs' heq
      cases heq
      exact absurd (h 'e' rfl) (by decide)

theorem scanExponent_append (h : Delimited rest) : scanExponent (cs ++ rest) =
    ((scanExponent cs).1, (scanExponent cs).2 ++ rest) := by
  have hdigit : ∀ c ∈ rest.head?, c.isDigit = false := h.head? Char.isDigit (by decide)
  cases cs with
  | nil => exact scanExponent_of_head? (h.head? (· == 'e') (by decide))
  | cons c cs =>
      by_cases hc : c = 'e'
      · rw [hc, List.cons_append, scanExponent, scanExponent, scanSign_append h,
          takeWhile_append_of_head? hdigit, dropWhile_append_of_head? hdigit]
      · rw [scanExponent_of_head? (by simpa using hc), scanExponent_of_head? (by simpa using hc)]

theorem scanNumber_append (h : Delimited rest) : scanNumber (cs ++ rest) =
    ((scanNumber cs).1, (scanNumber cs).2 ++ rest) := by
  have hdigit : ∀ c ∈ rest.head?, c.isDigit = false := h.head? Char.isDigit (by decide)
  simp only [scanNumber, takeWhile_append_of_head? hdigit, dropWhile_append_of_head? hdigit,
    scanFraction_append h, scanExponent_append h]

/-! ## Reading what was spelled -/

theorem nextToken_space : nextToken ' ' rest = some (none, rest) := rfl

theorem nextToken_punctuation {c : Char} (h : isPunctuation c = true) :
    nextToken c rest = some (some (.symbol c), rest) := by
  rcases eq_of_isPunctuation h with rfl | rfl | rfl | rfl <;> rfl

theorem nextToken_identifier : nextToken '"' rest = (scanQuoted '"' rest).map fun scanned =>
    (some (.identifier (.ofList scanned.1)), scanned.2) := rfl

theorem nextToken_text : nextToken '\'' rest = (scanQuoted '\'' rest).map fun scanned =>
    (some (.text (.ofList scanned.1)), scanned.2) := rfl

/-- Characters of words and digits are none of the others. -/
theorem isSpace_eq_false {c : Char} (h : isWordCharacter c = true) :
    isSpace c = false ∧ c ≠ '"' ∧ c ≠ '\'' := by
  refine ⟨?_, ?_, ?_⟩
  · by_contra hspace
    simp only [isSpace, Bool.not_eq_false, Bool.or_eq_true, decide_eq_true_eq] at hspace
    rcases hspace with (rfl | rfl) | rfl <;> exact absurd h (by decide)
  · rintro rfl
    exact absurd h (by decide)
  · rintro rfl
    exact absurd h (by decide)

theorem nextToken_word {c : Char} (hdigit : c.isDigit = false) (h : isWordCharacter c = true) :
    nextToken c rest = some (some (.word (.ofList (c :: rest.takeWhile isWordCharacter))),
      rest.dropWhile isWordCharacter) := by
  obtain ⟨hspace, hidentifier, htext⟩ := isSpace_eq_false h
  rw [nextToken, if_neg (by simp [hspace]), if_neg hidentifier, if_neg htext,
    if_neg (by simp [hdigit]), if_pos h]

theorem nextToken_digit {c : Char} (hdigit : c.isDigit = true) : nextToken c rest =
    some (some (.number (scanNumber (c :: rest)).1), (scanNumber (c :: rest)).2) := by
  have hword : isWordCharacter c = true := by simp [isWordCharacter, Char.isAlphanum, hdigit]
  obtain ⟨hspace, hidentifier, htext⟩ := isSpace_eq_false hword
  rw [nextToken, if_neg (by simp [hspace]), if_neg hidentifier, if_neg htext, if_pos hdigit]

/-- A minus sign that does not begin a comment. -/
theorem nextToken_minus (h : rest.head? ≠ some '-') :
    nextToken '-' rest = some (some (.symbol '-'), rest) := by
  rw [nextToken, if_neg (by decide), if_neg (by decide), if_neg (by decide), if_neg (by decide),
    if_neg (by decide), if_neg (fun hcomment => h hcomment.2), if_pos (by decide)]

theorem tokenize_of_nextToken {c : Char} {token : Option Token} {behind : List Char}
    (h : nextToken c cs = some (token, behind)) :
    tokenize (c :: cs) = (tokenize behind).map fun tokens => token.toList ++ tokens := by
  rw [tokenize_cons, h, Option.bind_some]

theorem tokenize_digits (hdigit : cs.head?.any Char.isDigit = true)
    (hwhole : (scanNumber cs).2 = []) (h : Delimited rest) : tokenize (cs ++ rest) =
      (tokenize rest).map fun tokens => .number (scanNumber cs).1 :: tokens := by
  cases cs with
  | nil => cases hdigit
  | cons c cs =>
      have hnumber : scanNumber (c :: (cs ++ rest)) = ((scanNumber (c :: cs)).1, rest) := by
        rw [← List.cons_append, scanNumber_append h, hwhole, List.nil_append]
      rw [List.cons_append, tokenize_of_nextToken (nextToken_digit hdigit), hnumber]
      rfl

/-- A number without a minus sign. -/
theorem readNumber_of_head? (h : cs.head? ≠ some '-') : readNumber cs =
      if cs.head?.any Char.isDigit ∧ (scanNumber cs).2 = [] then some (scanNumber cs).1
      else none := by
  rw [readNumber]
  rintro cs' rfl
  exact h rfl

theorem numberTokens_of_head? (h : cs.head? ≠ some '-') :
    numberTokens cs = [.number (scanNumber cs).1] := by
  rw [numberTokens]
  rintro cs' rfl
  exact h rfl

theorem tokenize_number (hnumber : (readNumber cs).isSome = true) (h : Delimited rest) :
    tokenize (cs ++ rest) = (tokenize rest).map fun tokens => numberTokens cs ++ tokens := by
  by_cases hminus : cs.head? = some '-'
  · obtain ⟨ds, rfl⟩ := List.head?_eq_some_iff.mp hminus
    rw [readNumber, Option.isSome_ite] at hnumber
    have hhead : (ds ++ rest).head? ≠ some '-' := by
      cases ds with
      | nil => simp at hnumber
      | cons d ds =>
          rintro hd
          obtain rfl : d = '-' := by simpa using hd
          cases hnumber.1
    rw [List.cons_append, tokenize_of_nextToken (nextToken_minus hhead),
      tokenize_digits hnumber.1 hnumber.2 h, Option.map_map, numberTokens]
    rfl
  · rw [readNumber_of_head? hminus, Option.isSome_ite] at hnumber
    rw [tokenize_digits hnumber.1 hnumber.2 h, numberTokens_of_head? hminus]
    rfl

theorem tokenize_quotedName {name : List Char} (hfree : '"' ∉ name)
    (h : rest.head? ≠ some '"') : tokenize ('"' :: (name ++ '"' :: rest)) =
      (tokenize rest).map fun tokens => .identifier (.ofList name) :: tokens := by
  have hscanned : scanQuoted '"' (name ++ '"' :: rest) = some (name, rest) := by
    rw [← escapeQuotes_of_not_mem hfree, scanQuoted_escapeQuotes h]
    rw [escapeQuotes_of_not_mem hfree]
  rw [tokenize_cons, nextToken_identifier, hscanned]
  rfl

theorem tokenize_quotedText {value : List Char} (h : rest.head? ≠ some '\'') :
    tokenize ('\'' :: (escapeQuotes '\'' value ++ '\'' :: rest)) =
      (tokenize rest).map fun tokens => .text (.ofList value) :: tokens := by
  rw [tokenize_cons, nextToken_text, scanQuoted_escapeQuotes h]
  rfl

theorem tokenize_word {c : Char} (hdigit : c.isDigit = false) (hc : isWordCharacter c = true)
    (hcs : ∀ d ∈ cs, isWordCharacter d = true) (h : Delimited rest) :
    tokenize (c :: (cs ++ rest)) =
      (tokenize rest).map fun tokens => .word (.ofList (c :: cs)) :: tokens := by
  have hstop : ∀ c ∈ rest.head?, isWordCharacter c = false :=
    h.head? isWordCharacter (by decide)
  rw [tokenize_of_nextToken (nextToken_word hdigit hc), takeWhile_append_of_head? hstop,
    dropWhile_append_of_head? hstop, List.takeWhile_eq_self_iff.mpr hcs,
    List.dropWhile_eq_nil_iff.mpr hcs, List.nil_append]
  rfl

theorem Delimited.head?_ne {c : Char} (h : Delimited rest)
    (hc : (!(' ' == c) && !('(' == c) && !(')' == c) && !(',' == c) && !(';' == c)) = true) :
    rest.head? ≠ some c := by
  intro hhead
  have hne : (c == c) = false := h.head? (· == c) hc c hhead
  simp at hne

/-- A lexeme is read as its tokens. -/
theorem tokenize_spelling {lexeme : Lexeme} (hspelled : lexeme.isWellSpelled = true)
    (hfree : lexeme.QuoteFree) (h : lexeme.isSeparator = true ∨ Delimited rest) :
    tokenize (lexeme.spelling ++ rest) =
      (tokenize rest).map fun tokens => lexeme.tokens ++ tokens := by
  cases lexeme with
  | space => exact tokenize_of_nextToken nextToken_space
  | symbol c => exact tokenize_of_nextToken (nextToken_punctuation hspelled)
  | word name =>
      have hrest : Delimited rest := h.resolve_left (by simp [isSeparator])
      rw [isWellSpelled] at hspelled
      cases hname : name.toList with
      | nil => simp [hname, isWord] at hspelled
      | cons c cs =>
          simp only [hname, isWord, Bool.and_eq_true, Bool.not_eq_true', List.all_eq_true]
            at hspelled
          rw [spelling, tokens, hname, List.cons_append,
            tokenize_word hspelled.1.1 hspelled.1.2 hspelled.2 hrest, ← hname,
            String.ofList_toList]
          rfl
  | identifier name =>
      have hrest : Delimited rest := h.resolve_left (by simp [isSeparator])
      rw [spelling, tokens, List.cons_append, List.append_assoc, List.singleton_append,
        tokenize_quotedName hfree (hrest.head?_ne (by decide)), String.ofList_toList]
      rfl
  | text value =>
      have hrest : Delimited rest := h.resolve_left (by simp [isSeparator])
      rw [spelling, tokens, List.cons_append, List.append_assoc, List.singleton_append,
        tokenize_quotedText (hrest.head?_ne (by decide)), String.ofList_toList]
      rfl
  | number number =>
      exact tokenize_number hspelled (h.resolve_left (by simp [isSeparator]))

/-! ## Texts -/

def spell (lexemes : List Lexeme) : List Char :=
  lexemes.flatMap spelling

def identifier? : Lexeme → Option String
  | identifier name => some name
  | _ => none

variable {lexemes : List Lexeme}

theorem spell_nil : spell [] = [] := rfl

theorem spell_cons (lexeme : Lexeme) (lexemes : List Lexeme) :
    spell (lexeme :: lexemes) = lexeme.spelling ++ spell lexemes :=
  List.flatMap_cons

theorem spell_append (lexemes lexemes' : List Lexeme) :
    spell (lexemes ++ lexemes') = spell lexemes ++ spell lexemes' :=
  List.flatMap_append

/-- Behind a lexeme that is no separator comes a delimiter. -/
theorem delimited_spell {lexeme : Lexeme} (hsep : Separated (lexeme :: lexemes))
    (hspelled : ∀ lexeme ∈ lexemes, lexeme.isWellSpelled = true) :
    lexeme.isSeparator = true ∨ Delimited (spell lexemes) := by
  cases lexemes with
  | nil => exact Or.inr (by simp [Delimited, spell])
  | cons next lexemes =>
      refine (List.isChain_cons_cons.mp hsep).1.imp_right fun hnext c hc => ?_
      rw [spell_cons] at hc
      cases next with
      | space =>
          obtain rfl : ' ' = c := by simpa [spelling] using hc
          exact Or.inl rfl
      | symbol character =>
          obtain rfl : character = c := by simpa [spelling] using hc
          exact Or.inr (hspelled _ List.mem_cons_self)
      | _ => cases hnext

theorem tokenize_spell_cons {lexeme : Lexeme} (hsep : Separated (lexeme :: lexemes))
    (hspelled : ∀ other ∈ lexeme :: lexemes, other.isWellSpelled = true) (hfree : lexeme.QuoteFree) :
    tokenize (spell (lexeme :: lexemes)) =
      (tokenize (spell lexemes)).map fun tokens => lexeme.tokens ++ tokens := by
  rw [List.forall_mem_cons] at hspelled
  rw [spell_cons]
  exact tokenize_spelling hspelled.1 hfree (delimited_spell hsep hspelled.2)

/-- A text of lexemes is read as their tokens. -/
theorem tokenize_spell (hsep : Separated lexemes)
    (hspelled : ∀ lexeme ∈ lexemes, lexeme.isWellSpelled = true)
    (hfree : ∀ lexeme ∈ lexemes, lexeme.QuoteFree) :
    tokenize (spell lexemes) = some (lexemes.flatMap tokens) := by
  induction lexemes with
  | nil => exact tokenize_nil
  | cons lexeme lexemes ih =>
      rw [tokenize_spell_cons hsep hspelled (hfree _ List.mem_cons_self),
        ih hsep.tail (fun other hother => hspelled other (List.mem_cons_of_mem _ hother))
          fun other hother => hfree other (List.mem_cons_of_mem _ hother)]
      rfl

end Lexeme

def Token.identifier? : Token → Option String
  | identifier name => some name
  | _ => none

def identifiers (tokens : List Token) : List String :=
  tokens.filterMap Token.identifier?

namespace Lexeme

variable {lexemes : List Lexeme} {tokens : List Token}

theorem identifiers_tokens (lexeme : Lexeme) :
    identifiers lexeme.tokens = lexeme.identifier?.toList := by
  cases lexeme with
  | number spelling =>
      by_cases hminus : spelling.toList.head? = some '-'
      · obtain ⟨ds, hspelling⟩ := List.head?_eq_some_iff.mp hminus
        rw [Lexeme.tokens, hspelling]
        rfl
      · rw [Lexeme.tokens, numberTokens_of_head? hminus]
        rfl
  | _ => rfl

theorem identifiers_flatMap_tokens (lexemes : List Lexeme) :
    identifiers (lexemes.flatMap Lexeme.tokens) = lexemes.filterMap identifier? := by
  induction lexemes with
  | nil => rfl
  | cons lexeme lexemes ih =>
      rw [List.flatMap_cons, identifiers, List.filterMap_append, ← identifiers, ← identifiers, ih,
        identifiers_tokens, List.filterMap_cons]
      cases lexeme.identifier? <;> rfl

/-- A first identifier that is read as its name has a name without a quote. -/
theorem quoteFree_of_tokenize {name : String} (h : Separated (identifier name :: lexemes))
    (hspelled : ∀ lexeme ∈ lexemes, lexeme.isWellSpelled = true)
    (htokens : tokenize (spell (identifier name :: lexemes)) = some tokens)
    (hname : (identifiers tokens).head? = some name) : '"' ∉ name.toList := by
  have hrest : (spell lexemes).head? ≠ some '"' :=
    ((delimited_spell h hspelled).resolve_left (by simp [isSeparator])).head?_ne (by decide)
  rw [spell_cons, spelling, List.cons_append, List.append_assoc, List.singleton_append,
    tokenize_cons, nextToken_identifier] at htokens
  obtain ⟨next, hnext, htokens⟩ := Option.bind_eq_some_iff.mp htokens
  obtain ⟨scanned, hscanned, rfl⟩ := Option.map_eq_some_iff.mp hnext
  obtain ⟨others, _, rfl⟩ := Option.map_eq_some_iff.mp htokens
  have hscannedName : scanned.1 = name.toList := by
    have hread : String.ofList scanned.1 = name := by
      simpa [identifiers, Token.identifier?] using hname
    rw [← hread, String.toList_ofList]
  refine (scanQuoted_eq_name_iff hrest).mp ⟨scanned.2, ?_⟩
  rw [hscanned, ← hscannedName]

theorem forall_quoteFree_iff : (∀ lexeme ∈ lexemes, lexeme.QuoteFree) ↔
    ∀ name ∈ lexemes.filterMap identifier?, '"' ∉ name.toList := by
  constructor
  · intro h name hname
    obtain ⟨lexeme, hlexeme, hidentifier⟩ := List.mem_filterMap.mp hname
    cases lexeme with
    | identifier other =>
        cases hidentifier
        exact h _ hlexeme
    | _ => cases hidentifier
  · intro h lexeme hlexeme
    cases lexeme with
    | identifier name => exact h name (List.mem_filterMap.mpr ⟨_, hlexeme, rfl⟩)
    | _ => trivial

/-- The identifiers of a text are read as their names exactly if no name has a quote. -/
theorem identifiers_eq_iff (hsep : Separated lexemes)
    (hspelled : ∀ lexeme ∈ lexemes, lexeme.isWellSpelled = true) :
    (∃ tokens, tokenize (spell lexemes) = some tokens ∧
      identifiers tokens = lexemes.filterMap identifier?) ↔
      ∀ lexeme ∈ lexemes, lexeme.QuoteFree := by
  constructor
  · rintro ⟨tokens, htokens, hnames⟩
    induction lexemes generalizing tokens with
    | nil => simp
    | cons lexeme lexemes ih =>
        have hfree : lexeme.QuoteFree := by
          cases lexeme with
          | identifier name =>
              rw [List.forall_mem_cons] at hspelled
              refine quoteFree_of_tokenize hsep hspelled.2 htokens ?_
              rw [hnames, List.filterMap_cons]
              rfl
          | _ => trivial
        rw [tokenize_spell_cons hsep hspelled hfree] at htokens
        obtain ⟨others, hothers, rfl⟩ := Option.map_eq_some_iff.mp htokens
        rw [List.forall_mem_cons] at hspelled ⊢
        refine ⟨hfree, ih hsep.tail hspelled.2 others hothers ?_⟩
        rw [identifiers, List.filterMap_append, ← identifiers, ← identifiers, identifiers_tokens,
          List.filterMap_cons] at hnames
        cases hidentifier : lexeme.identifier? with
        | none => simpa [hidentifier] using hnames
        | some name => simpa [hidentifier] using hnames
  · intro hfree
    exact ⟨_, tokenize_spell hsep hspelled hfree, identifiers_flatMap_tokens lexemes⟩

/-! ## Single statements -/

/-- Only symbols are read as symbols, apart from the signs of numbers. -/
theorem eq_symbol_of_mem_tokens {lexeme : Lexeme} {c : Char} (hc : c ≠ '-')
    (h : Token.symbol c ∈ lexeme.tokens) : lexeme = .symbol c := by
  cases lexeme with
  | symbol character =>
      obtain rfl : c = character := by simpa [Lexeme.tokens] using h
      rfl
  | number spelling =>
      rw [Lexeme.tokens, numberTokens.eq_def] at h
      split at h <;> simp_all
  | _ => simp [Lexeme.tokens] at h

/-- A semicolon is only read at the end if none is spelled before. -/
theorem not_mem_dropLast_tokens {init last : List Lexeme} (h : symbol ';' ∉ init)
    (hlast : last = [] ∨ last = [symbol ';']) :
    Token.symbol ';' ∉ ((init ++ last).flatMap Lexeme.tokens).dropLast := by
  have hinit : Token.symbol ';' ∉ init.flatMap Lexeme.tokens := by
    intro hmem
    obtain ⟨lexeme, hlexeme, htoken⟩ := List.mem_flatMap.mp hmem
    exact h (eq_symbol_of_mem_tokens (by decide) htoken ▸ hlexeme)
  rw [List.flatMap_append]
  rcases hlast with rfl | rfl
  · rw [List.flatMap_nil, List.append_nil]
    exact fun hmem => hinit (List.dropLast_subset _ hmem)
  · rw [List.flatMap_singleton, Lexeme.tokens, List.dropLast_concat]
    exact hinit

/-- A text that is a single statement with the given identifiers. -/
def IsStatement (text : List Char) (names : List String) : Prop :=
  ∃ tokens, tokenize text = some tokens ∧ .symbol ';' ∉ tokens.dropLast ∧
    identifiers tokens = names

theorem isStatement_spell_iff {init last : List Lexeme} (hlexemes : lexemes = init ++ last)
    (h : symbol ';' ∉ init) (hlast : last = [] ∨ last = [symbol ';']) (hsep : Separated lexemes)
    (hspelled : ∀ lexeme ∈ lexemes, lexeme.isWellSpelled = true) :
    IsStatement (spell lexemes) (lexemes.filterMap identifier?) ↔
      ∀ name ∈ lexemes.filterMap identifier?, '"' ∉ name.toList := by
  rw [← forall_quoteFree_iff, ← identifiers_eq_iff hsep hspelled]
  constructor
  · rintro ⟨tokens, htokens, _, hnames⟩
    exact ⟨tokens, htokens, hnames⟩
  · intro hread
    have hfree := (identifiers_eq_iff hsep hspelled).mp hread
    exact ⟨_, tokenize_spell hsep hspelled hfree, hlexemes ▸ not_mem_dropLast_tokens h hlast,
      identifiers_flatMap_tokens _⟩

end Lexeme

end Jayvee.Foundation.Sql
