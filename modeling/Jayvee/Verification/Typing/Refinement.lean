import Jayvee.Verification.Typing.TypingRules

/-! # Typing under refined declarations

What becomes of the type of an expression when variables of primitive value types are
redeclared with atomic value types below these. -/

namespace Jayvee

open Foundation ValueType

/-! ## Redeclared variables -/

namespace Referencable

/-- Only properties and ports are declared with a value type. -/
def declaredType : Referencable → Option ValueTypeReference
  | constraintDefinition _ => none
  | transformDefinition _ => none
  | blockTypeProperty _ valueType => some valueType
  | transformPortDefinition port => some port.valueType

def declareAs (valueType : ValueTypeReference) : Referencable → Referencable
  | blockTypeProperty name _ => blockTypeProperty name valueType
  | transformPortDefinition port => transformPortDefinition { port with valueType := valueType }
  | definition => definition

end Referencable

/-- `U` is an atomic value type whose supertypes end in the primitive value type `T`. -/
structure RefinesType (ast : Ast) (T U : ValueType) : Prop where
  primitive : T ∈ [Text, Boolean, Integer, Decimal]
  atomic : ∃ astNode, U = .atomic astNode
  root : U.getPrimitive ast = .ok (some T)

def Refines (ast : Ast) (old new : ValueTypeReference) : Prop :=
  ∃ T U, wrap ast (some old) = .ok (some T) ∧ wrap ast (some new) = .ok (some U) ∧
    RefinesType ast T U

/-- Value types for some of the variables, each refining the one the variable is declared with.
`container` declares the value keyword. -/
structure Redeclaration (ast : Ast) (container : Option ValueTypeReference) where
  reference : Referencable → Option ValueTypeReference
  valueKeyword : Option ValueTypeReference
  reference_refines : ∀ r new, reference r = some new →
    ∃ old, r.declaredType = some old ∧ Refines ast old new
  valueKeyword_refines : ∀ new, valueKeyword = some new →
    ∃ old, container = some old ∧ Refines ast old new

namespace Redeclaration

variable {ast : Ast} {container : Option ValueTypeReference}

def newContainer (ρ : Redeclaration ast container) : Option ValueTypeReference :=
  ρ.valueKeyword.or container

def redeclare (ρ : Redeclaration ast container) (r : Referencable) : Referencable :=
  match ρ.reference r with
  | none => r
  | some new => r.declareAs new

mutual

/-- The same expression over the redeclared variables. -/
def apply (ρ : Redeclaration ast container) : Expression → Expression
  | .referenceLiteral value => .referenceLiteral (value.map ρ.redeclare)
  | .collectionLiteral values => .collectionLiteral (ρ.applyToList values)
  | .unaryExpression operator e => .unaryExpression operator (ρ.apply e)
  | .binaryExpression operator l r => .binaryExpression operator (ρ.apply l) (ρ.apply r)
  | .ternaryExpression operator x y z =>
      .ternaryExpression operator (ρ.apply x) (ρ.apply y) (ρ.apply z)
  | .textLiteral value => .textLiteral value
  | .booleanLiteral value => .booleanLiteral value
  | .numericLiteral value => .numericLiteral value
  | .cellRangeLiteral literal => .cellRangeLiteral literal
  | .regexLiteral value => .regexLiteral value
  | .valuetypeAssignmentLiteral value => .valuetypeAssignmentLiteral value
  | .valueKeywordLiteral lengthAccess => .valueKeywordLiteral lengthAccess

def applyToList (ρ : Redeclaration ast container) : List Expression → List Expression
  | [] => []
  | e :: es => ρ.apply e :: ρ.applyToList es

end

end Redeclaration

/-! ## Arithmetic -/

/-- The operands of sums, differences and products, seen through signs. -/
def Expression.arithmeticOperands : Expression → List Expression
  | .unaryExpression operator e =>
      if operator.isSign then e.arithmeticOperands else [.unaryExpression operator e]
  | .binaryExpression operator l r =>
      if operator.isBasicArithmetic then l.arithmeticOperands ++ r.arithmeticOperands
      else [.binaryExpression operator l r]
  | e => [e]

theorem Expression.arithmeticOperands_length_pos (e : Expression) :
    0 < e.arithmeticOperands.length := by
  fun_induction Expression.arithmeticOperands e with
  | case1 operator e hsign ih => exact ih
  | case2 operator e hsign => simp
  | case3 operator l r harithmetic ihl ihr => simp; omega
  | case4 operator l r harithmetic => simp
  | case5 e => simp

def isDeclaredInteger (ast : Ast) (valueType : Option ValueTypeReference) : Bool :=
  match wrap ast valueType with
  | .ok (some (.primitive .integer)) => true
  | _ => false

/-- An operand that is an integer by its form, or by the declaration of a variable. -/
def isIntegerOperand (ast : Ast) (container : Option ValueTypeReference) : Expression → Bool
  | .numericLiteral value => value.isInteger
  | .valueKeywordLiteral lengthAccess => lengthAccess || isDeclaredInteger ast container
  | .referenceLiteral value => isDeclaredInteger ast (value.bind Referencable.declaredType)
  | .unaryExpression operator _ => [.floor, .ceil, .round, .asInteger].contains operator
  | _ => false

namespace Redeclaration

variable {ast : Ast} {container : Option ValueTypeReference}

def isRedeclared (ρ : Redeclaration ast container) : Expression → Bool
  | .referenceLiteral (some r) => (ρ.reference r).isSome
  | .valueKeywordLiteral false => ρ.valueKeyword.isSome
  | _ => false

/-- The expression is a redeclared variable, possibly behind signs. -/
def isRefined (ρ : Redeclaration ast container) (e : Expression) : Bool :=
  match e.arithmeticOperands with
  | [operand] => ρ.isRedeclared operand
  | _ => false

/-- The expression computes with integers, one of which is a redeclared variable. -/
def isWidened (ρ : Redeclaration ast container) (e : Expression) : Bool :=
  2 ≤ e.arithmeticOperands.length && e.arithmeticOperands.all (isIntegerOperand ast container) &&
    e.arithmeticOperands.any ρ.isRedeclared

/-- No operator that asks for a primitive value type itself gets a redeclared variable. -/
def supportsOperands (ρ : Redeclaration ast container) : Expression → Bool
  | .unaryExpression _ e => ρ.supportsOperands e
  | .binaryExpression operator l r =>
      ρ.supportsOperands l && ρ.supportsOperands r &&
        !(operator.operandTypes.isNone && ρ.isRefined l) && !(operator.isEquality && ρ.isRefined r)
  | .ternaryExpression _ x y z =>
      ρ.supportsOperands x && ρ.supportsOperands y && ρ.supportsOperands z
  | _ => true

end Redeclaration

/-! ## Integers -/

section Integers

variable {ast : Ast} {container : Option ValueTypeReference} {e : Expression} {R T : ValueType}

theorem isDeclaredInteger_iff {valueType : Option ValueTypeReference}
    (hT : wrap ast valueType = .ok (some T)) :
    isDeclaredInteger ast valueType = true ↔ T = Integer := by
  rw [isDeclaredInteger, hT]
  cases T with
  | primitive kind => cases kind <;> simp
  | _ => simp

theorem isDeclaredInteger_of_reference {value : Option Referencable}
    (hT : inferTypeFromReferenceLiteral ast value = .ok (some T)) :
    isDeclaredInteger ast (value.bind Referencable.declaredType) = true ↔ T = Integer := by
  have hundeclared : isDeclaredInteger ast none = false := rfl
  cases value with
  | none => cases hT
  | some r =>
      cases r with
      | constraintDefinition id =>
          cases hT
          simp [Referencable.declaredType, hundeclared]
      | transformDefinition id =>
          cases hT
          simp [Referencable.declaredType, hundeclared]
      | blockTypeProperty name valueType => exact isDeclaredInteger_iff hT
      | transformPortDefinition port => exact isDeclaredInteger_iff hT

theorem BinaryRule.eq_resultType {operator : BinaryExpressionOperator} {S T : ValueType}
    (h : BinaryRule ast operator S T R) : R = operator.resultType S T := by
  cases h with
  | operands hoperator hS hT => rfl
  | equality hoperator hS hT hcompatible => cases operator <;> first | rfl | cases hoperator
  | membership hS hE hcompatible => rfl

theorem resultType_eq_integer_iff {operator : BinaryExpressionOperator} {S T : ValueType} :
    operator.resultType S T = Integer ↔
      operator.isBasicArithmetic = true ∧ S = Integer ∧ T = Integer := by
  cases operator <;> simp [BinaryExpressionOperator.resultType,
    BinaryExpressionOperator.isBasicArithmetic]

/-- Only the result of basic arithmetic depends on the types of the operands. -/
theorem resultType_eq_of_not_arithmetic {operator : BinaryExpressionOperator}
    (harithmetic : operator.isBasicArithmetic = false) (S T S' T' : ValueType) :
    operator.resultType S' T' = operator.resultType S T := by
  cases operator <;> first | rfl | cases harithmetic

/-- An expression is an integer if everything that it computes with is one. -/
theorem Infers.eq_integer_iff (h : Infers ast container e R) :
    R = Integer ↔ ∀ operand ∈ e.arithmeticOperands, isIntegerOperand ast container operand := by
  induction h with
  | @literal e T hT =>
      cases e <;> cases hT <;> simp [Expression.arithmeticOperands, isIntegerOperand]
  | valueKeyword hT =>
      simp [Expression.arithmeticOperands, isIntegerOperand, isDeclaredInteger_iff hT]
  | valueLength hT hlength => simp [Expression.arithmeticOperands, isIntegerOperand]
  | reference hT =>
      simp [Expression.arithmeticOperands, isIntegerOperand, isDeclaredInteger_of_reference hT]
  | @unary operator e S operand hS ih =>
      cases operator with
      | plus => exact ih
      | minus => exact ih
      | _ => simp [Expression.arithmeticOperands, isIntegerOperand,
          UnaryExpressionOperator.resultType, UnaryExpressionOperator.isSign]
  | @binary operator l r S T R left right rule ihleft ihright =>
      rw [rule.eq_resultType, resultType_eq_integer_iff, Expression.arithmeticOperands]
      cases operator.isBasicArithmetic with
      | true => simp [ihleft, ihright, or_imp, forall_and]
      | false => simp [isIntegerOperand]
  | replace first second third hS hT hU => simp [Expression.arithmeticOperands, isIntegerOperand]

end Integers

/-! ## What the type becomes -/

section Types

variable {ast : Ast} {T U S : ValueType}

theorem RefinesType.isConvertibleTo (h : RefinesType ast T U) :
    U.isConvertibleTo ast T = .ok true := by
  have hself : ∀ V ∈ [Text, Boolean, Integer, Decimal], V.getPrimitiveOwn = some (some V) := by
    simp [getPrimitiveOwn]
  have hatomic : ∀ astNode, isConvertibleToOwn T (.atomic astNode) = none := by
    intro astNode
    have hT := h.primitive
    simp only [List.mem_cons, List.not_mem_nil, or_false] at hT
    rcases hT with rfl | rfl | rfl | rfl <;> rfl
  exact askSupertypes_of_root hatomic h.root (own_self (hself T h.primitive))

theorem RefinesType.not_primitive (h : RefinesType ast T U) (kind : PrimitiveValueType) :
    U ≠ .primitive kind := by
  obtain ⟨astNode, rfl⟩ := h.atomic
  simp

/-- What can be compared with an integer can be compared with a decimal. -/
theorem Compatible.widen (hT : T.getPrimitiveOwn = some (some T))
    (h : Compatible ast Integer T) : Compatible ast Decimal T := by
  rcases h with h | h
  · rcases own_primitive_iff.mp ((isConvertibleTo_iff_own rfl).mp h) with rfl | ⟨_, rfl⟩
    · exact .inr rfl
    · exact .inr rfl
  · exact .inr (isConvertibleTo_trans h rfl)

theorem Compatible.symm (h : Compatible ast T U) : Compatible ast U T :=
  Or.symm h

end Types

namespace Redeclaration

variable {ast : Ast} {container : Option ValueTypeReference}

/-- An expression of type `R` has type `R'` over the redeclared variables. -/
structure Becomes (ρ : Redeclaration ast container) (e : Expression) (R R' : ValueType) :
    Prop where
  refined : ρ.isRefined e = true → RefinesType ast R R'
  widened : ρ.isWidened e = true → R = Integer ∧ R' = Decimal
  same : ρ.isRefined e = false → ρ.isWidened e = false → R' = R

variable {ρ : Redeclaration ast container} {e l r : Expression} {R R' S S' T T' : ValueType}

/-- An expression that has a type of its own, whatever its operands are, keeps it. -/
theorem becomes_self (hoperands : e.arithmeticOperands = [e]) (he : ρ.isRedeclared e = false)
    (R : ValueType) : ρ.Becomes e R R where
  refined h := by simp [isRefined, hoperands, he] at h
  widened h := by simp [isWidened, hoperands] at h
  same _ _ := rfl

/-- A variable that is not redeclared keeps its type, the others are refined. -/
theorem becomes_variable (hoperands : e.arithmeticOperands = [e])
    (h : ρ.isRedeclared e = true → RefinesType ast R R') (h' : ρ.isRedeclared e = false → R' = R) :
    ρ.Becomes e R R' where
  refined hrefined := h (by simpa [isRefined, hoperands] using hrefined)
  widened hwidened := by simp [isWidened, hoperands] at hwidened
  same hrefined _ := h' (by simpa [isRefined, hoperands] using hrefined)

theorem isRefined_iff :
    ρ.isRefined e = true ↔
      ∃ operand, e.arithmeticOperands = [operand] ∧ ρ.isRedeclared operand = true := by
  rw [isRefined]
  split
  · rename_i operand hoperands
    simp [hoperands]
  · rename_i hoperands
    constructor
    · simp
    · rintro ⟨operand, hoperand, _⟩
      exact (hoperands operand hoperand).elim

theorem isWidened_iff :
    ρ.isWidened e = true ↔ 2 ≤ e.arithmeticOperands.length ∧
      (∀ operand ∈ e.arithmeticOperands, isIntegerOperand ast container operand) ∧
        e.arithmeticOperands.any ρ.isRedeclared = true := by
  simp only [isWidened, Bool.and_eq_true, decide_eq_true_eq, List.all_eq_true, and_assoc]

/-- An integer is computed from a redeclared variable if it is one, or if it is widened. -/
theorem any_isRedeclared_iff (ρ : Redeclaration ast container)
    (hinteger : ∀ operand ∈ e.arithmeticOperands, isIntegerOperand ast container operand) :
    e.arithmeticOperands.any ρ.isRedeclared = true ↔
      ρ.isRefined e = true ∨ ρ.isWidened e = true := by
  rw [isRefined_iff, isWidened_iff]
  constructor
  · intro hany
    by_cases hlength : 2 ≤ e.arithmeticOperands.length
    · exact .inr ⟨hlength, hinteger, hany⟩
    · have hpos := e.arithmeticOperands_length_pos
      have hone : e.arithmeticOperands.length = 1 := by omega
      obtain ⟨operand, hoperand⟩ := List.length_eq_one_iff.mp hone
      exact .inl ⟨operand, hoperand, by simpa [hoperand] using hany⟩
  · rintro (⟨operand, hoperand, hredeclared⟩ | ⟨_, _, hany⟩)
    · simp [hoperand, hredeclared]
    · exact hany

/-- An integer stays one if it is computed from variables that are not redeclared. -/
theorem Becomes.eq_integer_iff (h : ρ.Becomes e R R') (hinfers : Infers ast container e R) :
    R' = Integer ↔ R = Integer ∧ e.arithmeticOperands.any ρ.isRedeclared = false := by
  constructor
  · rintro rfl
    have hrefined : ρ.isRefined e = false := by
      by_contra hrefined
      exact (h.refined (by simpa using hrefined)).not_primitive .integer rfl
    have hwidened : ρ.isWidened e = false := by
      by_contra hwidened
      cases (h.widened (by simpa using hwidened)).2
    have hR := h.same hrefined hwidened
    have hany := any_isRedeclared_iff ρ (hinfers.eq_integer_iff.mp hR.symm)
    simp only [hrefined, hwidened, Bool.false_eq_true, or_self, iff_false] at hany
    exact ⟨hR.symm, by simpa using hany⟩
  · rintro ⟨rfl, hany⟩
    have hoperands := any_isRedeclared_iff ρ (hinfers.eq_integer_iff.mp rfl)
    simp only [hany, Bool.false_eq_true, false_iff, not_or, Bool.not_eq_true] at hoperands
    exact h.same hoperands.1 hoperands.2

/-- What is no refined variable itself keeps its type, or is widened. -/
theorem Becomes.of_not_refined (h : ρ.Becomes e R R') (hrefined : ρ.isRefined e = false) :
    R' = R ∨ (R = Integer ∧ R' = Decimal) := by
  cases hwidened : ρ.isWidened e with
  | true => exact .inr (h.widened hwidened)
  | false => exact .inl (h.same hrefined hwidened)

/-- A collection type stays as it is. -/
theorem Becomes.of_collection {E : ValueType} (h : ρ.Becomes e (collection E) R') :
    R' = collection E := by
  have hrefined : ρ.isRefined e = false := by
    by_contra hrefined
    simpa using (h.refined (by simpa using hrefined)).primitive
  rcases h.of_not_refined hrefined with hsame | ⟨hinteger, _⟩
  · exact hsame
  · cases hinteger

/-- Operators that ask for a convertible operand accept what becomes of it, since none of them
asks for an integer. -/
theorem Becomes.accepts {expected : ValueType} (h : ρ.Becomes e R R')
    (hexpected : expected ≠ Integer) (hR : Accepts ast expected R) : Accepts ast expected R' := by
  cases hrefined : ρ.isRefined e with
  | true => exact isConvertibleTo_trans (h.refined hrefined).isConvertibleTo hR
  | false =>
      rcases h.of_not_refined hrefined with rfl | ⟨rfl, rfl⟩
      · exact hR
      · have hdecimal := own_primitive_iff.mp ((isConvertibleTo_iff_own rfl).mp hR)
        obtain ⟨_, rfl⟩ := hdecimal.resolve_left hexpected
        exact isConvertibleTo_self Decimal

/-! ## One operator -/

theorem Becomes.sign {operator : UnaryExpressionOperator} (hsign : operator.isSign = true)
    (h : ρ.Becomes e S S') : ρ.Becomes (.unaryExpression operator e) S S' := by
  have hoperands : (Expression.unaryExpression operator e).arithmeticOperands =
      e.arithmeticOperands := by
    simp [Expression.arithmeticOperands, hsign]
  refine ⟨?_, ?_, ?_⟩
  · simpa only [isRefined, hoperands] using h.refined
  · simpa only [isWidened, hoperands] using h.widened
  · simpa only [isRefined, isWidened, hoperands] using h.same

theorem Becomes.unary (operator : UnaryExpressionOperator) (h : ρ.Becomes e S S') :
    ρ.Becomes (.unaryExpression operator e) (operator.resultType S) (operator.resultType S') := by
  cases operator with
  | plus => exact h.sign rfl
  | minus => exact h.sign rfl
  | _ => exact becomes_self rfl rfl _

theorem arithmeticOperands_of_basicArithmetic {operator : BinaryExpressionOperator}
    (harithmetic : operator.isBasicArithmetic = true) (l r : Expression) :
    (Expression.binaryExpression operator l r).arithmeticOperands =
      l.arithmeticOperands ++ r.arithmeticOperands := by
  simp [Expression.arithmeticOperands, harithmetic]

theorem two_le_arithmeticOperands_length {operator : BinaryExpressionOperator}
    (harithmetic : operator.isBasicArithmetic = true) (l r : Expression) :
    2 ≤ (Expression.binaryExpression operator l r).arithmeticOperands.length := by
  have hposl := l.arithmeticOperands_length_pos
  have hposr := r.arithmeticOperands_length_pos
  rw [arithmeticOperands_of_basicArithmetic harithmetic, List.length_append]
  omega

/-- A sum of integers is widened where one of the operands is no longer an integer. -/
theorem isWidened_arithmetic_iff {operator : BinaryExpressionOperator}
    (harithmetic : operator.isBasicArithmetic = true) (hl : ρ.Becomes l S S')
    (hr : ρ.Becomes r T T') (hleft : Infers ast container l S)
    (hright : Infers ast container r T) :
    ρ.isWidened (.binaryExpression operator l r) = true ↔
      (S = Integer ∧ T = Integer) ∧ ¬(S' = Integer ∧ T' = Integer) := by
  have hforall : (∀ operand ∈ l.arithmeticOperands ++ r.arithmeticOperands,
      isIntegerOperand ast container operand = true) ↔ S = Integer ∧ T = Integer := by
    rw [List.forall_mem_append, hleft.eq_integer_iff, hright.eq_integer_iff]
  rw [isWidened_iff, hl.eq_integer_iff hleft, hr.eq_integer_iff hright,
    and_iff_right (two_le_arithmeticOperands_length harithmetic l r),
    arithmeticOperands_of_basicArithmetic harithmetic, hforall, List.any_append]
  apply and_congr_right
  rintro ⟨rfl, rfl⟩
  simp [-List.any_eq_true, -List.any_eq_false, or_iff_not_imp_left]

theorem resultType_of_basicArithmetic {operator : BinaryExpressionOperator}
    (harithmetic : operator.isBasicArithmetic = true) (S T : ValueType) :
    operator.resultType S T = if S = Integer ∧ T = Integer then Integer else Decimal := by
  cases operator <;> first | rfl | cases harithmetic

theorem Becomes.arithmetic {operator : BinaryExpressionOperator}
    (harithmetic : operator.isBasicArithmetic = true) (hl : ρ.Becomes l S S')
    (hr : ρ.Becomes r T T') (hleft : Infers ast container l S)
    (hright : Infers ast container r T) :
    ρ.Becomes (.binaryExpression operator l r) (operator.resultType S T)
      (operator.resultType S' T') := by
  have hwidened := isWidened_arithmetic_iff harithmetic hl hr hleft hright
  have hinteger : S' = Integer ∧ T' = Integer → S = Integer ∧ T = Integer := by
    rw [hl.eq_integer_iff hleft, hr.eq_integer_iff hright]
    exact fun h => ⟨h.1.1, h.2.1⟩
  simp only [resultType_of_basicArithmetic harithmetic]
  refine ⟨?_, ?_, ?_⟩
  · intro hrefined
    obtain ⟨operand, hoperand, _⟩ := isRefined_iff.mp hrefined
    have hlength := two_le_arithmeticOperands_length harithmetic l r
    simp [hoperand] at hlength
  · intro h
    obtain ⟨hintegers, hchanged⟩ := hwidened.mp h
    rw [if_pos hintegers, if_neg hchanged]
    exact ⟨rfl, rfl⟩
  · intro _ h
    have hsame : (S' = Integer ∧ T' = Integer) ↔ S = Integer ∧ T = Integer := by
      refine ⟨hinteger, fun hintegers => ?_⟩
      by_contra hchanged
      rw [hwidened.mpr ⟨hintegers, hchanged⟩] at h
      cases h
    simp only [hsame]

theorem Becomes.binary (operator : BinaryExpressionOperator) (hl : ρ.Becomes l S S')
    (hr : ρ.Becomes r T T') (hleft : Infers ast container l S)
    (hright : Infers ast container r T) :
    ρ.Becomes (.binaryExpression operator l r) (operator.resultType S T)
      (operator.resultType S' T') := by
  cases harithmetic : operator.isBasicArithmetic with
  | true => exact hl.arithmetic harithmetic hr hleft hright
  | false =>
      have hoperands : (Expression.binaryExpression operator l r).arithmeticOperands =
          [.binaryExpression operator l r] := by
        simp [Expression.arithmeticOperands, harithmetic]
      rw [resultType_eq_of_not_arithmetic harithmetic]
      exact becomes_self hoperands rfl _

/-! ## Operands -/

theorem Becomes.mem {types : List ValueType} (h : ρ.Becomes e S S')
    (hrefined : ρ.isRefined e = false) (hS : S ∈ types) (hdecimal : Decimal ∈ types) :
    S' ∈ types := by
  rcases h.of_not_refined hrefined with rfl | ⟨_, rfl⟩
  · exact hS
  · exact hdecimal

theorem Becomes.compatible (h : ρ.Becomes e S S') (hrefined : ρ.isRefined e = false)
    (hT : T.getPrimitiveOwn = some (some T)) (hcompatible : Compatible ast S T) :
    Compatible ast S' T := by
  rcases h.of_not_refined hrefined with rfl | ⟨rfl, rfl⟩
  · exact hcompatible
  · exact hcompatible.widen hT

theorem operandTypes_isNone_of_isEquality {operator : BinaryExpressionOperator}
    (h : operator.isEquality = true) : operator.operandTypes.isNone = true := by
  cases operator <;> first | rfl | cases h

/-- Operators that compare their operands support all that has not been refined. -/
theorem Becomes.rule {operator : BinaryExpressionOperator} (hl : ρ.Becomes l S S')
    (hr : ρ.Becomes r T T') (rule : BinaryRule ast operator S T R)
    (hrefinedl : operator.operandTypes.isNone = true → ρ.isRefined l = false)
    (hrefinedr : operator.isEquality = true → ρ.isRefined r = false) :
    ∃ R', BinaryRule ast operator S' T' R' := by
  have hown : ∀ V ∈ [Boolean, Text, Integer, Decimal], V.getPrimitiveOwn = some (some V) := by
    simp [getPrimitiveOwn]
  cases rule with
  | @operands _ expectedLeft expectedRight _ _ hoperator hS hT =>
      have hexpected : expectedLeft ≠ Integer ∧ expectedRight ≠ Integer := by
        cases operator <;> cases hoperator <;> decide
      exact ⟨_, .operands hoperator (hl.accepts hexpected.1 hS) (hr.accepts hexpected.2 hT)⟩
  | equality hoperator hS hT hcompatible =>
      have hnone := operandTypes_isNone_of_isEquality hoperator
      have hS' := hl.mem (hrefinedl hnone) hS (by simp)
      have hT' := hr.mem (hrefinedr hoperator) hT (by simp)
      have hleft := hl.compatible (hrefinedl hnone) (hown T hT) hcompatible
      have hright := hr.compatible (hrefinedr hoperator) (hown S' hS') hleft.symm
      exact ⟨Boolean, .equality hoperator hS' hT' hright.symm⟩
  | membership hS hE hcompatible =>
      obtain rfl := hr.of_collection
      have hE' := hown _ (List.mem_cons_of_mem _ hE)
      have hS' := hl.mem (hrefinedl rfl) hS (by simp)
      exact ⟨Boolean, .membership hS' hE (hl.compatible (hrefinedl rfl) hE' hcompatible)⟩

theorem Becomes.not_refined (h : ρ.Becomes e S S') {types : List ValueType} (hS' : S' ∈ types)
    (htypes : ∀ V ∈ types, V.getPrimitiveOwn = some (some V)) : ρ.isRefined e = false := by
  by_contra hrefined
  obtain ⟨astNode, rfl⟩ := (h.refined (by simpa using hrefined)).atomic
  cases htypes _ hS'

theorem Becomes.left_of_rule {operator : BinaryExpressionOperator} (hl : ρ.Becomes l S S')
    (rule : BinaryRule ast operator S' T' R') (hoperator : operator.operandTypes.isNone = true) :
    ρ.isRefined l = false := by
  cases rule with
  | operands hsome hS hT => simp [hsome] at hoperator
  | equality hequality hS hT hcompatible => exact hl.not_refined hS (by simp [getPrimitiveOwn])
  | membership hS hE hcompatible => exact hl.not_refined hS (by simp [getPrimitiveOwn])

theorem Becomes.right_of_rule {operator : BinaryExpressionOperator} (hr : ρ.Becomes r T T')
    (rule : BinaryRule ast operator S' T' R') (hoperator : operator.isEquality = true) :
    ρ.isRefined r = false := by
  have hnone := operandTypes_isNone_of_isEquality hoperator
  cases rule with
  | operands hsome hS hT => simp [hsome] at hnone
  | equality hequality hS hT hcompatible => exact hr.not_refined hT (by simp [getPrimitiveOwn])
  | membership hS hE hcompatible => cases hoperator

/-! ## Variables -/

theorem wrap_of_reference_refines {r : Referencable} {new : ValueTypeReference}
    (hnew : ρ.reference r = some new) : ∃ T U,
      inferTypeFromReferenceLiteral ast (some r) = .ok (some T) ∧
      inferTypeFromReferenceLiteral ast (some (ρ.redeclare r)) = .ok (some U) ∧
      RefinesType ast T U := by
  obtain ⟨old, hold, T, U, hT, hU, hrefines⟩ := ρ.reference_refines r new hnew
  refine ⟨T, U, ?_, ?_, hrefines⟩
  · cases r <;> cases hold <;> exact hT
  · rw [redeclare, hnew]
    cases r <;> cases hold <;> exact hU

/-- Where a reference has a type, so has the redeclared reference. -/
theorem reference_becomes (ρ : Redeclaration ast container) {value : Option Referencable}
    (hT : inferTypeFromReferenceLiteral ast value = .ok (some T)) :
    ∃ T', inferTypeFromReferenceLiteral ast (value.map ρ.redeclare) = .ok (some T') ∧
      ρ.Becomes (.referenceLiteral value) T T' := by
  cases value with
  | none => cases hT
  | some r =>
      cases hnew : ρ.reference r with
      | none =>
          have hsame : ρ.redeclare r = r := by simp [redeclare, hnew]
          refine ⟨T, by rwa [Option.map_some, hsame], ?_⟩
          exact becomes_self rfl (by simp [isRedeclared, hnew]) T
      | some new =>
          obtain ⟨T₀, U, hT₀, hU, hrefines⟩ := wrap_of_reference_refines hnew
          obtain rfl : T₀ = T := Option.some.inj (Except.ok.inj (hT₀.symm.trans hT))
          refine ⟨U, hU, becomes_variable rfl (fun _ => hrefines) ?_⟩
          simp [isRedeclared, hnew]

theorem valueKeyword_becomes (ρ : Redeclaration ast container)
    (hT : wrap ast container = .ok (some T)) :
    ∃ T', wrap ast ρ.newContainer = .ok (some T') ∧
      ρ.Becomes (.valueKeywordLiteral false) T T' := by
  cases hnew : ρ.valueKeyword with
  | none =>
      refine ⟨T, by simpa [newContainer, hnew] using hT, ?_⟩
      exact becomes_self rfl (by simp [isRedeclared, hnew]) T
  | some new =>
      obtain ⟨old, rfl, T₀, U, hT₀, hU, hrefines⟩ := ρ.valueKeyword_refines new hnew
      obtain rfl : T₀ = T := Option.some.inj (Except.ok.inj (hT₀.symm.trans hT))
      refine ⟨U, by simpa [newContainer, hnew] using hU, ?_⟩
      refine becomes_variable rfl (fun _ => hrefines) ?_
      simp [isRedeclared, hnew]

/-! ## Expressions -/

theorem apply_of_literal (hT : e.literalType = some T) : ρ.apply e = e := by
  cases e <;> first | rfl | cases hT

theorem literal_eq {e : Expression} (hT : e.literalType = some T) (h : Infers ast container e R) :
    R = T := by
  cases h with
  | literal hR => exact Option.some.inj (hR.symm.trans hT)
  | _ => cases hT

theorem becomes_of_literal (hT : e.literalType = some T) : ρ.Becomes e T T := by
  cases e <;> first | exact becomes_self rfl rfl T | cases hT

/-- The type that an expression has over the redeclared variables is what its type becomes. -/
theorem infers_becomes (h : Infers ast container e R)
    (h' : Infers ast ρ.newContainer (ρ.apply e) R') : ρ.Becomes e R R' := by
  induction h generalizing R' with
  | literal hT =>
      rw [apply_of_literal hT] at h'
      rw [literal_eq hT h']
      exact becomes_of_literal hT
  | valueKeyword hT =>
      obtain ⟨T', hT', hbecomes⟩ := valueKeyword_becomes ρ hT
      cases h' with
      | literal hR => cases hR
      | valueKeyword hR =>
          rw [hT'] at hR
          cases hR
          exact hbecomes
  | valueLength hT hlength =>
      cases h' with
      | literal hR => cases hR
      | valueLength hR hlength' => exact becomes_self rfl rfl Integer
  | reference hT =>
      obtain ⟨T', hT', hbecomes⟩ := reference_becomes ρ hT
      rw [apply] at h'
      cases h' with
      | literal hR => cases hR
      | reference hR =>
          rw [hT'] at hR
          cases hR
          exact hbecomes
  | unary operand hS ih =>
      rw [apply] at h'
      cases h' with
      | literal hR => cases hR
      | unary operand' hS' => exact (ih operand').unary _
  | binary left right rule ihleft ihright =>
      rw [apply] at h'
      cases h' with
      | literal hR => cases hR
      | binary left' right' rule' =>
          rw [rule.eq_resultType, rule'.eq_resultType]
          exact (ihleft left').binary _ (ihright right') left right
  | replace first second third hS hT hU =>
      rw [apply] at h'
      cases h' with
      | literal hR => cases hR
      | replace first' second' third' hS' hT' hU' => exact becomes_self rfl rfl Text

/-- An expression has a type over the redeclared variables exactly where all operators support
their operands. -/
theorem supportsOperands_iff (h : Infers ast container e R) :
    ρ.supportsOperands e = true ↔ ∃ R', Infers ast ρ.newContainer (ρ.apply e) R' := by
  induction h with
  | @literal e T hT =>
      have hsupports : ρ.supportsOperands e = true := by
        cases e <;> first | rfl | cases hT
      refine iff_of_true hsupports ⟨T, ?_⟩
      rw [apply_of_literal hT]
      exact .literal hT
  | valueKeyword hT =>
      obtain ⟨T', hT', _⟩ := valueKeyword_becomes ρ hT
      exact iff_of_true rfl ⟨T', .valueKeyword hT'⟩
  | valueLength hT hlength =>
      obtain ⟨T', hT', hbecomes⟩ := valueKeyword_becomes ρ hT
      exact iff_of_true rfl ⟨Integer, .valueLength hT' (hbecomes.accepts (by simp) hlength)⟩
  | reference hT =>
      obtain ⟨T', hT', _⟩ := reference_becomes ρ hT
      exact iff_of_true rfl ⟨T', by rw [apply]; exact .reference hT'⟩
  | @unary operator e S operand hS ih =>
      rw [supportsOperands, apply, ih]
      constructor
      · rintro ⟨S', operand'⟩
        have hexpected : operator.operandType ≠ Integer := by
          cases operator <;> simp [UnaryExpressionOperator.operandType]
        exact ⟨_, .unary operand' ((infers_becomes operand operand').accepts hexpected hS)⟩
      · rintro ⟨R', h'⟩
        cases h' with
        | literal hR => cases hR
        | unary operand' hS' => exact ⟨_, operand'⟩
  | @binary operator l r S T R left right rule ihleft ihright =>
      rw [apply]
      simp only [supportsOperands, Bool.and_eq_true, ihleft, ihright, Bool.not_eq_true',
        Bool.and_eq_false_imp]
      constructor
      · rintro ⟨⟨⟨⟨S', left'⟩, T', right'⟩, hrefinedl⟩, hrefinedr⟩
        have hl := infers_becomes left left'
        have hr := infers_becomes right right'
        obtain ⟨R', rule'⟩ := hl.rule hr rule hrefinedl hrefinedr
        exact ⟨R', .binary left' right' rule'⟩
      · rintro ⟨R', h'⟩
        cases h' with
        | literal hR => cases hR
        | binary left' right' rule' =>
            have hl := infers_becomes left left'
            have hr := infers_becomes right right'
            exact ⟨⟨⟨⟨_, left'⟩, _, right'⟩, hl.left_of_rule rule'⟩, hr.right_of_rule rule'⟩
  | replace first second third hS hT hU ihfirst ihsecond ihthird =>
      rw [apply]
      simp only [supportsOperands, Bool.and_eq_true, ihfirst, ihsecond, ihthird]
      constructor
      · rintro ⟨⟨⟨S', first'⟩, T', second'⟩, U', third'⟩
        have hS' := (infers_becomes first first').accepts (by simp) hS
        have hT' := (infers_becomes second second').accepts (by simp) hT
        have hU' := (infers_becomes third third').accepts (by simp) hU
        exact ⟨Text, .replace first' second' third' hS' hT' hU'⟩
      · rintro ⟨R', h'⟩
        cases h' with
        | literal hR => cases hR
        | replace first' second' third' hS' hT' hU' =>
            exact ⟨⟨⟨_, first'⟩, _, second'⟩, _, third'⟩

theorem isFreeOfCollections_apply (ρ : Redeclaration ast container) (e : Expression) :
    (ρ.apply e).isFreeOfCollections = e.isFreeOfCollections := by
  fun_induction Expression.isFreeOfCollections e with
  | case1 values => rfl
  | case2 operator e ih => exact ih
  | case3 operator l r ihl ihr => simp only [apply, Expression.isFreeOfCollections, ihl, ihr]
  | case4 operator x y z ihx ihy ihz =>
      simp only [apply, Expression.isFreeOfCollections, ihx, ihy, ihz]
  | case5 e hcollection hunary hbinary hternary =>
      cases e with
      | collectionLiteral values => exact (hcollection values rfl).elim
      | unaryExpression operator e => exact (hunary operator e rfl).elim
      | binaryExpression operator l r => exact (hbinary operator l r rfl).elim
      | ternaryExpression operator x y z => exact (hternary operator x y z rfl).elim
      | _ => rfl

/-- Inference for an expression of type `R` yields, over redeclared variables, a type that is
convertible to `R` exactly where all operators support their operands and the expression does
not compute with integers of which one is redeclared. -/
theorem inferExpressionType_refined_iff (ρ : Redeclaration ast container) (e : Expression)
    (R : ValueType) (hfree : e.isFreeOfCollections = true)
    (hR : inferExpressionType ast container e [] = some (.ok (some R), [])) :
    (∃ R', inferExpressionType ast ρ.newContainer (ρ.apply e) [] = some (.ok (some R'), []) ∧
        R'.isConvertibleTo ast R = .ok true) ↔
      ρ.supportsOperands e = true ∧ ρ.isWidened e = false := by
  have hinfers := infers_of_infer hfree hR
  have hfree' : (ρ.apply e).isFreeOfCollections = true := by
    rw [isFreeOfCollections_apply, hfree]
  simp only [inferExpressionType_eq_ok_iff hfree', supportsOperands_iff hinfers]
  constructor
  · rintro ⟨R', h', hconvertible⟩
    refine ⟨⟨R', h'⟩, ?_⟩
    by_contra hwidened
    obtain ⟨rfl, rfl⟩ := (infers_becomes hinfers h').widened (by simpa using hwidened)
    cases hconvertible
  · rintro ⟨⟨R', h'⟩, hwidened⟩
    have hbecomes := infers_becomes hinfers h'
    refine ⟨R', h', ?_⟩
    cases hrefined : ρ.isRefined e with
    | true => exact (hbecomes.refined hrefined).isConvertibleTo
    | false =>
        rw [hbecomes.same hrefined hwidened]
        exact isConvertibleTo_self R

end Redeclaration

/-! ## A redeclared port -/

/-- `from points oftype integer`. -/
def pointsPort : Referencable :=
  .transformPortDefinition ⟨.from, "points", ⟨some 0, []⟩⟩

/-- The port becomes `from points oftype Grade`. -/
def gradeRedeclaration : Redeclaration gradeAst none where
  reference r := if r = pointsPort then some ⟨some 2, []⟩ else none
  valueKeyword := none
  reference_refines r new h := by
    obtain ⟨rfl, rfl⟩ : r = pointsPort ∧ ⟨some 2, []⟩ = new := by simpa using h
    exact ⟨⟨some 0, []⟩, rfl, Integer, .atomic 2, rfl, rfl, ⟨by simp, ⟨2, rfl⟩, rfl⟩⟩
  valueKeyword_refines new h := by simp at h

/-- `-points < 3`. -/
def pointsBelow : Expression :=
  .binaryExpression .less (.unaryExpression .minus (.referenceLiteral (some pointsPort)))
    (.numericLiteral 3)

theorem inferExpressionType_refined_iff_grade :
    ∃ R', inferExpressionType gradeAst gradeRedeclaration.newContainer
        (gradeRedeclaration.apply pointsBelow) [] = some (.ok (some R'), []) ∧
      R'.isConvertibleTo gradeAst Boolean = .ok true :=
  (Redeclaration.inferExpressionType_refined_iff gradeRedeclaration pointsBelow Boolean
    rfl rfl).mpr ⟨rfl, rfl⟩

/-- `points == 3`. -/
def pointsEqual : Expression :=
  .binaryExpression .equal (.referenceLiteral (some pointsPort)) (.numericLiteral 3)

/-- `points + 1`. -/
def pointsPlus : Expression :=
  .binaryExpression .plus (.referenceLiteral (some pointsPort)) (.numericLiteral 1)

/-- A port of a refined type is no operand of `==`, and its sum with an integer is a decimal. -/
theorem inferExpressionType_not_monotone :
    (inferExpressionType gradeAst none pointsEqual [] = some (.ok (some Boolean), []) ∧
      ¬∃ R', inferExpressionType gradeAst gradeRedeclaration.newContainer
          (gradeRedeclaration.apply pointsEqual) [] = some (.ok (some R'), []) ∧
        R'.isConvertibleTo gradeAst Boolean = .ok true) ∧
    inferExpressionType gradeAst none pointsPlus [] = some (.ok (some Integer), []) ∧
      ¬∃ R', inferExpressionType gradeAst gradeRedeclaration.newContainer
          (gradeRedeclaration.apply pointsPlus) [] = some (.ok (some R'), []) ∧
        R'.isConvertibleTo gradeAst Integer = .ok true := by
  refine ⟨⟨rfl, ?_⟩, rfl, ?_⟩
  · rintro ⟨R', h, _⟩
    cases h
  · rintro ⟨R', h, hconvertible⟩
    cases h
    cases hconvertible

end Jayvee
