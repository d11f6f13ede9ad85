import Jayvee.Model.TypeInference
import Jayvee.Verification.Typing.Hierarchy

/-! # Typing rules

What the type computers accept, as rules, and that inference follows exactly these rules for
expressions without collection literals. -/

namespace Jayvee

open Foundation ValueType

/-! ## Operators -/

/-- A value of type `T` can stand where one of type `expected` is asked for. -/
def Accepts (ast : Ast) (expected T : ValueType) : Prop :=
  T.isConvertibleTo ast expected = .ok true

/-- Values of the types can be compared with each other. -/
def Compatible (ast : Ast) (T U : ValueType) : Prop :=
  T.isConvertibleTo ast U = .ok true ∨ U.isConvertibleTo ast T = .ok true

namespace UnaryExpressionOperator

def operandType : UnaryExpressionOperator → ValueType
  | not => Boolean
  | plus | minus | sqrt | floor | ceil | round => Decimal
  | lowercase | uppercase | asDecimal | asInteger | asBoolean | asText => Text

def resultType : UnaryExpressionOperator → ValueType → ValueType
  | plus, operandType => operandType
  | minus, operandType => operandType
  | not, _ => Boolean
  | asBoolean, _ => Boolean
  | sqrt, _ => Decimal
  | asDecimal, _ => Decimal
  | floor, _ => Integer
  | ceil, _ => Integer
  | round, _ => Integer
  | asInteger, _ => Integer
  | lowercase, _ => Text
  | uppercase, _ => Text
  | asText, _ => Text

def isSign : UnaryExpressionOperator → Bool
  | plus | minus => true
  | _ => false

end UnaryExpressionOperator

namespace BinaryExpressionOperator

/-- The operand types that are asked for. Equality and membership compare their operands. -/
def operandTypes : BinaryExpressionOperator → Option (ValueType × ValueType)
  | pow | root | multiply | divide | modulo | plus | minus => some (Decimal, Decimal)
  | less | lessEqual | greater | greaterEqual => some (Decimal, Decimal)
  | .matches => some (Text, Regex)
  | xor | and | or => some (Boolean, Boolean)
  | equal | unequal | «in» => none

def isBasicArithmetic : BinaryExpressionOperator → Bool
  | multiply | plus | minus => true
  | _ => false

def isEquality : BinaryExpressionOperator → Bool
  | equal | unequal => true
  | _ => false

def resultType (operator : BinaryExpressionOperator) (leftType rightType : ValueType) : ValueType :=
  match operator with
  | multiply | plus | minus =>
      if leftType = Integer ∧ rightType = Integer then Integer else Decimal
  | pow | root | divide | modulo => Decimal
  | _ => Boolean

end BinaryExpressionOperator

/-- The operator yields a value of the last type for operands of the other two. -/
inductive BinaryRule (ast : Ast) :
    BinaryExpressionOperator → ValueType → ValueType → ValueType → Prop where
  | operands {operator : BinaryExpressionOperator} {expectedLeft expectedRight S T : ValueType}
      (hoperator : operator.operandTypes = some (expectedLeft, expectedRight))
      (hS : Accepts ast expectedLeft S) (hT : Accepts ast expectedRight T) :
      BinaryRule ast operator S T (operator.resultType S T)
  -- these two ask for a primitive value type itself
  | equality {operator : BinaryExpressionOperator} {S T : ValueType}
      (hoperator : operator.isEquality = true) (hS : S ∈ [Boolean, Text, Integer, Decimal])
      (hT : T ∈ [Boolean, Text, Integer, Decimal]) (hcompatible : Compatible ast S T) :
      BinaryRule ast operator S T Boolean
  | membership {S E : ValueType} (hS : S ∈ [Text, Integer, Decimal])
      (hE : E ∈ [Text, Integer, Decimal]) (hcompatible : Compatible ast S E) :
      BinaryRule ast .in S (collection E) Boolean

/-! ## Expressions -/

def Expression.literalType : Expression → Option ValueType
  | .textLiteral _ => some Text
  | .booleanLiteral _ => some Boolean
  | .numericLiteral value => some (if value.isInteger then Integer else Decimal)
  | .cellRangeLiteral _ => some CellRange
  | .regexLiteral _ => some Regex
  | .valuetypeAssignmentLiteral _ => some .ValuetypeAssignment
  | _ => none

/-- The expression has the type `T` where the value keyword is declared by `container`. -/
inductive Infers (ast : Ast) (container : Option ValueTypeReference) :
    Expression → ValueType → Prop where
  | literal {e : Expression} {T : ValueType} (hT : e.literalType = some T) : Infers ast container e T
  | valueKeyword {T : ValueType} (hT : wrap ast container = .ok (some T)) :
      Infers ast container (.valueKeywordLiteral false) T
  | valueLength {T : ValueType} (hT : wrap ast container = .ok (some T))
      (hlength : Accepts ast Text T) : Infers ast container (.valueKeywordLiteral true) Integer
  | reference {value : Option Referencable} {T : ValueType}
      (hT : inferTypeFromReferenceLiteral ast value = .ok (some T)) :
      Infers ast container (.referenceLiteral value) T
  | unary {operator : UnaryExpressionOperator} {e : Expression} {S : ValueType}
      (operand : Infers ast container e S) (hS : Accepts ast operator.operandType S) :
      Infers ast container (.unaryExpression operator e) (operator.resultType S)
  | binary {operator : BinaryExpressionOperator} {l r : Expression} {S T R : ValueType}
      (left : Infers ast container l S) (right : Infers ast container r T)
      (rule : BinaryRule ast operator S T R) :
      Infers ast container (.binaryExpression operator l r) R
  | replace {x y z : Expression} {S T U : ValueType} (first : Infers ast container x S)
      (second : Infers ast container y T) (third : Infers ast container z U)
      (hS : Accepts ast Text S) (hT : Accepts ast Regex T) (hU : Accepts ast Text U) :
      Infers ast container (.ternaryExpression .replace x y z) Text

def Expression.isFreeOfCollections : Expression → Bool
  | .collectionLiteral _ => false
  | .unaryExpression _ e => e.isFreeOfCollections
  | .binaryExpression _ l r => l.isFreeOfCollections && r.isFreeOfCollections
  | .ternaryExpression _ x y z =>
      x.isFreeOfCollections && y.isFreeOfCollections && z.isFreeOfCollections
  | _ => true

/-! ## The type computers -/

section TypeComputers

variable {ast : Ast} {d d' : List Diagnostic} {S T U R : ValueType}

theorem ofExcept_eq_ok_iff {α : Type} {r : Except JsError α} {a : α} :
    (Exec.ofExcept r : Validation α) d = some (.ok a, d') ↔ r = .ok a ∧ d' = d := by
  simp [eq_comm]

/-- An operand of the expected type is no reason for a diagnostic. -/
theorem checkOperandType_eq_ok_iff {expected : ValueType} {operand : Expression} :
    checkOperandType ast expected T operand d = some (.ok true, d') ↔
      Accepts ast expected T ∧ d' = d := by
  rw [checkOperandType, Exec.bind_eq_ok_iff]
  constructor
  · rintro ⟨isConvertible, t, hconvertible, h⟩
    obtain ⟨hT, rfl⟩ := ofExcept_eq_ok_iff.mp hconvertible
    cases isConvertible with
    | true =>
        cases h
        exact ⟨hT, rfl⟩
    | false => cases h
  · rintro ⟨hT, rfl⟩
    exact ⟨true, d', ofExcept_eq_ok_iff.mpr ⟨hT, rfl⟩, rfl⟩

theorem computeUnaryType_eq_ok_iff {expected : ValueType} {f : ValueType → ValueType}
    {operand : Expression} :
    computeUnaryType ast expected f T operand d = some (.ok (some R), d') ↔
      Accepts ast expected T ∧ R = f T ∧ d' = d := by
  rw [computeUnaryType, Exec.bind_eq_ok_iff]
  constructor
  · rintro ⟨isValid, t, hvalid, h⟩
    cases isValid with
    | true =>
        cases h
        obtain ⟨hT, rfl⟩ := checkOperandType_eq_ok_iff.mp hvalid
        exact ⟨hT, rfl, rfl⟩
    | false => cases h
  · rintro ⟨hT, rfl, rfl⟩
    exact ⟨true, d', checkOperandType_eq_ok_iff.mpr ⟨hT, rfl⟩, rfl⟩

theorem computeBinaryType_eq_ok_iff {expectedLeft expectedRight : ValueType}
    {f : ValueType → ValueType → ValueType} {left right : Expression} :
    computeBinaryType ast expectedLeft expectedRight f S T left right d =
        some (.ok (some R), d') ↔
      Accepts ast expectedLeft S ∧ Accepts ast expectedRight T ∧ R = f S T ∧ d' = d := by
  rw [computeBinaryType]
  simp only [Exec.bind_eq_ok_iff]
  constructor
  · rintro ⟨isLeftValid, t, hleft, isRightValid, u, hright, h⟩
    cases isLeftValid with
    | false => cases h
    | true =>
        cases isRightValid with
        | false => cases h
        | true =>
            cases h
            obtain ⟨hS, rfl⟩ := checkOperandType_eq_ok_iff.mp hleft
            obtain ⟨hT, rfl⟩ := checkOperandType_eq_ok_iff.mp hright
            exact ⟨hS, hT, rfl, rfl⟩
  · rintro ⟨hS, hT, rfl, rfl⟩
    exact ⟨true, d', checkOperandType_eq_ok_iff.mpr ⟨hS, rfl⟩,
      true, d', checkOperandType_eq_ok_iff.mpr ⟨hT, rfl⟩, rfl⟩

theorem computeTernaryType_eq_ok_iff {expectedFirst expectedSecond expectedThird result : ValueType}
    {first second third : Expression} :
    computeTernaryType ast expectedFirst expectedSecond expectedThird result S T U
        first second third d = some (.ok (some R), d') ↔
      Accepts ast expectedFirst S ∧ Accepts ast expectedSecond T ∧
        Accepts ast expectedThird U ∧ R = result ∧ d' = d := by
  rw [computeTernaryType]
  simp only [Exec.bind_eq_ok_iff]
  constructor
  · rintro ⟨isFirstValid, t, hfirst, isSecondValid, u, hsecond, isThirdValid, v, hthird, h⟩
    cases isFirstValid with
    | false => cases h
    | true =>
        cases isSecondValid with
        | false => cases h
        | true =>
            cases isThirdValid with
            | false => cases h
            | true =>
                cases h
                obtain ⟨hS, rfl⟩ := checkOperandType_eq_ok_iff.mp hfirst
                obtain ⟨hT, rfl⟩ := checkOperandType_eq_ok_iff.mp hsecond
                obtain ⟨hU, rfl⟩ := checkOperandType_eq_ok_iff.mp hthird
                exact ⟨hS, hT, hU, rfl, rfl⟩
  · rintro ⟨hS, hT, hU, rfl, rfl⟩
    exact ⟨true, d', checkOperandType_eq_ok_iff.mpr ⟨hS, rfl⟩,
      true, d', checkOperandType_eq_ok_iff.mpr ⟨hT, rfl⟩,
      true, d', checkOperandType_eq_ok_iff.mpr ⟨hU, rfl⟩, rfl⟩

/-- The last check of the operators that compare: operands of which neither is convertible to
the other are reported. -/
theorem checkCompatible_eq_ok_iff {message : String} {info : DiagnosticInfo}
    (hS : S.getPrimitiveOwn = some (some S)) (hT : T.getPrimitiveOwn = some (some T)) :
    (do
      let isLeftConvertible ← Exec.ofExcept (S.isConvertibleTo ast T)
      let isRightConvertible ← Exec.ofExcept (T.isConvertibleTo ast S)
      if !isLeftConvertible && !isRightConvertible then
        accept .error message info
        return none
      return some Boolean : Validation (Option ValueType)) d = some (.ok (some R), d') ↔
      Compatible ast S T ∧ R = Boolean ∧ d' = d := by
  obtain ⟨isLeftConvertible, _, hleft⟩ := isConvertibleTo_eq_own ast T hS
  obtain ⟨isRightConvertible, _, hright⟩ := isConvertibleTo_eq_own ast S hT
  simp only [Compatible, hleft, hright]
  by_cases hcompatible : isLeftConvertible = true ∨ isRightConvertible = true
  · have hcheck : (!isLeftConvertible && !isRightConvertible) = false := by
      rcases hcompatible with rfl | rfl <;> simp
    constructor
    · intro h
      simp only [Exec.bind_apply, Exec.ofExcept_apply, hcheck] at h
      cases h
      simpa using hcompatible
    · rintro ⟨_, rfl, rfl⟩
      simp only [Exec.bind_apply, Exec.ofExcept_apply, hcheck]
      rfl
  · obtain ⟨rfl, rfl⟩ : isLeftConvertible = false ∧ isRightConvertible = false := by
      simpa using hcompatible
    constructor
    · intro h
      cases h
    · simp

theorem reportUnsupported_ne_ok {isLeftValid isRightValid : Bool} {left right : Expression} :
    (do
      acceptUnsupportedType ast isLeftValid S left
      acceptUnsupportedType ast isRightValid T right
      return none : Validation (Option ValueType)) d ≠ some (.ok (some R), d') := by
  intro h
  cases isLeftValid <;> cases isRightValid <;> cases h

theorem equalityOperatorTypeComputer_eq_ok_iff {expression left right : Expression} :
    equalityOperatorTypeComputer ast S T expression left right d = some (.ok (some R), d') ↔
      (S ∈ [Boolean, Text, Integer, Decimal] ∧ T ∈ [Boolean, Text, Integer, Decimal]) ∧
        Compatible ast S T ∧ R = Boolean ∧ d' = d := by
  have hown : ∀ V ∈ [Boolean, Text, Integer, Decimal], V.getPrimitiveOwn = some (some V) := by
    simp [getPrimitiveOwn]
  by_cases hvalid : S ∈ [Boolean, Text, Integer, Decimal] ∧ T ∈ [Boolean, Text, Integer, Decimal]
  · obtain ⟨hS, hT⟩ := hvalid
    simp only [equalityOperatorTypeComputer, List.contains_iff_mem.mpr hS,
      List.contains_iff_mem.mpr hT, hS, hT, true_and]
    exact checkCompatible_eq_ok_iff (hown S hS) (hown T hT)
  · constructor
    · intro h
      simp only [equalityOperatorTypeComputer] at h
      split at h
      · exact (reportUnsupported_ne_ok h).elim
      · rename_i hoperands
        simp only [Bool.or_eq_true, Bool.not_eq_true', not_or, Bool.not_eq_false,
          List.contains_iff_mem] at hoperands
        exact (hvalid hoperands).elim
    · rintro ⟨hoperands, _⟩
      exact (hvalid hoperands).elim

theorem inOperatorTypeComputer_eq_ok_iff {expression left right : Expression} :
    inOperatorTypeComputer ast S T expression left right d = some (.ok (some R), d') ↔
      S ∈ [Text, Integer, Decimal] ∧ ∃ E ∈ [Text, Integer, Decimal],
        T = collection E ∧ Compatible ast S E ∧ R = Boolean ∧ d' = d := by
  have hown : ∀ V ∈ [Text, Integer, Decimal], V.getPrimitiveOwn = some (some V) := by
    simp [getPrimitiveOwn]
  have hright : ((List.map collection [Text, Integer, Decimal]).any fun v => v.equals T) = true ↔
      ∃ E ∈ [Text, Integer, Decimal], T = collection E := by
    simp only [List.any_eq_true, List.mem_map, equals_iff]
    constructor
    · rintro ⟨_, ⟨E, hE, rfl⟩, rfl⟩
      exact ⟨E, hE, rfl⟩
    · rintro ⟨E, hE, rfl⟩
      exact ⟨collection E, ⟨E, hE, rfl⟩, rfl⟩
  by_cases hvalid : S ∈ [Text, Integer, Decimal] ∧ ∃ E ∈ [Text, Integer, Decimal], T = collection E
  · obtain ⟨hS, E, hE, rfl⟩ := hvalid
    simp only [inOperatorTypeComputer, List.contains_iff_mem.mpr hS, hright.mpr ⟨E, hE, rfl⟩]
    refine (checkCompatible_eq_ok_iff (hown S hS) (hown E hE)).trans ?_
    constructor
    · intro hcompatible
      exact ⟨hS, E, hE, rfl, hcompatible⟩
    · rintro ⟨_, E', _, heq, hcompatible⟩
      cases heq
      exact hcompatible
  · constructor
    · intro h
      simp only [inOperatorTypeComputer] at h
      split at h
      · exact (reportUnsupported_ne_ok h).elim
      · rename_i hoperands
        simp only [Bool.or_eq_true, Bool.not_eq_true', not_or, Bool.not_eq_false,
          List.contains_iff_mem, hright] at hoperands
        exact (hvalid hoperands).elim
    · rintro ⟨hS, E, hE, hT, _⟩
      exact (hvalid ⟨hS, E, hE, hT⟩).elim

theorem unaryTypeComputer_eq (operator : UnaryExpressionOperator) :
    unaryTypeComputer ast operator =
      computeUnaryType ast operator.operandType operator.resultType := by
  cases operator <;> rfl

theorem unaryTypeComputer_eq_ok_iff {operator : UnaryExpressionOperator} {operand : Expression} :
    unaryTypeComputer ast operator T operand d = some (.ok (some R), d') ↔
      Accepts ast operator.operandType T ∧ R = operator.resultType T ∧ d' = d := by
  rw [unaryTypeComputer_eq]
  exact computeUnaryType_eq_ok_iff

theorem binaryTypeComputer_eq {operator : BinaryExpressionOperator}
    {expectedLeft expectedRight : ValueType} {expression left right : Expression}
    (h : operator.operandTypes = some (expectedLeft, expectedRight)) :
    binaryTypeComputer ast operator S T expression left right =
      computeBinaryType ast expectedLeft expectedRight operator.resultType S T left right := by
  cases operator <;> cases h <;> rfl

theorem binaryTypeComputer_eq_ok_iff {operator : BinaryExpressionOperator}
    {expression left right : Expression} :
    binaryTypeComputer ast operator S T expression left right d = some (.ok (some R), d') ↔
      BinaryRule ast operator S T R ∧ d' = d := by
  constructor
  · intro h
    cases hoperator : operator.operandTypes with
    | some expected =>
        rw [binaryTypeComputer_eq hoperator] at h
        obtain ⟨hS, hT, rfl, hd⟩ := computeBinaryType_eq_ok_iff.mp h
        exact ⟨.operands hoperator hS hT, hd⟩
    | none =>
        cases operator with
        | equal | unequal =>
            obtain ⟨⟨hS, hT⟩, hcompatible, rfl, hd⟩ := equalityOperatorTypeComputer_eq_ok_iff.mp h
            exact ⟨.equality rfl hS hT hcompatible, hd⟩
        | «in» =>
            obtain ⟨hS, E, hE, rfl, hcompatible, rfl, hd⟩ :=
              inOperatorTypeComputer_eq_ok_iff.mp h
            exact ⟨.membership hS hE hcompatible, hd⟩
        | _ => cases hoperator
  · rintro ⟨rule, rfl⟩
    cases rule with
    | operands hoperator hS hT =>
        rw [binaryTypeComputer_eq hoperator]
        exact computeBinaryType_eq_ok_iff.mpr ⟨hS, hT, rfl, rfl⟩
    | equality hoperator hS hT hcompatible =>
        cases operator with
        | equal | unequal =>
            exact equalityOperatorTypeComputer_eq_ok_iff.mpr ⟨⟨hS, hT⟩, hcompatible, rfl, rfl⟩
        | _ => cases hoperator
    | membership hS hE hcompatible =>
        exact inOperatorTypeComputer_eq_ok_iff.mpr ⟨hS, _, hE, rfl, hcompatible, rfl, rfl⟩

theorem ternaryTypeComputer_eq_ok_iff {operator : TernaryExpressionOperator}
    {first second third : Expression} :
    ternaryTypeComputer ast operator S T U first second third d = some (.ok (some R), d') ↔
      Accepts ast Text S ∧ Accepts ast Regex T ∧ Accepts ast Text U ∧ R = Text ∧ d' = d := by
  cases operator
  exact computeTernaryType_eq_ok_iff

end TypeComputers

/-! ## Inference follows the rules -/

section Inference

variable {ast : Ast} {container : Option ValueTypeReference} {e : Expression} {T R : ValueType}
  {d d' : List Diagnostic}

theorem inferExpressionType_of_literal (hT : e.literalType = some T) :
    inferExpressionType ast container e = pure (some T) := by
  cases e <;> cases hT <;> rfl

/-- Inference yields a type that the rules give, and reports nothing. -/
theorem Infers.infer (h : Infers ast container e R) (d : List Diagnostic) :
    inferExpressionType ast container e d = some (.ok (some R), d) := by
  induction h with
  | literal hT =>
      rw [inferExpressionType_of_literal hT]
      rfl
  | valueKeyword hT =>
      cases container with
      | none => cases hT
      | some valueTypeReference =>
          exact Exec.bind_eq_ok_iff.mpr ⟨_, d, ofExcept_eq_ok_iff.mpr ⟨hT, rfl⟩, rfl⟩
  | valueLength hT hlength =>
      cases container with
      | none => cases hT
      | some valueTypeReference =>
          refine Exec.bind_eq_ok_iff.mpr ⟨_, d, ofExcept_eq_ok_iff.mpr ⟨hT, rfl⟩, ?_⟩
          exact Exec.bind_eq_ok_iff.mpr ⟨_, d, ofExcept_eq_ok_iff.mpr ⟨hlength, rfl⟩, rfl⟩
  | reference hT => exact ofExcept_eq_ok_iff.mpr ⟨hT, rfl⟩
  | unary operand hS ih =>
      refine Exec.bind_eq_ok_iff.mpr ⟨_, d, ih, ?_⟩
      exact unaryTypeComputer_eq_ok_iff.mpr ⟨hS, rfl, rfl⟩
  | binary left right rule ihleft ihright =>
      refine Exec.bind_eq_ok_iff.mpr ⟨_, d, ihleft, ?_⟩
      refine Exec.bind_eq_ok_iff.mpr ⟨_, d, ihright, ?_⟩
      exact binaryTypeComputer_eq_ok_iff.mpr ⟨rule, rfl⟩
  | replace first second third hS hT hU ihfirst ihsecond ihthird =>
      refine Exec.bind_eq_ok_iff.mpr ⟨_, d, ihfirst, ?_⟩
      refine Exec.bind_eq_ok_iff.mpr ⟨_, d, ihsecond, ?_⟩
      refine Exec.bind_eq_ok_iff.mpr ⟨_, d, ihthird, ?_⟩
      exact ternaryTypeComputer_eq_ok_iff.mpr ⟨hS, hT, hU, rfl, rfl⟩

/-- An operator has a type only if its operands have one. -/
theorem inferExpressionType_unary_eq_ok {operator : UnaryExpressionOperator}
    {operand : Expression}
    (h : inferExpressionType ast container (.unaryExpression operator operand) d =
      some (.ok (some R), d')) :
    ∃ S t, inferExpressionType ast container operand d = some (.ok (some S), t) ∧
      unaryTypeComputer ast operator S operand t = some (.ok (some R), d') := by
  obtain ⟨innerType, t, hinner, h⟩ := Exec.bind_eq_ok_iff.mp h
  cases innerType with
  | none => cases h
  | some S => exact ⟨S, t, hinner, h⟩

theorem inferExpressionType_binary_eq_ok {operator : BinaryExpressionOperator}
    {left right : Expression}
    (h : inferExpressionType ast container (.binaryExpression operator left right) d =
      some (.ok (some R), d')) :
    ∃ S T t u, inferExpressionType ast container left d = some (.ok (some S), t) ∧
      inferExpressionType ast container right t = some (.ok (some T), u) ∧
      binaryTypeComputer ast operator S T (.binaryExpression operator left right) left right u =
        some (.ok (some R), d') := by
  obtain ⟨leftType, t, hleft, h⟩ := Exec.bind_eq_ok_iff.mp h
  obtain ⟨rightType, u, hright, h⟩ := Exec.bind_eq_ok_iff.mp h
  cases leftType with
  | none => cases h
  | some S =>
      cases rightType with
      | none => cases h
      | some T => exact ⟨S, T, t, u, hleft, hright, h⟩

theorem inferExpressionType_ternary_eq_ok {operator : TernaryExpressionOperator}
    {first second third : Expression}
    (h : inferExpressionType ast container (.ternaryExpression operator first second third) d =
      some (.ok (some R), d')) :
    ∃ S T U t u v, inferExpressionType ast container first d = some (.ok (some S), t) ∧
      inferExpressionType ast container second t = some (.ok (some T), u) ∧
      inferExpressionType ast container third u = some (.ok (some U), v) ∧
      ternaryTypeComputer ast operator S T U first second third v =
        some (.ok (some R), d') := by
  obtain ⟨firstType, t, hfirst, h⟩ := Exec.bind_eq_ok_iff.mp h
  obtain ⟨secondType, u, hsecond, h⟩ := Exec.bind_eq_ok_iff.mp h
  obtain ⟨thirdType, v, hthird, h⟩ := Exec.bind_eq_ok_iff.mp h
  cases firstType with
  | none => cases h
  | some S =>
      cases secondType with
      | none => cases h
      | some T =>
          cases thirdType with
          | none => cases h
          | some U => exact ⟨S, T, U, t, u, v, hfirst, hsecond, hthird, h⟩

theorem infers_of_literal (hT : e.literalType = some T)
    (h : inferExpressionType ast container e d = some (.ok (some R), d')) :
    Infers ast container e R := by
  rw [inferExpressionType_of_literal hT] at h
  cases h
  exact .literal hT

theorem infers_of_valueKeyword {lengthAccess : Bool}
    (h : inferTypeFromValueKeyword ast container lengthAccess d = some (.ok (some R), d')) :
    Infers ast container (.valueKeywordLiteral lengthAccess) R := by
  cases container with
  | none => cases h
  | some valueTypeReference =>
      obtain ⟨valueType, t, hwrap, h⟩ := Exec.bind_eq_ok_iff.mp h
      obtain ⟨hT, rfl⟩ := ofExcept_eq_ok_iff.mp hwrap
      cases valueType with
      | none => cases h
      | some valueType =>
          cases lengthAccess with
          | false =>
              cases h
              exact .valueKeyword hT
          | true =>
              obtain ⟨isText, u, hlength, h⟩ := Exec.bind_eq_ok_iff.mp h
              obtain ⟨htext, rfl⟩ := ofExcept_eq_ok_iff.mp hlength
              cases isText with
              | false => cases h
              | true =>
                  cases h
                  exact .valueLength hT htext

theorem infers_of_infer : ∀ {e : Expression} {R : ValueType} {d d' : List Diagnostic},
    e.isFreeOfCollections = true →
    inferExpressionType ast container e d = some (.ok (some R), d') → Infers ast container e R
  | .textLiteral _, _, _, _, _, h => infers_of_literal rfl h
  | .booleanLiteral _, _, _, _, _, h => infers_of_literal rfl h
  | .numericLiteral _, _, _, _, _, h => infers_of_literal rfl h
  | .cellRangeLiteral _, _, _, _, _, h => infers_of_literal rfl h
  | .regexLiteral _, _, _, _, _, h => infers_of_literal rfl h
  | .valuetypeAssignmentLiteral _, _, _, _, _, h => infers_of_literal rfl h
  | .collectionLiteral _, _, _, _, hfree, _ => by cases hfree
  | .valueKeywordLiteral _, _, _, _, _, h => infers_of_valueKeyword h
  | .referenceLiteral _, _, _, _, _, h => .reference (ofExcept_eq_ok_iff.mp h).1
  | .unaryExpression _ operand, R, d, d', hfree, h => by
      have hoperand : operand.isFreeOfCollections = true := hfree
      obtain ⟨S, _, hinner, h⟩ := inferExpressionType_unary_eq_ok h
      obtain ⟨hS, rfl, _⟩ := unaryTypeComputer_eq_ok_iff.mp h
      exact .unary (infers_of_infer hoperand hinner) hS
  | .binaryExpression _ left right, R, d, d', hfree, h => by
      have hoperands : left.isFreeOfCollections = true ∧ right.isFreeOfCollections = true := by
        simpa [Expression.isFreeOfCollections] using hfree
      obtain ⟨S, T, _, _, hleft, hright, h⟩ := inferExpressionType_binary_eq_ok h
      exact .binary (infers_of_infer hoperands.1 hleft) (infers_of_infer hoperands.2 hright)
        (binaryTypeComputer_eq_ok_iff.mp h).1
  | .ternaryExpression operator first second third, R, d, d', hfree, h => by
      have hoperands : (first.isFreeOfCollections = true ∧ second.isFreeOfCollections = true) ∧
          third.isFreeOfCollections = true := by
        simpa [Expression.isFreeOfCollections] using hfree
      obtain ⟨S, T, U, _, _, _, hfirst, hsecond, hthird, h⟩ := inferExpressionType_ternary_eq_ok h
      obtain ⟨hS, hT, hU, rfl, _⟩ := ternaryTypeComputer_eq_ok_iff.mp h
      cases operator
      exact .replace (infers_of_infer hoperands.1.1 hfirst) (infers_of_infer hoperands.1.2 hsecond)
        (infers_of_infer hoperands.2 hthird) hS hT hU

/-- Inference yields a type without a diagnostic exactly where the rules give the expression
that type. -/
theorem inferExpressionType_eq_ok_iff (hfree : e.isFreeOfCollections = true) :
    inferExpressionType ast container e d = some (.ok (some R), d) ↔
      Infers ast container e R :=
  ⟨infers_of_infer hfree, fun h => h.infer d⟩

end Inference

end Jayvee
