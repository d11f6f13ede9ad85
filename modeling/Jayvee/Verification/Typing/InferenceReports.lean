import Jayvee.Foundation.Reports
import Jayvee.Verification.Expressions.Subexpressions
import Jayvee.Verification.Typing.CollectionTypes
import Jayvee.Verification.Typing.TypingRules

/-! # Type inference never fails silently -/

namespace Jayvee

open Foundation

def Diagnostic.IsError (this : Diagnostic) : Prop :=
  this.severity = .error

/-- The inference reports errors only, and finds no type if and only if it reports one. -/
abbrev ReportsErrors {α : Type} (m : Validation (Option α)) : Prop :=
  Exec.ReportsIff Diagnostic.IsError (fun result => result = none) m

/-- What follows on a failure reports errors only, and fails as well. -/
abbrev FailsToo {α : Type} (m : Validation (Option α)) : Prop :=
  Exec.Adds Diagnostic.IsError (fun result => result = none) m

theorem accept_reports (message : String) (info : DiagnosticInfo) :
    Exec.ReportsIff Diagnostic.IsError (fun _ => True) (accept .error message info) :=
  Exec.ReportsIff.report rfl

theorem failsToo_none {α : Type} : FailsToo (pure none : Validation (Option α)) :=
  Exec.Adds.pure rfl

theorem reportsErrors_some {α : Type} (a : α) : ReportsErrors (pure (some a)) :=
  Exec.ReportsIff.pure (by simp)

/-- An error is reported, and there is no type. -/
theorem accept_none_reports {α : Type} (message : String) (info : DiagnosticInfo) :
    ReportsErrors (accept .error message info >>= fun _ => (pure none : Validation (Option α))) :=
  (accept_reports message info).bind (fun _ h => (h trivial).elim) fun _ _ => failsToo_none

theorem ofExcept_reports {α β : Type} {r : Except JsError β} {f : β → Validation (Option α)}
    (hf : ∀ b, r = .ok b → ReportsErrors (f b)) : ReportsErrors (Exec.ofExcept r >>= f) := by
  cases r with
  | error e => exact Exec.ReportsIff.throw e
  | ok b =>
      have hpure : (Exec.ofExcept (Except.ok b) >>= f) = f b := (Exec.Logs.ofExcept _).bind_eq
      rw [hpure]
      exact hf b rfl

/-! ## Type computers -/

section TypeComputers

variable {ast : Ast} {α : Type}

theorem checkOperandType_reports (expectedType operandType : ValueType) (operand : Expression) :
    Exec.ReportsIff Diagnostic.IsError (fun isValid => isValid = false)
      (checkOperandType ast expectedType operandType operand) := by
  refine Exec.ReportsIff.bind (F := fun _ => False)
    (Exec.ReportsIff.ofExcept fun _ _ => id) (fun isConvertible _ => ?_) fun _ h => h.elim
  cases isConvertible with
  | true => exact Exec.ReportsIff.pure (by simp)
  | false =>
      exact (accept_reports _ _).bind (fun _ h => (h trivial).elim)
        fun _ _ => Exec.Adds.pure rfl

theorem checkOperandType_bind {expectedType operandType : ValueType} {operand : Expression}
    {f : Bool → Validation (Option α)} (htrue : ReportsErrors (f true))
    (hfalse : FailsToo (f false)) :
    ReportsErrors (checkOperandType ast expectedType operandType operand >>= f) := by
  refine (checkOperandType_reports _ _ _).bind (fun isValid h => ?_) fun isValid h => ?_
  · obtain rfl : isValid = true := by simpa using h
    exact htrue
  · rwa [h]

theorem checkOperandType_failsToo {expectedType operandType : ValueType} {operand : Expression}
    {f : Bool → Validation (Option α)} (hf : ∀ isValid, FailsToo (f isValid)) :
    FailsToo (checkOperandType ast expectedType operandType operand >>= f) :=
  Exec.Adds.bind (checkOperandType_reports _ _ _) hf

theorem computeUnaryType_reports (expected : ValueType) (doComputeType : ValueType → ValueType)
    (operandType : ValueType) (operand : Expression) :
    ReportsErrors (computeUnaryType ast expected doComputeType operandType operand) :=
  checkOperandType_bind (reportsErrors_some _) failsToo_none

theorem computeBinaryType_reports (expectedLeft expectedRight : ValueType)
    (doComputeType : ValueType → ValueType → ValueType) (leftType rightType : ValueType)
    (left right : Expression) :
    ReportsErrors (computeBinaryType ast expectedLeft expectedRight doComputeType leftType
      rightType left right) := by
  refine checkOperandType_bind ?_ (checkOperandType_failsToo fun _ => failsToo_none)
  exact checkOperandType_bind (reportsErrors_some _) failsToo_none

theorem computeTernaryType_reports (expectedFirst expectedSecond expectedThird : ValueType)
    (resultType firstType secondType thirdType : ValueType) (first second third : Expression) :
    ReportsErrors (computeTernaryType ast expectedFirst expectedSecond expectedThird resultType
      firstType secondType thirdType first second third) := by
  refine checkOperandType_bind ?_ (checkOperandType_failsToo fun _ =>
    checkOperandType_failsToo fun _ => failsToo_none)
  refine checkOperandType_bind ?_ (checkOperandType_failsToo fun _ => failsToo_none)
  exact checkOperandType_bind (reportsErrors_some _) failsToo_none

theorem acceptUnsupportedType_reports (isTypeValid : Bool) (operandType : ValueType)
    (operand : Expression) :
    Exec.ReportsIff Diagnostic.IsError (fun _ => isTypeValid = false)
      (acceptUnsupportedType ast isTypeValid operandType operand) := by
  cases isTypeValid with
  | true => exact Exec.ReportsIff.pure (by simp)
  | false =>
      have hreport : Exec.ReportsIff Diagnostic.IsError (fun _ => True)
          (acceptUnsupportedType ast false operandType operand) := accept_reports _ _
      simpa using hreport

/-- At least one of the two operands has an unsupported type. -/
theorem unsupported_reports {isLeftValid isRightValid : Bool} {leftType rightType : ValueType}
    {left right : Expression} (h : (!isLeftValid || !isRightValid) = true) :
    ReportsErrors (α := α) (do
      acceptUnsupportedType ast isLeftValid leftType left
      acceptUnsupportedType ast isRightValid rightType right
      return none) := by
  refine (acceptUnsupportedType_reports _ _ _).bind (fun _ hleft => ?_) fun _ _ => ?_
  · have hright : isRightValid = false := by simpa [hleft] using h
    refine (acceptUnsupportedType_reports _ _ _).bind (fun _ hno => (hno hright).elim) ?_
    exact fun _ _ => failsToo_none
  · exact Exec.Adds.bind (acceptUnsupportedType_reports _ _ _) fun _ => failsToo_none

theorem equalityOperatorTypeComputer_reports (leftType rightType : ValueType)
    (expression left right : Expression) :
    ReportsErrors (equalityOperatorTypeComputer ast leftType rightType expression left right) := by
  refine Exec.ReportsIff.ite unsupported_reports fun _ => ?_
  refine ofExcept_reports fun isLeftConvertible _ => ofExcept_reports fun isRightConvertible _ => ?_
  exact Exec.ReportsIff.ite (fun _ => accept_none_reports _ _) fun _ => reportsErrors_some _

theorem inOperatorTypeComputer_reports (leftType rightType : ValueType)
    (expression left right : Expression) :
    ReportsErrors (inOperatorTypeComputer ast leftType rightType expression left right) := by
  refine Exec.ReportsIff.ite unsupported_reports fun _ => ?_
  cases rightType with
  | collection elementType =>
      refine ofExcept_reports fun isLeftConvertible _ => ofExcept_reports fun isRight _ => ?_
      exact Exec.ReportsIff.ite (fun _ => accept_none_reports _ _) fun _ => reportsErrors_some _
  | _ => exact Exec.ReportsIff.throw _

theorem binaryTypeComputer_reports (operator : BinaryExpressionOperator)
    (leftType rightType : ValueType) (expression left right : Expression) :
    ReportsErrors (binaryTypeComputer ast operator leftType rightType expression left right) := by
  cases hoperator : operator.operandTypes with
  | some expected =>
      rw [binaryTypeComputer_eq hoperator]
      exact computeBinaryType_reports _ _ _ _ _ _ _
  | none =>
      cases operator with
      | equal | unequal => exact equalityOperatorTypeComputer_reports _ _ _ _ _
      | «in» => exact inOperatorTypeComputer_reports _ _ _ _ _
      | _ => cases hoperator

end TypeComputers

/-! ## Collections -/

theorem inferCollectionType_reports (ast : Ast) (collection : Expression)
    (elementValuetypes : List ValueType) :
    ReportsErrors (inferCollectionType ast collection elementValuetypes) := by
  refine ofExcept_reports fun hierarchyStacks hstacks => ?_
  have hspec := getValuetypeHierarchyStacks_spec hstacks
  split
  · exact reportsErrors_some _
  · cases hspec with
    | cons hstack _ =>
        rw [hstack.1]
        exact reportsErrors_some _
  · refine ofExcept_reports fun common _ => ?_
    cases common with
    | none => exact accept_none_reports _ _
    | some commonPrimitiveValuetype =>
        dsimp only
        split
        · exact reportsErrors_some _
        · exact reportsErrors_some _

/-! ## Expressions -/

/-- The references in the expression, and the value type of the constraint that it belongs to,
lead to value types. Others are linking errors. -/
structure Expression.IsLinked (ast : Ast) (container : Option ValueTypeReference)
    (expression : Expression) : Prop where
  references : Everywhere Expression.children
    (fun inner => ∀ value, inner = .referenceLiteral value →
      inferTypeFromReferenceLiteral ast value ≠ .ok none) expression
  container : ∀ reference, container = some reference → ValueType.wrap ast reference ≠ .ok none

namespace Expression.IsLinked

variable {ast : Ast} {container : Option ValueTypeReference} {expression child : Expression}

theorem below (h : expression.IsLinked ast container) (hchild : child ∈ expression.children) :
    child.IsLinked ast container :=
  ⟨(everywhere_iff.mp h.references).2 child hchild, h.container⟩

end Expression.IsLinked

variable {ast : Ast} {container : Option ValueTypeReference}

theorem inferTypeFromValueKeyword_reports (lengthAccess : Bool)
    (hcontainer : ∀ reference, container = some reference →
      ValueType.wrap ast reference ≠ .ok none) :
    ReportsErrors (inferTypeFromValueKeyword ast container lengthAccess) := by
  cases container with
  | none => exact accept_none_reports _ _
  | some reference =>
      refine ofExcept_reports fun wrapped hwrapped => ?_
      cases wrapped with
      | none => exact (hcontainer reference rfl hwrapped).elim
      | some valueType =>
          refine Exec.ReportsIff.ite (fun _ => reportsErrors_some _) fun _ => ?_
          refine ofExcept_reports fun isText _ => ?_
          exact Exec.ReportsIff.ite (fun _ => reportsErrors_some _) fun _ => accept_none_reports _ _

/-- The types of the elements, where one without a type is a failure. -/
theorem inferCollectionElementTypes_reports {values : List Expression}
    (h : ∀ value ∈ values, ReportsErrors (inferExpressionType ast container value)) :
    Exec.ReportsIff Diagnostic.IsError (fun types => isEveryValueDefined types = none)
      (inferCollectionElementTypes ast container values) := by
  induction values with
  | nil => exact Exec.ReportsIff.pure (by simp [isEveryValueDefined])
  | cons value values ih =>
      rw [List.forall_mem_cons] at h
      refine h.1.bind (fun type htype => ?_) fun type htype => ?_
      · obtain ⟨T, rfl⟩ := Option.ne_none_iff_exists'.mp htype
        refine (ih h.2).bind (fun types htypes => ?_) fun types htypes => ?_
        · exact Exec.ReportsIff.pure (by simpa [isEveryValueDefined] using htypes)
        · exact Exec.Adds.pure (by simp [isEveryValueDefined, htypes])
      · subst htype
        exact Exec.Adds.bind (ih h.2) fun types => Exec.Adds.pure rfl

theorem inferExpressionType_reportsErrors (expression : Expression)
    (hlinked : expression.IsLinked ast container) :
    ReportsErrors (inferExpressionType ast container expression) := by
  induction expression using Expression.inductionOnChildren with
  | step expression ih =>
    have hchildren := fun child hchild => ih child hchild (hlinked.below hchild)
    cases expression with
    | collectionLiteral values =>
        refine (inferCollectionElementTypes_reports hchildren).bind (fun types h => ?_)
          fun types h => ?_
        · obtain ⟨elementValuetypes, htypes⟩ := Option.ne_none_iff_exists'.mp h
          rw [htypes]
          exact inferCollectionType_reports ast _ elementValuetypes
        · rw [h]
          exact failsToo_none
    | unaryExpression operator operand =>
        refine (hchildren operand (by simp [Expression.children])).bind (fun innerType h => ?_)
          fun innerType h => ?_
        · obtain ⟨T, rfl⟩ := Option.ne_none_iff_exists'.mp h
          dsimp only
          rw [unaryTypeComputer_eq]
          exact computeUnaryType_reports _ _ _ _
        · subst h
          exact failsToo_none
    | binaryExpression operator left right =>
        have hleft := hchildren left (by simp [Expression.children])
        have hright := hchildren right (by simp [Expression.children])
        refine hleft.bind (fun leftType h => ?_) fun leftType h => ?_
        · obtain ⟨S, rfl⟩ := Option.ne_none_iff_exists'.mp h
          refine hright.bind (fun rightType h => ?_) fun rightType h => ?_
          · obtain ⟨T, rfl⟩ := Option.ne_none_iff_exists'.mp h
            exact binaryTypeComputer_reports _ _ _ _ _ _
          · subst h
            exact failsToo_none
        · subst h
          exact Exec.Adds.bind hright fun _ => failsToo_none
    | ternaryExpression operator first second third =>
        have hfirst := hchildren first (by simp [Expression.children])
        have hsecond := hchildren second (by simp [Expression.children])
        have hthird := hchildren third (by simp [Expression.children])
        refine hfirst.bind (fun firstType h => ?_) fun firstType h => ?_
        · obtain ⟨S, rfl⟩ := Option.ne_none_iff_exists'.mp h
          refine hsecond.bind (fun secondType h => ?_) fun secondType h => ?_
          · obtain ⟨T, rfl⟩ := Option.ne_none_iff_exists'.mp h
            refine hthird.bind (fun thirdType h => ?_) fun thirdType h => ?_
            · obtain ⟨U, rfl⟩ := Option.ne_none_iff_exists'.mp h
              cases operator
              exact computeTernaryType_reports _ _ _ _ _ _ _ _ _ _
            · subst h
              exact failsToo_none
          · subst h
            exact Exec.Adds.bind hthird fun _ => failsToo_none
        · subst h
          exact Exec.Adds.bind hsecond fun _ => Exec.Adds.bind hthird fun _ => failsToo_none
    | valueKeywordLiteral lengthAccess =>
        exact inferTypeFromValueKeyword_reports lengthAccess hlinked.container
    | referenceLiteral value =>
        exact Exec.ReportsIff.ofExcept fun result hresult hnone =>
          hlinked.references.self value rfl (hnone ▸ hresult)
    | _ => exact reportsErrors_some _

/-- Where all references are linked, the inference never fails silently: it finds no type if and
only if it reports an error, it reports nothing but errors, and what was reported before stays. -/
theorem inferExpressionType_reports (ast : Ast) (container : Option ValueTypeReference)
    (expression : Expression) (hlinked : expression.IsLinked ast container)
    (diagnostics after : List Diagnostic) (result : Option ValueType)
    (hrun : inferExpressionType ast container expression diagnostics = some (.ok result, after)) :
    ∃ log, after = diagnostics ++ log ∧ (∀ diagnostic ∈ log, diagnostic.severity = .error) ∧
      (result = none ↔ log ≠ []) := by
  obtain ⟨log, hafter, herrors, hiff⟩ :=
    inferExpressionType_reportsErrors expression hlinked diagnostics _ after hrun
  exact ⟨log, hafter, herrors, hiff result rfl⟩

/-- `[1, "one"]`. -/
def mixedCollection : Expression :=
  .collectionLiteral [.numericLiteral 1, .textLiteral "one"]

/-- The elements of the collection have no common type. -/
theorem inferExpressionType_reports_mixedCollection :
    ∃ diagnostic, inferExpressionType emptyAst none mixedCollection [] =
      some (.ok none, [diagnostic]) ∧ diagnostic.severity = .error := by
  have hlinked : mixedCollection.IsLinked emptyAst none := by
    refine ⟨everywhere_iff.mpr ⟨nofun, fun child hchild => ?_⟩, nofun⟩
    rcases List.mem_pair.mp hchild with rfl | rfl
    · exact everywhere_iff.mpr ⟨nofun, nofun⟩
    · exact everywhere_iff.mpr ⟨nofun, nofun⟩
  have hrun : ∃ diagnostic, inferExpressionType emptyAst none mixedCollection [] =
      some (.ok none, [diagnostic]) := ⟨_, rfl⟩
  obtain ⟨diagnostic, hrun⟩ := hrun
  obtain ⟨log, hlog, herrors, _⟩ :=
    inferExpressionType_reports emptyAst none mixedCollection hlinked [] _ none hrun
  have hmem : diagnostic ∈ log := by
    rw [List.nil_append] at hlog
    rw [← hlog]
    exact List.mem_singleton_self diagnostic
  exact ⟨diagnostic, hrun, herrors diagnostic hmem⟩

end Jayvee
