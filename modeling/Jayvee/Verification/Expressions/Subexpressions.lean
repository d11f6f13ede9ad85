import Jayvee.Model.ExpressionValidation

/-! # Subexpressions without free variables -/

namespace Jayvee

open Foundation

/-! ## The expressions inside of an expression -/

namespace Expression

/-- The expressions directly inside, also those of a collection. -/
def children : Expression → List Expression
  | collectionLiteral values => values
  | unaryExpression _ expression => [expression]
  | binaryExpression _ left right => [left, right]
  | ternaryExpression _ first second third => [first, second, third]
  | _ => []

theorem sizeOf_lt_of_mem_children {expression child : Expression}
    (h : child ∈ expression.children) : sizeOf child < sizeOf expression := by
  cases expression with
  | collectionLiteral values =>
      have hlt : sizeOf child < sizeOf values := List.sizeOf_lt_of_mem h
      simp only [collectionLiteral.sizeOf_spec]
      omega
  | unaryExpression _ inner =>
      simp only [children, List.mem_singleton] at h
      simp only [h, unaryExpression.sizeOf_spec]
      omega
  | binaryExpression _ left right =>
      simp only [children, List.mem_cons, List.not_mem_nil, or_false] at h
      simp only [binaryExpression.sizeOf_spec]
      rcases h with rfl | rfl <;> omega
  | ternaryExpression _ first second third =>
      simp only [children, List.mem_cons, List.not_mem_nil, or_false] at h
      simp only [ternaryExpression.sizeOf_spec]
      rcases h with rfl | rfl | rfl <;> omega
  | _ => cases h

/-- An expression is settled once the expressions directly inside are. -/
theorem inductionOnChildren {motive : Expression → Prop}
    (step : ∀ expression, (∀ child ∈ expression.children, motive child) → motive expression)
    (expression : Expression) : motive expression :=
  step expression fun child hchild =>
    have := sizeOf_lt_of_mem_children hchild
    inductionOnChildren step child
  termination_by sizeOf expression

/-- Neither the expression nor one inside of it, at any depth, is a free variable. -/
def HasNoFreeVariables : Expression → Prop :=
  Everywhere children fun inner => inner.isFreeVariableLiteral = false

theorem hasNoFreeVariables_iff {expression : Expression} :
    expression.HasNoFreeVariables ↔
      expression.isFreeVariableLiteral = false ∧
        ∀ child ∈ expression.children, child.HasNoFreeVariables :=
  everywhere_iff

def isCollectionLiteral : Expression → Bool
  | collectionLiteral _ => true
  | _ => false

/-- No collection inside of the expression contains a free variable. -/
def CollectionsHaveNoFreeVariables : Expression → Prop :=
  Everywhere children fun inner => inner.isCollectionLiteral = true → inner.HasNoFreeVariables

/-- A subexpression at the end of a path. -/
def Contains (expression : Expression) (path : List Nat) (inner : Expression) : Prop :=
  subtermAt children expression path = some inner

/-- The path ends inside of a collection. -/
def IsInsideCollection (expression : Expression) (path : List Nat) : Prop :=
  IsBelow children (fun outer => outer.isCollectionLiteral = true) expression path

/-- The operands of an operator. -/
def operands : Expression → List Expression :=
  pruned isCollectionLiteral children

theorem subtermAt_operands_iff {expression inner : Expression} {path : List Nat} :
    subtermAt operands expression path = some inner ↔
      expression.Contains path inner ∧ ¬ expression.IsInsideCollection path :=
  subtermAt_pruned_iff

theorem mem_children_of_mem_operands {expression child : Expression}
    (h : child ∈ expression.operands) : child ∈ expression.children := by
  rw [operands, pruned] at h
  split_ifs at h
  · cases h
  · exact h

/-- Outside of collections, there are no free variables. -/
def OperandsHaveNoFreeVariables : Expression → Prop :=
  Everywhere operands fun inner => inner.isFreeVariableLiteral = false

theorem operandsHaveNoFreeVariables_iff {expression : Expression} :
    expression.OperandsHaveNoFreeVariables ↔
      expression.isFreeVariableLiteral = false ∧
        ∀ child ∈ expression.operands, child.OperandsHaveNoFreeVariables :=
  everywhere_iff

theorem HasNoFreeVariables.operands {expression : Expression}
    (h : expression.HasNoFreeVariables) : expression.OperandsHaveNoFreeVariables :=
  fun path inner hinner => h path inner (subtermAt_operands_iff.mp hinner).1

/-- If no collection has a free variable, there is none inside of collections either. -/
theorem OperandsHaveNoFreeVariables.hasNoFreeVariables {expression : Expression}
    (h : expression.OperandsHaveNoFreeVariables)
    (hcollections : expression.CollectionsHaveNoFreeVariables) :
    expression.HasNoFreeVariables := by
  intro path inner hinner
  by_cases hinside : expression.IsInsideCollection path
  · obtain ⟨outer, ⟨rest, rfl⟩, _, collection, houter, hcollection⟩ := hinside
    have hclosed := hcollections outer collection houter hcollection
    rw [subtermAt_append, houter] at hinner
    exact hclosed rest inner hinner
  · exact h path inner (subtermAt_operands_iff.mpr ⟨hinner, hinside⟩)

end Expression

/-! ## Evaluation -/

section Evaluation

variable {runtime : JsRuntime} {strategy : EvaluationStrategy} {env env' : EvaluationContext}

theorem evaluateExpressions_congr {values : List Expression}
    (h : ∀ value ∈ values, evaluateExpression runtime env strategy value =
      evaluateExpression runtime env' strategy value) :
    evaluateExpressions runtime env strategy values =
      evaluateExpressions runtime env' strategy values := by
  induction values with
  | nil => rfl
  | cons value values ih =>
      rw [evaluateExpressions, evaluateExpressions, h value List.mem_cons_self,
        ih fun other hother => h other (List.mem_cons_of_mem _ hother)]

/-- Without free variables, the value is the same in all contexts. -/
theorem evaluateExpression_of_hasNoFreeVariables {expression : Expression}
    (h : expression.HasNoFreeVariables) :
    evaluateExpression runtime env strategy expression =
      evaluateExpression runtime env' strategy expression := by
  induction expression using Expression.inductionOnChildren with
  | step expression ih =>
    obtain ⟨hself, hchildren⟩ := Expression.hasNoFreeVariables_iff.mp h
    have hsame := fun child hchild => ih child hchild (hchildren child hchild)
    cases expression with
    | valueKeywordLiteral _ => cases hself
    | referenceLiteral _ => cases hself
    | collectionLiteral values =>
        have hvalues : evaluateExpressions runtime env strategy values =
            evaluateExpressions runtime env' strategy values := evaluateExpressions_congr hsame
        rw [evaluateExpression, evaluateExpression, hvalues]
    | unaryExpression _ expression =>
        rw [evaluateExpression, evaluateExpression, hsame expression (by simp [Expression.children])]
    | binaryExpression _ left right =>
        rw [evaluateExpression, evaluateExpression, hsame left (by simp [Expression.children]),
          hsame right (by simp [Expression.children])]
    | ternaryExpression _ first second third =>
        rw [evaluateExpression, evaluateExpression, hsame first (by simp [Expression.children]),
          hsame second (by simp [Expression.children]), hsame third (by simp [Expression.children])]
    | _ => rw [evaluateExpression, evaluateExpression]

end Evaluation

/-! ## Collected subexpressions -/

section Collected

variable {path base : List Nat} {expression : Expression}

/-- The maximal subexpressions without free variables, where collections are not looked into. -/
def IsMaximalOperand (expression : Expression) : List Nat → Expression → Prop :=
  IsOutermostAt Expression.operands Expression.OperandsHaveNoFreeVariables expression

theorem lists_self (h : expression.OperandsHaveNoFreeVariables) (base : List Nat) :
    Lists (IsMaximalOperand expression) base [⟨base, expression⟩] :=
  (lists_singleton expression).congr fun _ _ => (isOutermostAt_of_holds h).symm

/-- What is collected from an operand is the operand alone exactly if it has no free variable. -/
theorem hasNoFreeVariables_eq_true_iff {nodes : List ExpressionNode}
    (h : Lists (IsMaximalOperand expression) path nodes) :
    hasNoFreeVariables nodes path = true ↔ expression.OperandsHaveNoFreeVariables := by
  constructor
  · intro hsingle
    obtain ⟨hlength, hpath⟩ := of_decide_eq_true hsingle
    obtain ⟨node, rfl⟩ := List.length_eq_one_iff.mp hlength
    obtain ⟨rest, hrest, hmaximal⟩ := (h.mem_iff node).mp List.mem_cons_self
    simp only [List.getElem?_cons_zero, Option.map_some, Option.some.injEq] at hpath
    rw [hpath] at hrest
    have hnil : rest = [] := by simpa using hrest
    rw [hnil] at hmaximal
    cases hmaximal.subterm_eq
    exact hmaximal.holds
  · intro hclosed
    have hself := lists_self hclosed path
    have hperm : nodes.Perm [⟨path, expression⟩] :=
      (List.perm_ext_iff_of_nodup h.nodup hself.nodup).mpr fun node =>
        (h.mem_iff node).trans (hself.mem_iff node).symm
    rw [List.perm_singleton.mp hperm]
    simp [hasNoFreeVariables]

/-- What is collected from the operands of an operator. -/
def collectedFromOperands (base : List Nat) (expression : Expression) :
    List (List ExpressionNode) :=
  expression.operands.zipIdx.map fun operand =>
    collectSubExpressionsWithoutFreeVariables (base ++ [operand.2]) operand.1

theorem getElem?_collectedFromOperands {i : Nat} :
    (collectedFromOperands base expression)[i]? = expression.operands[i]?.map
      (collectSubExpressionsWithoutFreeVariables (base ++ [i])) := by
  simp [collectedFromOperands, Function.comp_def]

/-- The three kinds of operators do the same with their operands. -/
theorem collectSubExpressions_operator (h : expression.isExpressionLiteral = false) :
    collectSubExpressionsWithoutFreeVariables base expression =
      if (collectedFromOperands base expression).zipIdx.all fun result =>
          hasNoFreeVariables result.1 (base ++ [result.2]) then
        [⟨base, expression⟩]
      else
        (collectedFromOperands base expression).flatten := by
  cases expression with
  | unaryExpression _ _ =>
      simp [collectSubExpressionsWithoutFreeVariables, collectedFromOperands, Expression.operands,
        pruned, Expression.isCollectionLiteral, Expression.children]
  | binaryExpression _ _ _ =>
      simp [collectSubExpressionsWithoutFreeVariables, collectedFromOperands, Expression.operands,
        pruned, Expression.isCollectionLiteral, Expression.children]
  | ternaryExpression _ _ _ _ =>
      simp [collectSubExpressionsWithoutFreeVariables, collectedFromOperands, Expression.operands,
        pruned, Expression.isCollectionLiteral, Expression.children, and_assoc]
  | _ => cases h

theorem collectSubExpressions_literal (h : expression.isExpressionLiteral = true) :
    collectSubExpressionsWithoutFreeVariables base expression =
      if expression.isFreeVariableLiteral then [] else [⟨base, expression⟩] := by
  cases expression <;> first | rfl | cases h

theorem Expression.operands_of_literal (h : expression.isExpressionLiteral = true) :
    expression.operands = [] := by
  cases expression <;> first | rfl | cases h

/-- Value literals have no operands, also those of collections. -/
theorem Expression.operandsHaveNoFreeVariables_of_isValueLiteral
    (h : expression.isValueLiteral = true) : expression.OperandsHaveNoFreeVariables := by
  have hliteral : expression.isExpressionLiteral = true := by simp [isExpressionLiteral, h]
  refine operandsHaveNoFreeVariables_iff.mpr ⟨?_, by simp [operands_of_literal hliteral]⟩
  cases expression <;> first | rfl | cases h

section OneLevel

variable (h : ∀ child ∈ expression.operands, ∀ base, Lists (IsMaximalOperand child) base
  (collectSubExpressionsWithoutFreeVariables base child))

include h

theorem collectedFromOperands_lists {i : Nat} {child : Expression} {result : List ExpressionNode}
    (hchild : expression.operands[i]? = some child)
    (hresult : (collectedFromOperands base expression)[i]? = some result) :
    Lists (IsMaximalOperand child) (base ++ [i]) result := by
  rw [getElem?_collectedFromOperands, hchild, Option.map_some, Option.some.injEq] at hresult
  rw [← hresult]
  exact h child (List.mem_of_getElem? hchild) _

/-- The test of the results tells whether the operands have free variables. -/
theorem collectedFromOperands_all_iff :
    ((collectedFromOperands base expression).zipIdx.all fun result =>
      hasNoFreeVariables result.1 (base ++ [result.2])) = true ↔
        ∀ child ∈ expression.operands, child.OperandsHaveNoFreeVariables := by
  rw [List.all_eq_true]
  constructor
  · intro hall child hchild
    obtain ⟨i, hi⟩ := List.mem_iff_getElem?.mp hchild
    have hresult : (collectedFromOperands base expression)[i]? =
        some (collectSubExpressionsWithoutFreeVariables (base ++ [i]) child) := by
      rw [getElem?_collectedFromOperands, hi, Option.map_some]
    exact (hasNoFreeVariables_eq_true_iff (collectedFromOperands_lists h hi hresult)).mp
      (hall (_, i) (List.mk_mem_zipIdx_iff_getElem?.mpr hresult))
  · rintro hchildren ⟨result, i⟩ hmem
    have hresult := List.mk_mem_zipIdx_iff_getElem?.mp hmem
    have hchild := hresult
    rw [getElem?_collectedFromOperands, Option.map_eq_some_iff] at hchild
    obtain ⟨child, hi, _⟩ := hchild
    exact (hasNoFreeVariables_eq_true_iff (collectedFromOperands_lists h hi hresult)).mpr
      (hchildren child (List.mem_of_getElem? hi))

theorem collectSubExpressions_operator_lists
    (hliteral : expression.isExpressionLiteral = false) :
    Lists (IsMaximalOperand expression) base
      (collectSubExpressionsWithoutFreeVariables base expression) := by
  have hself : expression.isFreeVariableLiteral = false := (Bool.or_eq_false_iff.mp hliteral).2
  have hlength : (collectedFromOperands base expression).length = expression.operands.length := by
    simp [collectedFromOperands]
  rw [collectSubExpressions_operator hliteral]
  by_cases hholds : expression.OperandsHaveNoFreeVariables
  · have hall := (Expression.operandsHaveNoFreeVariables_iff.mp hholds).2
    rw [if_pos ((collectedFromOperands_all_iff h).mpr hall)]
    exact lists_self hholds base
  · have hnot : ¬ ∀ child ∈ expression.operands, child.OperandsHaveNoFreeVariables :=
      fun hall => hholds (Expression.operandsHaveNoFreeVariables_iff.mpr ⟨hself, hall⟩)
    rw [if_neg (mt (collectedFromOperands_all_iff h).mp hnot)]
    exact (lists_flatten _ hlength fun _ _ _ => collectedFromOperands_lists h).congr
      fun _ _ => (isOutermostAt_of_not hholds).symm

end OneLevel

/-- What is collected, for every expression. -/
theorem collectSubExpressions_lists (expression : Expression) (base : List Nat) :
    Lists (IsMaximalOperand expression) base
      (collectSubExpressionsWithoutFreeVariables base expression) := by
  induction expression using Expression.inductionOnChildren generalizing base with
  | step expression ih =>
    by_cases hliteral : expression.isExpressionLiteral = true
    · rw [collectSubExpressions_literal hliteral]
      by_cases hfree : expression.isFreeVariableLiteral = true
      · rw [if_pos hfree]
        refine lists_nil fun path inner hmaximal => ?_
        have hopen : ¬ expression.OperandsHaveNoFreeVariables := fun hclosed => by
          simp [hclosed.self] at hfree
        obtain ⟨i, rest, child, _, hchild, _⟩ := (isOutermostAt_of_not hopen).mp hmaximal
        simp [Expression.operands_of_literal hliteral] at hchild
      · rw [if_neg hfree]
        have hvalue : expression.isValueLiteral = true := by
          simpa [Expression.isExpressionLiteral, hfree] using hliteral
        exact lists_self (Expression.operandsHaveNoFreeVariables_of_isValueLiteral hvalue) base
    · refine collectSubExpressions_operator_lists (fun child hchild => ?_)
        (Bool.eq_false_of_not_eq_true hliteral)
      exact ih child (Expression.mem_children_of_mem_operands hchild)

theorem mem_collectSubExpressions {node : ExpressionNode} :
    node ∈ collectSubExpressionsWithoutFreeVariables [] expression ↔
      IsMaximalOperand expression node.path node.term := by
  rw [(collectSubExpressions_lists expression []).mem_iff]
  simp

/-! ## Maximal subexpressions -/

/-- The maximal subexpressions without free variables. -/
def IsMaximalWithoutFreeVariables (expression : Expression) : List Nat → Expression → Prop :=
  IsOutermostAt Expression.children Expression.HasNoFreeVariables expression

theorem Expression.CollectionsHaveNoFreeVariables.below
    (h : expression.CollectionsHaveNoFreeVariables) {inner : Expression}
    (hinner : expression.Contains path inner) : inner.CollectionsHaveNoFreeVariables :=
  Everywhere.below h hinner

/-- If no collection has a free variable, it does not matter that collections are not looked
into. -/
theorem isMaximalOperand_iff (h : expression.CollectionsHaveNoFreeVariables)
    {inner : Expression} :
    IsMaximalOperand expression path inner ↔
      IsMaximalWithoutFreeVariables expression path inner := by
  constructor
  · rintro ⟨hinner, hholds, hnot⟩
    obtain ⟨hcontains, houtside⟩ := Expression.subtermAt_operands_iff.mp hinner
    refine ⟨hcontains, hholds.hasNoFreeVariables (h.below hcontains), ?_⟩
    rintro ⟨outer, habove, hne, around, haround, hclosed⟩
    refine hnot ⟨outer, habove, hne, around, ?_, hclosed.operands⟩
    exact Expression.subtermAt_operands_iff.mpr
      ⟨haround, fun hinside => houtside (hinside.mono habove)⟩
  · rintro ⟨hcontains, hclosed, hnot⟩
    have houtside : ¬ expression.IsInsideCollection path := by
      rintro ⟨outer, habove, hne, collection, houter, hcollection⟩
      exact hnot ⟨outer, habove, hne, collection, houter,
        h outer collection houter hcollection⟩
    refine ⟨Expression.subtermAt_operands_iff.mpr ⟨hcontains, houtside⟩, hclosed.operands, ?_⟩
    rintro ⟨outer, habove, hne, around, haround, hholds⟩
    have hcontainsAround := (Expression.subtermAt_operands_iff.mp haround).1
    exact hnot ⟨outer, habove, hne, around, hcontainsAround,
      hholds.hasNoFreeVariables (h.below hcontainsAround)⟩

theorem Expression.operandsHaveNoFreeVariables_of_isCollectionLiteral
    (h : expression.isCollectionLiteral = true) : expression.OperandsHaveNoFreeVariables := by
  cases expression with
  | collectionLiteral values => exact operandsHaveNoFreeVariables_of_isValueLiteral rfl
  | _ => cases h

/-- The outermost collection around one with a free variable is inside of what is collected. -/
theorem exists_collected_of_not (h : ¬ expression.CollectionsHaveNoFreeVariables) :
    ∃ path inner, IsMaximalOperand expression path inner ∧ ¬ inner.HasNoFreeVariables := by
  simp only [Expression.CollectionsHaveNoFreeVariables, Everywhere, not_forall] at h
  obtain ⟨path, collection, hcontains, hcollection, hopen⟩ := h
  obtain ⟨outer, rest, around, _, houtermost, haround⟩ :=
    exists_isOutermostAt (P := fun inner => inner.isCollectionLiteral = true) hcontains hcollection
  have hoperand := Expression.subtermAt_operands_iff.mpr
    ⟨houtermost.subterm_eq, houtermost.not_isBelow⟩
  obtain ⟨path', rest', inner, _, hmaximal, hinside⟩ := exists_isOutermostAt hoperand
    (Expression.operandsHaveNoFreeVariables_of_isCollectionLiteral houtermost.holds)
  refine ⟨path', inner, hmaximal, fun hclosed => hopen ?_⟩
  exact (hclosed.below (Expression.subtermAt_operands_iff.mp hinside).1).below haround

end Collected

/-- What is collected are the maximal subexpressions without free variables, each occurrence
once, and none of them depends on the context. -/
structure CollectsMaximalSubexpressions (expression : Expression) : Prop where
  mem_iff : ∀ node : ExpressionNode,
    node ∈ collectSubExpressionsWithoutFreeVariables [] expression ↔
      IsMaximalWithoutFreeVariables expression node.path node.term
  nodup : (collectSubExpressionsWithoutFreeVariables [] expression).Nodup
  independent : ∀ node ∈ collectSubExpressionsWithoutFreeVariables [] expression,
    ∀ (runtime : JsRuntime) (strategy : EvaluationStrategy) (env env' : EvaluationContext),
      evaluateExpression runtime env strategy node.term =
        evaluateExpression runtime env' strategy node.term

/-- This is so exactly if no collection inside of the expression has a free variable. -/
theorem collectsMaximalSubexpressions_iff (expression : Expression) :
    CollectsMaximalSubexpressions expression ↔ expression.CollectionsHaveNoFreeVariables := by
  constructor
  · intro hcollects
    by_contra hnot
    obtain ⟨path, inner, hmaximal, hopen⟩ := exists_collected_of_not hnot
    have hmem : ⟨path, inner⟩ ∈ collectSubExpressionsWithoutFreeVariables [] expression :=
      mem_collectSubExpressions.mpr hmaximal
    exact hopen ((hcollects.mem_iff _).mp hmem).holds
  · intro h
    have hmem : ∀ node : ExpressionNode,
        node ∈ collectSubExpressionsWithoutFreeVariables [] expression ↔
          IsMaximalWithoutFreeVariables expression node.path node.term :=
      fun node => mem_collectSubExpressions.trans (isMaximalOperand_iff h)
    refine ⟨hmem, (collectSubExpressions_lists expression []).nodup, ?_⟩
    intro node hnode runtime strategy env env'
    exact evaluateExpression_of_hasNoFreeVariables ((hmem node).mp hnode).holds

/-- `[value] == []`: the whole expression is taken for one without free variables. -/
def valueCollectionExpression : Expression :=
  .binaryExpression .equal (.collectionLiteral [.valueKeywordLiteral false]) (.collectionLiteral [])

theorem not_collectsMaximalSubexpressions_valueCollection :
    ¬ ∀ expression : Expression, CollectsMaximalSubexpressions expression := by
  intro h
  have hmem : (⟨[], valueCollectionExpression⟩ : ExpressionNode) ∈
      collectSubExpressionsWithoutFreeVariables [] valueCollectionExpression := by
    simp [valueCollectionExpression, collectSubExpressionsWithoutFreeVariables,
      hasNoFreeVariables, Expression.isFreeVariableLiteral]
  have hclosed := (((h valueCollectionExpression).mem_iff _).mp hmem).holds
  exact absurd (hclosed [0, 0] (.valueKeywordLiteral false) rfl) (by decide)

end Jayvee
