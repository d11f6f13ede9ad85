import Jayvee.Verification.Evaluation.LargerContexts
import Jayvee.Verification.Evaluation.QuietValues
import Jayvee.Verification.Expressions.Replacement
import Jayvee.Verification.Expressions.Simplification

/-! # Following the suggestions of the simplification -/

namespace Jayvee

open Foundation

/-! ## Literals -/

section Literals

open NumberParsing RegExp

/-- The terminals `INTEGER` and `DECIMAL`. -/
def numericLiteralRegex : RegularExpression Char :=
  atLeastOne digit * optional (RegularExpression.char '.' * atLeastOne digit)

variable (runtime : JsRuntime)

/-- The number that a numeric literal stands for. -/
def readNumericLiteral (text : String) : Option JsNumber :=
  if numericLiteralRegex.rmatch text.toList then some (runtime.parseFloat text) else none

/-- The expression that a text is parsed to, if it is a literal without escapes, or a number with
a minus. -/
def readLiteral (text : String) : Option Expression :=
  if text = "true" then
    some (.booleanLiteral true)
  else if text = "false" then
    some (.booleanLiteral false)
  else
    match text.toList with
    | '"' :: rest =>
        if rest.getLast? = some '"' && rest.dropLast.all fun c => c ≠ '"' && c ≠ '\\' then
          some (.textLiteral (String.ofList rest.dropLast))
        else
          none
    | '-' :: digits =>
        (readNumericLiteral runtime (String.ofList digits)).map fun value =>
          .unaryExpression .minus (.numericLiteral value)
    | _ => (readNumericLiteral runtime text).map .numericLiteral

/-- The printed value is a literal again. For a number it has to be printed without an exponent,
as numbers from `10 ^ (-6)` to `10 ^ 21` are. -/
def Value.IsReadable : Value → Prop
  | boolean _ => True
  | number (.finite value) =>
      readNumericLiteral runtime (runtime.finiteToString |value|) = some (.finite |value|)
  | string value => ∀ c ∈ value.toList, c ≠ '"' ∧ c ≠ '\\'
  | _ => False

variable {runtime}

theorem exists_digit_of_rmatch {cs : List Char} (h : numericLiteralRegex.rmatch cs = true) :
    ∃ c ∈ "0123456789".toList, ∃ rest, cs = c :: rest := by
  rw [RegularExpression.rmatch_iff_matches', numericLiteralRegex, RegularExpression.matches'_mul,
    Language.mem_mul] at h
  obtain ⟨integer, hinteger, rest, _, rfl⟩ := h
  obtain ⟨hne, hdigits⟩ := mem_atLeastOne_oneOf.mp hinteger
  obtain ⟨c, cs, rfl⟩ := List.exists_cons_of_ne_nil hne
  exact ⟨c, hdigits c List.mem_cons_self, cs ++ rest, rfl⟩

/-- No other literal starts with a digit. -/
theorem readLiteral_of_numeric {text : String} {x : JsNumber}
    (h : readNumericLiteral runtime text = some x) :
    readLiteral runtime text = some (.numericLiteral x) := by
  have hmatches : numericLiteralRegex.rmatch text.toList = true := by
    by_contra hno
    rw [readNumericLiteral, if_neg hno] at h
    cases h
  obtain ⟨c, hdigit, rest, htext⟩ := exists_digit_of_rmatch hmatches
  have hfirst : ∀ d ∈ ['t', 'f', '"', '-'], c ≠ d := by
    have hdigits : ∀ c ∈ "0123456789".toList, c ∉ ['t', 'f', '"', '-'] := by simp
    intro d hd heq
    exact hdigits c hdigit (heq ▸ hd)
  have htrue : text ≠ "true" := by
    rintro rfl
    exact hfirst 't' (by decide) (List.cons.inj htext).1.symm
  have hfalse : text ≠ "false" := by
    rintro rfl
    exact hfirst 'f' (by decide) (List.cons.inj htext).1.symm
  rw [readLiteral, if_neg htrue, if_neg hfalse, htext]
  split
  · rename_i heq
    exact absurd (List.cons.inj heq).1 (hfirst '"' (by decide))
  · rename_i heq
    exact absurd (List.cons.inj heq).1 (hfirst '-' (by decide))
  · rw [h, Option.map_some]

theorem readLiteral_minus (text : String) :
    readLiteral runtime ("-" ++ text) = (readNumericLiteral runtime text).map fun value =>
      .unaryExpression .minus (.numericLiteral value) := by
  have hlist : ("-" ++ text).toList = '-' :: text.toList := String.toList_append
  have htrue : "-" ++ text ≠ "true" := fun h => by
    rw [h] at hlist
    exact absurd (List.cons.inj hlist).1 (by decide)
  have hfalse : "-" ++ text ≠ "false" := fun h => by
    rw [h] at hlist
    exact absurd (List.cons.inj hlist).1 (by decide)
  rw [readLiteral, if_neg htrue, if_neg hfalse, hlist]
  simp only [String.ofList_toList]

theorem readLiteral_quoted {text : String} (h : ∀ c ∈ text.toList, c ≠ '"' ∧ c ≠ '\\') :
    readLiteral runtime s!"\"{text}\"" = some (.textLiteral text) := by
  have hlist : s!"\"{text}\"".toList = '"' :: (text.toList ++ ['"']) := by
    simp [ToString.toString]
  have htrue : s!"\"{text}\"" ≠ "true" := fun h => by
    rw [h] at hlist
    exact absurd (List.cons.inj hlist).1 (by decide)
  have hfalse : s!"\"{text}\"" ≠ "false" := fun h => by
    rw [h] at hlist
    exact absurd (List.cons.inj hlist).1 (by decide)
  rw [readLiteral, if_neg htrue, if_neg hfalse, hlist]
  simp only [List.dropLast_concat, List.getLast?_concat, String.ofList_toList]
  rw [if_pos (by simpa using h)]

end Literals

/-! ## Suggestions -/

/-- A subexpression and the value that it can be simplified to. -/
structure Suggestion where
  node : ExpressionNode
  value : Value

/-- The diagnostic tells the user to write the value of the subexpression. -/
def Suggestion.Reports (props : JayveeValidationProps) (suggestion : Suggestion)
    (diagnostic : Diagnostic) : Prop :=
  Returns (evaluateExpression props.runtime props.evaluationContext .exhaustive
    suggestion.node.term) (some suggestion.value) ∧
  ∃ text, internalValueToString props.ast props.runtime suggestion.value = .ok text ∧
    diagnostic = {
      severity := .info
      message := s!"The expression can be simplified to {text}"
      info := { node := .subexpression suggestion.node } }

/-- What the message says is written where the suggestion is made. -/
def Suggestion.Follows (props : JayveeValidationProps) (suggestion : Suggestion)
    (replacement : ExpressionNode) : Prop :=
  replacement.path = suggestion.node.path ∧
    ∃ text, internalValueToString props.ast props.runtime suggestion.value = .ok text ∧
      readLiteral props.runtime text = some replacement.term

section Follow

variable {props : JayveeValidationProps}

variable (props) in
/-- A readable value is printed as a literal that is evaluated to it. -/
theorem exists_literal {value : Value} (h : value.IsReadable props.runtime) :
    ∃ text literal, internalValueToString props.ast props.runtime value = .ok text ∧
      readLiteral props.runtime text = some literal ∧
      ∀ env strategy diagnostics,
        evaluateExpression props.runtime env strategy literal diagnostics =
          some (.ok (some value), diagnostics) := by
  cases value with
  | boolean value => cases value <;> exact ⟨_, _, rfl, rfl, fun _ _ _ => rfl⟩
  | string value => exact ⟨_, _, rfl, readLiteral_quoted h, fun _ _ _ => rfl⟩
  | number x =>
      cases x with
      | finite v =>
          by_cases hnegative : v < 0
          · rw [Value.IsReadable, abs_of_neg hnegative] at h
            refine ⟨"-" ++ props.runtime.finiteToString (-v),
              .unaryExpression .minus (.numericLiteral (.finite (-v))), ?_, ?_, ?_⟩
            · show Except.ok (props.runtime.numberToString (.finite v)) = _
              rw [JsRuntime.numberToString, if_pos hnegative]
            · rw [readLiteral_minus, h, Option.map_some]
            · intro env strategy diagnostics
              have hneg : -(JsNumber.finite (-v)) = .finite v := by
                show JsNumber.neg _ = _
                rw [JsNumber.neg, if_neg (by linarith), neg_neg]
              show some (Except.ok (some (Value.number (-(JsNumber.finite (-v))))), diagnostics) = _
              rw [hneg]
          · rw [Value.IsReadable, abs_of_nonneg (not_lt.mp hnegative)] at h
            refine ⟨props.runtime.finiteToString v, _, ?_, readLiteral_of_numeric h,
              fun _ _ _ => rfl⟩
            show Except.ok (props.runtime.numberToString (.finite v)) = _
            rw [JsRuntime.numberToString, if_neg hnegative]
      | negativeZero => cases h
      | infinite negative => cases h
      | nan => cases h
  | _ => cases h

/-- What one step of the check finds and reports. -/
theorem checkSimplification_eq_ok {node : ExpressionNode} {before after : List Diagnostic}
    (h : checkSimplification props node before = some (.ok (), after)) :
    ∃ value diagnostic, after = before ++ [diagnostic] ∧
      Suggestion.Reports props ⟨node, value⟩ diagnostic := by
  obtain ⟨result, between, hevaluate, h⟩ := Exec.bind_eq_ok_iff.mp h
  cases result with
  | none => cases h
  | some value =>
      have hquiet := evaluateExpression_quiet node.term _ _ _ hevaluate rfl
      obtain ⟨text, _, htext, h⟩ := Exec.bind_eq_ok_iff.mp h
      obtain ⟨hprinted, hsame⟩ := Prod.mk.inj (Option.some.inj htext)
      rw [← hsame, hquiet] at h
      cases h
      exact ⟨value, _, rfl, ⟨before, _, hevaluate⟩, text, hprinted, rfl⟩

/-- A value that the check has found is the one that the subexpression always has. -/
theorem sameEvaluation_of_follows (hprops : ValidationEnvironment props) {suggestion : Suggestion}
    (hvalue : Returns (evaluateExpression props.runtime props.evaluationContext .exhaustive
      suggestion.node.term) (some suggestion.value))
    (hreadable : suggestion.value.IsReadable props.runtime) {replacement : ExpressionNode}
    (hfollows : suggestion.Follows props replacement) (env : EvaluationContext)
    (strategy : EvaluationStrategy) :
    SameEvaluation props.runtime env strategy suggestion.node.term replacement.term := by
  intro before before'
  obtain ⟨provider, hcontext⟩ := hprops
  rw [hcontext] at hvalue
  have hstrategy : EvaluationStrategy.exhaustive = .lazy → strategy = .lazy :=
    fun hlazy => by cases hlazy
  obtain ⟨after, hrun⟩ := evaluateExpression_keeps_of_within
    (EvaluationContext.construct_within provider env) hstrategy _ _ hvalue before
  obtain ⟨text, literal, hprinted, hread, hliteral⟩ := exists_literal props hreadable
  obtain ⟨_, text', hprinted', hread'⟩ := hfollows
  cases hprinted.symm.trans hprinted'
  cases hread.symm.trans hread'
  rw [hrun, hliteral]
  rfl

/-- The check reports one suggestion for each of the nodes. -/
theorem exists_suggestions {nodes : List ExpressionNode} {before after : List Diagnostic}
    (h : Exec.forEach nodes (checkSimplification props) before = some (.ok (), after)) :
    ∃ suggestions reported, after = before ++ reported ∧
      List.Forall₂ (Suggestion.Reports props) suggestions reported ∧
      ∀ suggestion ∈ suggestions, suggestion.node ∈ nodes := by
  induction nodes generalizing before with
  | nil =>
      cases h
      exact ⟨[], [], by simp, .nil, by simp⟩
  | cons node nodes ih =>
      rw [Exec.forEach_cons] at h
      obtain ⟨_, between, hfirst, h⟩ := Exec.bind_eq_ok_iff.mp h
      obtain ⟨value, diagnostic, rfl, hreports⟩ := checkSimplification_eq_ok hfirst
      obtain ⟨suggestions, reported, rfl, hrest, hnodes⟩ := ih h
      refine ⟨⟨node, value⟩ :: suggestions, diagnostic :: reported, by simp, .cons hreports hrest,
        ?_⟩
      rw [List.forall_mem_cons]
      exact ⟨List.mem_cons_self, fun suggestion hsuggestion =>
        List.mem_cons_of_mem _ (hnodes suggestion hsuggestion)⟩

end Follow

/-- All diagnostics of the check are suggestions, and those with a readable value can be followed.
Whichever of them are followed, and in whatever order, the expression is evaluated with the same
result as before, in every context and with both strategies. -/
theorem checkExpressionSimplification_preserves (props : JayveeValidationProps)
    (expression : Expression) (diagnostics : List Diagnostic) (hprops : ValidationEnvironment props)
    (hcheck : checkExpressionSimplification expression props [] = some (.ok (), diagnostics)) :
    ∃ suggestions : List Suggestion,
      List.Forall₂ (Suggestion.Reports props) suggestions diagnostics ∧
      (∀ suggestion ∈ suggestions, suggestion.value.IsReadable props.runtime →
        ∃ replacement, suggestion.Follows props replacement) ∧
      ∀ replacements : List ExpressionNode, (replacements.map Subterm.path).Nodup →
        (∀ replacement ∈ replacements, ∃ suggestion ∈ suggestions,
          suggestion.value.IsReadable props.runtime ∧ suggestion.Follows props replacement) →
        ∀ env strategy, SameEvaluation props.runtime env strategy expression
          (replaceAll Expression.children Expression.withChildren expression replacements) := by
  obtain ⟨suggestions, reported, rfl, hreports, hnodes⟩ := exists_suggestions hcheck
  have hmaximal : ∀ suggestion ∈ suggestions,
      IsMaximalOperand expression suggestion.node.path suggestion.node.term := fun suggestion h =>
    mem_collectSubExpressions.mp (List.mem_filter.mp (hnodes suggestion h)).1
  refine ⟨suggestions, by simpa using hreports, ?_, ?_⟩
  · intro suggestion hsuggestion hreadable
    obtain ⟨text, literal, hprinted, hread, _⟩ := exists_literal props hreadable
    exact ⟨⟨suggestion.node.path, literal⟩, rfl, text, hprinted, hread⟩
  · intro replacements hnodup hfollows env strategy
    refine IsCongruence.replaceAll SameEvaluation.refl (fun h h' => h.trans h')
      sameEvaluation_isCongruence Expression.children_withChildren ?_ fun replacement hmem => ?_
    · refine (List.pairwise_map.mp hnodup).imp_of_mem fun hfirst hsecond hne => ?_
      obtain ⟨first, hfirst, _, hpath, _⟩ := hfollows _ hfirst
      obtain ⟨second, hsecond, _, hpath', _⟩ := hfollows _ hsecond
      rw [hpath, hpath'] at hne ⊢
      have houter := hmaximal first hfirst
      have houter' := hmaximal second hsecond
      exact ⟨fun habove => hne (houter.eq_of_prefix houter' habove),
        fun habove => hne (houter'.eq_of_prefix houter habove).symm⟩
    · obtain ⟨suggestion, hsuggestion, hreadable, hfollow⟩ := hfollows replacement hmem
      have hinner := (hmaximal suggestion hsuggestion).subterm_eq
      have hreturns := ((List.forall₂_and_left _ _).mp hreports).1 suggestion hsuggestion
      refine ⟨suggestion.node.term, ?_, sameEvaluation_of_follows hprops
        hreturns hreadable hfollow env strategy⟩
      rw [hfollow.1]
      exact (Expression.subtermAt_operands_iff.mp hinner).1

/-- `1 + 2` -/
def onePlusTwo : Expression :=
  .binaryExpression .plus (.numericLiteral 1) (.numericLiteral 2)

/-- `(1 + 2) * value` -/
def sumTimesValue : Expression :=
  .binaryExpression .multiply onePlusTwo (.valueKeywordLiteral false)

theorem checkExpressionSimplification_preserves_sumTimesValue :
    ∃ diagnostics, checkExpressionSimplification sumTimesValue sampleProps [] =
        some (.ok (), diagnostics) ∧ diagnostics.length = 1 ∧
      ∀ env strategy, SameEvaluation sampleRuntime env strategy sumTimesValue
        (.binaryExpression .multiply (.numericLiteral 3) (.valueKeywordLiteral false)) := by
  have hsum (diagnostics : List Diagnostic) : evaluateExpression sampleRuntime
      sampleProps.evaluationContext .exhaustive onePlusTwo diagnostics =
      some (.ok (some (.number 3)), diagnostics) := by
    have hthree : JsNumber.add sampleNearest 1 2 = 3 := by decide +kernel
    show some (Except.ok (some (Value.number (JsNumber.add sampleNearest 1 2))), diagnostics) = _
    rw [hthree]
  have hstep : checkSimplification sampleProps ⟨[0], onePlusTwo⟩ [] =
      some (.ok (), [⟨.info, "The expression can be simplified to 3",
        { node := .subexpression ⟨[0], onePlusTwo⟩ }⟩]) :=
    (Exec.bind_of_ok (hsum [])).trans rfl
  have hcheck : checkExpressionSimplification sumTimesValue sampleProps [] =
      some (.ok (), [⟨.info, "The expression can be simplified to 3",
        { node := .subexpression ⟨[0], onePlusTwo⟩ }⟩]) :=
    (Exec.bind_of_ok hstep).trans rfl
  refine ⟨_, hcheck, rfl, fun env strategy => ?_⟩
  obtain ⟨suggestions, hreports, _, hpreserves⟩ := checkExpressionSimplification_preserves
    sampleProps sumTimesValue _ ⟨_, rfl⟩ hcheck
  refine hpreserves [⟨[0], .numericLiteral 3⟩] (List.nodup_singleton _) ?_ env strategy
  intro replacement hreplacement
  obtain rfl := List.mem_singleton.mp hreplacement
  obtain ⟨⟨node, value⟩, rest, ⟨⟨before, after, hreturns⟩, _, _, hdiagnostic⟩, _, rfl⟩ :=
    List.forall₂_cons_right_iff.mp hreports
  injection hdiagnostic with _ _ hinfo
  injection hinfo with hnode
  injection hnode with hnode
  subst hnode
  cases (hsum before).symm.trans hreturns
  have hread : readNumericLiteral sampleRuntime "3" = some 3 := by decide +kernel
  exact ⟨_, List.mem_cons_self, hread, rfl, "3", rfl, readLiteral_of_numeric hread⟩

end Jayvee
