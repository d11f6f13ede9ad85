import Jayvee.Verification.Evaluation.LargerContexts
import Jayvee.Verification.Execution.Properties
import Jayvee.Verification.Expressions.Simplification
import Jayvee.Verification.Properties.AcceptedBodies

/-! # The values of validated properties at run time -/

namespace Jayvee

open Foundation ExecutionContext ValueType

/-! ## Values in larger contexts -/

section Values

variable {ast : Ast} {runtime : JsRuntime} {env env' : EvaluationContext} {σ τ : Type}
  {property : PropertyAssignment} {T : ValueType} {value : Value}

/-- The value of the property before its type is checked. -/
def evaluateUnchecked (runtime : JsRuntime) (property : PropertyAssignment)
    (env : EvaluationContext) (T : ValueType) : Exec σ JsError (Option Value) :=
  match property.value with
  | .runtimeParameter name =>
      Exec.ofExcept (env.runtimeParameterProvider.getParsedValue name T)
  | .expression expression => evaluateExpressionSilently runtime env expression

/-- The check of the type. -/
def checkTypeOfValue (ast : Ast) (runtime : JsRuntime) (T : ValueType) :
    (result : Option Value) → Exec σ JsError (Option Value)
  | none => return none
  | some value => do
      if ← Exec.ofExcept (T.isInternalValueRepresentation ast value) then
        return some value
      Exec.throw (.assertionError
        s!"Evaluation result {value.toString runtime} is not valid: Neither undefined, nor of type {T.getName ast}")

theorem evaluatePropertyValue_eq_bind :
    (evaluatePropertyValue ast runtime property env T : Exec σ JsError (Option Value)) =
      evaluateUnchecked runtime property env T >>= checkTypeOfValue ast runtime T := by
  unfold evaluatePropertyValue evaluateUnchecked
  cases property.value <;> rfl

theorem checkTypeOfValue_eq_ok_iff {result : Option Value} {s t : σ} :
    checkTypeOfValue ast runtime T result s = some (.ok (some value), t) ↔
      result = some value ∧ HasType ast T value ∧ t = s := by
  cases result with
  | none =>
      constructor
      · intro h
        cases h
      · intro h
        cases h.1
  | some found =>
      rw [checkTypeOfValue, Exec.bind_apply, Exec.ofExcept_apply]
      constructor
      · intro h
        cases htype : T.isInternalValueRepresentation ast found with
        | error error =>
            rw [htype] at h
            cases h
        | ok isValid =>
            rw [htype] at h
            cases isValid with
            | false => cases h
            | true =>
                cases h
                exact ⟨rfl, htype, rfl⟩
      · rintro ⟨hfound, htype, rfl⟩
        cases hfound
        rw [htype]
        rfl

theorem checkTypeOfValue_ne_none {s t : σ} :
    checkTypeOfValue ast runtime T (some value) s ≠ some (.ok none, t) := by
  intro h
  obtain ⟨isValid, _, _, h⟩ := Exec.bind_eq_ok_iff.mp h
  cases isValid <;> cases h

theorem evaluateUnchecked_keeps (hwithin : env.Within env')
    (hprovider : env'.runtimeParameterProvider = env.runtimeParameterProvider) {s t : σ}
    (h : evaluateUnchecked runtime property env T s = some (.ok (some value), t)) (u : τ) :
    evaluateUnchecked runtime property env' T u = some (.ok (some value), u) := by
  unfold evaluateUnchecked at h ⊢
  cases hproperty : property.value with
  | runtimeParameter name =>
      rw [hproperty] at h
      simp only [Exec.ofExcept_apply, Option.some.injEq, Prod.mk.injEq, hprovider] at h ⊢
      exact ⟨h.1, trivial⟩
  | expression expression =>
      rw [hproperty] at h
      obtain ⟨⟨result, after⟩, hrun, heq⟩ := Option.map_eq_some_iff.mp h
      cases heq
      obtain ⟨after', hrun'⟩ := evaluateExpression_keeps_of_within hwithin id expression value
        ⟨_, _, hrun⟩ []
      exact Option.map_eq_some_iff.mpr ⟨_, hrun', rfl⟩

/-- A value that is found is found again in every larger context. -/
theorem evaluatePropertyValue_keeps (hwithin : env.Within env')
    (hprovider : env'.runtimeParameterProvider = env.runtimeParameterProvider) {s t : σ}
    (h : evaluatePropertyValue ast runtime property env T s = some (.ok (some value), t)) (u : τ) :
    evaluatePropertyValue ast runtime property env' T u = some (.ok (some value), u) := by
  rw [evaluatePropertyValue_eq_bind] at h ⊢
  obtain ⟨result, between, hresult, hcheck⟩ := Exec.bind_eq_ok_iff.mp h
  obtain ⟨rfl, htype, _⟩ := checkTypeOfValue_eq_ok_iff.mp hcheck
  rw [Exec.bind_of_ok (evaluateUnchecked_keeps hwithin hprovider hresult u)]
  exact checkTypeOfValue_eq_ok_iff.mpr ⟨rfl, htype, rfl⟩

theorem hasType_of_evaluatePropertyValue {s t : σ}
    (h : evaluatePropertyValue ast runtime property env T s = some (.ok (some value), t)) :
    HasType ast T value := by
  rw [evaluatePropertyValue_eq_bind] at h
  obtain ⟨result, between, _, hcheck⟩ := Exec.bind_eq_ok_iff.mp h
  exact (checkTypeOfValue_eq_ok_iff.mp hcheck).2.1

end Values

/-! ## Properties at run time -/

/-- The execution has entered the container, with the runtime parameters of the validation. -/
structure IsInside {δ : Type} (props : JayveeValidationProps) (container : PropertyBodyContainer)
    (services : ExecutionServices) (context : ExecutionContext δ) : Prop where
  ast : services.ast = props.ast
  runtime : services.runtime = props.runtime
  node : context.stack.getLast? = some container.stackNode
  parameters : context.evaluationContext.runtimeParameterProvider =
    props.evaluationContext.runtimeParameterProvider

/-- The validation finds a value for the property: the check of a runtime parameter is passed,
and an expression does not evaluate to `undefined`. -/
def HasValidatedValue (props : JayveeValidationProps) (container : PropertyBodyContainer)
    (property : PropertyAssignment) : Prop :=
  match property.value with
  | .runtimeParameter name =>
      ValidatesWithoutError (validateRuntimeParameterLiteral props container property name)
  | .expression expression =>
      ¬ Returns (evaluateExpression props.runtime props.evaluationContext .lazy expression) none

section Execution

variable {δ : Type} {props : JayveeValidationProps} {container : PropertyBodyContainer}
  {wrapper : List PropertySpecification} {services : ExecutionServices}
  {context : ExecutionContext δ}

theorem IsInside.getProperty_apply (hcontext : IsInside props container services context)
    (name : String) : getProperty services name context = some (.ok
      ((container.properties props.ast).find? fun property => property.name == name), context) := by
  have hget : getProperty services name context = some (.ok
      ((propertyBody services.ast context.stack.getLast?).bind fun properties =>
        properties.find? fun property => property.name == name), context) := rfl
  rw [hget, hcontext.ast, hcontext.node, PropertyBodyContainer.properties]
  cases propertyBody props.ast (some container.stackNode) <;> rfl

theorem exists_typed_of_canBeWrapped {ast : Ast} {constraint : ConstraintId}
    (h : ConstraintTypeWrapper.canBeWrapped
      (PropertyBodyContainer.constraintTypeOf ast constraint) = true) :
    ∃ name body, ast.constraints[constraint]? =
      some (.typed name (PropertyBodyContainer.constraintTypeOf ast constraint) body) := by
  unfold PropertyBodyContainer.constraintTypeOf at h ⊢
  cases hconstraint : ast.constraints[constraint]? with
  | none =>
      rw [hconstraint] at h
      cases h
  | some definition =>
      cases definition with
      | typed name type body => exact ⟨name, body, rfl⟩
      | expression =>
          rw [hconstraint] at h
          cases h

theorem IsInside.getWrapper_apply (hcontext : IsInside props container services context)
    (haccepts : AcceptsBody props container wrapper) :
    getWrapperOfCurrentNode services context = some (.ok wrapper, context) := by
  have htyped := haccepts.typed _ context
  have hnode : (getCurrentNode : ExecM δ (Option StackNode)) context =
      some (.ok (some container.stackNode), context) := by
    rw [← hcontext.node]
    rfl
  rw [getWrapperOfCurrentNode, Exec.bind_of_ok hnode]
  cases container with
  | block block =>
      unfold wrapTypedObject at htyped
      dsimp only at htyped
      split at htyped
      · cases htyped
      · obtain ⟨wrapped, _, hwrap, hresult⟩ := Exec.bind_eq_ok_iff.mp htyped
        cases hresult
        rw [← hcontext.ast, ← hcontext.runtime] at hwrap
        exact Exec.bind_of_ok hwrap
  | constraint constraint =>
      unfold wrapTypedObject at htyped
      dsimp only at htyped
      split at htyped
      · cases htyped
      · rename_i hwrapped
        obtain ⟨wrapped, _, hwrap, hresult⟩ := Exec.bind_eq_ok_iff.mp htyped
        cases hresult
        obtain ⟨name, body, hdefinition⟩ := exists_typed_of_canBeWrapped (by simpa using hwrapped)
        rw [← hcontext.ast, ← hcontext.runtime] at hwrap
        rw [← hcontext.ast] at hdefinition
        dsimp only [PropertyBodyContainer.stackNode]
        rw [hdefinition]
        exact Exec.bind_of_ok hwrap

/-- The default value of a property that is not in the body. -/
theorem getPropertyValue_of_absent (hcontext : IsInside props container services context)
    (haccepts : AcceptsBody props container wrapper) {name : String}
    {propertySpec : PropertySpecification} {value : Value}
    (hspec : getPropertySpecification wrapper name = some propertySpec)
    (habsent : ∀ property ∈ container.properties props.ast, property.name ≠ name)
    (hdefault : propertySpec.defaultValue = some value)
    (htype : HasType props.ast propertySpec.type value) :
    getPropertyValue services name propertySpec.type context = some (.ok value, context) := by
  have hfind : (container.properties props.ast).find? (fun property => property.name == name) =
      none :=
    List.find?_eq_none.mpr fun property hproperty => by simpa using habsent property hproperty
  have hget := hcontext.getProperty_apply name
  rw [hfind] at hget
  rw [getPropertyValue, Exec.bind_of_ok hget]
  dsimp only
  rw [getDefaultPropertyValue, Exec.bind_of_ok (hcontext.getWrapper_apply haccepts), hspec]
  simp only [Option.bind_some, hdefault]
  rw [← hcontext.ast] at htype
  rw [Exec.bind_apply, Exec.ofExcept_apply, htype]
  rfl

/-- The value that the validation has found. -/
theorem getPropertyValue_of_found (hprops : ValidationEnvironment props)
    (hcontext : IsInside props container services context) {property : PropertyAssignment}
    {T : ValueType} {value : Value}
    (hfind : (container.properties props.ast).find? (fun p => p.name == property.name) =
      some property)
    (hvalue : Returns (evaluatePropertyValue props.ast props.runtime property
      props.evaluationContext T) (some value)) :
    getPropertyValue services property.name T context = some (.ok value, context) := by
  have hget := hcontext.getProperty_apply property.name
  rw [hfind] at hget
  have hcurrent : (Exec.get : ExecM δ (ExecutionContext δ)) context =
      some (.ok context, context) := rfl
  obtain ⟨provider, henv⟩ := hprops
  obtain ⟨before, after, hrun⟩ := hvalue
  have hwithin : props.evaluationContext.Within context.evaluationContext := by
    rw [henv]
    exact EvaluationContext.construct_within provider _
  have hevaluate := evaluatePropertyValue_keeps hwithin hcontext.parameters hrun context
  rw [← hcontext.ast, ← hcontext.runtime] at hevaluate
  rw [getPropertyValue, Exec.bind_of_ok hget]
  dsimp only
  rw [Exec.bind_of_ok hcurrent, Exec.bind_of_ok hevaluate]
  rfl

theorem getTypedPropertyValue_of_value {A : Type} {typeguard : Value → Option A} {a : A}
    {name : String} {T : ValueType} {value : Value}
    (hvalue : getPropertyValue services name T context = some (.ok value, context))
    (hguard : typeguard value = some a) :
    getTypedPropertyValue services typeguard name T context = some (.ok a, context) := by
  rw [getTypedPropertyValue, Exec.bind_of_ok hvalue, hguard]
  rfl

end Execution

/-! ## Validated values -/

section Validated

variable {props : JayveeValidationProps} {container : PropertyBodyContainer}
  {wrapper : List PropertySpecification} {property : PropertyAssignment}
  {propertySpec : PropertySpecification}

theorem wrapTypedObject_moves :
    Exec.Moves StillReported (wrapTypedObject props container) := by
  cases container with
  | block block =>
      refine Exec.Moves.ite (Exec.Moves.pure none) ?_
      exact (Exec.Agrees.reads fun _ => BlockTypeWrapper.wrap_agrees _ _ _).moves.bind
        fun _ => Exec.Moves.pure _
  | constraint constraint =>
      refine Exec.Moves.ite (Exec.Moves.pure none) ?_
      exact (Exec.Agrees.reads fun _ => ConstraintTypeWrapper.wrap_agrees _ _ _).moves.bind
        fun _ => Exec.Moves.pure _

theorem checkRuntimeParameterValueParsing_moves (name : String) :
    Exec.Moves StillReported
      (checkRuntimeParameterValueParsing props container property name) := by
  refine wrapTypedObject_moves.bind fun wrapper => ?_
  cases wrapper.bind fun wrapper => getPropertySpecification wrapper property.name with
  | none => exact Exec.Moves.pure ()
  | some propertySpec =>
      refine (Exec.Moves.ofExcept _).bind fun value => ?_
      cases value with
      | none => exact accept_moves _ _ _
      | some value => exact Exec.Moves.pure ()

/-- The text of a runtime parameter whose check is passed can be parsed. -/
theorem getParsedValue_ne_none (haccepts : AcceptsBody props container wrapper)
    (hspec : getPropertySpecification wrapper property.name = some propertySpec) {name : String}
    (h : ValidatesWithoutError (validateRuntimeParameterLiteral props container property name)) :
    props.evaluationContext.runtimeParameterProvider.getParsedValue name propertySpec.type ≠
      .ok none := by
  intro hnone
  obtain ⟨diagnostics, hrun, herrors⟩ := h
  have hpasses : Exec.Passes Diagnostic.IsError
      (validateRuntimeParameterLiteral props container property name) () := ⟨_, _, hrun, herrors⟩
  obtain ⟨_, _, _, _, hpasses⟩ := hpasses.bind_last
  obtain ⟨isError, hasError, hpasses⟩ := hpasses.bind fun _ =>
    Exec.Moves.ite (Exec.Moves.pure ()) (checkRuntimeParameterValueParsing_moves name)
  obtain rfl := hasErrorOccurred_of_passes hasError
  obtain ⟨wrapped, before, _, htyped, hpasses⟩ :=
    (show Exec.Passes _ (checkRuntimeParameterValueParsing props container property name) () from
      hpasses).bind_last
  rw [haccepts.typed] at htyped
  cases htyped
  simp only [Option.bind_some, hspec, hnone] at hpasses
  obtain ⟨value, _, _, hvalue, hpasses⟩ := hpasses.bind_last
  cases hvalue
  exact not_passes_accept _ _ hpasses

/-- The validation does not pass over the property. -/
theorem HasValidatedValue.not_returns_none (h : HasValidatedValue props container property)
    (haccepts : AcceptsBody props container wrapper)
    (hspec : getPropertySpecification wrapper property.name = some propertySpec) :
    ¬ Returns (evaluatePropertyValue props.ast props.runtime property props.evaluationContext
      propertySpec.type) none := by
  rintro ⟨before, after, hrun⟩
  rw [evaluatePropertyValue_eq_bind] at hrun
  obtain ⟨result, between, hresult, hcheck⟩ := Exec.bind_eq_ok_iff.mp hrun
  cases result with
  | some value => exact checkTypeOfValue_ne_none hcheck
  | none =>
      unfold HasValidatedValue at h
      unfold evaluateUnchecked at hresult
      cases hproperty : property.value with
      | runtimeParameter name =>
          rw [hproperty] at h hresult
          dsimp only at h hresult
          refine getParsedValue_ne_none haccepts hspec h ?_
          exact (Prod.mk.inj (Option.some.inj hresult)).1
      | expression expression =>
          rw [hproperty] at h hresult
          obtain ⟨⟨result, after⟩, hevaluate, heq⟩ := Option.map_eq_some_iff.mp hresult
          cases heq
          exact h ⟨_, _, hevaluate⟩

/-- The value that is found has passed the check of the block type. -/
theorem AcceptsBody.exists_value (haccepts : AcceptsBody props container wrapper)
    (hproperty : property ∈ container.properties props.ast)
    (h : HasValidatedValue props container property)
    (hspec : getPropertySpecification wrapper property.name = some propertySpec) :
    ∃ value, Returns (evaluatePropertyValue props.ast props.runtime property
        props.evaluationContext propertySpec.type) (some value) ∧
      HasType props.ast propertySpec.type value ∧
      Exec.Passes Diagnostic.IsError
        (checkPropertyOfType props (container.typeName props.ast) value property) () := by
  obtain ⟨found, hfound, hpasses⟩ := haccepts.specification hproperty
  obtain rfl : propertySpec = found := Option.some.inj (hspec.symm.trans hfound)
  obtain ⟨result, before, after, hrun, hpasses⟩ := hpasses.bind_last
  cases result with
  | none => exact (h.not_returns_none haccepts hspec ⟨_, _, hrun⟩).elim
  | some value => exact ⟨value, ⟨_, _, hrun⟩, hasType_of_evaluatePropertyValue hrun, hpasses⟩

end Validated

/-- What the validation establishes for a container. -/
structure ValidatedContainer (props : JayveeValidationProps) (container : PropertyBodyContainer)
    (wrapper : List PropertySpecification) : Prop where
  environment : ValidationEnvironment props
  body : AcceptsBody props container wrapper
  values : ∀ property ∈ container.properties props.ast, HasValidatedValue props container property
  defaults : ∀ propertySpec ∈ wrapper, ∀ value, propertySpec.defaultValue = some value →
    HasType props.ast propertySpec.type value

/-- A property of the body has a value that has passed the checks, and every other one its
default value. -/
theorem ValidatedContainer.getPropertyValue_apply {δ : Type} {props : JayveeValidationProps}
    {container : PropertyBodyContainer} {wrapper : List PropertySpecification}
    (h : ValidatedContainer props container wrapper) {services : ExecutionServices}
    {context : ExecutionContext δ} (hcontext : IsInside props container services context)
    (name : String) {propertySpec : PropertySpecification}
    (hspec : getPropertySpecification wrapper name = some propertySpec) :
    ∃ value, getPropertyValue services name propertySpec.type context =
        some (.ok value, context) ∧
      HasType props.ast propertySpec.type value ∧
      ((∃ property ∈ container.properties props.ast, property.name = name ∧
          Returns (evaluatePropertyValue props.ast props.runtime property props.evaluationContext
            propertySpec.type) (some value) ∧
          Exec.Passes Diagnostic.IsError
            (checkPropertyOfType props (container.typeName props.ast) value property) ()) ∨
        ((∀ property ∈ container.properties props.ast, property.name ≠ name) ∧
          propertySpec.defaultValue = some value)) := by
  by_cases habsent : ∀ property ∈ container.properties props.ast, property.name ≠ name
  · obtain ⟨value, hdefault⟩ := h.body.exists_default hspec habsent
    have htype := h.defaults propertySpec (mem_of_getPropertySpecification hspec).1 value hdefault
    have hvalue := getPropertyValue_of_absent hcontext h.body hspec habsent hdefault htype
    exact ⟨value, hvalue, htype, .inr ⟨habsent, hdefault⟩⟩
  · push Not at habsent
    obtain ⟨property, hproperty, rfl⟩ := habsent
    obtain ⟨value, hfound, htype, hpasses⟩ :=
      h.body.exists_value hproperty (h.values property hproperty) hspec
    have hvalue :=
      getPropertyValue_of_found h.environment hcontext (h.body.find?_eq hproperty) hfound
    exact ⟨value, hvalue, htype, .inl ⟨property, hproperty, rfl, hfound, hpasses⟩⟩

/-- What the validation finds for a property: the value of its assignment, or its default. -/
structure IsValueOf (props : JayveeValidationProps) (container : PropertyBodyContainer)
    (propertySpec : PropertySpecification) (value : Value) : Prop where
  assigned : ∀ property ∈ container.properties props.ast, property.name = propertySpec.name →
    Returns (evaluatePropertyValue props.ast props.runtime property props.evaluationContext
      propertySpec.type) (some value)
  left_out : (∀ property ∈ container.properties props.ast, property.name ≠ propertySpec.name) →
    propertySpec.defaultValue = some value

theorem ValidatedContainer.exists_isValueOf {δ : Type} {props : JayveeValidationProps}
    {container : PropertyBodyContainer} {wrapper : List PropertySpecification}
    (h : ValidatedContainer props container wrapper) {services : ExecutionServices}
    {context : ExecutionContext δ} (hcontext : IsInside props container services context)
    {propertySpec : PropertySpecification}
    (hspec : getPropertySpecification wrapper propertySpec.name = some propertySpec) :
    ∃ value, getPropertyValue services propertySpec.name propertySpec.type context =
        some (.ok value, context) ∧
      HasType props.ast propertySpec.type value ∧ IsValueOf props container propertySpec value := by
  obtain ⟨value, hvalue, htype, hfound | hdefault⟩ := h.getPropertyValue_apply hcontext _ hspec
  · obtain ⟨property, hproperty, hname, hreturns, _⟩ := hfound
    refine ⟨value, hvalue, htype, fun other hother hother' => ?_, fun habsent => ?_⟩
    · rwa [h.body.eq_of_name hother hproperty (hother'.trans hname.symm)]
    · exact (habsent property hproperty hname).elim
  · refine ⟨value, hvalue, htype, fun property hproperty hname => ?_, fun _ => hdefault.2⟩
    exact (hdefault.1 property hproperty hname).elim

/-- Reading a property at run time never fails where the property body has been accepted: a
property of the body has the value of its type that the validation has found, also where
variables have been bound since then, and every other one has its default value. -/
theorem getPropertyValue_of_validated {δ : Type} (props : JayveeValidationProps)
    (container : PropertyBodyContainer) (wrapper : List PropertySpecification)
    (h : ValidatedContainer props container wrapper) (services : ExecutionServices)
    (context : ExecutionContext δ) (hcontext : IsInside props container services context)
    (name : String) (propertySpec : PropertySpecification)
    (hspec : getPropertySpecification wrapper name = some propertySpec) :
    ∃ value, getPropertyValue services name propertySpec.type context =
        some (.ok value, context) ∧
      HasType props.ast propertySpec.type value ∧
      (∀ property ∈ container.properties props.ast, property.name = name →
        Returns (evaluatePropertyValue props.ast props.runtime property props.evaluationContext
          propertySpec.type) (some value)) ∧
      ((∀ property ∈ container.properties props.ast, property.name ≠ name) →
        propertySpec.defaultValue = some value) := by
  obtain ⟨_, rfl⟩ := mem_of_getPropertySpecification hspec
  obtain ⟨value, hvalue, htype, hvalueOf⟩ := h.exists_isValueOf hcontext hspec
  exact ⟨value, hvalue, htype, hvalueOf.assigned, hvalueOf.left_out⟩

/-- The value that the validation finds for a property is a finite number. -/
def IsNumberOf (props : JayveeValidationProps) (container : PropertyBodyContainer)
    (propertySpec : PropertySpecification) (v : ℚ) : Prop :=
  ∃ x : JsNumber, x.value = some v ∧ IsValueOf props container propertySpec (.number x)

/-- A value that is not the default has passed the check of the block type. -/
theorem ValidatedContainer.passes_or_default {props : JayveeValidationProps}
    {container : PropertyBodyContainer} {wrapper : List PropertySpecification}
    {propertySpec : PropertySpecification} {value : Value}
    (h : ValidatedContainer props container wrapper)
    (hspec : getPropertySpecification wrapper propertySpec.name = some propertySpec)
    (hvalueOf : IsValueOf props container propertySpec value) :
    (∃ property ∈ container.properties props.ast, property.name = propertySpec.name ∧
        Exec.Passes Diagnostic.IsError
          (checkPropertyOfType props (container.typeName props.ast) value property) ()) ∨
      propertySpec.defaultValue = some value := by
  by_cases habsent : ∀ property ∈ container.properties props.ast,
      property.name ≠ propertySpec.name
  · exact .inr (hvalueOf.left_out habsent)
  · push Not at habsent
    obtain ⟨property, hproperty, hname⟩ := habsent
    rw [← hname] at hspec
    obtain ⟨found, ⟨before, after, hrun⟩, _, hpasses⟩ :=
      h.body.exists_value hproperty (h.values property hproperty) hspec
    obtain ⟨before', after', hrun'⟩ := hvalueOf.assigned property hproperty hname
    cases hrun'.symm.trans
      (evaluatePropertyValue_keeps (EvaluationContext.Within.refl _) rfl hrun before')
    exact .inl ⟨property, hproperty, hname, hpasses⟩

/-! ## What a passed check says about a value -/

section Checks

variable {props : JayveeValidationProps} {value : Value} {property : PropertyAssignment}

theorem mem_of_checkPropertyValueOneOf {allowedTexts : List String}
    (h : Exec.Passes Diagnostic.IsError (checkPropertyValueOneOf props value
      (allowedTexts.map Value.string) property) ()) :
    ∃ text ∈ allowedTexts, value = .string text := by
  by_cases hallowed :
      ((allowedTexts.map Value.string).any fun v => v.strictEquals value) = true
  · obtain ⟨v, hv, hequal⟩ := List.any_eq_true.mp hallowed
    obtain ⟨text, htext, rfl⟩ := List.mem_map.mp hv
    refine ⟨text, htext, ?_⟩
    cases value with
    | string other =>
        have hother : text = other := by simpa [Value.strictEquals] using hequal
        rw [hother]
    | _ => cases hequal
  · rw [checkPropertyValueOneOf, if_pos (by simpa using hallowed)] at h
    obtain ⟨_, _, _, _, hreports⟩ := h.bind_last
    exact (not_passes_accept _ _ hreports).elim

theorem le_of_checkNotSmallerThan {minimum : Nat} {x : JsNumber} {v : ℚ} (hx : x.value = some v)
    (h : Exec.Passes Diagnostic.IsError (checkNotSmallerThan minimum (.number x) property) ()) :
    (minimum : ℚ) ≤ v := by
  by_contra hsmaller
  have hless : x < .finite minimum := (JsNumber.lt_iff hx rfl).mpr (not_le.mp hsmaller)
  rw [checkNotSmallerThan, if_pos hless] at h
  exact not_passes_accept _ _ h

end Checks

/-! ## Properties with a type guard -/

section Types

variable {δ : Type} {props : JayveeValidationProps} {container : PropertyBodyContainer}
  {wrapper : List PropertySpecification} {services : ExecutionServices}
  {context : ExecutionContext δ} (propertySpec : PropertySpecification)
  (h : ValidatedContainer props container wrapper)
  (hcontext : IsInside props container services context)
  (hspec : getPropertySpecification wrapper propertySpec.name = some propertySpec)
include h hcontext hspec

/-- A type guard that the values of the type meet does not fail. -/
theorem exists_typedValue {A : Type} {typeguard : Value → Option A} (toValue : A → Value)
    (hguard : ∀ value, HasType props.ast propertySpec.type value →
      ∃ a, typeguard value = some a ∧ value = toValue a) :
    ∃ a, getTypedPropertyValue services typeguard propertySpec.name propertySpec.type context =
        some (.ok a, context) ∧
      IsValueOf props container propertySpec (toValue a) := by
  obtain ⟨value, hvalue, htype, hvalueOf⟩ := h.exists_isValueOf hcontext hspec
  obtain ⟨a, ha, rfl⟩ := hguard value htype
  exact ⟨a, getTypedPropertyValue_of_value hvalue ha, hvalueOf⟩

theorem exists_number (hnumber : propertySpec.type.isConvertibleTo props.ast Decimal = .ok true) :
    ∃ v, IsNumberOf props container propertySpec v ∧
      ∃ x, x.value = some v ∧ getTypedPropertyValue services Value.numberTypeguard
        propertySpec.name propertySpec.type context = some (.ok x, context) := by
  obtain ⟨value, hread, htype, hvalueOf⟩ := h.exists_isValueOf hcontext hspec
  cases value with
  | number x =>
      obtain ⟨v, hx⟩ := JsNumber.isFinite_iff.mp (isFinite_of_hasType hnumber htype)
      exact ⟨v, ⟨x, hx, hvalueOf⟩, x, hx, getTypedPropertyValue_of_value hread rfl⟩
  | _ => cases hasType_primitive.mp (htype.convert hnumber)

theorem exists_boolean (hboolean : propertySpec.type = Boolean) :
    ∃ b : Bool, getTypedPropertyValue services Value.booleanTypeguard propertySpec.name
        propertySpec.type context = some (.ok b, context) ∧
      IsValueOf props container propertySpec (.boolean b) := by
  refine exists_typedValue propertySpec h hcontext hspec Value.boolean fun value htype => ?_
  rw [hboolean] at htype
  cases value with
  | boolean b => exact ⟨b, rfl, rfl⟩
  | _ => cases hasType_primitive.mp htype

/-- An integer that is checked not to be smaller than `minimum`, which the default is not. -/
theorem exists_integer (htype : propertySpec.type = Integer) (minimum : Nat)
    (hdefault : ∀ x, propertySpec.defaultValue = some (.number x) →
      ∀ v ∈ x.value, (minimum : ℚ) ≤ v)
    (hcheck : ∀ x property, property.name = propertySpec.name →
      Exec.Passes Diagnostic.IsError
        (checkPropertyOfType props (container.typeName props.ast) (.number x) property) () →
      Exec.Passes Diagnostic.IsError (checkNotSmallerThan minimum (.number x) property) ()) :
    ∃ n : ℤ, minimum ≤ n ∧ IsNumberOf props container propertySpec n ∧
      ∃ x, x.value = some (n : ℚ) ∧ getPropertyValue services propertySpec.name
        propertySpec.type context = some (.ok (.number x), context) := by
  obtain ⟨value, hread, hvalue, hvalueOf⟩ := h.exists_isValueOf hcontext hspec
  rw [htype] at hvalue
  cases value with
  | number x =>
      obtain ⟨n, hx⟩ := JsNumber.isInteger_iff.mp (hasType_integer_iff.mp hvalue)
      have hminimum : (minimum : ℚ) ≤ n := by
        rcases h.passes_or_default hspec hvalueOf with ⟨property, _, hname, hpasses⟩ | hleft
        · exact le_of_checkNotSmallerThan hx (hcheck x property hname hpasses)
        · exact hdefault x hleft n hx
      exact ⟨n, by exact_mod_cast hminimum, ⟨x, hx, hvalueOf⟩, x, hx, hread⟩
  | _ => cases hasType_primitive.mp hvalue

end Types

/-- A property without a default value is in the body. -/
theorem ValidatedContainer.isAssigned {props : JayveeValidationProps}
    {container : PropertyBodyContainer} {wrapper : List PropertySpecification}
    {propertySpec : PropertySpecification} (h : ValidatedContainer props container wrapper)
    (hspec : getPropertySpecification wrapper propertySpec.name = some propertySpec)
    (hrequired : propertySpec.defaultValue = none) : IsAssigned props container propertySpec := by
  by_contra hleft
  have habsent : ∀ property ∈ container.properties props.ast, property.name ≠ propertySpec.name :=
    fun property hproperty hname => hleft ⟨property, hproperty, hname⟩
  obtain ⟨value, hdefault⟩ := h.body.exists_default hspec habsent
  rw [hrequired] at hdefault
  cases hdefault

/-! ## Two bounds -/

section Bounds

variable {props : JayveeValidationProps} {container : PropertyBodyContainer}
  {propertySpec : PropertySpecification} {value : Value}

theorem IsValueOf.evaluatePropertyValue_apply (h : IsValueOf props container propertySpec value)
    {property : PropertyAssignment}
    (hfind : findProperty (container.properties props.ast) propertySpec.name = some property)
    (diagnostics : List Diagnostic) :
    evaluatePropertyValue props.ast props.runtime property props.evaluationContext
      propertySpec.type diagnostics = some (.ok (some value), diagnostics) := by
  obtain ⟨hproperty, hname⟩ := findProperty_eq_some hfind
  obtain ⟨before, after, hrun⟩ := h.assigned property hproperty hname
  exact evaluatePropertyValue_keeps (EvaluationContext.Within.refl _) rfl hrun diagnostics

theorem IsValueOf.evaluateBound_apply {x : JsNumber}
    (h : IsValueOf props container propertySpec (.number x)) {property : PropertyAssignment}
    (hfind : findProperty (container.properties props.ast) propertySpec.name = some property)
    (diagnostics : List Diagnostic) :
    evaluateBound props property propertySpec.type diagnostics =
      some (.ok (some x), diagnostics) := by
  rw [evaluateBound, Exec.bind_of_ok (h.evaluatePropertyValue_apply hfind diagnostics)]
  rfl

/-- The validation finds both bounds. -/
theorem evaluateBounds_apply {lowerSpec upperSpec : PropertySpecification}
    {lower upper : JsNumber}
    (hlower : IsValueOf props container lowerSpec (.number lower))
    (hupper : IsValueOf props container upperSpec (.number upper))
    (htype : lowerSpec.type = upperSpec.type) {lowerProperty upperProperty : PropertyAssignment}
    (hfindLower : findProperty (container.properties props.ast) lowerSpec.name =
      some lowerProperty)
    (hfindUpper : findProperty (container.properties props.ast) upperSpec.name =
      some upperProperty) (diagnostics : List Diagnostic) :
    evaluateBounds props (container.properties props.ast) lowerSpec.name upperSpec.name
      upperSpec.type diagnostics =
        some (.ok (some ((lowerProperty, lower), (upperProperty, upper))), diagnostics) := by
  have hevaluateLower := hlower.evaluateBound_apply hfindLower diagnostics
  rw [htype] at hevaluateLower
  rw [evaluateBounds, hfindLower, hfindUpper]
  dsimp only
  rw [Exec.bind_of_ok hevaluateLower,
    Exec.bind_of_ok (hupper.evaluateBound_apply hfindUpper diagnostics)]
  rfl

theorem le_of_checkBoundsOrder {lowerProperty upperProperty : PropertyAssignment}
    {lower upper : JsNumber} {v w : ℚ} (hlower : lower.value = some v)
    (hupper : upper.value = some w) {message : String} (h : Exec.Passes Diagnostic.IsError
      (checkBoundsOrder (lowerProperty, lower) (upperProperty, upper) message) ()) : v ≤ w := by
  by_contra hgreater
  have hless : upper < lower := (JsNumber.lt_iff hupper hlower).mpr (not_le.mp hgreater)
  rw [checkBoundsOrder, if_pos hless] at h
  have hreports := h.forEach (fun _ _ => accept_moves _ _ _) lowerProperty List.mem_cons_self
  exact not_passes_accept _ _ hreports

end Bounds

/-! ## A block with a default value -/

/-- `block Lines oftype TextRangeSelector { lineTo: 5; }` -/
def linesAst : Ast where
  valuetypes := [⟨"integer", true, none, none, none⟩]
  constraints := []
  transforms := []
  blocks := [⟨"Lines", some 0, [⟨"lineTo", .expression (.numericLiteral 5)⟩]⟩]
  blockTypes := [.builtin {
    name := "TextRangeSelector"
    inputs := [⟨"default", some "TextFile"⟩]
    outputs := [⟨"default", some "TextFile"⟩]
    properties := [⟨"lineFrom", ⟨some 0, []⟩, some (.numericLiteral 1)⟩,
      ⟨"lineTo", ⟨some 0, []⟩, some (.numericLiteral 9007199254740991)⟩] }]

def linesWrapper : List PropertySpecification :=
  [⟨"lineFrom", .Integer, some (.number 1)⟩, ⟨"lineTo", .Integer, some (.number 9007199254740991)⟩]

def linesProps : JayveeValidationProps :=
  { sampleProps with ast := linesAst }

def linesContext : ExecutionContext Unit :=
  { construct linesProps.evaluationContext with stack := [.block 0] }

theorem lines_validated : ValidatedContainer linesProps (.block 0) linesWrapper := by
  refine ⟨⟨_, rfl⟩, ⟨⟨[], by rfl, by simp⟩, fun _ _ => rfl⟩, fun property hproperty => ?_,
    fun propertySpec hspec value hvalue => ?_⟩
  · obtain rfl := List.mem_singleton.mp hproperty
    exact fun hreturns => by cases hreturns.eq_of_pure
  · rcases List.mem_pair.mp hspec with rfl | rfl <;>
    · cases hvalue
      rfl

/-- The run-time value of the property that is left out. -/
theorem getPropertyValue_of_validated_lines :
    getPropertyValue (sampleServices linesAst) "lineFrom" .Integer linesContext =
      some (.ok (.number 1), linesContext) := by
  obtain ⟨value, hvalue, _, _, hdefault⟩ := getPropertyValue_of_validated linesProps (.block 0)
    linesWrapper lines_validated (sampleServices linesAst) linesContext ⟨rfl, rfl, rfl, rfl⟩
    "lineFrom" _ rfl
  have hone := hdefault fun property hproperty => by
    obtain rfl := List.mem_singleton.mp hproperty
    decide
  cases hone
  exact hvalue

end Jayvee
