import Jayvee.Foundation.JsArray
import Jayvee.Model.CompositeBlockExecutor
import Mathlib.Data.List.Induction

/-! # Binding the properties of a composite block -/

namespace Jayvee

open Foundation ExecutionContext

variable {δ σ : Type} {services : ExecutionServices}
variable {body : List PropertyAssignment} {properties : List BlockTypeProperty}

/-! ## The value of a property depends on the environment only -/

theorem evaluatePropertyValue_eq_isolate (ast : Ast) (runtime : JsRuntime)
    (property : PropertyAssignment) (env : EvaluationContext) (valueType : ValueType) :
    (evaluatePropertyValue ast runtime property env valueType : Exec σ JsError (Option Value)) =
      Exec.isolate () (evaluatePropertyValue ast runtime property env valueType) := by
  unfold evaluatePropertyValue evaluateExpressionSilently
  cases property.value <;>
  · simp only [Exec.isolate_bind, Exec.isolate_isolate, Exec.isolate_ofExcept]
    refine bind_congr fun result => ?_
    cases result with
    | none => rfl
    | some value =>
        simp only [Exec.isolate_bind, Exec.isolate_ofExcept]
        refine bind_congr fun isValid => ?_
        split <;> rfl

theorem getDefaultValue_eq_isolate (name : String) (env : EvaluationContext) :
    (getDefaultValue services name properties env : Exec σ JsError (Option Value)) =
      Exec.isolate () (getDefaultValue services name properties env) := by
  unfold getDefaultValue evaluateExpressionSilently
  dsimp only
  split
  · rfl
  · rw [Exec.isolate_isolate]

theorem getPropertyValueFromBlockOrDefault_eq_isolate (name : String) (valueType : ValueType)
    (env : EvaluationContext) :
    (getPropertyValueFromBlockOrDefault services name valueType body properties env :
        Exec σ JsError (Option Value)) =
      Exec.isolate ()
        (getPropertyValueFromBlockOrDefault services name valueType body properties env) := by
  unfold getPropertyValueFromBlockOrDefault
  split
  · exact getDefaultValue_eq_isolate name env
  · rw [evaluatePropertyValue_eq_isolate, Exec.isolate_bind]
    refine bind_congr fun value => ?_
    cases value with
    | none => exact getDefaultValue_eq_isolate name env
    | some value => rfl

theorem getValueOfProperty_eq_isolate (env : EvaluationContext) (property : BlockTypeProperty) :
    (getValueOfProperty services body properties env property : Exec σ JsError Value) =
      Exec.isolate () (getValueOfProperty services body properties env property) := by
  unfold getValueOfProperty
  simp only [Exec.isolate_bind, Exec.isolate_ofExcept]
  refine bind_congr fun valueType => ?_
  cases valueType with
  | none => rfl
  | some valueType =>
      simp only [Exec.isolate_bind]
      rw [getPropertyValueFromBlockOrDefault_eq_isolate]
      refine bind_congr fun value => ?_
      cases value <;> rfl

/-- The outcome of looking up a property in the environment `env`. -/
def valueOfProperty (services : ExecutionServices) (body : List PropertyAssignment)
    (properties : List BlockTypeProperty) (env : EvaluationContext)
    (property : BlockTypeProperty) : Option (Except JsError Value) :=
  (getValueOfProperty services body properties env property ()).map Prod.fst

theorem getValueOfProperty_apply (env : EvaluationContext) (property : BlockTypeProperty)
    (s : σ) :
    getValueOfProperty services body properties env property s =
      (valueOfProperty services body properties env property).map fun r => (r, s) := by
  rw [getValueOfProperty_eq_isolate, Exec.isolate, valueOfProperty, Option.map_map]
  rfl

/-! ## Intended values -/

section Values

variable (services : ExecutionServices) (body : List PropertyAssignment) (env : EvaluationContext)
  (property : BlockTypeProperty)

/-- The value in `env` of the expression that is assigned to the property, if one is. -/
def AssignedValue (value : Option Value) : Prop :=
  ∃ assignment valueType, body.find? (fun p => p.name == property.name) = some assignment ∧
    ValueType.wrap services.ast property.valueType = .ok (some valueType) ∧
    evaluatePropertyValue services.ast services.runtime assignment env valueType () =
      some (.ok value, ())

/-- The value in `env` of the default of the property, if it has one. -/
def DefaultValue (value : Value) : Prop :=
  ∃ defaultValue valueType, property.defaultValue = some defaultValue ∧
    ValueType.wrap services.ast property.valueType = .ok (some valueType) ∧
    evaluateExpressionSilently services.runtime env defaultValue () = some (.ok (some value), ())

/-- The value that the property is meant to have: the one of the expression that is assigned to
it, or its default if none is assigned. -/
def IntendedValue (value : Value) : Prop :=
  AssignedValue services body env property (some value) ∨
    (body.find? fun p => p.name == property.name) = none ∧
      DefaultValue services env property value

/-- As `IntendedValue`, but an assigned expression without a value leads to the default too. -/
def FallbackValue (value : Value) : Prop :=
  IntendedValue services body env property value ∨
    AssignedValue services body env property none ∧ DefaultValue services env property value

end Values

theorem getDefaultValue_eq_some_iff (hnodup : (properties.map BlockTypeProperty.name).Nodup)
    {property : BlockTypeProperty} (hproperty : property ∈ properties) {valueType : ValueType}
    (hwrap : ValueType.wrap services.ast property.valueType = .ok (some valueType))
    (env : EvaluationContext) (value : Value) :
    getDefaultValue services property.name properties env () = some (.ok (some value), ()) ↔
      DefaultValue services env property value := by
  rw [getDefaultValue, JsArray.find?_of_nodup_map hnodup hproperty, Option.bind_some]
  constructor
  · intro h
    cases hdefault : property.defaultValue with
    | none =>
        rw [hdefault] at h
        cases h
    | some defaultValue =>
        rw [hdefault] at h
        exact ⟨defaultValue, valueType, hdefault, hwrap, h⟩
  · rintro ⟨defaultValue, _, hdefault, _, h⟩
    rw [hdefault]
    exact h

theorem assignedValue_iff {property : BlockTypeProperty}
    {assignment : PropertyAssignment} {valueType : ValueType}
    (hfind : (body.find? fun p => p.name == property.name) = some assignment)
    (hwrap : ValueType.wrap services.ast property.valueType = .ok (some valueType))
    (env : EvaluationContext) (value : Option Value) :
    AssignedValue services body env property value ↔
      evaluatePropertyValue services.ast services.runtime assignment env valueType () =
        some (.ok value, ()) := by
  constructor
  · rintro ⟨_, _, hfind', hwrap', hvalue⟩
    obtain rfl := Option.some.inj (hfind.symm.trans hfind')
    obtain rfl := Option.some.inj (Except.ok.inj (hwrap.symm.trans hwrap'))
    exact hvalue
  · exact fun hvalue => ⟨assignment, valueType, hfind, hwrap, hvalue⟩

theorem getPropertyValueFromBlockOrDefault_eq_some_iff
    (hnodup : (properties.map BlockTypeProperty.name).Nodup) {property : BlockTypeProperty}
    (hproperty : property ∈ properties) {env : EvaluationContext} {valueType : ValueType}
    (hwrap : ValueType.wrap services.ast property.valueType = .ok (some valueType))
    {value : Value} :
    getPropertyValueFromBlockOrDefault services property.name valueType body properties env () =
        some (.ok (some value), ()) ↔
      FallbackValue services body env property value := by
  have hdefault := getDefaultValue_eq_some_iff hnodup hproperty hwrap env value
  unfold getPropertyValueFromBlockOrDefault
  cases hfind : body.find? fun p => p.name == property.name with
  | none =>
      dsimp only
      rw [hdefault]
      constructor
      · exact fun h => .inl (.inr ⟨hfind, h⟩)
      · rintro ((⟨_, _, hassigned, _⟩ | ⟨_, h⟩) | ⟨⟨_, _, hassigned, _⟩, _⟩)
        · simp [hfind] at hassigned
        · exact h
        · simp [hfind] at hassigned
  | some assignment =>
      have hassigned := assignedValue_iff hfind hwrap env
      dsimp only
      rw [Exec.bind_eq_ok_iff]
      constructor
      · rintro ⟨result, _, hresult, hrest⟩
        have hvalue := (hassigned result).mpr hresult
        cases result with
        | none => exact .inr ⟨hvalue, hdefault.mp hrest⟩
        | some value =>
            cases hrest
            exact .inl (.inl hvalue)
      · rintro ((hvalue | ⟨hnone, _⟩) | ⟨hnone, hvalue⟩)
        · exact ⟨some value, (), (hassigned _).mp hvalue, rfl⟩
        · simp [hfind] at hnone
        · exact ⟨none, (), (hassigned _).mp hnone, hdefault.mpr hvalue⟩

theorem FallbackValue.exists_wrap {env : EvaluationContext} {property : BlockTypeProperty}
    {value : Value} (h : FallbackValue services body env property value) :
    ∃ valueType, ValueType.wrap services.ast property.valueType = .ok (some valueType) := by
  rcases h with (⟨_, T, _, hT, _⟩ | ⟨_, _, T, _, hT, _⟩) | ⟨⟨_, T, _, hT, _⟩, _⟩
  · exact ⟨T, hT⟩
  · exact ⟨T, hT⟩
  · exact ⟨T, hT⟩

/-- What the lookup of a property yields. -/
theorem valueOfProperty_eq_ok_iff (hnodup : (properties.map BlockTypeProperty.name).Nodup)
    {property : BlockTypeProperty} (hproperty : property ∈ properties) {env : EvaluationContext}
    {value : Value} :
    valueOfProperty services body properties env property = some (.ok value) ↔
      FallbackValue services body env property value := by
  have hlookup : valueOfProperty services body properties env property = some (.ok value) ↔
      getValueOfProperty services body properties env property () = some (.ok value, ()) := by
    rw [valueOfProperty, Option.map_eq_some_iff]
    constructor
    · rintro ⟨⟨_, _⟩, hvalue, rfl⟩
      exact hvalue
    · exact fun hvalue => ⟨_, hvalue, rfl⟩
  rw [hlookup, getValueOfProperty, Exec.bind_eq_ok_iff]
  constructor
  · rintro ⟨result, _, hwrap, hrest⟩
    cases result with
    | none => cases hrest
    | some valueType =>
        simp only [Exec.ofExcept_apply, Option.some.injEq, Prod.mk.injEq] at hwrap
        obtain ⟨value', _, hvalue, hrest⟩ := Exec.bind_eq_ok_iff.mp hrest
        cases value' with
        | none => cases hrest
        | some value' =>
            cases hrest
            exact (getPropertyValueFromBlockOrDefault_eq_some_iff hnodup hproperty hwrap.1).mp
              hvalue
  · intro h
    obtain ⟨valueType, hwrap⟩ := h.exists_wrap
    have hvalue := (getPropertyValueFromBlockOrDefault_eq_some_iff hnodup hproperty hwrap).mpr h
    refine ⟨some valueType, (), by rw [hwrap]; rfl, ?_⟩
    exact Exec.bind_eq_ok_iff.mpr ⟨some value, (), hvalue, rfl⟩

/-- No property has two values. -/
theorem FallbackValue.unique (hnodup : (properties.map BlockTypeProperty.name).Nodup)
    {property : BlockTypeProperty} (hproperty : property ∈ properties) {env : EvaluationContext}
    {value value' : Value} (h : FallbackValue services body env property value)
    (h' : FallbackValue services body env property value') : value = value' := by
  rw [← valueOfProperty_eq_ok_iff hnodup hproperty] at h h'
  simpa using h.symm.trans h'

/-! ## One property after the other -/

/-- One property is bound to its value in the environment of that moment. -/
theorem addVariableToContext_eq_ok_iff {context context' : ExecutionContext δ}
    {property : BlockTypeProperty} :
    addVariableToContext services body properties property context = some (.ok (), context') ↔
      ∃ value, valueOfProperty services body properties context.evaluationContext property =
          some (.ok value) ∧
        setValueForReference property.name value context = some (.ok (), context') := by
  unfold addVariableToContext
  rw [Exec.bind_of_ok (Exec.get_apply context), Exec.bind_eq_ok_iff]
  simp only [getValueOfProperty_apply, Option.map_eq_some_iff, Prod.mk.injEq]
  constructor
  · rintro ⟨value, _, ⟨_, hvalue, rfl, rfl⟩, hset⟩
    exact ⟨value, hvalue, hset⟩
  · rintro ⟨value, hvalue, hset⟩
    exact ⟨value, context, ⟨_, hvalue, rfl, rfl⟩, hset⟩

/-- The environment `env` in which `bound` have got the values `value`. -/
def bindValues (value : BlockTypeProperty → Value) (env : EvaluationContext)
    (bound : List BlockTypeProperty) : EvaluationContext :=
  bound.foldl (fun current property => current.setValueForReference property.name (value property))
    env

section Runs

variable {value : BlockTypeProperty → Value} {env : EvaluationContext}

theorem bindValues_append {bound : List BlockTypeProperty} {property : BlockTypeProperty} :
    bindValues value env (bound ++ [property]) =
      (bindValues value env bound).setValueForReference property.name (value property) := by
  simp [bindValues]

/-- With distinct names, every bound property keeps its value. -/
theorem bindValues_of_mem {bound : List BlockTypeProperty}
    (hnodup : (bound.map BlockTypeProperty.name).Nodup) {property : BlockTypeProperty}
    (hmem : property ∈ bound) :
    (bindValues value env bound).variableValues property.name = some (value property) := by
  induction bound using List.reverseRecOn with
  | nil => cases hmem
  | append_singleton bound last ih =>
      rw [List.map_append, List.nodup_append] at hnodup
      rw [bindValues_append]
      rcases List.mem_append.mp hmem with hmem | hmem
      · have hne : property.name ≠ last.name :=
          hnodup.2.2 _ (List.mem_map_of_mem hmem) _ (List.mem_singleton.mpr rfl)
        simp [EvaluationContext.setValueForReference, hne, ih hnodup.1 hmem]
      · obtain rfl := List.mem_singleton.mp hmem
        simp [EvaluationContext.setValueForReference]

/-- The names that are not bound any more keep their values. -/
theorem addVariablesToContext_of_not_mem {rest : List BlockTypeProperty}
    {context context' : ExecutionContext δ}
    (h : Exec.forEach rest (addVariableToContext services body properties) context =
      some (.ok (), context')) {name : String}
    (hname : name ∉ rest.map BlockTypeProperty.name) :
    context'.evaluationContext.variableValues name =
      context.evaluationContext.variableValues name := by
  induction rest generalizing context with
  | nil =>
      cases h
      rfl
  | cons property rest ih =>
      rw [Exec.forEach_cons] at h
      obtain ⟨_, next, hproperty, hrest⟩ := Exec.bind_eq_ok_iff.mp h
      simp only [List.map_cons, List.mem_cons, not_or] at hname
      obtain ⟨value, _, hset⟩ := addVariableToContext_eq_ok_iff.mp hproperty
      cases hset
      rw [ih hrest hname.2]
      simp [EvaluationContext.setValueForReference, hname.1]

end Runs

/-! ## All properties at once -/

/-- Every property is bound to the value that it is meant to have in the environment of the
caller. -/
def BindsSimultaneously (services : ExecutionServices) (body : List PropertyAssignment)
    (properties : List BlockTypeProperty) (context : ExecutionContext δ) : Prop :=
  ∃ context', addVariablesToContext services body properties context =
      some (.ok (), context') ∧
    ∀ property ∈ properties, ∃ value,
      IntendedValue services body context.evaluationContext property value ∧
        context'.evaluationContext.variableValues property.name = some value

/-- Every property is meant to have a value in `env`, and has it also where the earlier
properties are bound to theirs. -/
def KeepsIntendedValues (services : ExecutionServices) (body : List PropertyAssignment)
    (properties : List BlockTypeProperty) (env : EvaluationContext) : Prop :=
  ∃ value : BlockTypeProperty → Value, ∀ before property after,
    properties = before ++ property :: after →
      IntendedValue services body env property (value property) ∧
        FallbackValue services body (bindValues value env before) property (value property)

section Iff

variable {env : EvaluationContext} {value : BlockTypeProperty → Value}

theorem addVariablesToContext_of_keeps (hnodup : (properties.map BlockTypeProperty.name).Nodup)
    (hkeeps : ∀ before property after, properties = before ++ property :: after →
      FallbackValue services body (bindValues value env before) property (value property))
    (bound rest : List BlockTypeProperty) (hsplit : properties = bound ++ rest)
    (context : ExecutionContext δ)
    (hcontext : context.evaluationContext = bindValues value env bound) :
    ∃ context', Exec.forEach rest (addVariableToContext services body properties) context =
        some (.ok (), context') ∧
      context'.evaluationContext = bindValues value env properties := by
  induction rest generalizing bound context with
  | nil =>
      rw [List.append_nil] at hsplit
      exact ⟨context, rfl, hsplit ▸ hcontext⟩
  | cons property rest ih =>
      have hvalue := hkeeps bound property rest hsplit
      rw [← hcontext, ← valueOfProperty_eq_ok_iff hnodup (by simp [hsplit])] at hvalue
      have hstep : addVariableToContext services body properties property context =
          some (.ok (), _) := addVariableToContext_eq_ok_iff.mpr ⟨_, hvalue, rfl⟩
      rw [Exec.forEach_cons, Exec.bind_of_ok hstep]
      refine ih (bound ++ [property]) (by simp [hsplit]) _ ?_
      rw [bindValues_append, ← hcontext]

theorem keeps_of_addVariablesToContext (hnodup : (properties.map BlockTypeProperty.name).Nodup)
    (bound rest : List BlockTypeProperty) (hsplit : properties = bound ++ rest)
    {context context' : ExecutionContext δ}
    (hcontext : context.evaluationContext = bindValues value env bound)
    (hrun : Exec.forEach rest (addVariableToContext services body properties) context =
      some (.ok (), context'))
    (hbound : ∀ property ∈ properties,
      context'.evaluationContext.variableValues property.name = some (value property))
    (before after : List BlockTypeProperty) (property : BlockTypeProperty)
    (hproperty : rest = before ++ property :: after) :
    FallbackValue services body (bindValues value env (bound ++ before)) property
      (value property) := by
  induction rest generalizing bound context before with
  | nil => simp at hproperty
  | cons head rest ih =>
      have hhead : head ∈ properties := by simp [hsplit]
      rw [Exec.forEach_cons] at hrun
      obtain ⟨_, next, hstep, hrest⟩ := Exec.bind_eq_ok_iff.mp hrun
      obtain ⟨now, hnow, hset⟩ := addVariableToContext_eq_ok_iff.mp hstep
      cases hset
      -- no later property has the name of `head`, so its value is the one it got here
      have hlast : head.name ∉ rest.map BlockTypeProperty.name := by
        rw [hsplit, List.map_append, List.nodup_append, List.map_cons, List.nodup_cons] at hnodup
        exact hnodup.2.1.1
      have hfinal := addVariablesToContext_of_not_mem hrest hlast
      rw [hbound head hhead] at hfinal
      obtain rfl : value head = now := by
        simpa [EvaluationContext.setValueForReference] using hfinal
      cases before with
      | nil =>
          obtain ⟨rfl, rfl⟩ := List.cons.inj hproperty
          rw [List.append_nil, ← hcontext]
          exact (valueOfProperty_eq_ok_iff hnodup hhead).mp hnow
      | cons _ before =>
          rw [List.cons_append, List.cons.injEq] at hproperty
          obtain ⟨rfl, hproperty⟩ := hproperty
          have hnext := ih (bound ++ [head]) (by simp [hsplit])
            (by rw [bindValues_append, ← hcontext]) hrest before hproperty
          rwa [List.append_assoc] at hnext

end Iff

/-- The properties are bound as if all at once exactly if every one is meant to have a value, and
the earlier ones do not change the values of the later ones. -/
theorem bindsSimultaneously_iff (services : ExecutionServices)
    (blockType : CompositeBlockTypeDefinition) (block : BlockDefinition)
    (context : ExecutionContext δ)
    (hnodup : (blockType.properties.map BlockTypeProperty.name).Nodup) :
    BindsSimultaneously services block.body blockType.properties context ↔
      KeepsIntendedValues services block.body blockType.properties
        context.evaluationContext := by
  constructor
  · rintro ⟨context', hrun, hbound⟩
    have hvalues : ∀ property ∈ blockType.properties,
        ∃ value, context'.evaluationContext.variableValues property.name = some value :=
      fun property hproperty => (hbound property hproperty).imp fun _ h => h.2
    refine ⟨fun property =>
      (context'.evaluationContext.variableValues property.name).getD (.boolean false), ?_⟩
    intro before property after hsplit
    dsimp only
    constructor
    · obtain ⟨value, hintended, hvalue⟩ := hbound property (by simp [hsplit])
      rwa [hvalue]
    · refine keeps_of_addVariablesToContext hnodup [] _ rfl rfl hrun ?_ before after property hsplit
      intro other hother
      obtain ⟨value, hvalue⟩ := hvalues other hother
      rw [hvalue, Option.getD_some]
  · rintro ⟨value, hkeeps⟩
    obtain ⟨context', hrun, henv⟩ := addVariablesToContext_of_keeps hnodup
      (fun before property after hsplit => (hkeeps before property after hsplit).2) [] _ rfl
      context rfl
    refine ⟨context', hrun, fun property hproperty => ?_⟩
    obtain ⟨before, after, hsplit⟩ := List.append_of_mem hproperty
    refine ⟨value property, (hkeeps before property after hsplit).1, ?_⟩
    rw [henv]
    exact bindValues_of_mem hnodup hproperty

/-- A document that knows the value type `text` only. -/
def textServices : ExecutionServices :=
  sampleServices { emptyAst with valuetypes := [⟨"text", true, none, none, none⟩] }

def textProperty (name : String) : BlockTypeProperty :=
  ⟨name, ⟨some 0, []⟩, none⟩

/-- `property x oftype text; property y oftype text;` -/
def pairBlockType : CompositeBlockTypeDefinition where
  name := "Pair"
  inputs := [⟨"default", some "None"⟩]
  outputs := [⟨"default", some "None"⟩]
  properties := [textProperty "x", textProperty "y"]
  blocks := []
  pipes := []

/-- `block pair oftype Pair { x: first; y: second; }`, where both are properties of the
enclosing block type. -/
def pairBlock (first second : String) : BlockDefinition where
  name := "pair"
  type := some 0
  body := [⟨"x", .expression (.referenceLiteral
      (some (.blockTypeProperty first ⟨some 0, []⟩)))⟩,
    ⟨"y", .expression (.referenceLiteral
      (some (.blockTypeProperty second ⟨some 0, []⟩)))⟩]

/-- Inside a composite block whose properties `x` and `y` are `"1"` and `"2"`. -/
def pairContext : ExecutionContext Unit :=
  .construct (((EvaluationContext.construct ⟨fun _ => none, none⟩).setValueForReference "x"
    (.string "1")).setValueForReference "y" (.string "2"))

theorem bindsSimultaneously_pairBlock :
    BindsSimultaneously textServices (pairBlock "x" "y").body pairBlockType.properties
        pairContext ↔
      KeepsIntendedValues textServices (pairBlock "x" "y").body pairBlockType.properties
        pairContext.evaluationContext :=
  bindsSimultaneously_iff textServices pairBlockType (pairBlock "x" "y") pairContext (by decide)

theorem not_bindsSimultaneously_pairBlock :
    ¬ ∀ (services : ExecutionServices) (blockType : CompositeBlockTypeDefinition)
      (block : BlockDefinition) (context : ExecutionContext Unit),
      (blockType.properties.map BlockTypeProperty.name).Nodup →
      (∀ property ∈ blockType.properties, ∃ value,
        IntendedValue services block.body context.evaluationContext property value) →
      BindsSimultaneously services block.body blockType.properties context := by
  intro h
  have hx : IntendedValue textServices (pairBlock "y" "x").body pairContext.evaluationContext
      (textProperty "x") (.string "2") := .inl ⟨_, .primitive .text, rfl, rfl, rfl⟩
  have hy : IntendedValue textServices (pairBlock "y" "x").body pairContext.evaluationContext
      (textProperty "y") (.string "1") := .inl ⟨_, .primitive .text, rfl, rfl, rfl⟩
  obtain ⟨context', hrun, hbound⟩ := h textServices pairBlockType (pairBlock "y" "x") pairContext
    (by decide) fun property hproperty => by
      rcases List.mem_pair.mp hproperty with rfl | rfl
      · exact ⟨_, hx⟩
      · exact ⟨_, hy⟩
  cases hrun
  obtain ⟨value, hintended, hvalue⟩ := hbound (textProperty "y") (by simp [pairBlockType])
  have hnodup : (pairBlockType.properties.map BlockTypeProperty.name).Nodup := by decide
  have hfirst : value = .string "1" :=
    FallbackValue.unique hnodup (by simp [pairBlockType]) (.inl hintended) (.inl hy)
  have hother : some (Value.string "2") = some value := hvalue
  simp [hfirst] at hother

end Jayvee
