import Jayvee.Model.CompositeBlockExecutor
import Jayvee.Verification.Evaluation.Termination

/-! # Reading properties -/

namespace Jayvee

open Foundation ExecutionContext

variable {δ : Type} (services : ExecutionServices)

/-! ## Properties of the current node -/

/-- In both contexts the current node is the same, and its properties have the same values. -/
structure SameProperties (context context' : ExecutionContext δ) : Prop where
  node : context'.stack.getLast? = context.stack.getLast?
  values : ∀ body, propertyBody services.ast context.stack.getLast? = some body →
    ∀ property ∈ body, ∀ valueType,
      (evaluatePropertyValue services.ast services.runtime property context.evaluationContext
        valueType : ExecM δ (Option Value)) =
      evaluatePropertyValue services.ast services.runtime property context'.evaluationContext
        valueType

theorem SameProperties.refl (context : ExecutionContext δ) :
    SameProperties services context context :=
  ⟨rfl, fun _ _ _ _ _ => rfl⟩

section Agrees

variable {services} {context context' : ExecutionContext δ}

theorem getCurrentNode_agrees (h : SameProperties services context context') :
    Exec.Agrees (getCurrentNode : ExecM δ (Option StackNode)) context context' := by
  apply Exec.Agrees.get_bind
  · rw [h.node]
  · exact Exec.Agrees.pure _

theorem getProperty_agrees (h : SameProperties services context context')
    (propertyName : String) :
    Exec.Agrees (getProperty services propertyName : ExecM δ (Option PropertyAssignment))
      context context' :=
  Exec.Agrees.bind (getCurrentNode_agrees h) fun _ _ => Exec.Agrees.pure _

/-- A property that is found is one of the current node. -/
theorem mem_body_of_getProperty {propertyName : String} {property : PropertyAssignment}
    (h : getProperty services propertyName context = some (.ok (some property), context)) :
    ∃ body, propertyBody services.ast context.stack.getLast? = some body ∧ property ∈ body := by
  have hfound : ((propertyBody services.ast context.stack.getLast?).bind fun properties =>
      properties.find? fun property => property.name == propertyName) = some property :=
    Except.ok.inj (Prod.ext_iff.mp (Option.some.inj h)).1
  obtain ⟨body, hbody, hfind⟩ := Option.bind_eq_some_iff.mp hfound
  exact ⟨body, hbody, List.mem_of_find?_eq_some hfind⟩

theorem getWrapperOfCurrentNode_agrees (h : SameProperties services context context') :
    Exec.Agrees (getWrapperOfCurrentNode services : ExecM δ (List PropertySpecification))
      context context' := by
  refine Exec.Agrees.bind (getCurrentNode_agrees h) fun node _ => ?_
  split
  · exact Exec.Agrees.bind (BlockTypeWrapper.wrap_agrees _ _ _) fun _ _ => Exec.Agrees.pure _
  · split
    · exact Exec.Agrees.bind (ConstraintTypeWrapper.wrap_agrees _ _ _)
        fun _ _ => Exec.Agrees.pure _
    · exact Exec.Agrees.throw _
  · exact Exec.Agrees.throw _

theorem getDefaultPropertyValue_agrees (h : SameProperties services context context')
    (propertyName : String) (valueType : ValueType) :
    Exec.Agrees (getDefaultPropertyValue services propertyName valueType : ExecM δ Value)
      context context' := by
  refine Exec.Agrees.bind (getWrapperOfCurrentNode_agrees h) fun properties _ => ?_
  split
  · exact Exec.Agrees.throw _
  · refine Exec.Agrees.bind (Exec.Agrees.ofExcept _) fun _ _ => ?_
    exact Exec.Agrees.ite (Exec.Agrees.pure _) (Exec.Agrees.throw _)

theorem getPropertyValue_agrees (h : SameProperties services context context')
    (propertyName : String) (valueType : ValueType) :
    Exec.Agrees (getPropertyValue services propertyName valueType : ExecM δ Value)
      context context' := by
  refine Exec.Agrees.bind (getProperty_agrees h propertyName) fun property hproperty => ?_
  cases property with
  | none => exact getDefaultPropertyValue_agrees h propertyName valueType
  | some property =>
      obtain ⟨body, hbody, hmem⟩ := mem_body_of_getProperty hproperty
      apply Exec.Agrees.get_bind
      · rw [h.values body hbody property hmem]
      · refine Exec.Agrees.bind (evaluatePropertyValue_agrees _ _ _ _ _) fun value _ => ?_
        cases value with
        | none => exact Exec.Agrees.throw _
        | some value => exact Exec.Agrees.pure _

end Agrees

theorem getCurrentNode_reads : Exec.Reads (getCurrentNode : ExecM δ (Option StackNode)) :=
  fun _ => ⟨_, rfl⟩

theorem getOrFailProperty_reads (propertyName : String) :
    Exec.Reads (getOrFailProperty services propertyName : ExecM δ PropertyAssignment) := by
  refine Exec.Reads.bind (fun _ => ⟨_, rfl⟩) fun property => ?_
  cases property with
  | none => exact Exec.Reads.throw _
  | some property => exact Exec.Reads.pure _

theorem getPropertyValue_reads (propertyName : String) (valueType : ValueType) :
    Exec.Reads (getPropertyValue services propertyName valueType : ExecM δ Value) :=
  Exec.Agrees.reads fun context =>
    getPropertyValue_agrees (SameProperties.refl services context) propertyName valueType

/-! ## Properties of a composite block -/

theorem getDefaultValue_reads {σ : Type} (name : String) (properties : List BlockTypeProperty)
    (env : EvaluationContext) :
    Exec.Reads (getDefaultValue services name properties env :
      Exec σ JsError (Option Value)) := by
  unfold getDefaultValue
  dsimp only
  split
  · exact Exec.Reads.pure _
  · exact evaluateExpressionSilently_reads _ _ _

theorem getPropertyValueFromBlockOrDefault_reads {σ : Type} (name : String)
    (valueType : ValueType) (body : List PropertyAssignment)
    (properties : List BlockTypeProperty) (env : EvaluationContext) :
    Exec.Reads (getPropertyValueFromBlockOrDefault services name valueType body properties env :
      Exec σ JsError (Option Value)) := by
  unfold getPropertyValueFromBlockOrDefault
  split
  · exact getDefaultValue_reads services name properties env
  · refine Exec.Reads.bind
      (Exec.Agrees.reads fun _ => evaluatePropertyValue_agrees _ _ _ _ _) fun value => ?_
    cases value with
    | none => exact getDefaultValue_reads services name properties env
    | some value => exact Exec.Reads.pure _

theorem getValueOfProperty_reads {σ : Type} (body : List PropertyAssignment)
    (properties : List BlockTypeProperty) (env : EvaluationContext)
    (property : BlockTypeProperty) :
    Exec.Reads (getValueOfProperty services body properties env property :
      Exec σ JsError Value) := by
  refine Exec.Reads.bind (Exec.Reads.ofExcept _) fun valueType => ?_
  cases valueType with
  | none => exact Exec.Reads.throw _
  | some valueType =>
      refine Exec.Reads.bind
        (getPropertyValueFromBlockOrDefault_reads services _ _ _ _ _) fun value => ?_
      cases value with
      | none => exact Exec.Reads.throw _
      | some value => exact Exec.Reads.pure _

/-! ## Constraints -/

section Constraints

variable {services} {context context' : ExecutionContext δ}

theorem getTypedPropertyValue_agrees (h : SameProperties services context context') {A : Type}
    (typeguard : Value → Option A) (propertyName : String) (valueType : ValueType) :
    Exec.Agrees (getTypedPropertyValue services typeguard propertyName valueType : ExecM δ A)
      context context' := by
  refine Exec.Agrees.bind (getPropertyValue_agrees h propertyName valueType) fun value _ => ?_
  split
  · exact Exec.Agrees.pure _
  · exact Exec.Agrees.throw _

variable (h : SameProperties services context context')

include h

theorem isInRange_agrees (numericValue : JsNumber) :
    Exec.Agrees (RangeConstraintExecutor.isInRange services numericValue : ExecM δ Bool)
      context context' := by
  refine Exec.Agrees.bind (getTypedPropertyValue_agrees h _ _ _) fun _ _ => ?_
  refine Exec.Agrees.bind (getTypedPropertyValue_agrees h _ _ _) fun _ _ => ?_
  refine Exec.Agrees.bind (getTypedPropertyValue_agrees h _ _ _) fun _ _ => ?_
  exact Exec.Agrees.bind (getTypedPropertyValue_agrees h _ _ _) fun _ _ => Exec.Agrees.pure _

theorem allowlistConstraint_agrees (value : Value) :
    Exec.Agrees (AllowlistConstraintExecutor.isValid services value : ExecM δ Bool)
      context context' := by
  cases value
  case string =>
    exact Exec.Agrees.bind (getTypedPropertyValue_agrees h _ _ _) fun _ _ => Exec.Agrees.pure _
  all_goals exact Exec.Agrees.pure _

theorem denylistConstraint_agrees (value : Value) :
    Exec.Agrees (DenylistConstraintExecutor.isValid services value : ExecM δ Bool)
      context context' := by
  cases value
  case string =>
    exact Exec.Agrees.bind (getTypedPropertyValue_agrees h _ _ _) fun _ _ => Exec.Agrees.pure _
  all_goals exact Exec.Agrees.pure _

theorem regexConstraint_agrees (value : Value) :
    Exec.Agrees (RegexConstraintExecutor.isValid services value : ExecM δ Bool)
      context context' := by
  cases value
  case string =>
    exact Exec.Agrees.bind (getTypedPropertyValue_agrees h _ _ _) fun _ _ => Exec.Agrees.pure _
  all_goals exact Exec.Agrees.pure _

theorem lengthConstraint_agrees (value : Value) :
    Exec.Agrees (LengthConstraintExecutor.isValid services value : ExecM δ Bool)
      context context' := by
  cases value
  case string =>
    refine Exec.Agrees.bind (getTypedPropertyValue_agrees h _ _ _) fun _ _ => ?_
    exact Exec.Agrees.bind (getTypedPropertyValue_agrees h _ _ _) fun _ _ => Exec.Agrees.pure _
  all_goals exact Exec.Agrees.pure _

theorem rangeConstraint_agrees (value : Value) :
    Exec.Agrees (RangeConstraintExecutor.isValid services value : ExecM δ Bool)
      context context' := by
  cases value
  case string text => exact isInRange_agrees h (services.runtime.parseFloat text)
  case number number => exact isInRange_agrees h number
  all_goals exact Exec.Agrees.pure _

end Constraints

theorem getTypedPropertyValue_reads {A : Type} (typeguard : Value → Option A)
    (propertyName : String) (valueType : ValueType) :
    Exec.Reads (getTypedPropertyValue services typeguard propertyName valueType : ExecM δ A) :=
  Exec.Agrees.reads fun context =>
    getTypedPropertyValue_agrees (SameProperties.refl services context) typeguard propertyName
      valueType

/-- The value that is read for a property of the current block. -/
def HasTypedProperty {α : Type} (services : ExecutionServices) (context : ExecutionContext δ)
    (typeguard : Value → Option α) (propertyName : String) (valueType : ValueType) (value : α) :
    Prop :=
  ∃ after, getTypedPropertyValue services typeguard propertyName valueType context =
    some (.ok value, after)

/-- Reading a property leaves the context as it is. -/
theorem HasTypedProperty.same {α : Type} {services : ExecutionServices}
    {context : ExecutionContext δ} {typeguard : Value → Option α} {name : String}
    {valueType : ValueType} {value : α}
    (h : HasTypedProperty services context typeguard name valueType value) :
    getTypedPropertyValue services typeguard name valueType context =
      some (.ok value, context) := by
  obtain ⟨after, h⟩ := h
  cases (getTypedPropertyValue_reads _ _ _ _).same h
  exact h

/-- Only the executors of expression constraints write to the context. -/
theorem createConstraintExecutor_cases {constraint : ConstraintId}
    {constraintExecutor : ConstraintExecutor δ}
    (h : createConstraintExecutor services constraint = .ok constraintExecutor) :
    (∀ value context context', SameProperties services context context' →
      Exec.Agrees (constraintExecutor value) context context') ∨
    ∃ name valueType expression,
      services.ast.constraints[constraint]? = some (.expression name valueType expression) ∧
      constraintExecutor = ExpressionConstraintExecutor.isValid services expression := by
  unfold createConstraintExecutor at h
  split at h
  · cases h
  · cases h
  · split at h
    · cases h
    · rename_i found hlookup
      cases h
      obtain ⟨_, _, hlist, _⟩ := List.lookup_eq_some_iff.mp hlookup
      have hmem : (_, constraintExecutor) ∈ getConstraintExecutors services :=
        hlist ▸ List.mem_append_right _ List.mem_cons_self
      simp only [getConstraintExecutors, List.mem_cons, Prod.mk.injEq, List.not_mem_nil,
        or_false] at hmem
      rcases hmem with ⟨_, rfl⟩ | ⟨_, rfl⟩ | ⟨_, rfl⟩ | ⟨_, rfl⟩ | ⟨_, rfl⟩
      · exact .inl fun value _ _ hsame => allowlistConstraint_agrees hsame value
      · exact .inl fun value _ _ hsame => denylistConstraint_agrees hsame value
      · exact .inl fun value _ _ hsame => regexConstraint_agrees hsame value
      · exact .inl fun value _ _ hsame => lengthConstraint_agrees hsame value
      · exact .inl fun value _ _ hsame => rangeConstraint_agrees hsame value
  · cases h
    exact .inr ⟨_, _, _, by assumption, rfl⟩

end Jayvee
