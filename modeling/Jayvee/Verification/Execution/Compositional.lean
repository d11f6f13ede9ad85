import Jayvee.Verification.Execution.Effect

/-! # Properties of programs that are proved construct by construct -/

namespace Jayvee

open Foundation ExecutionContext

variable {δ : Type}

/-! ## The constructs -/

/-- `P` holds of the steps that constraints are made of, and is kept by their combinations. -/
structure Compositional (P : (α : Type) → ExecM δ α → Prop) : Prop where
  reads : ∀ {α : Type} {m : ExecM δ α}, Exec.Reads m → P α m
  bind : ∀ {α β : Type} {m : ExecM δ α} {f : α → ExecM δ β},
    P α m → (∀ a, P β (f a)) → P β (m >>= f)
  setValueForValueKeyword : ∀ value, P Unit (setValueForValueKeyword value)
  deleteValueForValueKeyword : P Unit deleteValueForValueKeyword
  node : ∀ {α β : Type} {node : StackNode} {m : ExecM δ α} {f : α → ExecM δ β},
    P α m → (∀ a, P β (f a)) →
    P β (enterNode node >>= fun _ => m >>= fun a => exitNode node >>= fun _ => f a)

/-- `P` is also kept by the binding and the removal of variables around a program. -/
structure Scoped (P : (α : Type) → ExecM δ α → Prop) : Prop extends Compositional P where
  scope : ∀ {α : Type} {names : List String} {add remove : ExecM δ Unit} {m : ExecM δ α},
    Exec.Ends add → Binds names add → Unbinds names remove → P α m →
    P α (recordAbort (add >>= fun _ => m >>= fun a => remove >>= fun _ => Pure.pure a))

section Compositional

variable {P : (α : Type) → ExecM δ α → Prop} (h : Compositional P)

include h

theorem Compositional.ofExcept_bind {α β : Type} {r : Except JsError α} {f : α → ExecM δ β}
    (hf : ∀ a, r = .ok a → P β (f a)) : P β (Exec.ofExcept r >>= f) := by
  cases r with
  | ok a => exact hf a rfl
  | error e => exact h.reads (.throw e)

/-! ## Constraints -/

variable (services : ExecutionServices)

theorem Compositional.expressionConstraint (expression : Expression) (value : Value) :
    P Bool (ExpressionConstraintExecutor.isValid services expression value) := by
  apply h.bind (h.setValueForValueKeyword value)
  intro _
  apply h.bind (h.reads .get)
  intro context
  apply h.bind (h.reads (evaluateExpressionSilently_reads _ _ _))
  intro result
  split
  · exact h.bind h.deleteValueForValueKeyword fun _ => h.reads (.pure _)
  · exact h.reads (.throw _)

theorem Compositional.constraintExecutor {constraint : ConstraintId}
    {constraintExecutor : ConstraintExecutor δ}
    (hcreate : createConstraintExecutor services constraint = .ok constraintExecutor)
    (value : Value) : P Bool (constraintExecutor value) := by
  rcases createConstraintExecutor_cases services hcreate with
    hagrees | ⟨_, _, expression, _, rfl⟩
  · exact h.reads (Exec.Agrees.reads fun context => hagrees value _ _ (.refl services context))
  · exact h.expressionConstraint services expression value

omit h in
theorem getConstraints_reads (valueType : ValuetypeId) :
    Exec.Reads (getConstraints services valueType : ExecM δ (List ConstraintId)) := by
  unfold getConstraints
  split
  · exact .throw _
  · apply Exec.Reads.bind .get
    intro context
    apply Exec.Reads.bind (evaluateExpressionSilently_reads _ _ _)
    intro constraints
    split <;> exact .pure _

theorem Compositional.fulfillsConstraints (value : Value) (constraints : List ConstraintId) :
    P Bool (fulfillsConstraints services value constraints) := by
  induction constraints with
  | nil => exact h.reads (.pure _)
  | cons constraint constraints ih =>
      apply h.ofExcept_bind
      intro constraintExecutor hcreate
      apply h.node (h.constraintExecutor services hcreate value)
      intro valueFulfilledConstraint
      split
      · exact h.reads (.pure _)
      · exact ih

theorem Compositional.visitValueRepresentation (value : Value) (fuel : Nat)
    (valueType : ValueType) : P Bool (visitValueRepresentation services value fuel valueType) := by
  induction fuel generalizing valueType with
  | zero => exact h.reads (.throw _)
  | succ fuel ih =>
      cases valueType with
      | atomic astNode =>
          apply h.bind (h.reads (.ofExcept _))
          intro supertype
          cases supertype with
          | none => exact h.reads (.throw _)
          | some supertype =>
              apply h.bind (ih supertype)
              intro isValidForSupertype
              split
              · exact h.reads (.pure _)
              · exact h.bind (h.reads (getConstraints_reads services astNode))
                  (h.fulfillsConstraints services value)
      | _ => exact h.reads (.ofExcept _)

end Compositional

/-! ## Transforms -/

section Reads

theorem getPortDetails_reads {σ : Type} (ast : Ast) (transform : TransformDefinition)
    (kind : PortKind) :
    Exec.Reads (TransformExecutor.getPortDetails ast transform kind :
      Exec σ JsError (List PortDetails)) := by
  apply Exec.Reads.mapM
  intro port
  apply Exec.Reads.bind (.ofExcept _)
  intro valueType
  cases valueType with
  | none => exact .throw _
  | some valueType => exact .pure _

theorem getOutputDetails_reads {σ : Type} (ast : Ast) (transform : TransformDefinition) :
    Exec.Reads (TransformExecutor.getOutputDetails ast transform :
      Exec σ JsError PortDetails) := by
  apply Exec.Reads.bind (getPortDetails_reads ast transform .to)
  intro details
  split
  · exact .pure _
  · exact .throw _

variable (services : ExecutionServices)

theorem evaluateOutput_reads (transform : TransformDefinition) :
    Exec.Reads (TransformExecutor.evaluateOutput services transform :
      ExecM δ (Option Value)) := by
  apply Exec.Reads.tryCatch ?_ fun _ => .pure _
  apply Exec.Reads.bind
  · unfold TransformExecutor.getOutputAssignment
    split
    · exact .pure _
    · exact .throw _
  · exact fun _ => Exec.Reads.bind .get fun _ => evaluateExpressionSilently_reads _ _ _

theorem assertPrintable_reads (value : Value) :
    Exec.Reads (TransformExecutor.assertPrintable value : ExecM δ Unit) := by
  cases value
  case string | boolean | number => exact .pure _
  all_goals exact .throw _

theorem logBlockResult_reads (result : Option (IOTypeImplementation δ)) :
    Exec.Reads (logBlockResult services result : ExecM δ Unit) := by
  apply Exec.Reads.ite ?_ (.pure _)
  apply Exec.Reads.bind getCurrentNode_reads
  intro node
  split
  · exact .pure _
  · exact .throw _

theorem addVariableToContext_binds (columns : String → Option TableColumn) (rowIndex : Nat)
    (inputDetails : PortDetails) :
    Binds [inputDetails.port.name]
      (TransformExecutor.addVariableToContext columns rowIndex inputDetails : ExecM δ Unit) := by
  unfold TransformExecutor.addVariableToContext
  dsimp only
  split
  · exact Binds.throw _
  · split
    · exact Binds.throw _
    · exact Binds.setValueForReference _ _

theorem addVariableToContext_ends (columns : String → Option TableColumn) (rowIndex : Nat)
    (inputDetails : PortDetails) :
    Exec.Ends
      (TransformExecutor.addVariableToContext columns rowIndex inputDetails : ExecM δ Unit) := by
  unfold TransformExecutor.addVariableToContext
  dsimp only
  split
  · exact Exec.Ends.throw _
  · split
    · exact Exec.Ends.throw _
    · exact Exec.Ends.modify _

end Reads

theorem Compositional.evaluateRow {P : (α : Type) → ExecM δ α → Prop} (h : Compositional P)
    (services : ExecutionServices) (transform : TransformDefinition)
    (outputDetails : PortDetails) :
    P (Option Value) (TransformExecutor.evaluateRow services transform outputDetails) := by
  apply h.bind (h.reads (evaluateOutput_reads services transform))
  intro value
  cases value with
  | none => exact h.reads (.pure _)
  | some newValue =>
      apply h.bind (h.visitValueRepresentation services newValue _ _)
      intro isValid
      split
      · exact h.reads (.pure _)
      · exact h.bind (h.reads (assertPrintable_reads newValue)) fun _ => h.reads (.pure _)

section Scoped

variable {P : (α : Type) → ExecM δ α → Prop} (h : Scoped P) (services : ExecutionServices)

include h

theorem Scoped.executeRow (transform : TransformDefinition)
    (columns : String → Option TableColumn) (inputDetailsList : List PortDetails)
    (outputDetails : PortDetails) (rowIndex : Nat) :
    P (Option Value) (TransformExecutor.executeRow services transform columns inputDetailsList
      outputDetails rowIndex) :=
  h.scope (Exec.Ends.forEach (addVariableToContext_ends columns rowIndex))
    (Binds.forEach (addVariableToContext_binds columns rowIndex)) Unbinds.forEach
    (h.evaluateRow services transform outputDetails)

theorem Scoped.executeRows (transform : TransformDefinition)
    (columns : String → Option TableColumn) (inputDetailsList : List PortDetails)
    (outputDetails : PortDetails) (remainingRows rowIndex : Nat) (result : TransformResult) :
    P TransformResult (TransformExecutor.executeRows services transform columns inputDetailsList
      outputDetails remainingRows rowIndex result) := by
  induction remainingRows generalizing rowIndex result with
  | zero => exact h.reads (.pure _)
  | succ remainingRows ih =>
      apply h.bind (h.executeRow services transform columns inputDetailsList outputDetails
        rowIndex)
      intro newValue
      cases newValue with
      | none => exact ih _ _
      | some newValue => exact ih _ _

theorem Scoped.executeTransform (transform : TransformId)
    (columns : String → Option TableColumn) (numberOfRows : Nat) :
    P TransformResult
      (TransformExecutor.executeTransform services transform columns numberOfRows) := by
  unfold TransformExecutor.executeTransform
  split
  · exact h.reads (.throw _)
  · apply h.node ?_ fun _ => h.reads (.pure _)
    apply h.bind (h.reads (getPortDetails_reads _ _ _))
    intro inputDetailsList
    apply h.bind (h.reads (getOutputDetails_reads _ _))
    intro outputDetails
    exact h.executeRows services _ columns inputDetailsList outputDetails _ _ _

/-! ## Builtin block executors -/

theorem Scoped.run (program : BuiltinProgram δ) :
    P (Result (Option (IOTypeImplementation δ))) (program.run services) := by
  induction program with
  | «return» result => exact h.reads (.pure _)
  | throw error => exact h.reads (.throw _)
  | getPropertyValue propertyName valueType continuation ih =>
      exact h.bind (h.reads (getPropertyValue_reads services _ _)) ih
  | getOrFailProperty propertyName continuation ih =>
      exact h.bind (h.reads (getOrFailProperty_reads services _)) ih
  | isValidValueRepresentation value valueType continuation ih =>
      exact h.bind (h.visitValueRepresentation services _ _ _) ih
  | executeTransform transform columns numberOfRows continuation ih =>
      exact h.bind (h.executeTransform services _ _ _) ih

theorem Scoped.builtin (blockExecutor : BuiltinBlockExecutor δ)
    (input : IOTypeImplementation δ) :
    P (Result (Option (IOTypeImplementation δ))) (blockExecutor.doExecute services input) :=
  h.bind (h.reads .get) fun _ => h.run services _

end Scoped

theorem Compositional.executeWith {P : (α : Type) → ExecM δ α → Prop} (h : Compositional P)
    (services : ExecutionServices) {doExecute : BlockExecutor δ} {input : IOTypeImplementation δ}
    (hexecute : P _ (doExecute input)) :
    P (Result (Option (IOTypeImplementation δ))) (executeWith services doExecute input) := by
  apply h.bind hexecute
  intro executionResult
  cases executionResult with
  | ok result =>
      exact h.bind (h.reads (logBlockResult_reads services result)) fun _ => h.reads (.pure _)
  | error details => exact h.reads (.pure _)

end Jayvee
