import Jayvee.Verification.Execution.OrderRun
import Jayvee.Verification.Execution.Properties

/-! # What a program of the execution does to the context -/

namespace Jayvee

open Foundation ExecutionContext

variable {δ : Type} {α β : Type}

/-! ## Effects -/

/-- A run from `s` to `t` leaves nodes on the stack exactly if a block has failed in it, and
pops a wrong node only then. -/
structure StackEffect (s : ExecutionContext δ) (returned : Bool) (t : ExecutionContext δ) :
    Prop where
  grows : ∃ extra, t.stack = s.stack ++ extra
  failures_le : s.history.failures ≤ t.history.failures
  mismatches_eq : t.history.failures = s.history.failures →
    t.history.mismatches = s.history.mismatches
  balanced : returned = true →
    (t.stack = s.stack ↔ t.history.failures = s.history.failures)

/-- The part of the context that binding and removing variables concerns. -/
structure Variables where
  values : String → Option Value
  boundNames : List String
  aborts : Nat

def variablesOf (context : ExecutionContext δ) : Variables where
  values := context.evaluationContext.variableValues
  boundNames := context.history.boundNames
  aborts := context.history.aborts

/-- Names are bound and aborts are counted, whatever happens to the values. -/
structure Grows (v w : Variables) : Prop where
  aborts_le : v.aborts ≤ w.aborts
  boundNames_prefix : v.boundNames <+: w.boundNames

/-- A program that removes its variables changes exactly the names it has bound. -/
structure VariableEffect (v w : Variables) : Prop where
  aborts_le : v.aborts ≤ w.aborts
  bound : ∃ names, w.boundNames = v.boundNames ++ names ∧
    (w.aborts = v.aborts → ∀ name,
      w.values name = if name ∈ names then none else v.values name)

theorem StackEffect.refl (s : ExecutionContext δ) (returned : Bool) :
    StackEffect s returned s :=
  ⟨⟨[], by simp⟩, le_rfl, fun _ => rfl, fun _ => by simp⟩

theorem StackEffect.trans {s t u : ExecutionContext δ} {returned : Bool}
    (h : StackEffect s true t) (h' : StackEffect t returned u) : StackEffect s returned u := by
  obtain ⟨extra, hextra⟩ := h.grows
  obtain ⟨extra', hextra'⟩ := h'.grows
  have hle := h.failures_le
  have hle' := h'.failures_le
  refine ⟨⟨extra ++ extra', by rw [hextra', hextra, List.append_assoc]⟩, hle.trans hle', ?_, ?_⟩
  · intro heq
    rw [h'.mismatches_eq (by omega), h.mismatches_eq (by omega)]
  · intro hreturned
    constructor
    · intro hstack
      rw [hextra', hextra, List.append_assoc, List.append_right_eq_self,
        List.append_eq_nil_iff] at hstack
      have hfirst : t.stack = s.stack := by rw [hextra, hstack.1, List.append_nil]
      have hsecond : u.stack = t.stack := by rw [hextra', hstack.2, List.append_nil]
      rw [(h'.balanced hreturned).mp hsecond, (h.balanced rfl).mp hfirst]
    · intro heq
      rw [(h'.balanced hreturned).mpr (by omega), (h.balanced rfl).mpr (by omega)]

/-- Only the parts of the context that the effect is about matter. -/
theorem StackEffect.congr {s t t' : ExecutionContext δ} {returned : Bool}
    (h : StackEffect s returned t) (hstack : t'.stack = t.stack)
    (hfailures : t'.history.failures = t.history.failures)
    (hmismatches : t'.history.mismatches = t.history.mismatches) :
    StackEffect s returned t' := by
  obtain ⟨hgrows, hle, heq, hbalanced⟩ := h
  refine ⟨?_, ?_, ?_, ?_⟩
  · rwa [hstack]
  · rwa [hfailures]
  · rwa [hfailures, hmismatches]
  · rwa [hstack, hfailures]

theorem Grows.refl (v : Variables) : Grows v v :=
  ⟨le_rfl, List.prefix_rfl⟩

theorem Grows.trans {u v w : Variables} (h : Grows u v) (h' : Grows v w) : Grows u w :=
  ⟨h.aborts_le.trans h'.aborts_le, h.boundNames_prefix.trans h'.boundNames_prefix⟩

theorem VariableEffect.grows {v w : Variables} (h : VariableEffect v w) : Grows v w := by
  obtain ⟨hle, names, hnames, _⟩ := h
  exact ⟨hle, names, hnames.symm⟩

instance : Std.Refl VariableEffect :=
  ⟨fun _ => ⟨le_rfl, [], by simp, by simp⟩⟩

instance : IsTrans Variables VariableEffect where
  trans := by
    rintro u v w ⟨hle, names, hnames, hvalues⟩ ⟨hle', names', hnames', hvalues'⟩
    refine ⟨hle.trans hle', names ++ names', by rw [hnames', hnames, List.append_assoc], ?_⟩
    intro heq name
    rw [hvalues' (by omega) name, hvalues (by omega) name]
    simp only [List.mem_append]
    split_ifs <;> simp_all

/-- The variables `names` have got values. -/
structure Bound (names : List String) (v w : Variables) : Prop where
  aborts_eq : w.aborts = v.aborts
  boundNames_eq : w.boundNames = v.boundNames ++ names
  values_eq : ∀ name, name ∉ names → w.values name = v.values name

theorem Bound.grows {names : List String} {v w : Variables} (h : Bound names v w) :
    Grows v w :=
  ⟨h.aborts_eq.ge, names, h.boundNames_eq.symm⟩

theorem Bound.append {names names' : List String} {u v w : Variables} (h : Bound names u v)
    (h' : Bound names' v w) : Bound (names ++ names') u w := by
  refine ⟨h'.aborts_eq.trans h.aborts_eq, ?_, fun name hname => ?_⟩
  · rw [h'.boundNames_eq, h.boundNames_eq, List.append_assoc]
  · rw [List.mem_append, not_or] at hname
    rw [h'.values_eq name hname.2, h.values_eq name hname.1]

/-- The variables without the values of `names`. -/
def Variables.remove (v : Variables) (names : List String) : Variables :=
  { v with values := fun name => if name ∈ names then none else v.values name }

/-- What is bound, used and removed again is gone. -/
theorem VariableEffect.of_bound {names : List String} {u v w : Variables}
    (hbound : Bound names u v) (h : VariableEffect v w) :
    VariableEffect u (w.remove names) := by
  obtain ⟨hle, names', hnames', hvalues⟩ := h
  refine ⟨hbound.aborts_eq ▸ hle, names ++ names', ?_, fun heq name => ?_⟩
  · rw [← List.append_assoc, ← hbound.boundNames_eq]
    exact hnames'
  · have heq' : w.aborts = v.aborts := heq.trans hbound.aborts_eq.symm
    by_cases hname : name ∈ names
    · simp [Variables.remove, hname]
    · simp [Variables.remove, hname, hvalues heq', hbound.values_eq name hname]

/-! ## Disciplined programs -/

/-- Every run of `m`, whether it returns or throws, has the effect on the stack and moves the
variables along `R`. -/
def Disciplined (R : Variables → Variables → Prop) (m : ExecM δ α) : Prop :=
  ∀ s, Exec.Post m s fun r t => StackEffect s r.isOk t ∧ R (variablesOf s) (variablesOf t)

section Refl

variable {R : Variables → Variables → Prop} [Std.Refl R]

theorem Disciplined.of_reads {m : ExecM δ α} (h : Exec.Reads m) : Disciplined R m := by
  intro s r t ht
  obtain ⟨r', hr'⟩ := h s
  rw [hr'] at ht
  cases ht
  exact ⟨StackEffect.refl s _, refl _⟩

theorem Disciplined.pure (a : α) : Disciplined R (pure a : ExecM δ α) :=
  .of_reads (.pure a)

theorem Disciplined.throw (e : JsError) : Disciplined R (Exec.throw e : ExecM δ α) :=
  .of_reads (.throw e)

theorem Disciplined.ofExcept (r : Except JsError α) :
    Disciplined R (Exec.ofExcept r : ExecM δ α) :=
  .of_reads (.ofExcept r)

/-- A write to a part of the context that the effects are not about. -/
theorem Disciplined.modify {f : ExecutionContext δ → ExecutionContext δ}
    (hstack : ∀ s, (f s).stack = s.stack) (hhistory : ∀ s, (f s).history = s.history)
    (hvariables : ∀ s, variablesOf (f s) = variablesOf s) :
    Disciplined R (Exec.modify f : ExecM δ Unit) := by
  intro s
  refine Exec.Post.modify ⟨(StackEffect.refl s _).congr (hstack s) ?_ ?_, ?_⟩
  · rw [hhistory s]
  · rw [hhistory s]
  · rw [hvariables s]
    exact refl _

end Refl

section Sequence

variable {R : Variables → Variables → Prop}

theorem Disciplined.diverge : Disciplined R (Exec.diverge : ExecM δ α) :=
  fun _ => Exec.Post.diverge

theorem Disciplined.bind [IsTrans Variables R] {m : ExecM δ α} {f : α → ExecM δ β}
    (hm : Disciplined R m) (hf : ∀ a, Disciplined R (f a)) : Disciplined R (m >>= f) := by
  intro s
  refine Exec.Post.bind (hm s) ?_ fun _ _ h => h
  intro a t hst
  refine (hf a t).mono fun r u htu => ?_
  exact ⟨hst.1.trans htu.1, IsTrans.trans _ _ _ hst.2 htu.2⟩

end Sequence

/-! ## Entering and leaving a node -/

/-- The context after `enterNode`. -/
def entered (s : ExecutionContext δ) (node : StackNode) : ExecutionContext δ :=
  { s with stack := s.stack ++ [node] }

theorem enterNode_eq (node : StackNode) (s : ExecutionContext δ) :
    enterNode node s = some (.ok (), entered s node) :=
  rfl

/-- A node that is never left stays on the stack. -/
theorem StackEffect.of_entered {s t : ExecutionContext δ} {node : StackNode} {returned : Bool}
    (h : StackEffect (entered s node) returned t) :
    ∃ extra, extra ≠ [] ∧ t.stack = s.stack ++ extra := by
  obtain ⟨extra, hextra⟩ := h.grows
  exact ⟨node :: extra, by simp, by simp [hextra, entered]⟩

theorem StackEffect.thrown_of_entered {s t : ExecutionContext δ} {node : StackNode}
    {returned : Bool} (h : StackEffect (entered s node) returned t) :
    StackEffect s false t := by
  obtain ⟨extra, _, hextra⟩ := h.of_entered
  exact ⟨⟨extra, hextra⟩, h.failures_le, h.mismatches_eq, fun hreturned => by cases hreturned⟩

/-- After a failure, a node may stay on the stack. -/
theorem StackEffect.failed_of_entered {s t : ExecutionContext δ} {node : StackNode}
    {returned : Bool} (h : StackEffect (entered s node) returned t)
    (hfailed : s.history.failures < t.history.failures) : StackEffect s true t := by
  obtain ⟨extra, hne, hextra⟩ := h.of_entered
  refine ⟨⟨extra, hextra⟩, h.failures_le, h.mismatches_eq, fun _ => ?_⟩
  constructor
  · intro hstack
    rw [hextra, List.append_right_eq_self] at hstack
    exact (hne hstack).elim
  · intro heq
    omega

/-- Leaving a node takes back that it was entered, and finds another node on top only after a
failure. -/
theorem StackEffect.of_exitNode {s t u : ExecutionContext δ} {node : StackNode}
    (h : StackEffect (entered s node) true t) {r : Except JsError Unit}
    (hexit : exitNode node t = some (r, u)) : StackEffect s r.isOk u := by
  obtain ⟨extra, hextra⟩ := h.grows
  have hstack : t.stack = s.stack ++ node :: extra := by simp [hextra, entered]
  have hdrop : t.stack.dropLast = s.stack ++ (node :: extra).dropLast := by
    rw [hstack, List.dropLast_append_of_ne_nil (by simp)]
  have hunchanged : t.history.failures = s.history.failures ↔ extra = [] := by
    constructor
    · intro heq
      have hsame := (h.balanced rfl).mpr heq
      rwa [hextra, List.append_right_eq_self] at hsame
    · rintro rfl
      exact (h.balanced rfl).mp (by rw [hextra, List.append_nil])
  rcases exitNode_eq_some hexit with ⟨_, rfl, rfl⟩ | ⟨hnode, ⟨error, rfl⟩, rfl⟩
  · refine ⟨⟨_, hdrop⟩, h.failures_le, h.mismatches_eq, fun _ => ?_⟩
    rw [hunchanged]
    show t.stack.dropLast = s.stack ↔ extra = []
    rw [hdrop, List.append_right_eq_self]
    cases extra <;> simp
  · refine ⟨⟨_, hdrop⟩, h.failures_le, fun heq => ?_, fun hreturned => by cases hreturned⟩
    rw [hunchanged.mp heq] at hstack
    simp [hstack] at hnode

/-- Leaving a node does not concern the variables. -/
theorem variablesOf_exitNode {s t : ExecutionContext δ} {node : StackNode}
    {r : Except JsError Unit} (hexit : exitNode node s = some (r, t)) :
    variablesOf t = variablesOf s := by
  rcases exitNode_eq_some hexit with ⟨_, _, rfl⟩ | ⟨_, _, rfl⟩
  · rfl
  · rfl

/-- A disciplined program between `enterNode` and `exitNode`. -/
theorem Disciplined.node {R : Variables → Variables → Prop} [IsTrans Variables R]
    {node : StackNode} {m : ExecM δ α} {f : α → ExecM δ β}
    (hm : Disciplined R m) (hf : ∀ a, Disciplined R (f a)) :
    Disciplined R
      (enterNode node >>= fun _ => m >>= fun a => exitNode node >>= fun _ => f a) := by
  intro s r u hr
  rw [Exec.bind_of_ok (enterNode_eq node s)] at hr
  rcases Exec.bind_eq_some_iff.mp hr with ⟨a, t, hmt, hr⟩ | ⟨e, hmt, rfl⟩
  · obtain ⟨hstack, hvariables⟩ := hm _ _ _ hmt
    rcases Exec.bind_eq_some_iff.mp hr with ⟨_, v, hexit, hr⟩ | ⟨e, hexit, rfl⟩
    · obtain ⟨hstack', hvariables'⟩ := hf a _ _ _ hr
      rw [variablesOf_exitNode hexit] at hvariables'
      exact ⟨(hstack.of_exitNode hexit).trans hstack',
        IsTrans.trans _ _ _ hvariables hvariables'⟩
    · exact ⟨hstack.of_exitNode hexit, by rwa [variablesOf_exitNode hexit]⟩
  · obtain ⟨hstack, hvariables⟩ := hm _ _ _ hmt
    exact ⟨hstack.thrown_of_entered, hvariables⟩

/-! ## Binding and removing variables -/

/-- Nothing has happened to the stack, and nothing was counted. -/
structure SameStack (s t : ExecutionContext δ) : Prop where
  stack_eq : t.stack = s.stack
  failures_eq : t.history.failures = s.history.failures
  mismatches_eq : t.history.mismatches = s.history.mismatches

theorem SameStack.trans {s t u : ExecutionContext δ} (h : SameStack s t) (h' : SameStack t u) :
    SameStack s u :=
  ⟨h'.stack_eq.trans h.stack_eq, h'.failures_eq.trans h.failures_eq,
    h'.mismatches_eq.trans h.mismatches_eq⟩

theorem SameStack.stackEffect {s t : ExecutionContext δ} (h : SameStack s t) (returned : Bool) :
    StackEffect s returned t :=
  (StackEffect.refl s returned).congr h.stack_eq h.failures_eq h.mismatches_eq

/-- `m` binds variables with the given names, or throws. -/
def Binds (names : List String) (m : ExecM δ Unit) : Prop :=
  ∀ s, Exec.Post m s fun r t => SameStack s t ∧ Grows (variablesOf s) (variablesOf t) ∧
    (r.isOk → Bound names (variablesOf s) (variablesOf t))

theorem Binds.nil : Binds [] (pure () : ExecM δ Unit) := by
  intro s
  exact Exec.Post.pure ⟨⟨rfl, rfl, rfl⟩, .refl _, fun _ => ⟨rfl, by simp, fun _ _ => rfl⟩⟩

theorem Binds.setValueForReference (refText : String) (value : Value) :
    Binds [refText] (setValueForReference refText value : ExecM δ Unit) := by
  intro s
  let t : ExecutionContext δ :=
    { s with
      evaluationContext := s.evaluationContext.setValueForReference refText value
      history.boundNames := s.history.boundNames ++ [refText] }
  have hbound : Bound [refText] (variablesOf s) (variablesOf t) := by
    refine ⟨rfl, rfl, fun name hname => ?_⟩
    rw [List.mem_singleton] at hname
    simp [t, variablesOf, EvaluationContext.setValueForReference, hname]
  exact Exec.Post.modify ⟨⟨rfl, rfl, rfl⟩, hbound.grows, fun _ => hbound⟩

/-- A value that is only read, and then bound. -/
theorem Binds.of_reads {names : List String} {m : ExecM δ α} {f : α → ExecM δ Unit}
    (hm : Exec.Reads m) (hf : ∀ a, Binds names (f a)) : Binds names (m >>= f) := by
  intro s r t ht
  obtain ⟨r', hr'⟩ := hm s
  cases r' with
  | ok a =>
      rw [Exec.bind_of_ok hr'] at ht
      exact hf a s r t ht
  | error e =>
      rw [Exec.bind_of_error hr'] at ht
      cases ht
      exact ⟨⟨rfl, rfl, rfl⟩, .refl _, fun hok => by cases hok⟩

theorem Binds.throw {names : List String} (e : JsError) :
    Binds names (Exec.throw e : ExecM δ Unit) :=
  fun _ => Exec.Post.throw ⟨⟨rfl, rfl, rfl⟩, .refl _, fun hok => by cases hok⟩

theorem Binds.forEach {xs : List α} {body : α → ExecM δ Unit} {name : α → String}
    (h : ∀ x, Binds [name x] (body x)) : Binds (xs.map name) (Exec.forEach xs body) := by
  induction xs with
  | nil => exact Binds.nil
  | cons x xs ih =>
      intro s r u hr
      rcases Exec.bind_eq_some_iff.mp hr with ⟨_, t, hx, hr⟩ | ⟨e, hx, rfl⟩
      · obtain ⟨hstack, hgrows, hbound⟩ := h x _ _ _ hx
        obtain ⟨hstack', hgrows', hbound'⟩ := ih _ _ _ hr
        exact ⟨hstack.trans hstack', hgrows.trans hgrows', fun hreturned =>
          (hbound rfl).append (hbound' hreturned)⟩
      · obtain ⟨hstack, hgrows, _⟩ := h x _ _ _ hx
        exact ⟨hstack, hgrows, fun hreturned => by cases hreturned⟩

/-- `m` removes the variables with the given names. -/
def Unbinds (names : List String) (m : ExecM δ Unit) : Prop :=
  ∀ s, ∃ t, m s = some (.ok (), t) ∧ SameStack s t ∧
    variablesOf t = (variablesOf s).remove names

theorem Unbinds.forEach {xs : List α} {name : α → String} :
    Unbinds (xs.map name)
      (Exec.forEach xs fun x => deleteValueForReference (name x) : ExecM δ Unit) := by
  induction xs with
  | nil => exact fun s => ⟨s, rfl, ⟨rfl, rfl, rfl⟩, by simp [Variables.remove]⟩
  | cons x xs ih =>
      intro s
      let next : ExecutionContext δ :=
        { s with evaluationContext := s.evaluationContext.deleteValueForReference (name x) }
      have hnext : SameStack s next := ⟨rfl, rfl, rfl⟩
      obtain ⟨t, ht, hstack, hvariables⟩ := ih next
      refine ⟨t, ht, hnext.trans hstack, hvariables.trans ?_⟩
      simp only [Variables.remove, variablesOf, next, List.map_cons, List.mem_cons]
      congr 1
      funext other
      by_cases hname : other = name x <;>
        simp [EvaluationContext.deleteValueForReference, hname]

section Scope

variable {R : Variables → Variables → Prop} {names : List String}
variable {add remove : ExecM δ Unit} {m : ExecM δ α}

/-- A scope returns: variables are bound, `m` runs with them, and they are removed. -/
theorem scope_returned (hadd : Binds names add) (hm : Disciplined R m)
    (hremove : Unbinds names remove) {s t : ExecutionContext δ} {a : α}
    (h : (add >>= fun _ => m >>= fun a => remove >>= fun _ => Pure.pure a) s =
      some (.ok a, t)) :
    StackEffect s true t ∧ ∃ v w, Bound names (variablesOf s) v ∧ R v w ∧
      variablesOf t = w.remove names := by
  obtain ⟨_, u, hadded, h⟩ := Exec.bind_eq_ok_iff.mp h
  obtain ⟨_, v, hmv, h⟩ := Exec.bind_eq_ok_iff.mp h
  obtain ⟨w, hw, hstack'', hremoved⟩ := hremove v
  rw [Exec.bind_of_ok hw] at h
  cases h
  obtain ⟨hstack, _, hbound⟩ := hadd _ _ _ hadded
  obtain ⟨hstack', hvariables⟩ := hm _ _ _ hmv
  exact ⟨((hstack.stackEffect true).trans hstack').trans (hstack''.stackEffect true), _, _,
    hbound rfl, hvariables, hremoved⟩

/-- A scope throws, and leaves variables behind. -/
theorem scope_thrown (hadd : Binds names add) (hm : Disciplined VariableEffect m)
    (hremove : Unbinds names remove) {s t : ExecutionContext δ} {e : JsError}
    (h : (add >>= fun _ => m >>= fun a => remove >>= fun _ => Pure.pure a) s =
      some (.error e, t)) :
    StackEffect s false t ∧ Grows (variablesOf s) (variablesOf t) := by
  rcases Exec.bind_eq_some_iff.mp h with ⟨_, u, hadded, h⟩ | ⟨_, hadded, _⟩
  · obtain ⟨hstack, hgrows, _⟩ := hadd _ _ _ hadded
    rcases Exec.bind_eq_some_iff.mp h with ⟨_, v, _, h⟩ | ⟨_, hmv, _⟩
    · obtain ⟨w, hw, _⟩ := hremove v
      rw [Exec.bind_of_ok hw] at h
      cases h
    · obtain ⟨hstack', hvariables⟩ := hm _ _ _ hmv
      exact ⟨(hstack.stackEffect true).trans hstack', hgrows.trans hvariables.grows⟩
  · obtain ⟨hstack, hgrows, _⟩ := hadd _ _ _ hadded
    exact ⟨hstack.stackEffect false, hgrows⟩

theorem recordAbort_eq_some {s t : ExecutionContext δ} {r : Except JsError α}
    (h : recordAbort m s = some (r, t)) :
    (∃ a, r = .ok a ∧ m s = some (.ok a, t)) ∨
    ∃ e u, r = .error e ∧ m s = some (.error e, u) ∧
      t = { u with history.aborts := u.history.aborts + 1 } := by
  cases hms : m s with
  | none => simp [recordAbort, Exec.tryCatch, hms] at h
  | some out =>
      obtain ⟨r', u⟩ := out
      cases r' with
      | ok a =>
          rw [recordAbort, Exec.tryCatch_of_ok hms] at h
          cases h
          exact .inl ⟨a, rfl, rfl⟩
      | error e =>
          rw [recordAbort, Exec.tryCatch_of_error hms] at h
          cases h
          exact .inr ⟨e, u, rfl, rfl, rfl⟩

/-- A disciplined program between the binding of variables and their removal. -/
theorem Disciplined.scope (hadd : Binds names add) (hm : Disciplined VariableEffect m)
    (hremove : Unbinds names remove) :
    Disciplined VariableEffect
      (recordAbort (add >>= fun _ => m >>= fun a => remove >>= fun _ => Pure.pure a)) := by
  intro s r t ht
  rcases recordAbort_eq_some ht with ⟨a, rfl, hrun⟩ | ⟨e, u, rfl, hrun, rfl⟩
  · obtain ⟨hstack, v, w, hbound, hvariables, hremoved⟩ := scope_returned hadd hm hremove hrun
    exact ⟨hstack, hremoved ▸ .of_bound hbound hvariables⟩
  · obtain ⟨hstack, hle, names', hnames'⟩ := scope_thrown hadd hm hremove hrun
    refine ⟨hstack.congr rfl rfl rfl, hle.trans (Nat.le_succ _), names', hnames'.symm, ?_⟩
    intro heq
    have hmore : (variablesOf u).aborts + 1 = (variablesOf s).aborts := heq
    omega

end Scope

end Jayvee
