import Jayvee.Verification.Execution.Discipline

/-! # What a run leaves of the variables -/

namespace Jayvee

open Foundation ExecutionContext

variable {δ : Type}

/-- Every name has the value, or absence, that it had before. -/
def SameVariables (context context' : ExecutionContext δ) : Prop :=
  ∀ name, context'.evaluationContext.variableValues name =
    context.evaluationContext.variableValues name

/-! ## Composite blocks -/

/-- The names that were given a value between two contexts of a run, on whatever level. -/
def boundSince (context context' : ExecutionContext δ) : List String :=
  context'.history.boundNames.drop context.history.boundNames.length

/-- Without aborts, the variables are as before exactly if nothing was bound that had a
value. -/
theorem VariableEffect.same_iff {context context' : ExecutionContext δ}
    (h : VariableEffect (variablesOf context) (variablesOf context'))
    (haborts : context'.history.aborts = context.history.aborts) :
    SameVariables context context' ↔ ∀ name ∈ boundSince context context',
      context.evaluationContext.variableValues name = none := by
  obtain ⟨_, names, hnames, hvalues⟩ := h
  have hsince : boundSince context context' = names := by
    change context'.history.boundNames = _ at hnames
    rw [boundSince, hnames]
    exact List.drop_left
  have hvalue : ∀ name, context'.evaluationContext.variableValues name =
      if name ∈ names then none else context.evaluationContext.variableValues name :=
    hvalues haborts
  rw [hsince]
  constructor
  · intro hsame name hname
    rw [← hsame name, hvalue name, if_pos hname]
  · intro hnone name
    rw [hvalue name]
    split
    · rename_i hname
      exact (hnone name hname).symm
    · rfl

theorem createCompositeBlockExecutor_sameVariables_iff (services : ExecutionServices)
    (blockExecutors : BlockExecutors δ) (nesting fuel : Nat)
    (blockType : CompositeBlockTypeDefinition) (block : BlockDefinition)
    (input : IOTypeImplementation δ) {context context' : ExecutionContext δ}
    {outcome : Except JsError (Result (Option (IOTypeImplementation δ)))}
    (hrun : createCompositeBlockExecutor services
      (createBlockExecutor services blockExecutors nesting) fuel blockType block input context =
        some (outcome, context'))
    (haborts : context'.history.aborts = context.history.aborts) :
    SameVariables context context' ↔ ∀ name ∈ boundSince context context',
      context.evaluationContext.variableValues name = none := by
  have hexecutor := disciplined_compositional.executeWith services
    (doExecuteComposite_disciplined services
      (createBlockExecutor_disciplined services blockExecutors nesting) fuel blockType block.body
      input)
  exact (hexecutor _ _ _ hrun).2.same_iff haborts

/-! ## Transforms -/

namespace TransformExecutor

theorem getPortDetail_port {σ : Type} {ast : Ast} {port : TransformPortDefinition}
    {details : PortDetails} {s t : σ} (h : getPortDetail ast port s = some (.ok details, t)) :
    details.port = port := by
  obtain ⟨valueType, _, _, h⟩ := Exec.bind_eq_ok_iff.mp h
  cases valueType with
  | none => cases h
  | some valueType =>
      cases h
      rfl

theorem getPortDetails_ports {σ : Type} {ast : Ast} {transform : TransformDefinition}
    {kind : PortKind} {detailsList : List PortDetails} {s t : σ}
    (h : getPortDetails ast transform kind s = some (.ok detailsList, t)) :
    detailsList.map PortDetails.port = transform.ports.filter fun port => port.kind == kind := by
  have hports : List.Forall₂ (· = ·) (transform.ports.filter fun port => port.kind == kind)
      (detailsList.map PortDetails.port) := by
    refine List.forall₂_map_right_iff.mpr ((Exec.forall₂_of_mapM h).imp ?_)
    rintro port details ⟨_, _, hdetails⟩
    exact (getPortDetail_port hdetails).symm
  rw [List.forall₂_eq_eq_eq] at hports
  exact hports.symm

variable {services : ExecutionServices} {transform : TransformDefinition}
variable {columns : String → Option TableColumn} {inputDetailsList : List PortDetails}
variable {outputDetails : PortDetails}

/-- A row that is finished has removed the values of the ports. -/
theorem executeRow_values {rowIndex : Nat} {newValue : Option Value}
    {s t : ExecutionContext δ}
    (h : executeRow services transform columns inputDetailsList outputDetails rowIndex s =
      some (.ok newValue, t)) :
    (variablesOf t).values =
      ((variablesOf s).remove (inputDetailsList.map fun details => details.port.name)).values := by
  obtain ⟨_, hreturned, hrun⟩ | ⟨_, _, hthrown, _⟩ := recordAbort_eq_some h
  · have hrow : Disciplined Eq
        (TransformExecutor.evaluateRow services transform outputDetails :
          ExecM δ (Option Value)) :=
      disciplined_compositional.evaluateRow services transform outputDetails
    obtain ⟨_, v, _, hbound, rfl, hremoved⟩ := scope_returned
      (Binds.forEach (addVariableToContext_binds columns rowIndex)) hrow Unbinds.forEach hrun
    rw [hremoved]
    funext name
    by_cases hname : name ∈ inputDetailsList.map fun details => details.port.name
    · simp only [Variables.remove, hname, if_true]
    · simp only [Variables.remove, hname, if_false, hbound.values_eq name hname]
  · cases hthrown

theorem executeRows_values {remainingRows rowIndex : Nat} {result result' : TransformResult}
    {s t : ExecutionContext δ}
    (h : executeRows services transform columns inputDetailsList outputDetails remainingRows
      rowIndex result s = some (.ok result', t)) :
    (variablesOf t).values =
      if remainingRows = 0 then (variablesOf s).values
      else ((variablesOf s).remove
        (inputDetailsList.map fun details => details.port.name)).values := by
  induction remainingRows generalizing rowIndex result s with
  | zero =>
      cases h
      rfl
  | succ remainingRows ih =>
      obtain ⟨newValue, u, hrow, h⟩ := Exec.bind_eq_ok_iff.mp h
      have hlater : (variablesOf t).values = if remainingRows = 0 then (variablesOf u).values
          else ((variablesOf u).remove
            (inputDetailsList.map fun details => details.port.name)).values := by
        cases newValue with
        | none => exact ih h
        | some newValue => exact ih h
      rw [if_neg (Nat.succ_ne_zero _), hlater]
      have hfirst := executeRow_values hrow
      split
      · exact hfirst
      · funext name
        simp only [Variables.remove] at hfirst ⊢
        split
        · rfl
        · rename_i hname
          exact (congrFun hfirst name).trans (if_neg hname)

theorem executeTransform_values {transformId : TransformId}
    (hdefinition : services.ast.transforms[transformId]? = some transform) {numberOfRows : Nat}
    {result : TransformResult} {s t : ExecutionContext δ}
    (h : executeTransform services transformId columns numberOfRows s = some (.ok result, t)) :
    (variablesOf t).values =
      if numberOfRows = 0 then (variablesOf s).values
      else ((variablesOf s).remove ((transform.ports.filter fun port => port.kind == .from).map
        TransformPortDefinition.name)).values := by
  unfold executeTransform at h
  rw [hdefinition] at h
  dsimp only at h
  rw [Exec.bind_of_ok (enterNode_eq _ s)] at h
  obtain ⟨_, u, hexecute, h⟩ := Exec.bind_eq_ok_iff.mp h
  obtain ⟨_, _, hexit, h⟩ := Exec.bind_eq_ok_iff.mp h
  cases h
  obtain ⟨inputDetailsList, v, hinputs, hexecute⟩ := Exec.bind_eq_ok_iff.mp hexecute
  obtain ⟨outputDetails, w, houtput, hrows⟩ := Exec.bind_eq_ok_iff.mp hexecute
  obtain ⟨_, hreads⟩ := getPortDetails_reads services.ast transform .from (entered s _)
  obtain ⟨_, hreads'⟩ := getOutputDetails_reads services.ast transform v
  cases hinputs.symm.trans hreads
  cases houtput.symm.trans hreads'
  have hnames : inputDetailsList.map (fun details => details.port.name) =
      (transform.ports.filter fun port => port.kind == .from).map
        TransformPortDefinition.name := by
    rw [← getPortDetails_ports hinputs, List.map_map]
    rfl
  rw [variablesOf_exitNode hexit, executeRows_values hrows, hnames]
  rfl

/-- The names of the ports are only removed if there is a row. -/
theorem executeTransform_sameVariables_iff {transformId : TransformId}
    (hdefinition : services.ast.transforms[transformId]? = some transform) {numberOfRows : Nat}
    {result : TransformResult} {context context' : ExecutionContext δ}
    (hrun : executeTransform services transformId columns numberOfRows context =
      some (.ok result, context')) :
    SameVariables context context' ↔ numberOfRows = 0 ∨
      ∀ port ∈ transform.ports, port.kind = .from →
        context.evaluationContext.variableValues port.name = none := by
  have hvalues := executeTransform_values hdefinition hrun
  by_cases hrows : numberOfRows = 0
  · rw [if_pos hrows] at hvalues
    exact ⟨fun _ => .inl hrows, fun _ => congrFun hvalues⟩
  rw [if_neg hrows] at hvalues
  have hvalue : ∀ name, context'.evaluationContext.variableValues name =
      if name ∈ (transform.ports.filter fun port => port.kind == .from).map
        TransformPortDefinition.name
      then none else context.evaluationContext.variableValues name := congrFun hvalues
  constructor
  · intro hsame
    refine .inr fun port hport hkind => ?_
    have hname : port.name ∈ (transform.ports.filter fun port => port.kind == .from).map
        TransformPortDefinition.name :=
      List.mem_map_of_mem (List.mem_filter.mpr ⟨hport, by simp [hkind]⟩)
    rw [← hsame port.name, hvalue port.name, if_pos hname]
  · rintro (hzero | hnone) name
    · exact (hrows hzero).elim
    rw [hvalue name]
    split
    · rename_i hname
      obtain ⟨port, hport, rfl⟩ := List.mem_map.mp hname
      obtain ⟨hport, hkind⟩ := List.mem_filter.mp hport
      exact (hnone port hport (by simpa using hkind)).symm
    · rfl

end TransformExecutor

/-! ## Frames -/

/-- A transform that has run to completion leaves all variables as they were exactly if none of its
ports has the name of a variable, and a composite block, if no removal of variables was skipped in
its run, exactly if it has not bound a name that had a value before. -/
theorem sameVariables_iff_of_sameAborts (services : ExecutionServices) :
    (∀ (blockExecutors : BlockExecutors δ) (nesting fuel : Nat)
      (blockType : CompositeBlockTypeDefinition) (block : BlockDefinition)
      (input : IOTypeImplementation δ) (context context' : ExecutionContext δ)
      (result : Result (Option (IOTypeImplementation δ))),
      createCompositeBlockExecutor services
        (createBlockExecutor services blockExecutors nesting) fuel blockType block input
        context = some (.ok result, context') →
      context'.history.aborts = context.history.aborts →
      (SameVariables context context' ↔ ∀ name ∈ boundSince context context',
        context.evaluationContext.variableValues name = none)) ∧
    (∀ (transform : TransformId) (definition : TransformDefinition)
      (columns : String → Option TableColumn) (numberOfRows : Nat)
      (context context' : ExecutionContext δ) (result : TransformResult),
      services.ast.transforms[transform]? = some definition →
      TransformExecutor.executeTransform services transform columns numberOfRows context =
        some (.ok result, context') →
      (SameVariables context context' ↔ numberOfRows = 0 ∨
        ∀ port ∈ definition.ports, port.kind = .from →
          context.evaluationContext.variableValues port.name = none)) := by
  constructor
  · intro blockExecutors nesting fuel blockType block input context context' result hrun haborts
    exact createCompositeBlockExecutor_sameVariables_iff services blockExecutors nesting fuel
      blockType block input hrun haborts
  · intro transform definition columns numberOfRows context context' result hdefinition hrun
    exact TransformExecutor.executeTransform_sameVariables_iff hdefinition hrun

/-- `transform Copy { from x oftype text; to y oftype text; y: x; }` -/
def copyTransform : TransformDefinition where
  name := "Copy"
  ports := [⟨.from, "x", ⟨some 0, []⟩⟩, ⟨.to, "y", ⟨some 0, []⟩⟩]
  outputAssignments := [⟨some ⟨.to, "y", ⟨some 0, []⟩⟩,
    .referenceLiteral (some (.transformPortDefinition ⟨.from, "x", ⟨some 0, []⟩⟩))⟩]

/-- A block type with the property `x`, whose inner blocks run the transform above. -/
def copyBlockType : CompositeBlockTypeDefinition where
  name := "CopyTwice"
  inputs := [⟨"default", some "Table"⟩]
  outputs := [⟨"default", some "Table"⟩]
  properties := [⟨"x", ⟨some 0, []⟩, none⟩]
  blocks := [1, 2]
  pipes := [⟨[some 1, some 2]⟩]

/-- `block copy oftype CopyTwice { x: "1"; }` -/
def copyBlock : BlockDefinition :=
  ⟨"copy", some 0, [⟨"x", .expression (.textLiteral "1")⟩]⟩

def copyAst : Ast where
  valuetypes := [⟨"text", true, none, none, none⟩]
  constraints := []
  transforms := [copyTransform]
  blocks := [copyBlock, ⟨"once", some 1, []⟩, ⟨"again", some 1, []⟩]
  blockTypes := [.composite copyBlockType,
    .builtin ⟨"Transformer", [⟨"default", some "Table"⟩], [⟨"default", some "Table"⟩], []⟩]

/-- A table with one row. -/
def copyColumns : String → Option TableColumn :=
  fun _ => some ⟨[.string "a"], .Text⟩

def copyExecutors : BlockExecutors Unit :=
  [("Transformer", fun _ _ => .executeTransform 0 copyColumns 1 fun _ =>
    .return (.ok (some (.value ()))))]

/-- With `outer`, inside of a composite block whose property `x` has that value. -/
def copyContext (outer : Option Value) : ExecutionContext Unit :=
  .construct { EvaluationContext.construct ⟨fun _ => none, none⟩ with
    variableValues := fun name => if name = "x" then outer else none }

theorem sameVariables_copyBlock :
    (∃ result context',
      createCompositeBlockExecutor (sampleServices copyAst)
        (createBlockExecutor (sampleServices copyAst) copyExecutors 4) 4 copyBlockType copyBlock
        (.value ()) (copyContext none) = some (.ok result, context') ∧
      (SameVariables (copyContext none) context' ↔
        ∀ name ∈ boundSince (copyContext none) context',
          (copyContext none).evaluationContext.variableValues name = none)) ∧
    (∃ result context',
      TransformExecutor.executeTransform (sampleServices copyAst) 0 copyColumns 1
        (copyContext none) = some (.ok result, context') ∧
      (SameVariables (copyContext none) context' ↔ 1 = 0 ∨
        ∀ port ∈ copyTransform.ports, port.kind = .from →
          (copyContext none).evaluationContext.variableValues port.name = none)) := by
  obtain ⟨hcomposite, htransform⟩ :=
    sameVariables_iff_of_sameAborts (δ := Unit) (sampleServices copyAst)
  constructor
  · exact ⟨_, _, rfl, hcomposite copyExecutors 4 4 copyBlockType copyBlock (.value ())
      (copyContext none) _ _ rfl rfl⟩
  · exact ⟨_, _, rfl, htransform 0 copyTransform copyColumns 1 (copyContext none) _ _ rfl rfl⟩

/-- The property `x` of the enclosing block is gone after the inner block. -/
theorem not_sameVariables_copyBlock :
    ¬ ∀ (services : ExecutionServices) (blockExecutors : BlockExecutors Unit)
      (nesting fuel : Nat) (blockType : CompositeBlockTypeDefinition) (block : BlockDefinition)
      (input : IOTypeImplementation Unit) (context context' : ExecutionContext Unit)
      (result : Result (Option (IOTypeImplementation Unit))),
      createCompositeBlockExecutor services
        (createBlockExecutor services blockExecutors nesting) fuel blockType block input
        context = some (.ok result, context') →
      SameVariables context context' := by
  intro h
  have hsame := h (sampleServices copyAst) copyExecutors 4 4 copyBlockType copyBlock (.value ())
    (copyContext (some (.string "0"))) _ _ rfl "x"
  have hgone : (none : Option Value) = some (.string "0") := hsame
  cases hgone

/-- So is a variable with the name of a port after a transform. -/
example : (TransformExecutor.executeTransform (sampleServices copyAst) 0 copyColumns 1
    (copyContext (some (.string "0")))).map (fun out =>
      out.2.evaluationContext.variableValues "x") = some none := rfl

end Jayvee
