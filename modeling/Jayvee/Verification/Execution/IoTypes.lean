import Jayvee.Verification.Execution.CompositeChain
import Jayvee.Verification.Execution.StackBalance
import Jayvee.Verification.Pipeline.BlockCompatibility

/-! # The io types of the values that blocks exchange -/

namespace Jayvee

open Foundation ExecutionContext Relation

variable {δ : Type} (ioTypeOf : δ → IOType)

/-! ## Values and executors of an io type -/

def IOTypeImplementation.ioType : IOTypeImplementation δ → IOType
  | .NONE => .none
  | .value data => ioTypeOf data

/-- A value that a block is declared to take. -/
def Takes (ast : Ast) (block : BlockId) (value : IOTypeImplementation δ) : Prop :=
  blockInputType ast block = some (value.ioType ioTypeOf)

/-- A value that a block is declared to output. -/
def Gives (ast : Ast) (block : BlockId) (value : IOTypeImplementation δ) : Prop :=
  blockOutputType ast block = some (value.ioType ioTypeOf)

/-- The fields `inputType` and `outputType` of the executors, by the name of their block type. -/
structure ExecutorTypes where
  inputType : String → IOType
  outputType : String → IOType

/-- An executor that does not accept any other input than the ones of its type. -/
def BuiltinBlockExecutor.checked (inputType : IOType) (blockExecutor : BuiltinBlockExecutor δ) :
    BuiltinBlockExecutor δ := fun clock input =>
  if input.ioType ioTypeOf = inputType then blockExecutor clock input
  else .throw (.error "Input of an unexpected io type")

def checkedExecutors (types : ExecutorTypes) (blockExecutors : BlockExecutors δ) :
    BlockExecutors δ :=
  blockExecutors.map fun entry => (entry.1, entry.2.checked ioTypeOf (types.inputType entry.1))

theorem getExecutor_checkedExecutors (types : ExecutorTypes) (blockExecutors : BlockExecutors δ)
    (name : String) :
    getExecutorForBlockType (checkedExecutors ioTypeOf types blockExecutors) name =
      (getExecutorForBlockType blockExecutors name).map
        (BuiltinBlockExecutor.checked ioTypeOf (types.inputType name)) := by
  induction blockExecutors with
  | nil => rfl
  | cons entry blockExecutors ih =>
      rw [checkedExecutors, List.map_cons, getExecutorForBlockType, getExecutorForBlockType,
        List.lookup_cons, List.lookup_cons]
      cases hname : name == entry.1 with
      | true =>
          rw [beq_iff_eq] at hname
          subst hname
          rfl
      | false => exact ih

/-- Given an input of its type, the executor outputs values of its type only. -/
def HonoursTypes (types : ExecutorTypes) (blockExecutors : BlockExecutors δ) : Prop :=
  ∀ name blockExecutor, getExecutorForBlockType blockExecutors name = some blockExecutor →
    ∀ services clock input context result context',
      input.ioType ioTypeOf = types.inputType name →
      (blockExecutor clock input).run services context = some (.ok (.ok result), context') →
      ∃ value, result = some value ∧ value.ioType ioTypeOf = types.outputType name

/-! ## Executors that cannot be told apart -/

variable {ioTypeOf}

/-- On the inputs that `takes` allows, and as long as no block fails, `checked` does what
`plain` does, which is to output the values that `gives` allows. -/
structure TypedAgreement (takes gives : IOTypeImplementation δ → Prop)
    (plain checked : BlockExecutor δ) : Prop where
  agrees : ∀ input s outcome t, takes input → plain input s = some (outcome, t) →
    NoBlockFails s t → checked input s = some (outcome, t)
  typed : ∀ input s result t, takes input → plain input s = some (.ok (.ok result), t) →
    NoBlockFails s t → ∃ value, result = some value ∧ gives value

/-- The executors of all blocks agree on the inputs that the blocks take. -/
structure ExecutorsAgree (ioTypeOf : δ → IOType) (ast : Ast)
    (plain checked : BlockId → Except JsError (BlockExecutor δ)) : Prop where
  error : ∀ block error, plain block = .error error → checked block = .error error
  ok : ∀ block blockExecutor, plain block = .ok blockExecutor →
    ∃ blockExecutor', checked block = .ok blockExecutor' ∧
      TypedAgreement (Takes ioTypeOf ast block) (Gives ioTypeOf ast block) blockExecutor
        blockExecutor'

theorem TypedAgreement.executeWith {takes gives : IOTypeImplementation δ → Prop}
    {plain checked : BlockExecutor δ} (h : TypedAgreement takes gives plain checked)
    (services : ExecutionServices) :
    TypedAgreement takes gives (executeWith services plain) (executeWith services checked) := by
  constructor
  · intro input s outcome t hinput hrun hnone
    rcases Exec.bind_eq_some_iff.mp hrun with ⟨result, u, hplain, hlog⟩ | ⟨error, hplain, rfl⟩
    · have hsame : u = t := by
        cases result with
        | ok value =>
            exact (((logBlockResult_reads services value).bind fun _ => .pure _).same hlog).symm
        | error details =>
            cases hlog
            rfl
      subst hsame
      exact (Exec.bind_of_ok (h.agrees input s _ u hinput hplain hnone)).trans hlog
    · exact Exec.bind_of_error (h.agrees input s _ t hinput hplain hnone)
  · intro input s result t hinput hrun hnone
    obtain ⟨result', u, hplain, hlog⟩ := Exec.bind_eq_ok_iff.mp hrun
    cases result' with
    | error details => cases hlog
    | ok value =>
        have hsame : t = u :=
          ((logBlockResult_reads services value).bind fun _ => .pure _).same hlog
        obtain ⟨_, _, _, hreturned⟩ := Exec.bind_eq_ok_iff.mp hlog
        cases hreturned
        subst hsame
        exact h.typed input s _ _ hinput hplain hnone

/-! ## The inputs of blocks -/

section Loop

variable {this : PipelineWrapper} {initialInputValue : Option (IOTypeImplementation δ)}
variable {ast : Ast}

/-- A recorded value is one that the block is declared to output. -/
def WellTypedItem (ioTypeOf : δ → IOType) (ast : Ast) (item : ExecutionOrderItem δ) : Prop :=
  ∃ value, item.value = some value ∧ Gives ioTypeOf ast item.block value

theorem useExternalInputValue_false (value : IOTypeImplementation δ) :
    useExternalInputValue false initialInputValue value = value := by
  cases value <;> rfl

/-- A finished parent hands its value over. -/
theorem takes_inputOf_of_pipe (hingoing : this.AtMostOneIngoingPipe) {parent block : BlockId}
    (hpipe : this.Pipe parent block) (hlink : LinkFits ast parent block)
    {finished remaining : List (ExecutionOrderItem δ)}
    (hfinished : ∀ item ∈ finished, WellTypedItem ioTypeOf ast item)
    (hparent : parent ∈ finished.map ExecutionOrderItem.block) :
    Takes ioTypeOf ast block
      (inputOf this initialInputValue finished.isEmpty (finished ++ remaining) block) := by
  obtain ⟨found, hfind⟩ : ∃ found,
      finished.find? (fun blockData => blockData.block == parent) = some found := by
    obtain ⟨item, hitem, hblock⟩ := List.mem_map.mp hparent
    exact Option.isSome_iff_exists.mp (List.find?_isSome.mpr ⟨item, hitem, by simpa using hblock⟩)
  have hblock : found.block = parent := by simpa using List.find?_some hfind
  have hmem : found ∈ finished := List.mem_of_find?_eq_some hfind
  obtain ⟨value, hvalue, hgives⟩ := hfinished found hmem
  have hnotFirst : finished.isEmpty = false := by
    cases finished with
    | nil => cases hmem
    | cons _ _ => rfl
  have hinput : getInputValue this (finished ++ remaining) block = value := by
    rw [getInputValue, getParentBlocks_of_pipe hingoing hpipe, List.map_singleton,
      List.find?_append, hfind]
    simp [hvalue]
  obtain ⟨ioType, houtput, htakes⟩ := hlink
  rw [inputOf, hnotFirst, useExternalInputValue_false, hinput, Takes, htakes, ← houtput, ← hblock]
  exact hgives

/-- Each block of the sorting gets an input that it is declared to take. -/
theorem takes_inputOf {sorted : List BlockId} (hsorted : this.IsTopologicalSorting sorted)
    (hingoing : this.AtMostOneIngoingPipe)
    (hlinks : ∀ a b, this.Pipe a b → LinkFits ast a b)
    (hsources : ∀ block ∈ sorted, IsSource this.Pipe block → Takes ioTypeOf ast block
      (if sorted.head? = some block then initialInputValue.getD .NONE else .NONE))
    {finished remaining : List (ExecutionOrderItem δ)} {blockData : ExecutionOrderItem δ}
    (hblocks : finished.map ExecutionOrderItem.block ++
      blockData.block :: remaining.map ExecutionOrderItem.block = sorted)
    (hfinished : ∀ item ∈ finished, WellTypedItem ioTypeOf ast item) :
    Takes ioTypeOf ast blockData.block (inputOf this initialInputValue finished.isEmpty
      (finished ++ blockData :: remaining) blockData.block) := by
  by_cases hsource : IsSource this.Pipe blockData.block
  · rw [inputOf_of_source _ _ hsource]
    have hmem : blockData.block ∈ sorted := by simp [← hblocks]
    have htakes := hsources blockData.block hmem hsource
    have hfirst : sorted.head? = some blockData.block ↔ finished.isEmpty = true := by
      cases finished with
      | nil => simp [← hblocks]
      | cons item finished =>
          have hnodup := hsorted.nodup
          rw [← hblocks, List.map_cons, List.cons_append, List.nodup_cons] at hnodup
          have hne : item.block ≠ blockData.block := fun heq => hnodup.1 (by simp [heq])
          simp [← hblocks, hne]
    simp only [hfirst] at htakes
    exact htakes
  · obtain ⟨parent, hpipe⟩ : ∃ parent, this.Pipe parent blockData.block := by
      simpa [IsSource] using hsource
    refine takes_inputOf_of_pipe hingoing hpipe (hlinks _ _ hpipe) hfinished ?_
    exact mem_of_idxOf_lt hblocks.symm (hsorted.parent_before_child _ _ hpipe)

/-! ## The loop over the blocks -/

variable {plain checked : BlockId → Except JsError (BlockExecutor δ)}

/-- What a failure-free execution of a block is. -/
theorem executeBlock_agrees (hdisciplined : DisciplinedExecutors plain)
    (hagree : ExecutorsAgree ioTypeOf ast plain checked) {inputValue : IOTypeImplementation δ}
    {block : BlockId} (htakes : Takes ioTypeOf ast block inputValue)
    {s t : ExecutionContext δ} {r : Except JsError (Result (Option (IOTypeImplementation δ)))}
    (hrun : executeBlock plain (some inputValue) block s = some (r, t))
    (hnone : NoBlockFails s t) :
    executeBlock checked (some inputValue) block s = some (r, t) ∧
      ∀ result, r = .ok result → ∃ value, result = .ok (some value) ∧
        Gives ioTypeOf ast block value := by
  obtain ⟨error, hcreate, rfl, rfl⟩ | ⟨executor, outcome, after, hcreate, hexecute, rfl, rfl⟩ :=
    executeBlock_eq_some hrun
  · refine ⟨executeBlock_of_error (hagree.error block error hcreate) _, ?_⟩
    rintro result ⟨⟩
  · obtain ⟨executor', hcreate', hagreement⟩ := hagree.ok block executor hcreate
    have hle := (hdisciplined block executor hcreate inputValue _ _ _ hexecute).1.failures_le
    have hstart : (executionStarted s).history.failures = s.history.failures := rfl
    -- every error is counted
    obtain ⟨value, rfl⟩ : ∃ value, outcome = .ok (.ok value) := by
      cases outcome with
      | error error =>
          have hmore : after.history.failures + 1 = s.history.failures := hnone
          omega
      | ok result =>
          cases result with
          | error details =>
              have hmore : after.history.failures + 1 = s.history.failures := hnone
              omega
          | ok value => exact ⟨value, rfl⟩
    have hnone' : NoBlockFails (executionStarted s) after := hnone
    obtain ⟨given, rfl, hgives⟩ := hagreement.typed _ _ _ _ htakes hexecute hnone'
    have hexecute' := hagreement.agrees _ _ _ _ htakes hexecute hnone'
    refine ⟨?_, ?_⟩
    · rw [executeBlock_of_ok hcreate', hexecute']
      rfl
    · rintro result hresult
      cases hresult
      exact ⟨given, rfl, hgives⟩

/-- The outcome of a run of the loop is an exception, or a value for each block that the block
is declared to output. -/
def WellTypedOutcome (ioTypeOf : δ → IOType) (ast : Ast) (this : PipelineWrapper)
    (outcome : Except JsError (Result (List (ExecutionOrderItem δ)))) : Prop :=
  ∀ result, outcome = .ok result → ∃ order, result = .ok order ∧
    this.IsTopologicalSorting (order.map ExecutionOrderItem.block) ∧
    ∀ item ∈ order, WellTypedItem ioTypeOf ast item

/-- A failure-free run of the loop only uses executors on inputs that they take. -/
theorem executeOrder_agrees (hdisciplined : DisciplinedExecutors plain)
    (hagree : ExecutorsAgree ioTypeOf ast plain checked) {sorted : List BlockId}
    (hsorted : this.IsTopologicalSorting sorted) (hingoing : this.AtMostOneIngoingPipe)
    (hlinks : ∀ a b, this.Pipe a b → LinkFits ast a b)
    (hsources : ∀ block ∈ sorted, IsSource this.Pipe block → Takes ioTypeOf ast block
      (if sorted.head? = some block then initialInputValue.getD .NONE else .NONE))
    {finished remaining : List (ExecutionOrderItem δ)}
    (hblocks : finished.map ExecutionOrderItem.block ++
      remaining.map ExecutionOrderItem.block = sorted)
    (hfinished : ∀ item ∈ finished, WellTypedItem ioTypeOf ast item)
    {s t : ExecutionContext δ} {outcome : Except JsError (Result (List (ExecutionOrderItem δ)))}
    (hrun : executeOrder plain this initialInputValue finished.isEmpty finished remaining s =
      some (outcome, t)) (hnone : NoBlockFails s t) :
    executeOrder checked this initialInputValue finished.isEmpty finished remaining s =
        some (outcome, t) ∧ WellTypedOutcome ioTypeOf ast this outcome := by
  induction remaining generalizing finished s with
  | nil =>
      cases hrun
      refine ⟨rfl, fun result hresult => ?_⟩
      cases hresult
      rw [List.map_nil, List.append_nil] at hblocks
      exact ⟨finished, rfl, hblocks ▸ hsorted, hfinished⟩
  | cons blockData remaining ih =>
      rw [List.map_cons] at hblocks
      have htakes : Takes ioTypeOf ast blockData.block (useExternalInputValue finished.isEmpty
          initialInputValue (getInputValue this (finished ++ blockData :: remaining)
            blockData.block)) :=
        takes_inputOf hsorted hingoing hlinks hsources hblocks hfinished
      unfold executeOrder at hrun ⊢
      dsimp only at hrun ⊢
      rw [Exec.bind_of_ok (enterNode_eq _ s)] at hrun ⊢
      rcases Exec.bind_eq_some_iff.mp hrun with ⟨result, u, hblock, hrest⟩ | ⟨error, hblock, rfl⟩
      · have heffect := executionEffect_of_executeBlock hdisciplined hblock
        have hfirst := heffect.stackEffect.failures_le
        have hentered : (entered s (.block blockData.block)).history.failures =
            s.history.failures := rfl
        cases result with
        | error details =>
            have hfailed := heffect.failed rfl
            cases hrest
            have hsame : t.history.failures = s.history.failures := hnone
            omega
        | ok value =>
            rcases Exec.bind_eq_some_iff.mp hrest with ⟨_, left, hexit, hmore⟩ | ⟨error, hexit, rfl⟩
            · have hleft : left.history.failures = u.history.failures := by
                rcases exitNode_eq_some hexit with ⟨_, _, rfl⟩ | ⟨_, _, rfl⟩ <;> rfl
              have hsecond := (executeOrder_disciplined hdisciplined this initialInputValue false
                _ _ _ _ _ hmore).1.failures_le
              have hsame : t.history.failures = s.history.failures := hnone
              have hnoneBlock : NoBlockFails (entered s (.block blockData.block)) u := by
                show u.history.failures = s.history.failures
                omega
              have hnoneRest : NoBlockFails left t := by
                show t.history.failures = left.history.failures
                omega
              obtain ⟨hblock', htyped⟩ :=
                executeBlock_agrees hdisciplined hagree htakes hblock hnoneBlock
              obtain ⟨given, hgiven, hgives⟩ := htyped _ rfl
              cases hgiven
              have hnotEmpty : (finished ++ [{ blockData with value := some given }]).isEmpty =
                  false := by simp
              have hitems : ∀ item ∈ finished ++ [{ blockData with value := some given }],
                  WellTypedItem ioTypeOf ast item := by
                rw [List.forall_mem_append, List.forall_mem_singleton]
                exact ⟨hfinished, given, rfl, hgives⟩
              rw [← hnotEmpty] at hmore
              obtain ⟨hmore', houtcome⟩ := ih (by simpa using hblocks) hitems hmore hnoneRest
              rw [hnotEmpty] at hmore'
              refine ⟨?_, houtcome⟩
              rw [Exec.bind_of_ok hblock']
              exact (Exec.bind_of_ok hexit).trans hmore'
            · have hleft : t.history.failures = u.history.failures := by
                rcases exitNode_eq_some hexit with ⟨_, _, rfl⟩ | ⟨_, _, rfl⟩ <;> rfl
              have hnoneBlock : NoBlockFails (entered s (.block blockData.block)) u :=
                hleft.symm.trans hnone
              have hblock' := (executeBlock_agrees hdisciplined hagree htakes hblock hnoneBlock).1
              refine ⟨?_, ?_⟩
              · rw [Exec.bind_of_ok hblock']
                exact Exec.bind_of_error hexit
              · rintro result ⟨⟩
      · have hblock' := (executeBlock_agrees hdisciplined hagree htakes hblock hnone).1
        refine ⟨Exec.bind_of_error hblock', ?_⟩
        rintro result ⟨⟩

end Loop

end Jayvee
