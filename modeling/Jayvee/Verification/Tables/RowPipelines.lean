import Jayvee.Verification.Execution.ChainValues
import Jayvee.Verification.Tables.RowFunctions

/-! # Pipelines of table blocks

From a sheet to the rows of a table: every row of the sheet goes through the blocks on its own, in
a run of the whole pipeline. -/

namespace Jayvee

open Foundation ExecutionContext TableInterpreterExecutor TableTransformerExecutor

variable {δ : Type}

/-! ## A table is what it stands for -/

section Unique

variable {ast : Ast} {this that : Table} {schema : Schema} {rows : List Row}

theorem Table.Holds.numberOfRows (h : this.Holds ast schema rows) :
    this.numberOfRows = rows.length := by
  rw [← h.rows_eq, Table.length_rows]

theorem Table.Holds.keys (h : this.Holds ast schema rows) : this.columns.keys = schema.keys := by
  rw [← h.schema_eq, Table.keys_schema]

theorem Table.Holds.rowAt (h : this.Holds ast schema rows) {rowId : Nat}
    (hlt : rowId < rows.length) : this.rowAt rowId = rows[rowId] := by
  have hrow := Table.getElem?_rows (h.numberOfRows.symm ▸ hlt)
  rw [h.rows_eq, List.getElem?_eq_getElem hlt] at hrow
  exact (Option.some.inj hrow).symm

theorem Table.Holds.value (h : this.Holds ast schema rows) {name : String} {column : TableColumn}
    (hcolumn : this.getColumn name = some column) (rowId : Nat) :
    column.values[rowId]? = rows[rowId]?.bind fun row => row name := by
  by_cases hlt : rowId < rows.length
  · have hrow := congrFun (h.rowAt hlt) name
    rw [Table.rowAt, hcolumn] at hrow
    rw [List.getElem?_eq_getElem hlt]
    exact hrow
  · have hlength := (h.wellFormed name column hcolumn).length
    rw [h.numberOfRows] at hlength
    rw [List.getElem?_eq_none (by omega), List.getElem?_eq_none (by omega)]
    rfl

theorem Table.Holds.unique (h : this.Holds ast schema rows) (h' : that.Holds ast schema rows) :
    this = that := by
  have hcolumns : this.columns = that.columns := by
    refine JsMap.ext_get? (h.keys.trans h'.keys.symm) fun name => ?_
    have htypes := (h.get?_schema name).symm.trans (h'.get?_schema name)
    cases hcolumn : this.getColumn name with
    | none =>
        cases hcolumn' : that.getColumn name with
        | none => exact hcolumn.trans hcolumn'.symm
        | some column' =>
            rw [hcolumn, hcolumn'] at htypes
            cases htypes
    | some column =>
        cases hcolumn' : that.getColumn name with
        | none =>
            rw [hcolumn, hcolumn'] at htypes
            cases htypes
        | some column' =>
            rw [hcolumn, hcolumn', Option.map_some, Option.map_some, Option.some.injEq] at htypes
            have hvalues : column.values = column'.values := by
              refine List.ext_getElem? fun rowId => ?_
              rw [h.value hcolumn, h'.value hcolumn']
            refine hcolumn.trans (Eq.trans ?_ hcolumn'.symm)
            cases column
            cases column'
            cases hvalues
            cases htypes
            rfl
  obtain ⟨numberOfRows, columns⟩ := this
  obtain ⟨numberOfRows', columns'⟩ := that
  obtain rfl : numberOfRows = numberOfRows' := h.numberOfRows.trans h'.numberOfRows.symm
  obtain rfl : columns = columns' := hcolumns
  rfl

end Unique

/-! ## Blocks in a pipeline -/

/-- The executor of the block runs `doExecute`, which makes an `OUTPUT` of an `INPUT`. -/
def RunsAs {INPUT OUTPUT : Type}
    (createBlockExecutor : BlockId → Except JsError (BlockExecutor δ))
    (services : ExecutionServices) (block : BlockId) (ofInput : INPUT → δ) (ofOutput : OUTPUT → δ)
    (doExecute : INPUT → ExecM δ (Result OUTPUT)) : Prop :=
  ∃ blockExecutor, createBlockExecutor block = .ok blockExecutor ∧
    ∀ input, blockExecutor (.value (ofInput input)) =
      executeWith services
        (fun _ => do
          let result ← doExecute input
          return result.map fun output => some (.value (ofOutput output)))
        (.value (ofInput input))

/-- The contexts in which a block of the pipeline is executed. -/
def AtBlock (start : ExecutionContext δ) (block : BlockId) (context : ExecutionContext δ) : Prop :=
  context.evaluationContext = start.evaluationContext ∧
    context.stack.getLast? = some (.block block)

section Blocks

variable {createBlockExecutor : BlockId → Except JsError (BlockExecutor δ)}
  {services : ExecutionServices} {provider : RuntimeParameterProvider}
  {start context : ExecutionContext δ} {block : BlockId}

/-- In debug mode, the result of a block is logged. -/
theorem logBlockResult_of_block (hstack : context.stack.getLast? = some (.block block))
    (result : Option (IOTypeImplementation δ)) :
    logBlockResult services result context = some (.ok (), context) := by
  have hcurrent : getCurrentNode context = some (.ok (some (.block block)), context) := by
    rw [← hstack]
    rfl
  rw [logBlockResult]
  split
  · rw [Exec.bind_of_ok hcurrent]
    rfl
  · rfl

theorem RunsAs.passesValue {INPUT OUTPUT : Type} {ofInput : INPUT → δ} {ofOutput : OUTPUT → δ}
    {doExecute : INPUT → ExecM δ (Result OUTPUT)}
    (h : RunsAs createBlockExecutor services block ofInput ofOutput doExecute) {input : INPUT}
    {output : OUTPUT}
    (hruns : ∀ context, AtBlock start block context →
      ∃ after, doExecute input context = some (.ok (.ok output), after) ∧
        after.stack = context.stack ∧ after.evaluationContext = start.evaluationContext) :
    PassesValue createBlockExecutor start.evaluationContext block (.value (ofInput input))
      (.value (ofOutput output)) := by
  obtain ⟨blockExecutor, hcreate, hexecutor⟩ := h
  refine ⟨blockExecutor, hcreate, fun context hcontext hstack => ?_⟩
  obtain ⟨after, hrun, hsame, hafter⟩ := hruns context ⟨hcontext, hstack⟩
  refine ⟨after, ?_, hsame, hafter⟩
  have hresult : (do
      let result ← doExecute input
      return result.map fun output => some (.value (ofOutput output)) :
        ExecM δ (Result (Option (IOTypeImplementation δ)))) context =
      some (.ok (.ok (some (.value (ofOutput output)))), after) := by
    rw [Exec.bind_of_ok hrun]
    rfl
  rw [hexecutor, executeWith, Exec.bind_of_ok hresult]
  dsimp only
  rw [Exec.bind_of_ok (logBlockResult_of_block (hsame ▸ hstack) _)]
  rfl

/-- The stack of the context is of no importance, except for its top. -/
def atBlock (start : ExecutionContext δ) (block : BlockId) : ExecutionContext δ :=
  { start with stack := [.block block] }

theorem atBlock_atBlock (start : ExecutionContext δ) (block : BlockId) :
    AtBlock start block (atBlock start block) :=
  ⟨rfl, rfl⟩

theorem AtBlock.sameProperties (h : AtBlock start block context) :
    SameProperties services (atBlock start block) context := by
  refine ⟨h.2, fun _ _ _ _ _ => ?_⟩
  rw [h.1]
  rfl

theorem TableInterpreterExecutor.InterpreterBlock.Reads.at {this : InterpreterBlock}
    (h : this.Reads services (atBlock start block)) (hcontext : AtBlock start block context) :
    this.Reads services context where
  header := (getTypedPropertyValue_agrees hcontext.sameProperties _ _ _).eq_some h.header
  columns := (getTypedPropertyValue_agrees hcontext.sameProperties _ _ _).eq_some h.columns

theorem TableTransformerExecutor.TransformerBlock.Reads.at {this : TransformerBlock}
    (h : this.Reads services (atBlock start block)) (hcontext : AtBlock start block context) :
    this.Reads services context where
  inputColumns :=
    (getTypedPropertyValue_agrees hcontext.sameProperties _ _ _).eq_some h.inputColumns
  outputColumn :=
    (getTypedPropertyValue_agrees hcontext.sameProperties _ _ _).eq_some h.outputColumn
  uses := (getTypedPropertyValue_agrees hcontext.sameProperties _ _ _).eq_some h.uses

theorem AtBlock.idle (h : AtBlock start block context) (hstart : Idle provider start) :
    Idle provider context :=
  ⟨h.1 ▸ hstart.provider, h.1 ▸ hstart.keyword⟩

variable {ofSheet : Sheet → δ} {ofTable : Table → δ}

theorem TableInterpreterExecutor.InterpreterBlock.passesValue
    (hclosed : ClosedDefinitions services.ast) (hstart : Idle provider start)
    {this : InterpreterBlock}
    (hvalidated : this.IsValidated services.ast) {inputSheet : Sheet}
    (htakes : this.Takes services start inputSheet)
    (hreads : this.Reads services (atBlock start this.block))
    (hruns : RunsAs createBlockExecutor services this.block ofSheet ofTable
      (TableInterpreterExecutor.doExecute services)) :
    ∃ table, PassesValue createBlockExecutor start.evaluationContext this.block
        (.value (ofSheet inputSheet)) (.value (ofTable table)) ∧
      table.Holds services.ast (schemaOf (this.columnEntries inputSheet))
        ((dataRows this.header inputSheet.data).filterMap
          (interpretRow services start (this.columnEntries inputSheet))) := by
  have hat := atBlock_atBlock start this.block
  obtain ⟨table, _, htable⟩ :=
    this.doExecute_holds hclosed hstart hvalidated htakes (hat.idle hstart) hreads
  refine ⟨table, hruns.passesValue fun context hcontext => ?_, htable⟩
  obtain ⟨table', hrun, htable'⟩ := this.doExecute_holds hclosed hstart hvalidated htakes
    (hcontext.idle hstart) (hreads.at hcontext)
  exact ⟨context, by rw [hrun, htable.unique htable'], rfl, hcontext.1⟩

theorem TableTransformerExecutor.TransformerBlock.passesValue
    (hclosed : ClosedDefinitions services.ast) (hstart : Idle provider start)
    {this : TransformerBlock} {schema : Schema} {rows : List Row} {table : Table}
    (hvalidated : this.IsValidated services.ast schema)
    (hunbound : this.PortsUnbound start.evaluationContext)
    (htable : table.Holds services.ast schema rows)
    (hchecks : ∀ row ∈ rows, this.ChecksRow services start row)
    (hreads : this.Reads services (atBlock start this.block))
    (hruns : RunsAs createBlockExecutor services this.block ofTable ofTable
      (TableTransformerExecutor.doExecute services)) :
    ∃ outputTable, PassesValue createBlockExecutor start.evaluationContext this.block
        (.value (ofTable table)) (.value (ofTable outputTable)) ∧
      outputTable.Holds services.ast (this.outputSchema schema)
        (rows.filterMap (this.transformRow services start)) := by
  have hat := atBlock_atBlock start this.block
  obtain ⟨outputTable, _, _, _, _, houtput⟩ := this.doExecute_holds hclosed hstart hvalidated
    hunbound htable hchecks hat.1 hreads
  refine ⟨outputTable, hruns.passesValue fun context hcontext => ?_, houtput⟩
  obtain ⟨outputTable', after, hrun, hstack, hafter, houtput'⟩ := this.doExecute_holds hclosed
    hstart hvalidated hunbound htable hchecks hcontext.1 (hreads.at hcontext)
  exact ⟨after, by rw [hrun, houtput.unique houtput'], hstack, hafter⟩

end Blocks

/-! ## Chains of transformers -/

section Transformers

/-- What the transformers make of a row, one after the other. -/
def transformAll (services : ExecutionServices) (start : ExecutionContext δ)
    (transformers : List TransformerBlock) (row : Row) : Option Row :=
  transformers.foldlM (fun row transformer => transformer.transformRow services start row) row

def schemaAfter (transformers : List TransformerBlock) (schema : Schema) : Schema :=
  transformers.foldl (fun schema transformer => transformer.outputSchema schema) schema

/-- Each transformer is validated for the columns that come to it, and no constraint raises an
error on a row that comes to it. -/
def TransformersFit (services : ExecutionServices) (start : ExecutionContext δ) :
    (transformers : List TransformerBlock) → (schema : Schema) → (rows : List Row) → Prop
  | [], _, _ => True
  | transformer :: transformers, schema, rows =>
      transformer.IsValidated services.ast schema ∧
        transformer.PortsUnbound start.evaluationContext ∧
        (∀ row ∈ rows, transformer.ChecksRow services start row) ∧
        TransformersFit services start transformers (transformer.outputSchema schema)
          (rows.filterMap (transformer.transformRow services start))

variable {createBlockExecutor : BlockId → Except JsError (BlockExecutor δ)}
  {services : ExecutionServices} {provider : RuntimeParameterProvider}
  {start : ExecutionContext δ} {ofTable : Table → δ}

theorem filterMap_transformAll (transformer : TransformerBlock)
    (transformers : List TransformerBlock) (rows : List Row) :
    rows.filterMap (transformAll services start (transformer :: transformers)) =
      (rows.filterMap (transformer.transformRow services start)).filterMap
        (transformAll services start transformers) := by
  rw [List.filterMap_filterMap]
  rfl

theorem exists_chainValues (hclosed : ClosedDefinitions services.ast)
    (hstart : Idle provider start) {transformers : List TransformerBlock}
    (hruns : ∀ transformer ∈ transformers,
      RunsAs createBlockExecutor services transformer.block ofTable ofTable
        (TableTransformerExecutor.doExecute services))
    (hreads : ∀ transformer ∈ transformers,
      transformer.Reads services (atBlock start transformer.block))
    {schema : Schema} {rows : List Row} {table : Table}
    (hfit : TransformersFit services start transformers schema rows)
    (htable : table.Holds services.ast schema rows) :
    ∃ tables result, ChainValues createBlockExecutor start.evaluationContext
        (.value (ofTable table)) (transformers.map TransformerBlock.block)
        (tables.map fun table => .value (ofTable table)) ∧
      (table :: tables).getLast? = some result ∧
      result.Holds services.ast (schemaAfter transformers schema)
        (rows.filterMap (transformAll services start transformers)) := by
  induction transformers generalizing schema rows table with
  | nil =>
      refine ⟨[], table, .nil _, rfl, ?_⟩
      have hrows : rows.filterMap (transformAll services start []) = rows :=
        List.filterMap_some
      rwa [hrows]
  | cons transformer transformers ih =>
      rw [List.forall_mem_cons] at hruns hreads
      obtain ⟨hvalidated, hunbound, hchecks, hrest⟩ := hfit
      obtain ⟨outputTable, hpasses, houtput⟩ := transformer.passesValue hclosed hstart hvalidated
        hunbound htable hchecks hreads.1 hruns.1
      obtain ⟨tables, result, hvalues, hlast, hresult⟩ := ih hruns.2 hreads.2 hrest houtput
      refine ⟨outputTable :: tables, result, .cons hpasses hvalues, ?_, ?_⟩
      · rw [List.getLast?_cons_cons]
        exact hlast
      · rw [filterMap_transformAll]
        exact hresult

end Transformers

/-! ## Whole pipelines -/

/-- The pipeline is a chain of a block that gives a sheet, a table interpreter and table
transformers. -/
structure IsTablePipeline (services : ExecutionServices)
    (createBlockExecutor : BlockId → Except JsError (BlockExecutor δ))
    (start : ExecutionContext δ) (ofSheet : Sheet → δ) (ofTable : Table → δ)
    (pipesContainer : PipesContainer) (source : BlockId) (inputSheet : Sheet)
    (interpreter : InterpreterBlock) (transformers : List TransformerBlock) : Prop where
  pipes : pipesContainer.pipes = [⟨(source :: interpreter.block ::
    transformers.map TransformerBlock.block).map some⟩]
  distinct : (source :: interpreter.block :: transformers.map TransformerBlock.block).Nodup
  source : PassesValue createBlockExecutor start.evaluationContext source .NONE
    (.value (ofSheet inputSheet))
  interpreterRuns : RunsAs createBlockExecutor services interpreter.block ofSheet ofTable
    (TableInterpreterExecutor.doExecute services)
  interpreterReads : interpreter.Reads services (atBlock start interpreter.block)
  interpreterValidated : interpreter.IsValidated services.ast
  interpreterTakes : interpreter.Takes services start inputSheet
  transformersRun : ∀ transformer ∈ transformers,
    RunsAs createBlockExecutor services transformer.block ofTable ofTable
      (TableTransformerExecutor.doExecute services)
  transformersRead : ∀ transformer ∈ transformers,
    transformer.Reads services (atBlock start transformer.block)
  transformersFit : TransformersFit services start transformers
    (schemaOf (interpreter.columnEntries inputSheet))
    ((dataRows interpreter.header inputSheet.data).filterMap
      (interpretRow services start (interpreter.columnEntries inputSheet)))

/-- What becomes of a row of the sheet. -/
def pipelineRow (services : ExecutionServices) (start : ExecutionContext δ)
    (columnEntries : List ColumnDefinitionEntry) (transformers : List TransformerBlock)
    (sheetRow : List (Option String)) : Option Row :=
  (interpretRow services start columnEntries sheetRow).bind
    (transformAll services start transformers)

section Pipelines

variable (services : ExecutionServices) (start : ExecutionContext δ)
  (interpreter : InterpreterBlock) (transformers : List TransformerBlock) (inputSheet : Sheet)

def pipelineSchema : Schema :=
  schemaAfter transformers (schemaOf (interpreter.columnEntries inputSheet))

def pipelineRows : List Row :=
  (dataRows interpreter.header inputSheet.data).filterMap
    (pipelineRow services start (interpreter.columnEntries inputSheet) transformers)

end Pipelines

/-- A column of texts is read, and replaced by their truth values. -/
def flagPipelineServices : ExecutionServices :=
  sampleServices {
    valuetypes := [⟨"text", true, none, none, none⟩, ⟨"boolean", true, none, none, none⟩]
    constraints := []
    transforms := [flagTransform]
    blocks := [
      ⟨"Interpreter", none, [⟨"header", .expression (.booleanLiteral false)⟩,
        ⟨"columns", .expression (.collectionLiteral
          [.valuetypeAssignmentLiteral ⟨"flag", ⟨some 0, []⟩⟩])⟩]⟩,
      ⟨"Transformer", none, [
        ⟨"inputColumns", .expression (.collectionLiteral [.textLiteral "flag"])⟩,
        ⟨"outputColumn", .expression (.textLiteral "flag")⟩,
        ⟨"uses", .expression (.referenceLiteral (some (.transformDefinition 0)))⟩]⟩]
    blockTypes := [] }

def flagSheet : Sheet :=
  Sheet.ofTexts [["true"], ["a"], ["false"]]

/-- `Sheets -> Interpreter -> Transformer;` -/
def flagPipeline : PipesContainer :=
  .pipeline ⟨"Flags", [2, 0, 1], [⟨[some 2, some 0, some 1]⟩], [], [], []⟩

def flagExecutors : BlockId → Except JsError (BlockExecutor (Sheet ⊕ Table))
  | 0 => .ok fun
      | .value (.inl sheet) => executeWith flagPipelineServices
          (fun _ => do
            let result ← TableInterpreterExecutor.doExecute flagPipelineServices sheet
            return result.map fun table => some (.value (.inr table)))
          (.value (.inl sheet))
      | _ => pure (.ok none)
  | 1 => .ok fun
      | .value (.inr table) => executeWith flagPipelineServices
          (fun _ => do
            let result ← TableTransformerExecutor.doExecute flagPipelineServices table
            return result.map fun table => some (.value (.inr table)))
          (.value (.inr table))
      | _ => pure (.ok none)
  | _ => .ok fun _ => pure (.ok (some (.value (.inl flagSheet))))

def flagStart : ExecutionContext (Sheet ⊕ Table) :=
  construct (.construct ⟨fun _ => none, none⟩)

def flagInterpreterBlock : InterpreterBlock :=
  ⟨0, false, [⟨"flag", ⟨some 0, []⟩⟩], fun _ => .Text⟩

def flagTransformerBlock : TransformerBlock :=
  ⟨1, 0, flagTransform, ["flag"], "flag", [flagInput], flagOutput⟩

theorem flagPipelineServices_closed : ClosedDefinitions flagPipelineServices.ast where
  constraints definition hdefinition := by cases hdefinition
  valuetypes definition hdefinition constraints hconstraints := by
    have hnone : definition.constraints = none := by
      rcases List.mem_pair.mp hdefinition with rfl | rfl <;> rfl
    rw [hnone] at hconstraints
    cases hconstraints

theorem flagInterpreterBlock_takes :
    flagInterpreterBlock.Takes flagPipelineServices flagStart flagSheet where
  numberOfRows := rfl
  present := show (1 : ℤ) ≤ 1 by decide
  bound := by simp [InterpreterBlock.columnEntries, boundColumns, flagInterpreterBlock]
  checked := by
    intro sheetRow _ columnEntry hmem text parsedValue _ _
    obtain rfl := List.mem_singleton.mp hmem
    cases parsedValue <;> exact ⟨_, _, rfl⟩

theorem flagInterpreterBlock_isValidated :
    flagInterpreterBlock.IsValidated flagPipelineServices.ast where
  typed := by
    rintro columnDefinition hmem
    obtain rfl := List.mem_singleton.mp hmem
    exact ⟨rfl, .Text, rfl⟩
  distinct := List.nodup_singleton _
  proto := by
    intro columnDefinition hmem
    obtain rfl := List.mem_singleton.mp hmem
    decide

theorem flagTransformerBlock_isValidated : flagTransformerBlock.IsValidated
    flagPipelineServices.ast
    (schemaOf (flagInterpreterBlock.columnEntries flagSheet)) where
  definition := rfl
  input := ⟨rfl, fun details hdetails => by obtain rfl := List.mem_singleton.mp hdetails; rfl⟩
  output := ⟨rfl, fun details hdetails => by obtain rfl := List.mem_singleton.mp hdetails; rfl⟩
  distinct := by decide
  columns := .cons ⟨_, rfl, rfl⟩ .nil
  outputType := rfl
  inputPorts outputAssignment hassignment port hport := by
    obtain rfl := List.mem_singleton.mp hassignment
    cases List.mem_singleton.mp hport
    exact ⟨List.mem_cons_self, rfl⟩
  noProperties outputAssignment hassignment name valueType hproperty := by
    obtain rfl := List.mem_singleton.mp hassignment
    cases List.mem_singleton.mp hproperty
  typed outputAssignment hassignment := by
    obtain rfl := List.mem_singleton.mp hassignment
    exact ⟨_, _, rfl, rfl⟩

theorem flagPipeline_isTablePipeline : IsTablePipeline flagPipelineServices flagExecutors
    flagStart .inl .inr flagPipeline 2 flagSheet flagInterpreterBlock
    [flagTransformerBlock] where
  pipes := rfl
  distinct := by decide
  source := ⟨_, rfl, fun context hcontext _ => ⟨context, rfl, rfl, hcontext⟩⟩
  interpreterRuns := ⟨_, rfl, fun _ => rfl⟩
  interpreterReads := ⟨rfl, rfl⟩
  interpreterValidated := flagInterpreterBlock_isValidated
  interpreterTakes := flagInterpreterBlock_takes
  transformersRun transformer hmem := by
    obtain rfl := List.mem_singleton.mp hmem
    exact ⟨_, rfl, fun _ => rfl⟩
  transformersRead transformer hmem := by
    obtain rfl := List.mem_singleton.mp hmem
    exact ⟨rfl, rfl, rfl⟩
  transformersFit := by
    refine ⟨flagTransformerBlock_isValidated, fun _ _ _ => rfl, fun row _ value _ => ?_, trivial⟩
    cases value <;> exact ⟨_, _, rfl⟩

end Jayvee
