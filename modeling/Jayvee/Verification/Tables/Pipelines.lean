import Jayvee.Verification.Tables.Transformer

/-! # Tables in a pipeline -/

namespace Jayvee

open Foundation ExecutionContext

variable {δ : Type}

/-- The tables that come out of a table interpreter or, with such a table as input, out of a
table transformer. Every block is executed in a context of its own. -/
inductive Produced (δ : Type) (services : ExecutionServices) (provider : RuntimeParameterProvider) :
    Table → Prop where
  | interpreted {context after : ExecutionContext δ} {inputSheet : Sheet} {table : Table}
      (hcontext : Idle provider context)
      (hrun : TableInterpreterExecutor.doExecute services inputSheet context =
        some (.ok (.ok table), after)) : Produced δ services provider table
  | transformed {context after : ExecutionContext δ} {inputTable table : Table}
      (hinput : Produced δ services provider inputTable) (hcontext : Idle provider context)
      (hrun : TableTransformerExecutor.doExecute services inputTable context =
        some (.ok (.ok table), after)) : Produced δ services provider table

/-- All columns have the same height, and all cells are valid for the type of their column. -/
structure Table.Valid (services : ExecutionServices) (context : ExecutionContext δ)
    (this : Table) : Prop where
  rectangular : ∀ name column, this.getColumn name = some column →
    column.values.length = this.numberOfRows
  valid : ∀ name column, this.getColumn name = some column → ∀ value ∈ column.values,
    isValidValueRepresentation services value column.valueType context =
      some (.ok true, context)

theorem Produced.wellFormed {services : ExecutionServices} {provider : RuntimeParameterProvider}
    (hclosed : ClosedDefinitions services.ast) {table : Table}
    (h : Produced δ services provider table) :
    table.WellFormed (ValidEverywhere δ services provider) := by
  induction h with
  | interpreted hcontext hrun =>
      exact TableInterpreterExecutor.doExecute_wellFormed hclosed hcontext hrun
  | transformed _ hcontext hrun ih =>
      exact TableTransformerExecutor.doExecute_wellFormed hclosed hcontext ih hrun

/-- Every table of a pipeline is a rectangle of valid values, whichever rows were omitted and
whichever columns were added or replaced on the way. -/
theorem tables_rectangular_valid (services : ExecutionServices)
    (hclosed : ClosedDefinitions services.ast) (provider : RuntimeParameterProvider)
    (table : Table) (h : Produced δ services provider table) (context : ExecutionContext δ)
    (hcontext : Idle provider context) : table.Valid services context := by
  have hwf := h.wellFormed hclosed
  exact ⟨fun name column hcolumn => (hwf name column hcolumn).length,
    fun name column hcolumn value hvalue =>
      (hwf name column hcolumn).valid value hvalue context hcontext⟩

/-- `valuetype Code oftype text` with `constraint NotEmpty on text: value != "";`, and a block
that reads a column of texts before one that copies it to a column of codes. -/
def codeServices : ExecutionServices :=
  sampleServices {
    valuetypes := [⟨"text", true, none, none, none⟩,
      ⟨"Code", false, some ⟨some 0, []⟩, some [constraintReference 0], none⟩]
    constraints := [.expression "NotEmpty" ⟨some 0, []⟩
      (.binaryExpression .unequal (.valueKeywordLiteral false) (.textLiteral ""))]
    transforms := [⟨"Copy", [⟨.from, "x", ⟨some 0, []⟩⟩, ⟨.to, "y", ⟨some 1, []⟩⟩],
      [⟨some ⟨.to, "y", ⟨some 1, []⟩⟩,
        .referenceLiteral (some (.transformPortDefinition ⟨.from, "x", ⟨some 0, []⟩⟩))⟩]⟩]
    blocks := [
      ⟨"Interpreter", none, [⟨"header", .expression (.booleanLiteral false)⟩,
        ⟨"columns", .expression (.collectionLiteral
          [.valuetypeAssignmentLiteral ⟨"text", ⟨some 0, []⟩⟩])⟩]⟩,
      ⟨"Transformer", none, [
        ⟨"inputColumns", .expression (.collectionLiteral [.textLiteral "text"])⟩,
        ⟨"outputColumn", .expression (.textLiteral "code")⟩,
        ⟨"uses", .expression (.referenceLiteral (some (.transformDefinition 0)))⟩]⟩]
    blockTypes := [] }

/-- The context while a block is executed. -/
def blockContext (block : BlockId) : ExecutionContext Unit :=
  entered (construct ageContext) (.block block)

def textTable : Table where
  numberOfRows := 3
  columns := JsMap.empty.set "text" ⟨[.string "a", .string "", .string "b"], .Text⟩

/-- The row with the empty text is dropped. -/
def codeTable : Table where
  numberOfRows := 2
  columns := (JsMap.empty.set "text" ⟨[.string "a", .string "b"], .Text⟩).set "code"
    ⟨[.string "a", .string "b"], .atomic 1⟩

theorem idle_blockContext (block : BlockId) :
    Idle ageContext.runtimeParameterProvider (blockContext block) :=
  ⟨rfl, rfl⟩

theorem codeServices_closed : ClosedDefinitions codeServices.ast where
  constraints definition hdefinition := by
    obtain rfl := List.mem_singleton.mp hdefinition
    exact ⟨trivial, trivial⟩
  valuetypes definition hdefinition constraints hconstraints := by
    cases List.mem_cons.mp hdefinition with
    | inl htext =>
        subst htext
        cases hconstraints
    | inr hcode =>
        obtain rfl := List.mem_singleton.mp hcode
        cases hconstraints
        exact ⟨trivial, trivial⟩

/-- A row without a cell for the column is omitted. -/
theorem textTable_produced :
    Produced Unit codeServices ageContext.runtimeParameterProvider textTable := by
  have hrun : TableInterpreterExecutor.doExecute codeServices
      (Sheet.ofTexts [["a"], [], [""], ["b", "c"]]) (blockContext 0) =
        some (.ok (.ok textTable), blockContext 0) := by rfl
  exact .interpreted (idle_blockContext 0) hrun

theorem codeTable_produced :
    Produced Unit codeServices ageContext.runtimeParameterProvider codeTable :=
  .transformed textTable_produced (idle_blockContext 1) (by rfl)

theorem tables_rectangular_valid_codes : codeTable.Valid codeServices (blockContext 1) :=
  tables_rectangular_valid codeServices codeServices_closed _ codeTable codeTable_produced
    (blockContext 1) (idle_blockContext 1)

end Jayvee
