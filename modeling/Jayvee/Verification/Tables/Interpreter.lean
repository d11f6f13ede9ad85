import Jayvee.Model.TableExecutors
import Jayvee.Verification.Execution.ContextFree
import Jayvee.Verification.Tables.Operations

/-! # Tables of the table interpreter -/

namespace Jayvee

open Foundation ExecutionContext

variable {δ : Type}

/-- The value is valid for the value type, whatever the context is in which it is checked. -/
def ValidEverywhere (δ : Type) (services : ExecutionServices) (provider : RuntimeParameterProvider)
    (value : Value) (valueType : ValueType) : Prop :=
  ∀ context : ExecutionContext δ, Idle provider context →
    isValidValueRepresentation services value valueType context = some (.ok true, context)

section Executors

variable {services : ExecutionServices} {provider : RuntimeParameterProvider}
variable {context after : ExecutionContext δ}

theorem validEverywhere_of_check (hclosed : ClosedDefinitions services.ast)
    (h : Idle provider context) {value : Value} {valueType : ValueType}
    (hcheck : isValidValueRepresentation services value valueType context =
      some (.ok true, after)) : ValidEverywhere δ services provider value valueType :=
  fun _ h' => visitValueRepresentation_of_idle hclosed h h' hcheck

/-! ## Rows of the interpreter -/

namespace TableInterpreterExecutor

theorem parseAndValidateValue_eq_ok (hclosed : ClosedDefinitions services.ast)
    (h : Idle provider context) {value : Option String} {valueType : ValueType}
    {parsedValue : Option Value}
    (hrun : parseAndValidateValue services value valueType context =
      some (.ok parsedValue, after)) :
    after = context ∧ ∀ result ∈ parsedValue,
      ValidEverywhere δ services provider result valueType := by
  rw [parseAndValidateValue] at hrun
  obtain ⟨parsed, before, hparsed, hrun⟩ := Exec.bind_eq_ok_iff.mp hrun
  cases (Exec.Reads.ofExcept _).same hparsed
  cases parsed with
  | none =>
      cases hrun
      exact ⟨rfl, by simp⟩
  | some parsed =>
      obtain ⟨isValid, checked, hcheck, hrun⟩ := Exec.bind_eq_ok_iff.mp hrun
      obtain rfl := visitValueRepresentation_eq_ok h.keyword hcheck
      cases isValid with
      | false =>
          cases hrun
          exact ⟨rfl, by simp⟩
      | true =>
          cases hrun
          refine ⟨rfl, fun result hresult => ?_⟩
          obtain rfl : parsed = result := Option.some.inj hresult
          exact validEverywhere_of_check hclosed h hcheck

/-- Every value of the row belongs to a column that has its name and a type it is valid for. -/
def RowFits (δ : Type) (services : ExecutionServices) (provider : RuntimeParameterProvider)
    (columnEntries : List ColumnDefinitionEntry) (tableRow : TableRow) : Prop :=
  ∀ name value, tableRow.get? name = some value → ∃ columnEntry ∈ columnEntries,
    columnEntry.columnName = name ∧ ValidEverywhere δ services provider value columnEntry.valueType

theorem fillTableRow_eq_ok (hclosed : ClosedDefinitions services.ast)
    (h : Idle provider context) {sheetRow : List (Option String)}
    {allEntries columnEntries : List ColumnDefinitionEntry}
    (hentries : ∀ columnEntry ∈ columnEntries, columnEntry ∈ allEntries) {invalidRow : Bool}
    {tableRow : TableRow} (hrow : RowFits δ services provider allEntries tableRow)
    {result : Bool × TableRow}
    (hrun : fillTableRow services sheetRow columnEntries invalidRow tableRow context =
      some (.ok result, after)) :
    after = context ∧ RowFits δ services provider allEntries result.2 := by
  induction columnEntries generalizing invalidRow tableRow with
  | nil =>
      cases hrun
      exact ⟨rfl, hrow⟩
  | cons columnEntry columnEntries ih =>
      rw [List.forall_mem_cons] at hentries
      rw [fillTableRow] at hrun
      obtain ⟨parsedValue, before, hparsed, hrun⟩ := Exec.bind_eq_ok_iff.mp hrun
      obtain ⟨rfl, hvalid⟩ := parseAndValidateValue_eq_ok hclosed h hparsed
      cases parsedValue with
      | none => exact ih hentries.2 hrow hrun
      | some parsedValue =>
          refine ih hentries.2 ?_ hrun
          intro name value hvalue
          rw [TableRow.assign] at hvalue
          split at hvalue
          · exact hrow name value hvalue
          · rw [JsMap.get?_set] at hvalue
            split at hvalue
            · rename_i hname
              cases hvalue
              exact ⟨columnEntry, hentries.1, hname.symm, hvalid _ rfl⟩
            · exact hrow name value hvalue

/-- A row that is not omitted has a value for each column, so that no two have the same name. -/
theorem constructAndValidateTableRow_eq_ok (hclosed : ClosedDefinitions services.ast)
    (h : Idle provider context) {sheetRow : List (Option String)}
    {columnEntries : List ColumnDefinitionEntry} {result : Option TableRow}
    (hrun : constructAndValidateTableRow services sheetRow columnEntries context =
      some (.ok result, after)) :
    after = context ∧ ∀ tableRow ∈ result, RowFits δ services provider columnEntries tableRow ∧
      (columnEntries.map ColumnDefinitionEntry.columnName).Nodup := by
  rw [constructAndValidateTableRow] at hrun
  obtain ⟨⟨invalidRow, tableRow⟩, before, hfill, hrest⟩ := Exec.bind_eq_ok_iff.mp hrun
  have hempty : RowFits δ services provider columnEntries .empty := by
    intro name value hvalue
    cases hvalue
  obtain ⟨rfl, hrow⟩ := fillTableRow_eq_ok hclosed h (fun _ hmem => hmem) hempty hfill
  dsimp only at hrest hrow
  split at hrest
  · cases hrest
    exact ⟨rfl, by simp⟩
  · obtain ⟨_, checked, hassert, hrest⟩ := Exec.bind_eq_ok_iff.mp hrest
    cases (Exec.Reads.ofExcept _).same hassert
    cases hrest
    refine ⟨rfl, fun _ htableRow => ?_⟩
    cases htableRow
    refine ⟨hrow, ?_⟩
    have hsize : tableRow.size = columnEntries.length := by
      have hok : assert (tableRow.size = columnEntries.length) = .ok () :=
        (Prod.ext_iff.mp (Option.some.inj hassert)).1
      simpa [assert_eq_ok] using hok
    have hsubset : ∀ key ∈ tableRow.keys,
        key ∈ columnEntries.map ColumnDefinitionEntry.columnName := by
      intro key hkey
      obtain ⟨value, hvalue⟩ := JsMap.exists_get?_of_mem_keys hkey
      obtain ⟨columnEntry, hmem, rfl, _⟩ := hrow key value hvalue
      exact List.mem_map_of_mem hmem
    have hperm := (tableRow.nodup.subperm hsubset).perm_of_length_le (by
      rw [List.length_map, ← hsize]
      exact le_of_eq JsMap.length_keys.symm)
    exact hperm.nodup_iff.mp tableRow.nodup

/-! ## Tables of the interpreter -/

/-- Every column of the table is one of the defined ones. -/
def ColumnsFit (columnEntries : List ColumnDefinitionEntry) (table : Table) : Prop :=
  ∀ name column, table.columns.get? name = some column → ∃ columnEntry ∈ columnEntries,
    columnEntry.columnName = name ∧ column.valueType = columnEntry.valueType

theorem addColumns_eq_ok {V : Value → ValueType → Prop}
    {allEntries columnEntries : List ColumnDefinitionEntry}
    (hentries : ∀ columnEntry ∈ columnEntries, columnEntry ∈ allEntries) {table result : Table}
    (htable : table.WellFormed V) (hcolumns : ColumnsFit allEntries table)
    (hrun : addColumns columnEntries table = .ok result) :
    result.WellFormed V ∧ ColumnsFit allEntries result := by
  induction columnEntries generalizing table with
  | nil =>
      cases hrun
      exact ⟨htable, hcolumns⟩
  | cons columnEntry columnEntries ih =>
      rw [List.forall_mem_cons] at hentries
      rw [addColumns, List.foldlM_cons] at hrun
      obtain ⟨next, hnext, hrest⟩ := except_bind_eq_ok_iff.mp hrun
      refine ih hentries.2 (htable.addColumn hnext (by simp)) ?_ hrest
      obtain ⟨_, rfl⟩ := Table.addColumn_eq_ok hnext
      intro name column hcolumn
      rw [JsMap.get?_set] at hcolumn
      split at hcolumn
      · rename_i hname
        cases hcolumn
        exact ⟨columnEntry, hentries.1, hname.symm, rfl⟩
      · exact hcolumns name column hcolumn

/-- Each row that is added has been checked for the types of the columns. -/
theorem addRows_eq_ok (hclosed : ClosedDefinitions services.ast) (h : Idle provider context)
    {columnEntries : List ColumnDefinitionEntry} {sheetRows : List (List (Option String))}
    {table result : Table} (htable : table.WellFormed (ValidEverywhere δ services provider))
    (hcolumns : ColumnsFit columnEntries table)
    (hrun : addRows services columnEntries sheetRows table context =
      some (.ok result, after)) :
    result.WellFormed (ValidEverywhere δ services provider) := by
  induction sheetRows generalizing table with
  | nil =>
      cases hrun
      exact htable
  | cons sheetRow sheetRows ih =>
      rw [addRows] at hrun
      obtain ⟨tableRow, before, hrow, hrest⟩ := Exec.bind_eq_ok_iff.mp hrun
      obtain ⟨hbefore, hfits⟩ := constructAndValidateTableRow_eq_ok hclosed h hrow
      subst hbefore
      cases tableRow with
      | none => exact ih htable hcolumns hrest
      | some tableRow =>
          obtain ⟨hrowFits, hnodup⟩ := hfits tableRow rfl
          obtain ⟨next, added, hadd, hrest⟩ := Exec.bind_eq_ok_iff.mp hrest
          cases (Exec.Reads.ofExcept _).same hadd
          replace hadd : table.addRow services.ast tableRow = .ok next :=
            (Prod.ext_iff.mp (Option.some.inj hadd)).1
          refine ih (htable.addRow hadd ?_) ?_ hrest
          · intro name column value hcolumn hvalue
            obtain ⟨columnEntry, hmem, hname, htype⟩ := hcolumns name column hcolumn
            obtain ⟨columnEntry', hmem', hname', hvalid⟩ := hrowFits name value hvalue
            have hsame : columnEntry' = columnEntry :=
              List.inj_on_of_nodup_map hnodup hmem' hmem (hname'.trans hname.symm)
            rw [htype, ← hsame]
            exact hvalid
          · intro name column hcolumn
            obtain ⟨column', hcolumn', htype⟩ := Table.addRow_valueType hadd hcolumn
            rw [htype]
            exact hcolumns name column' hcolumn'

theorem constructAndValidateTable_eq_ok (hclosed : ClosedDefinitions services.ast)
    (h : Idle provider context) {sheet : Sheet} {header : Bool}
    {columnEntries : List ColumnDefinitionEntry} {result : Table}
    (hrun : constructAndValidateTable services sheet header columnEntries context =
      some (.ok result, after)) :
    result.WellFormed (ValidEverywhere δ services provider) := by
  obtain ⟨table, before, hcolumns, hrest⟩ := Exec.bind_eq_ok_iff.mp hrun
  cases (Exec.Reads.ofExcept _).same hcolumns
  replace hcolumns : addColumns columnEntries (Table.construct 0) = .ok table :=
    (Prod.ext_iff.mp (Option.some.inj hcolumns)).1
  have hempty : ColumnsFit columnEntries (Table.construct 0) := by
    intro name column hcolumn
    cases hcolumn
  obtain ⟨htable, hfit⟩ :=
    addColumns_eq_ok (fun _ hmem => hmem) (Table.wellFormed_empty 0) hempty hcolumns
  exact addRows_eq_ok hclosed h htable hfit hrest

theorem deriveColumnDefinitionEntries_reads (inputSheet : Sheet) (header : Bool)
    (columnDefinitions : List ValuetypeAssignment) :
    Exec.Reads (deriveColumnDefinitionEntries services inputSheet header columnDefinitions :
      ExecM δ (Result (List ColumnDefinitionEntry))) := by
  apply Exec.Reads.ite
  · apply Exec.Reads.ite
    · exact Exec.Reads.bind (getOrFailProperty_reads services _) fun _ => .pure _
    · apply Exec.Reads.bind (.ofExcept _)
      intro headerRow
      exact Exec.Reads.bind (.ofExcept _) fun _ => .pure _
  · apply Exec.Reads.ite
    · exact Exec.Reads.bind (getOrFailProperty_reads services _) fun _ => .pure _
    · exact Exec.Reads.bind (.ofExcept _) fun _ => .pure _

theorem doExecute_wellFormed (hclosed : ClosedDefinitions services.ast)
    (h : Idle provider context) {inputSheet : Sheet} {result : Table}
    (hrun : doExecute services inputSheet context = some (.ok (.ok result), after)) :
    result.WellFormed (ValidEverywhere δ services provider) := by
  obtain ⟨header, before, hheader, hrest⟩ := Exec.bind_eq_ok_iff.mp hrun
  cases (getTypedPropertyValue_reads _ _ _ _).same hheader
  obtain ⟨columnDefinitions, before, hdefinitions, hrest⟩ := Exec.bind_eq_ok_iff.mp hrest
  cases (getTypedPropertyValue_reads _ _ _ _).same hdefinitions
  obtain ⟨columnEntries, before, hentries, hrest⟩ := Exec.bind_eq_ok_iff.mp hrest
  cases (deriveColumnDefinitionEntries_reads _ _ _).same hentries
  cases columnEntries with
  | error details => cases hrest
  | ok columnEntries =>
      obtain ⟨table, before, htable, hrest⟩ := Exec.bind_eq_ok_iff.mp hrest
      cases hrest
      exact constructAndValidateTable_eq_ok hclosed h htable

end TableInterpreterExecutor

end Executors

end Jayvee
