import Jayvee.Verification.Tables.InterpretedRows
import Jayvee.Verification.Tables.Pipelines

/-! # The table of a table interpreter -/

namespace Jayvee

open Foundation ExecutionContext

variable {δ : Type}

namespace TableInterpreterExecutor

/-! ## The loop over the rows -/

/-- The table has the bound columns in their order, and in each the values of its cells in the
rows. -/
structure HasRows (services : ExecutionServices) (context : ExecutionContext δ)
    (columnEntries : List ColumnDefinitionEntry) (rows : List (List (Option String)))
    (table : Table) : Prop where
  names : table.columns.keys = columnEntries.map ColumnDefinitionEntry.columnName
  numberOfRows : table.numberOfRows = rows.length
  columns : ∀ columnEntry ∈ columnEntries, table.getColumn columnEntry.columnName =
    some ⟨rows.filterMap fun sheetRow => cellValue services context sheetRow columnEntry,
      columnEntry.valueType⟩

section Tables

variable {services : ExecutionServices} {context : ExecutionContext δ}
  {columnEntries : List ColumnDefinitionEntry}

theorem addColumns_eq (hnodup : (columnEntries.map ColumnDefinitionEntry.columnName).Nodup)
    (table : Table) (hempty : table.numberOfRows = 0)
    (hfresh : ∀ columnEntry ∈ columnEntries, columnEntry.columnName ∉ table.columns.keys) :
    ∃ result, addColumns columnEntries table = .ok result ∧ result.numberOfRows = 0 ∧
      result.columns.entries = table.columns.entries ++ columnEntries.map fun columnEntry =>
        (columnEntry.columnName, ⟨[], columnEntry.valueType⟩) := by
  induction columnEntries generalizing table with
  | nil => exact ⟨table, rfl, hempty, by simp⟩
  | cons columnEntry columnEntries ih =>
      rw [List.map_cons, List.nodup_cons] at hnodup
      rw [List.forall_mem_cons] at hfresh
      have hadd : table.addColumn columnEntry.columnName ⟨[], columnEntry.valueType⟩ = .ok _ :=
        Table.addColumn_eq hempty.symm
      have hentries : (table.columns.set columnEntry.columnName
          ⟨[], columnEntry.valueType⟩).entries = table.columns.entries ++
            [(columnEntry.columnName, ⟨[], columnEntry.valueType⟩)] :=
        JsMap.entries_set_of_not_mem hfresh.1
      have hfresh' : ∀ other ∈ columnEntries, other.columnName ∉
          (table.columns.set columnEntry.columnName ⟨[], columnEntry.valueType⟩).keys := by
        intro other hother
        rw [JsMap.keys, hentries, List.map_append, List.mem_append, not_or]
        refine ⟨hfresh.2 other hother, fun hmem => hnodup.1 ?_⟩
        have hsame : other.columnName = columnEntry.columnName := List.mem_singleton.mp hmem
        exact hsame ▸ List.mem_map_of_mem hother
      obtain ⟨result, hresult, hrows, hcolumns⟩ := ih hnodup.2
        ⟨table.numberOfRows, table.columns.set columnEntry.columnName
          ⟨[], columnEntry.valueType⟩⟩ hempty hfresh'
      refine ⟨result, ?_, hrows, ?_⟩
      · rw [addColumns, List.foldlM_cons, hadd]
        exact hresult
      · rw [hcolumns, hentries, List.append_assoc]
        rfl

theorem exists_table (services : ExecutionServices) (context : ExecutionContext δ)
    (hnodup : (columnEntries.map ColumnDefinitionEntry.columnName).Nodup) :
    ∃ table, addColumns columnEntries (Table.construct 0) = .ok table ∧
      HasRows services context columnEntries [] table := by
  obtain ⟨table, htable, hrows, hentries⟩ :=
    addColumns_eq hnodup (Table.construct 0) rfl fun _ _ => List.not_mem_nil
  refine ⟨table, htable, ?_, hrows, fun columnEntry hmem => ?_⟩
  · rw [JsMap.keys, hentries]
    exact List.map_map
  · refine JsMap.mem_entries_iff.mp ?_
    rw [hentries]
    exact List.mem_append_right _ (List.mem_map.mpr ⟨columnEntry, hmem, rfl⟩)

/-- Adding the row that was made from a row of the sheet. -/
theorem HasRows.addRow {rows : List (List (Option String))} {table : Table}
    (h : HasRows services context columnEntries rows table) (hne : columnEntries ≠ [])
    {sheetRow : List (Option String)} (hkept : isKept services context columnEntries sheetRow)
    {tableRow : TableRow}
    (hentries : tableRow.entries = columnEntries.filterMap fun columnEntry =>
      (cellValue services context sheetRow columnEntry).map fun value =>
        (columnEntry.columnName, value)) :
    ∃ result, table.addRow services.ast tableRow = .ok result ∧
      HasRows services context columnEntries (rows ++ [sheetRow]) result := by
  have hvalues : ∀ columnEntry ∈ columnEntries,
      (cellValue services context sheetRow columnEntry).isSome := List.all_eq_true.mp hkept
  have hsize : tableRow.size = columnEntries.length := by
    rw [JsMap.size, hentries]
    refine List.filterMap_length_eq_length.mpr fun columnEntry hmem => ?_
    rw [Option.isSome_map]
    exact hvalues columnEntry hmem
  have hcolumns : table.columns.size = columnEntries.length := by
    rw [← JsMap.length_keys, h.names, List.length_map]
  have hsome : tableRow.size ≠ 0 := by
    rw [hsize]
    exact fun hzero => hne (List.length_eq_zero_iff.mp hzero)
  have hfits : ∀ entry ∈ tableRow.entries, ∃ column, table.columns.get? entry.1 = some column ∧
      column.valueType.isInternalValueRepresentation services.ast entry.2 = .ok true := by
    intro entry hentry
    rw [hentries] at hentry
    obtain ⟨columnEntry, hmem, hmapped⟩ := List.mem_filterMap.mp hentry
    obtain ⟨value, hvalue, rfl⟩ := Option.map_eq_some_iff.mp hmapped
    exact ⟨_, h.columns columnEntry hmem, hasType_of_cellValue hvalue⟩
  obtain ⟨result, hresult, hnumber, hkeys, hget⟩ :=
    Table.addRow_eq hsome (hsize.trans hcolumns.symm) hfits
  refine ⟨result, hresult, hkeys.trans h.names, ?_, fun columnEntry hmem => ?_⟩
  · rw [hnumber, h.numberOfRows, List.length_append]
    rfl
  · obtain ⟨value, hvalue⟩ := Option.isSome_iff_exists.mp (hvalues columnEntry hmem)
    have hrow : tableRow.get? columnEntry.columnName = some value := by
      refine JsMap.mem_entries_iff.mp ?_
      rw [hentries]
      exact List.mem_filterMap.mpr ⟨columnEntry, hmem, by rw [hvalue]; rfl⟩
    have hcolumn := h.columns columnEntry hmem
    rw [Table.getColumn] at hcolumn
    rw [Table.getColumn, hget, hcolumn, hrow]
    simp [Table.pushed, hvalue]

theorem addRows_eq (hkeyword : context.evaluationContext.valueKeywordValue = none)
    (hnodup : (columnEntries.map ColumnDefinitionEntry.columnName).Nodup)
    (hproto : ∀ columnEntry ∈ columnEntries, columnEntry.columnName ≠ "__proto__")
    (hne : columnEntries ≠ []) {sheetRows : List (List (Option String))}
    (hchecked : ∀ sheetRow ∈ sheetRows, RowChecked services context columnEntries sheetRow)
    {rows : List (List (Option String))} {table : Table}
    (h : HasRows services context columnEntries rows table) :
    ∃ result, addRows services columnEntries sheetRows table context =
        some (.ok result, context) ∧
      HasRows services context columnEntries
        (rows ++ sheetRows.filter (isKept services context columnEntries)) result := by
  induction sheetRows generalizing rows table with
  | nil => exact ⟨table, rfl, by simpa using h⟩
  | cons sheetRow sheetRows ih =>
      rw [List.forall_mem_cons] at hchecked
      obtain ⟨tableRow, hrow, hentries⟩ :=
        constructAndValidateTableRow_eq hkeyword hchecked.1 hnodup hproto
      rw [addRows, Exec.bind_of_ok hrow]
      cases hkept : isKept services context columnEntries sheetRow with
      | false =>
          obtain ⟨result, hresult, hrows⟩ := ih hchecked.2 h
          refine ⟨result, hresult, ?_⟩
          rw [List.filter_cons_of_neg (by simp [hkept])]
          exact hrows
      | true =>
          obtain ⟨next, hadd, hnext⟩ := h.addRow hne hkept hentries
          obtain ⟨result, hresult, hrows⟩ := ih hchecked.2 hnext
          refine ⟨result, ?_, ?_⟩
          · simp only [if_true, hadd]
            exact hresult
          · rw [List.filter_cons_of_pos hkept]
            simpa using hrows

end Tables

/-! ## Exactness -/

/-- The table that is to be read from the rows of a sheet: it has the bound columns in the order of
their definitions, and the rows whose bound cells all have a value, in their order. -/
structure IsInterpretation (services : ExecutionServices) (context : ExecutionContext δ)
    (columnEntries : List ColumnDefinitionEntry) (sheetRows : List (List (Option String)))
    (table : Table) : Prop where
  names : table.columns.keys = columnEntries.map ColumnDefinitionEntry.columnName
  numberOfRows : table.numberOfRows =
    (sheetRows.filter (isKept services context columnEntries)).length
  cells : ∀ columnEntry ∈ columnEntries, ∃ values,
    table.getColumn columnEntry.columnName = some ⟨values, columnEntry.valueType⟩ ∧
      values.map some = (sheetRows.filter (isKept services context columnEntries)).map
        fun sheetRow => cellValue services context sheetRow columnEntry

/-- The block reports neither a missing header nor too few columns. -/
def ColumnsPresent (inputSheet : Sheet) (header : Bool)
    (columnDefinitions : List ValuetypeAssignment) : Prop :=
  if header then 1 ≤ inputSheet.numberOfRows
  else (columnDefinitions.length : ℤ) ≤ inputSheet.numberOfColumns

section Exactness

variable {services : ExecutionServices} {context : ExecutionContext δ}
  {valueTypes : ValuetypeAssignment → ValueType} {inputSheet : Sheet} {header : Bool}
  {columnEntries : List ColumnDefinitionEntry} {columnDefinitions : List ValuetypeAssignment}

theorem HasRows.isInterpretation {sheetRows : List (List (Option String))} {table : Table}
    (h : HasRows services context columnEntries
      (sheetRows.filter (isKept services context columnEntries)) table) :
    IsInterpretation services context columnEntries sheetRows table := by
  refine ⟨h.names, h.numberOfRows, fun columnEntry hmem => ⟨_, h.columns columnEntry hmem, ?_⟩⟩
  rw [List.map_filterMap_some_eq_filter_map_isSome, List.filter_eq_self, List.forall_mem_map]
  intro sheetRow hsheetRow
  have hkept := (List.mem_filter.mp hsheetRow).2
  exact List.all_eq_true.mp hkept columnEntry hmem

theorem deriveColumnDefinitionEntries_eq
    (hsheet : inputSheet.numberOfRows = inputSheet.data.length)
    (htyped : ColumnsTyped services.ast valueTypes columnDefinitions)
    (hpresent : ColumnsPresent inputSheet header columnDefinitions) :
    deriveColumnDefinitionEntries services inputSheet header columnDefinitions context =
      some (.ok (.ok (boundColumns valueTypes header inputSheet.data columnDefinitions)),
        context) := by
  cases header with
  | true =>
      have hrows : 1 ≤ inputSheet.numberOfRows := hpresent
      cases hdata : inputSheet.data with
      | nil =>
          rw [hsheet, hdata] at hrows
          cases hrows
      | cons headerRow rows =>
          have hheader : getHeaderRow inputSheet = .ok headerRow := by
            have hpositive : inputSheet.numberOfRows > 0 := hrows
            rw [getHeaderRow, hdata]
            simp only [hpositive, decide_true, Table.assertWith, if_true]
            rfl
          rw [deriveColumnDefinitionEntries, if_pos rfl, if_neg (not_lt.mpr hrows), hheader]
          refine (Exec.bind_of_ok (Exec.ofExcept_apply _ _)).trans ?_
          rw [deriveFromHeader_eq headerRow htyped]
          rfl
  | false =>
      have hcolumns : ¬ inputSheet.numberOfColumns < columnDefinitions.length :=
        not_lt.mpr hpresent
      rw [deriveColumnDefinitionEntries, if_neg Bool.false_ne_true, if_neg hcolumns,
        deriveWithoutHeader_eq htyped]
      rfl

/-- The rows are added one after the other to the empty table with the bound columns. -/
theorem constructAndValidateTable_eq
    (hkeyword : context.evaluationContext.valueKeywordValue = none)
    (htyped : ColumnsTyped services.ast valueTypes columnDefinitions)
    (hdistinct : (columnDefinitions.map ValuetypeAssignment.name).Nodup)
    (hproto : ∀ columnDefinition ∈ columnDefinitions, columnDefinition.name ≠ "__proto__")
    (hbound : boundColumns valueTypes header inputSheet.data columnDefinitions ≠ [])
    (hchecked : ∀ sheetRow ∈ dataRows header inputSheet.data, CellsChecked services context
      (boundColumns valueTypes header inputSheet.data columnDefinitions) sheetRow) :
    ∃ table, constructAndValidateTable services inputSheet header
        (boundColumns valueTypes header inputSheet.data columnDefinitions) context =
          some (.ok table, context) ∧
      IsInterpretation services context
        (boundColumns valueTypes header inputSheet.data columnDefinitions)
        (dataRows header inputSheet.data) table := by
  have hnodup := hdistinct.sublist
    (boundColumns_names_sublist valueTypes header inputSheet.data columnDefinitions)
  have hproto' : ∀ columnEntry ∈ boundColumns valueTypes header inputSheet.data columnDefinitions,
      columnEntry.columnName ≠ "__proto__" := by
    intro columnEntry hmem
    obtain ⟨columnDefinition, hdefinition, _, rfl⟩ := mem_boundColumns hmem
    exact hproto columnDefinition hdefinition
  have hrowsChecked : ∀ sheetRow ∈ dataRows header inputSheet.data, RowChecked services context
      (boundColumns valueTypes header inputSheet.data columnDefinitions) sheetRow := by
    refine fun sheetRow hrow => ⟨fun columnEntry hmem => ?_, hchecked sheetRow hrow⟩
    obtain ⟨columnDefinition, hdefinition, _, rfl⟩ := mem_boundColumns hmem
    exact (htyped columnDefinition hdefinition).2
  obtain ⟨empty, hempty, hcolumnsOnly⟩ := exists_table services context hnodup
  obtain ⟨table, htable, hrows⟩ :=
    addRows_eq hkeyword hnodup hproto' hbound hrowsChecked hcolumnsOnly
  rw [List.nil_append] at hrows
  refine ⟨table, ?_, hrows.isInterpretation⟩
  rw [constructAndValidateTable, hempty]
  exact (Exec.bind_of_ok (Exec.ofExcept_apply _ _)).trans htable

end Exactness

/-- The table interpreter reads exactly the rows of the sheet whose bound cells exist, can be
parsed and are valid, with the parsed values as cells. -/
theorem tableInterpreter_exact (services : ExecutionServices) (context : ExecutionContext δ)
    (hkeyword : context.evaluationContext.valueKeywordValue = none) (inputSheet : Sheet)
    (hsheet : inputSheet.numberOfRows = inputSheet.data.length) (header : Bool)
    (columnDefinitions : List ValuetypeAssignment)
    (hheader : getTypedPropertyValue services Value.booleanTypeguard "header" .Boolean context =
      some (.ok header, context))
    (hcolumns : getTypedPropertyValue services columnDefinitionsTypeguard "columns"
      (.collection .ValuetypeAssignment) context = some (.ok columnDefinitions, context))
    (valueTypes : ValuetypeAssignment → ValueType)
    (htyped : ColumnsTyped services.ast valueTypes columnDefinitions)
    (hdistinct : (columnDefinitions.map ValuetypeAssignment.name).Nodup)
    (hproto : ∀ columnDefinition ∈ columnDefinitions, columnDefinition.name ≠ "__proto__")
    (hbound : boundColumns valueTypes header inputSheet.data columnDefinitions ≠ [])
    (hpresent : ColumnsPresent inputSheet header columnDefinitions)
    (hchecked : ∀ sheetRow ∈ dataRows header inputSheet.data, CellsChecked services context
      (boundColumns valueTypes header inputSheet.data columnDefinitions) sheetRow) :
    ∃ table, doExecute services inputSheet context = some (.ok (.ok table), context) ∧
      IsInterpretation services context
        (boundColumns valueTypes header inputSheet.data columnDefinitions)
        (dataRows header inputSheet.data) table := by
  obtain ⟨table, hconstruct, hinterpretation⟩ :=
    constructAndValidateTable_eq hkeyword htyped hdistinct hproto hbound hchecked
  refine ⟨table, ?_, hinterpretation⟩
  rw [doExecute, Exec.bind_of_ok hheader, Exec.bind_of_ok hcolumns,
    Exec.bind_of_ok (deriveColumnDefinitionEntries_eq hsheet htyped hpresent)]
  dsimp only
  rw [Exec.bind_of_ok hconstruct]
  rfl

/-- Rows that are too short are omitted. -/
theorem tableInterpreter_exact_codes : ∃ table,
    doExecute codeServices (Sheet.ofTexts [["a"], [], [""], ["b", "c"]]) (blockContext 0) =
        some (.ok (.ok table), blockContext 0) ∧
      IsInterpretation codeServices (blockContext 0)
        (boundColumns (fun _ => .Text) false
          (Sheet.ofTexts [["a"], [], [""], ["b", "c"]]).data [⟨"text", ⟨some 0, []⟩⟩])
        (dataRows false (Sheet.ofTexts [["a"], [], [""], ["b", "c"]]).data) table := by
  have hpresent : ColumnsPresent (Sheet.ofTexts [["a"], [], [""], ["b", "c"]]) false
      [⟨"text", ⟨some 0, []⟩⟩] := show (1 : ℤ) ≤ 2 by decide
  refine tableInterpreter_exact codeServices (blockContext 0) rfl _ rfl false
    [⟨"text", ⟨some 0, []⟩⟩] rfl rfl _ ?_ (List.nodup_singleton _) ?_ (by simp [boundColumns])
    hpresent ?_
  · rintro columnDefinition hmem
    obtain rfl := List.mem_singleton.mp hmem
    exact ⟨rfl, .Text, rfl⟩
  · intro columnDefinition hmem
    obtain rfl := List.mem_singleton.mp hmem
    decide
  · intro sheetRow _ columnEntry hmem text parsedValue _ _
    obtain rfl := List.mem_singleton.mp hmem
    cases parsedValue <;> exact ⟨_, _, rfl⟩

end TableInterpreterExecutor

end Jayvee
