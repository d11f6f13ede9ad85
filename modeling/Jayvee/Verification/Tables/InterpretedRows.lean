import Jayvee.Verification.Tables.Interpreter

/-! # What the table interpreter reads from a sheet -/

namespace Jayvee

open Foundation ExecutionContext

variable {δ : Type}

namespace TableInterpreterExecutor

/-! ## Bound columns -/

/-- The type of each defined column can be wrapped, and its chain of supertypes has an end. -/
def ColumnsTyped (ast : Ast) (valueTypes : ValuetypeAssignment → ValueType)
    (columnDefinitions : List ValuetypeAssignment) : Prop :=
  ∀ columnDefinition ∈ columnDefinitions,
    ValueType.wrap ast (some columnDefinition.type) =
        .ok (some (valueTypes columnDefinition)) ∧
      ∃ root, ValueType.HasRoot ast (ValueType.hierarchyDepth ast)
        (valueTypes columnDefinition) root

def bindColumn (valueTypes : ValuetypeAssignment → ValueType)
    (columnDefinition : ValuetypeAssignment) (sheetColumnIndex : Nat) : ColumnDefinitionEntry :=
  ⟨sheetColumnIndex, columnDefinition.name, valueTypes columnDefinition, columnDefinition⟩

/-- With a header, a column is bound to the first cell of the header that has its name, without
one to the cell at its position. -/
def boundColumns (valueTypes : ValuetypeAssignment → ValueType) (header : Bool)
    (data : List (List (Option String))) (columnDefinitions : List ValuetypeAssignment) :
    List ColumnDefinitionEntry :=
  if header then
    columnDefinitions.filterMap fun columnDefinition =>
      ((data.headD []).findIdx? fun headerColumnName =>
        headerColumnName = some columnDefinition.name).map (bindColumn valueTypes columnDefinition)
  else
    columnDefinitions.zipIdx.map fun entry => bindColumn valueTypes entry.1 entry.2

def dataRows (header : Bool) (data : List (List (Option String))) :
    List (List (Option String)) :=
  if header then data.tail else data

section Columns

variable {services : ExecutionServices} {valueTypes : ValuetypeAssignment → ValueType}
  {columnDefinitions : List ValuetypeAssignment}

theorem createEntry_eq {columnDefinition : ValuetypeAssignment} (sheetColumnIndex : Nat)
    (h : ValueType.wrap services.ast (some columnDefinition.type) =
      .ok (some (valueTypes columnDefinition))) :
    createEntry services columnDefinition sheetColumnIndex =
      .ok (bindColumn valueTypes columnDefinition sheetColumnIndex) := by
  rw [createEntry, h]
  rfl

theorem deriveFromHeader_eq (headerRow : List (Option String))
    (htyped : ColumnsTyped services.ast valueTypes columnDefinitions) :
    deriveColumnDefinitionEntriesFromHeader services headerRow columnDefinitions =
      .ok (columnDefinitions.filterMap fun columnDefinition =>
        (headerRow.findIdx? fun headerColumnName =>
          headerColumnName = some columnDefinition.name).map
            (bindColumn valueTypes columnDefinition)) := by
  induction columnDefinitions with
  | nil => rfl
  | cons columnDefinition columnDefinitions ih =>
      rw [ColumnsTyped, List.forall_mem_cons] at htyped
      rw [deriveColumnDefinitionEntriesFromHeader, List.filterMap_cons]
      cases hindex : headerRow.findIdx? fun headerColumnName =>
          headerColumnName = some columnDefinition.name with
      | none => exact ih htyped.2
      | some indexOfMatchingHeader =>
          dsimp only [Option.map_some]
          rw [createEntry_eq indexOfMatchingHeader htyped.1.1, except_ok_bind, ih htyped.2]
          rfl

theorem deriveWithoutHeader_eq
    (htyped : ColumnsTyped services.ast valueTypes columnDefinitions) :
    deriveColumnDefinitionEntriesWithoutHeader services columnDefinitions =
      .ok (columnDefinitions.zipIdx.map fun entry => bindColumn valueTypes entry.1 entry.2) := by
  have hentries : ∀ entries : List (ValuetypeAssignment × Nat),
      (∀ entry ∈ entries, entry.1 ∈ columnDefinitions) →
      (entries.mapM fun entry => createEntry services entry.1 entry.2) =
        .ok (entries.map fun entry => bindColumn valueTypes entry.1 entry.2) := by
    intro entries
    induction entries with
    | nil => exact fun _ => rfl
    | cons entry entries ih =>
        intro hmem
        rw [List.forall_mem_cons] at hmem
        rw [List.mapM_cons, createEntry_eq entry.2 (htyped entry.1 hmem.1).1, except_ok_bind,
          ih hmem.2]
        rfl
  exact hentries _ fun entry hentry => List.fst_mem_of_mem_zipIdx hentry

/-- The bound columns are defined columns. -/
theorem mem_boundColumns {header : Bool} {data : List (List (Option String))}
    {columnEntry : ColumnDefinitionEntry}
    (h : columnEntry ∈ boundColumns valueTypes header data columnDefinitions) :
    ∃ columnDefinition ∈ columnDefinitions, ∃ sheetColumnIndex,
      columnEntry = bindColumn valueTypes columnDefinition sheetColumnIndex := by
  rw [boundColumns] at h
  split at h
  · obtain ⟨columnDefinition, hmem, hindex⟩ := List.mem_filterMap.mp h
    obtain ⟨sheetColumnIndex, _, hentry⟩ := Option.map_eq_some_iff.mp hindex
    exact ⟨columnDefinition, hmem, sheetColumnIndex, hentry.symm⟩
  · obtain ⟨entry, hmem, hentry⟩ := List.mem_map.mp h
    exact ⟨entry.1, List.fst_mem_of_mem_zipIdx hmem, entry.2, hentry.symm⟩

theorem boundColumns_names_sublist (valueTypes : ValuetypeAssignment → ValueType)
    (header : Bool) (data : List (List (Option String)))
    (columnDefinitions : List ValuetypeAssignment) :
    ((boundColumns valueTypes header data columnDefinitions).map
      ColumnDefinitionEntry.columnName).Sublist
        (columnDefinitions.map ValuetypeAssignment.name) := by
  cases header with
  | true =>
      simp only [boundColumns, if_true]
      induction columnDefinitions with
      | nil => exact .slnil
      | cons columnDefinition columnDefinitions ih =>
          rw [List.filterMap_cons]
          cases (data.headD []).findIdx? fun headerColumnName =>
              headerColumnName = some columnDefinition.name with
          | none => exact ih.cons _
          | some indexOfMatchingHeader => exact ih.cons_cons _
  | false =>
      have hnames : (boundColumns valueTypes false data columnDefinitions).map
          ColumnDefinitionEntry.columnName = columnDefinitions.map ValuetypeAssignment.name := by
        simp only [boundColumns, Bool.false_eq_true, if_false]
        conv_rhs => rw [← List.zipIdx_map_fst 0 columnDefinitions, List.map_map]
        exact List.map_map
      rw [hnames]

end Columns

/-! ## Cells -/

/-- The value of the cell of a bound column, if the cell exists, can be parsed and is valid. -/
def cellValue (services : ExecutionServices) (context : ExecutionContext δ)
    (sheetRow : List (Option String)) (columnEntry : ColumnDefinitionEntry) : Option Value :=
  match sheetRow[columnEntry.sheetColumnIndex]?.join with
  | none => none
  | some text =>
      match parseValueToInternalRepresentation services.runtime services.ast text columnEntry.valueType with
      | .ok (some parsedValue) =>
          match isValidValueRepresentation services parsedValue columnEntry.valueType context with
          | some (.ok true, _) => some parsedValue
          | _ => none
      | _ => none

/-- No constraint raises an error on a parsed cell. -/
def CellsChecked (services : ExecutionServices) (context : ExecutionContext δ)
    (columnEntries : List ColumnDefinitionEntry) (sheetRow : List (Option String)) : Prop :=
  ∀ columnEntry ∈ columnEntries, ∀ text parsedValue,
    sheetRow[columnEntry.sheetColumnIndex]?.join = some text →
    parseValueToInternalRepresentation services.runtime services.ast text columnEntry.valueType =
      .ok (some parsedValue) →
    ∃ isValid after, isValidValueRepresentation services parsedValue columnEntry.valueType
      context = some (.ok isValid, after)

section Cells

variable {services : ExecutionServices} {context : ExecutionContext δ}
  {sheetRow : List (Option String)} {columnEntry : ColumnDefinitionEntry}

/-- Parsing never raises an error for a type whose supertypes have an end. -/
theorem parseValue_eq_ok {runtime : JsRuntime} {ast : Ast} {T root : ValueType}
    (hroot : ValueType.HasRoot ast (ValueType.hierarchyDepth ast) T root) (text : String) :
    ∃ parsedValue, parseValueToInternalRepresentation runtime ast text T = .ok parsedValue := by
  have hself : root.getPrimitive ast = .ok (some root) := ValueType.HasRoot.self hroot.own
  have hanswer : ∀ {parsedValue : Option Value}, _ = some parsedValue →
      internalRepresentationParserVisitor runtime ast text T = .ok parsedValue :=
    fun h => ValueType.askSupertypes_of_root (fun _ => rfl) hroot h
  rw [parseValueToInternalRepresentation]
  cases root with
  | atomic astNode => cases hroot.own
  | emptyCollection | collection elementType =>
      rw [hanswer rfl]
      exact ⟨none, rfl⟩
  | primitive kind =>
      rw [hanswer rfl, except_ok_bind]
      cases kind.fromString runtime.nearest text with
      | none => exact ⟨none, rfl⟩
      | some result =>
          obtain ⟨isRepresentation, hcheck⟩ : ∃ isRepresentation,
              (ValueType.primitive kind).isInternalValueRepresentation ast result =
                .ok isRepresentation := by
            cases result <;> exact ⟨_, rfl⟩
          dsimp only
          rw [ValueType.isInternalValueRepresentation_congr (hroot.trans hself.symm), hcheck]
          cases isRepresentation <;> exact ⟨_, rfl⟩

theorem parseAndValidateValue_eq
    (hkeyword : context.evaluationContext.valueKeywordValue = none)
    {root : ValueType} (hroot : ValueType.HasRoot services.ast
      (ValueType.hierarchyDepth services.ast) columnEntry.valueType root)
    (hchecked : ∀ text parsedValue,
      sheetRow[columnEntry.sheetColumnIndex]?.join = some text →
      parseValueToInternalRepresentation services.runtime services.ast text columnEntry.valueType =
        .ok (some parsedValue) →
      ∃ isValid after, isValidValueRepresentation services parsedValue columnEntry.valueType
        context = some (.ok isValid, after)) :
    parseAndValidateValue services sheetRow[columnEntry.sheetColumnIndex]?.join
      columnEntry.valueType context =
        some (.ok (cellValue services context sheetRow columnEntry), context) := by
  rw [cellValue, parseAndValidateValue]
  cases hcell : sheetRow[columnEntry.sheetColumnIndex]?.join with
  | none =>
      have hmissing : parseCell services none columnEntry.valueType = .ok none :=
        ValueType.askSupertypes_of_root (fun _ => rfl) hroot (by
          cases root with
          | atomic astNode => cases hroot.own
          | _ => rfl)
      rw [hmissing]
      rfl
  | some text =>
      obtain ⟨parsedValue, hparsed⟩ := parseValue_eq_ok hroot text
      have hcellParsed : parseCell services (some text) columnEntry.valueType = .ok parsedValue :=
        hparsed
      rw [hcellParsed, Exec.bind_of_ok (Exec.ofExcept_apply _ _)]
      simp only [hparsed]
      cases parsedValue with
      | none => rfl
      | some parsedValue =>
          obtain ⟨isValid, after, hvalid⟩ := hchecked text parsedValue hcell hparsed
          obtain rfl := visitValueRepresentation_eq_ok hkeyword hvalid
          simp only [hvalid]
          refine (Exec.bind_of_ok hvalid).trans ?_
          cases isValid <;> rfl

theorem cellValue_eq_some_iff {value : Value} :
    cellValue services context sheetRow columnEntry = some value ↔
      ∃ text, sheetRow[columnEntry.sheetColumnIndex]?.join = some text ∧
        parseValueToInternalRepresentation services.runtime services.ast text columnEntry.valueType =
          .ok (some value) ∧
        ∃ after, isValidValueRepresentation services value columnEntry.valueType context =
          some (.ok true, after) := by
  constructor
  · intro h
    unfold cellValue at h
    split at h
    · cases h
    · rename_i text htext
      split at h
      · rename_i parsedValue hparsed
        split at h
        · rename_i after hvalid
          cases h
          exact ⟨text, htext, hparsed, after, hvalid⟩
        · cases h
      · cases h
  · rintro ⟨text, htext, hparsed, after, hvalid⟩
    unfold cellValue
    simp only [htext, hparsed, hvalid]

/-- The value of a cell is a value of the type of the column. -/
theorem hasType_of_cellValue {value : Value}
    (h : cellValue services context sheetRow columnEntry = some value) :
    columnEntry.valueType.HasType services.ast value := by
  unfold cellValue at h
  split at h
  · cases h
  · split at h
    · rename_i parsedValue hparsed
      split at h
      · cases h
        obtain ⟨result, _, hparsed⟩ := except_bind_eq_ok_iff.mp hparsed
        cases result with
        | none => cases hparsed
        | some result =>
            obtain ⟨isRepresentation, hcheck, hparsed⟩ := except_bind_eq_ok_iff.mp hparsed
            cases isRepresentation with
            | false => cases hparsed
            | true =>
                cases hparsed
                exact hcheck
      · cases h
    · cases h

end Cells

/-! ## Rows -/

section Rows

variable {services : ExecutionServices} {context : ExecutionContext δ}
  {sheetRow : List (Option String)} {columnEntry : ColumnDefinitionEntry}
  {columnEntries : List ColumnDefinitionEntry}

/-- Every bound cell of the row exists, can be parsed and is valid. -/
def isKept (services : ExecutionServices) (context : ExecutionContext δ)
    (columnEntries : List ColumnDefinitionEntry) (sheetRow : List (Option String)) : Bool :=
  columnEntries.all fun columnEntry => (cellValue services context sheetRow columnEntry).isSome

/-- The types of the columns have a root, and no constraint raises an error on their cells. -/
structure RowChecked (services : ExecutionServices) (context : ExecutionContext δ)
    (columnEntries : List ColumnDefinitionEntry) (sheetRow : List (Option String)) : Prop where
  roots : ∀ columnEntry ∈ columnEntries, ∃ root, ValueType.HasRoot services.ast
    (ValueType.hierarchyDepth services.ast) columnEntry.valueType root
  cells : CellsChecked services context columnEntries sheetRow

theorem RowChecked.tail (h : RowChecked services context (columnEntry :: columnEntries) sheetRow) :
    RowChecked services context columnEntries sheetRow :=
  ⟨fun other hother => h.roots other (List.mem_cons_of_mem _ hother),
    fun other hother => h.cells other (List.mem_cons_of_mem _ hother)⟩

theorem RowChecked.head (h : RowChecked services context (columnEntry :: columnEntries) sheetRow)
    (hkeyword : context.evaluationContext.valueKeywordValue = none) :
    parseAndValidateValue services sheetRow[columnEntry.sheetColumnIndex]?.join
      columnEntry.valueType context =
        some (.ok (cellValue services context sheetRow columnEntry), context) := by
  obtain ⟨root, hroot⟩ := h.roots columnEntry List.mem_cons_self
  exact parseAndValidateValue_eq hkeyword hroot (h.cells columnEntry List.mem_cons_self)

/-- The row has the values of the valid cells, each under the name of its column. -/
theorem fillTableRow_eq (hkeyword : context.evaluationContext.valueKeywordValue = none)
    (hchecked : RowChecked services context columnEntries sheetRow)
    (hnodup : (columnEntries.map ColumnDefinitionEntry.columnName).Nodup)
    (hproto : ∀ columnEntry ∈ columnEntries, columnEntry.columnName ≠ "__proto__")
    (invalidRow : Bool) (tableRow : TableRow)
    (hfresh : ∀ columnEntry ∈ columnEntries, columnEntry.columnName ∉ tableRow.keys) :
    ∃ filled, fillTableRow services sheetRow columnEntries invalidRow tableRow context =
        some (.ok (invalidRow || !isKept services context columnEntries sheetRow, filled),
          context) ∧
      filled.entries = tableRow.entries ++ columnEntries.filterMap fun columnEntry =>
        (cellValue services context sheetRow columnEntry).map fun value =>
          (columnEntry.columnName, value) := by
  induction columnEntries generalizing invalidRow tableRow with
  | nil => exact ⟨tableRow, by simp [fillTableRow, isKept], by simp⟩
  | cons columnEntry columnEntries ih =>
      rw [List.map_cons, List.nodup_cons] at hnodup
      rw [List.forall_mem_cons] at hproto hfresh
      rw [fillTableRow, Exec.bind_of_ok (hchecked.head hkeyword)]
      cases hvalue : cellValue services context sheetRow columnEntry with
      | none =>
          obtain ⟨filled, hfilled, hentries⟩ :=
            ih hchecked.tail hnodup.2 hproto.2 true tableRow hfresh.2
          refine ⟨filled, hfilled.trans ?_, ?_⟩
          · simp [isKept, hvalue]
          · simp [hentries, hvalue]
      | some value =>
          have hassign : tableRow.assign columnEntry.columnName value =
              tableRow.set columnEntry.columnName value := if_neg hproto.1
          have hset : (tableRow.assign columnEntry.columnName value).entries =
              tableRow.entries ++ [(columnEntry.columnName, value)] := by
            rw [hassign, JsMap.entries_set_of_not_mem hfresh.1]
          have hfresh' : ∀ other ∈ columnEntries,
              other.columnName ∉ (tableRow.assign columnEntry.columnName value).keys := by
            intro other hother
            rw [JsMap.keys, hset, List.map_append, List.mem_append, not_or]
            refine ⟨hfresh.2 other hother, fun hmem => hnodup.1 ?_⟩
            have hsame : other.columnName = columnEntry.columnName := List.mem_singleton.mp hmem
            exact hsame ▸ List.mem_map_of_mem hother
          obtain ⟨filled, hfilled, hentries⟩ :=
            ih hchecked.tail hnodup.2 hproto.2 invalidRow _ hfresh'
          refine ⟨filled, hfilled.trans ?_, ?_⟩
          · simp [isKept, hvalue]
          · simp [hentries, hset, hvalue]

/-- A row that is kept has a value for each bound column. -/
theorem constructAndValidateTableRow_eq
    (hkeyword : context.evaluationContext.valueKeywordValue = none)
    (hchecked : RowChecked services context columnEntries sheetRow)
    (hnodup : (columnEntries.map ColumnDefinitionEntry.columnName).Nodup)
    (hproto : ∀ columnEntry ∈ columnEntries, columnEntry.columnName ≠ "__proto__") :
    ∃ tableRow, constructAndValidateTableRow services sheetRow columnEntries context =
        some (.ok (if isKept services context columnEntries sheetRow then some tableRow else none),
          context) ∧
      tableRow.entries = columnEntries.filterMap fun columnEntry =>
        (cellValue services context sheetRow columnEntry).map fun value =>
          (columnEntry.columnName, value) := by
  obtain ⟨tableRow, hfill, hentries⟩ := fillTableRow_eq hkeyword hchecked hnodup hproto false
    .empty fun _ _ => List.not_mem_nil
  refine ⟨tableRow, ?_, hentries⟩
  rw [constructAndValidateTableRow, Exec.bind_of_ok hfill]
  cases hkept : isKept services context columnEntries sheetRow with
  | false => rfl
  | true =>
      have hsize : tableRow.size = columnEntries.length := by
        rw [JsMap.size, hentries]
        refine List.filterMap_length_eq_length.mpr fun columnEntry hmem => ?_
        rw [Option.isSome_map]
        exact List.all_eq_true.mp hkept columnEntry hmem
      have hassert : assert (tableRow.size = columnEntries.length) = .ok () := by
        simp [assert, hsize]
      simp only [hassert]
      rfl

end Rows

end TableInterpreterExecutor

end Jayvee
