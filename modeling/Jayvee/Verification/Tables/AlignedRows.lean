import Jayvee.Foundation.Deletion
import Jayvee.Verification.Tables.TransformRows

/-! # The table transformer keeps rows aligned -/

namespace Jayvee

open Foundation ExecutionContext

variable {δ : Type}

/-! ## Rectangular tables -/

namespace Table

/-- All columns have the height of the table. -/
def IsRectangular (this : Table) : Prop :=
  ∀ name column, this.getColumn name = some column → column.values.length = this.numberOfRows

variable {this : Table}

theorem IsRectangular.entry (h : this.IsRectangular) {entry : String × TableColumn}
    (hentry : entry ∈ this.columns.entries) : entry.2.values.length = this.numberOfRows :=
  h entry.1 entry.2 (JsMap.mem_entries_iff.mp hentry)

/-- A table is cloned column by column. -/
theorem clone_eq (h : this.IsRectangular) : this.clone = .ok this := by
  have hclone : ∀ (entries : List (String × TableColumn)) (cloned : Table),
      cloned.numberOfRows = this.numberOfRows →
      cloned.columns.entries ++ entries = this.columns.entries →
      entries.foldlM (fun cloned entry => cloned.addColumn entry.1 entry.2) cloned = .ok this := by
    intro entries
    induction entries with
    | nil =>
        intro cloned hrows hentries
        rw [List.append_nil] at hentries
        obtain ⟨numberOfRows, columns⟩ := cloned
        obtain rfl : columns = this.columns := JsMap.ext hentries
        obtain rfl : numberOfRows = this.numberOfRows := hrows
        rfl
    | cons entry entries ih =>
        intro cloned hrows hentries
        have hlength : entry.2.values.length = cloned.numberOfRows := by
          rw [hrows]
          exact h.entry (hentries ▸ List.mem_append_right _ List.mem_cons_self)
        have hnew : entry.1 ∉ cloned.columns.keys := by
          have hnodup := this.columns.nodup
          rw [← hentries, List.map_append, List.nodup_append] at hnodup
          intro hmem
          exact hnodup.2.2 entry.1 hmem entry.1 (by simp) rfl
        rw [List.foldlM_cons, addColumn_eq hlength]
        refine ih _ hrows ?_
        rw [JsMap.entries_set_of_not_mem hnew, List.append_assoc]
        exact hentries
  exact hclone this.columns.entries _ rfl (List.nil_append _)

/-! ## Dropped rows -/

def mapColumns (f : List Value → List Value) (columns : JsMap String TableColumn) :
    JsMap String TableColumn :=
  columns.mapValues fun column => { column with values := f column.values }

theorem mapColumns_mapColumns (f g : List Value → List Value)
    (columns : JsMap String TableColumn) :
    mapColumns f (mapColumns g columns) = mapColumns (fun values => f (g values)) columns := by
  apply JsMap.ext
  simp [mapColumns, JsMap.mapValues]

theorem dropRow_eq {rowId : Nat} (h : rowId < this.numberOfRows) :
    this.dropRow rowId = .ok {
      columns := mapColumns (fun values => JsArray.splice values rowId) this.columns
      numberOfRows := this.numberOfRows - 1 } := by
  simp [dropRow, assert, h, mapColumns]

theorem foldlM_dropRow_eq {rowIds : List Nat} (this : Table)
    (hlt : ∀ rowId ∈ rowIds, rowId < this.numberOfRows)
    (hdescending : rowIds.Pairwise (· > ·)) :
    rowIds.foldlM dropRow this = .ok {
      columns := mapColumns (fun values => JsArray.spliceAll values (rowIds.map Int.ofNat))
        this.columns
      numberOfRows := this.numberOfRows - rowIds.length } := by
  induction rowIds generalizing this with
  | nil =>
      have hsame : mapColumns (fun values => JsArray.spliceAll values []) this.columns =
          this.columns := by
        apply JsMap.ext
        simp [mapColumns, JsMap.mapValues, JsArray.spliceAll]
      rw [List.map_nil, hsame]
      rfl
  | cons rowId rowIds ih =>
      obtain ⟨hhead, htail⟩ := List.pairwise_cons.mp hdescending
      rw [List.forall_mem_cons] at hlt
      rw [List.foldlM_cons, dropRow_eq hlt.1, except_ok_bind, ih _ ?_ htail,
        mapColumns_mapColumns]
      · rw [List.length_cons, Nat.add_comm, ← Nat.sub_sub]
        rfl
      · intro other hother
        have hless := hhead other hother
        have hbound := hlt.1
        show other < this.numberOfRows - 1
        omega

theorem insertionSort_ascending {rowIds : List Nat} (h : rowIds.Pairwise (· < ·)) :
    rowIds.insertionSort (· ≥ ·) = rowIds.reverse := by
  have hreverse : rowIds.reverse.Pairwise (· ≥ ·) := by
    rw [List.pairwise_reverse]
    exact h.imp fun hlt => hlt.le
  exact ((List.perm_insertionSort (· ≥ ·) rowIds).trans rowIds.reverse_perm.symm).eq_of_pairwise'
    (List.pairwise_insertionSort (· ≥ ·) rowIds) hreverse

/-- The rows are dropped at once. -/
theorem dropRows_eq (h : this.IsRectangular) {rowIds : List Nat}
    (hascending : rowIds.Pairwise (· < ·)) (hlt : ∀ rowId ∈ rowIds, rowId < this.numberOfRows) :
    ∃ dropped, this.dropRows rowIds = .ok dropped ∧
      dropped.numberOfRows = this.numberOfRows - rowIds.length ∧
      dropped.columns.keys = this.columns.keys ∧
      ∀ name, dropped.getColumn name = (this.getColumn name).map fun column =>
        { column with values := JsArray.removeIndexes column.values (rowIds.map Int.ofNat) } := by
  have hdescending : rowIds.reverse.Pairwise (· > ·) := List.pairwise_reverse.mpr hascending
  have hltReverse : ∀ rowId ∈ rowIds.reverse, rowId < this.numberOfRows :=
    fun rowId hrowId => hlt rowId (List.mem_reverse.mp hrowId)
  rw [dropRows, insertionSort_ascending hascending,
    foldlM_dropRow_eq this hltReverse hdescending]
  refine ⟨_, rfl, by rw [List.length_reverse], ?_, fun name => ?_⟩
  · simp [mapColumns, JsMap.mapValues, JsMap.keys]
  · rw [getColumn, mapColumns, JsMap.get?_mapValues]
    refine Option.map_congr fun column hcolumn => ?_
    have hlength := h name column hcolumn
    have hsplice : JsArray.spliceAll column.values (rowIds.reverse.map Int.ofNat) =
        JsArray.removeIndexes column.values (rowIds.reverse.map Int.ofNat) := by
      refine JsArray.spliceAll_eq_removeIndexes ?_ ?_ ?_
      · simp
      · simpa [hlength] using hlt
      · exact List.pairwise_map.mpr (hdescending.imp fun hgt => by simpa using hgt)
    rw [hsplice]
    congr 1
    exact JsArray.removeIndexes_congr fun i => by simp

end Table

/-! ## Rows that are kept -/

section Kept

variable {keep : Nat → Option Value} {numberOfRows : Nat}

def keptRows (keep : Nat → Option Value) (numberOfRows : Nat) : List Nat :=
  (List.range numberOfRows).filter fun i => (keep i).isSome

/-- The values of a column in the rows that are kept. -/
def keptValues (keep : Nat → Option Value) (numberOfRows : Nat) (values : List Value) :
    List Value :=
  (keptRows keep numberOfRows).filterMap fun i => values[i]?

theorem filterMap_keptRows (keep : Nat → Option Value) (numberOfRows : Nat) :
    (List.range numberOfRows).filterMap keep = (keptRows keep numberOfRows).filterMap keep := by
  rw [keptRows, List.filterMap_filter]
  refine List.filterMap_congr fun i _ => ?_
  cases keep i <;> rfl

theorem length_filterMap_keptRows (keep : Nat → Option Value) (numberOfRows : Nat) :
    ((keptRows keep numberOfRows).filterMap keep).length = (keptRows keep numberOfRows).length := by
  rw [List.filterMap_length_eq_length]
  exact fun i hi => (List.mem_filter.mp hi).2

theorem length_keptRows (outputDetails : PortDetails) (keep : Nat → Option Value)
    (numberOfRows : Nat) : (keptRows keep numberOfRows).length +
      (TransformExecutor.keptResult outputDetails keep numberOfRows).rowsToDelete.length =
        numberOfRows := by
  have hsplit : (List.range numberOfRows).length = _ :=
    List.length_eq_length_filter_add fun i => (keep i).isSome
  simp only [List.length_range, Option.not_isSome] at hsplit
  exact hsplit.symm

theorem rowsToDelete_ascending (outputDetails : PortDetails) (keep : Nat → Option Value)
    (numberOfRows : Nat) : (TransformExecutor.keptResult outputDetails keep
      numberOfRows).rowsToDelete.Pairwise (· < ·) :=
  List.pairwise_lt_range.filter _

theorem removeIndexes_rowsToDelete (outputDetails : PortDetails) {values : List Value}
    (h : values.length = numberOfRows) :
    JsArray.removeIndexes values ((TransformExecutor.keptResult outputDetails keep
      numberOfRows).rowsToDelete.map Int.ofNat) = keptValues keep numberOfRows values := by
  rw [JsArray.removeIndexes_eq_filterMap, keptValues, keptRows, h]
  congr 1
  refine List.filter_congr fun i hi => ?_
  have hlt := List.mem_range.mp hi
  cases hvalue : keep i <;> simp [TransformExecutor.keptResult, hvalue, hlt]

end Kept

namespace TableTransformerExecutor

variable {inputTable : Table} {keep : Nat → Option Value} {outputDetails : PortDetails}

/-- The table of the rows that are kept: the output column has the values of the rows, each other
column is cut to them. -/
structure IsOutputTable (inputTable : Table) (keep : Nat → Option Value)
    (outputDetails : PortDetails) (outputColumnName : String) (outputTable : Table) : Prop where
  numberOfRows : outputTable.numberOfRows = (keptRows keep inputTable.numberOfRows).length
  outputColumn : outputTable.getColumn outputColumnName = some
    ⟨(keptRows keep inputTable.numberOfRows).filterMap keep, outputDetails.valueType⟩
  otherColumns : ∀ name, name ≠ outputColumnName →
    outputTable.getColumn name = (inputTable.getColumn name).map fun column =>
      { column with values := keptValues keep inputTable.numberOfRows column.values }
  columnNames : outputTable.columns.keys =
    if outputColumnName ∈ inputTable.columns.keys then inputTable.columns.keys
    else inputTable.columns.keys ++ [outputColumnName]

theorem createOutputTable_eq (h : inputTable.IsRectangular) (outputColumnName : String) :
    ∃ outputTable, createOutputTable inputTable
        (TransformExecutor.keptResult outputDetails keep inputTable.numberOfRows)
        outputColumnName = .ok outputTable ∧
      IsOutputTable inputTable keep outputDetails outputColumnName outputTable := by
  have hlt : ∀ rowId ∈ (TransformExecutor.keptResult outputDetails keep
      inputTable.numberOfRows).rowsToDelete, rowId < inputTable.numberOfRows :=
    fun rowId hrowId => List.mem_range.mp (List.mem_filter.mp hrowId).1
  have hcount := length_keptRows outputDetails keep inputTable.numberOfRows
  obtain ⟨dropped, hdropped, hrows, hkeys, hcolumns⟩ :=
    Table.dropRows_eq h (rowsToDelete_ascending outputDetails keep _) hlt
  have hnumber : dropped.numberOfRows = (keptRows keep inputTable.numberOfRows).length := by
    omega
  have hlength : (TransformExecutor.keptResult outputDetails keep
      inputTable.numberOfRows).resultingColumn.values.length = dropped.numberOfRows := by
    rw [hnumber, ← length_filterMap_keptRows, ← filterMap_keptRows]
    rfl
  rw [createOutputTable, Table.clone_eq h, except_ok_bind, hdropped, except_ok_bind,
    Table.addColumn_eq hlength]
  refine ⟨_, rfl, hnumber, ?_, fun name hname => ?_, ?_⟩
  · rw [Table.getColumn, JsMap.get?_set, if_pos rfl, ← filterMap_keptRows]
    rfl
  · rw [Table.getColumn, JsMap.get?_set, if_neg hname, ← Table.getColumn, hcolumns]
    refine Option.map_congr fun column hcolumn => ?_
    rw [removeIndexes_rowsToDelete outputDetails (h name column hcolumn)]
  · rw [← hkeys]
    exact JsMap.keys_setEntry outputColumnName _ dropped.columns.entries

end TableTransformerExecutor

end Jayvee
