import Jayvee.Verification.Tables.AlignedRows
import Jayvee.Verification.Tables.FailedRows
import Jayvee.Verification.Tables.InsertedRows

/-! # Tables as lists of rows

The values are stored column by column. Each operation is one on the list of the rows. -/

namespace Jayvee

open Foundation

namespace Table

variable {ast : Ast} {this next : Table} {name : String} {column : TableColumn} {rowId : Nat}

/-! ## Rows -/

/-- The values in a row, by the names of their columns. -/
def rowAt (this : Table) (rowId : Nat) (name : String) : Option Value :=
  (this.getColumn name).bind fun column => column.values[rowId]?

def rows (this : Table) : List (String → Option Value) :=
  (List.range this.numberOfRows).map this.rowAt

@[simp]
theorem length_rows (this : Table) : this.rows.length = this.numberOfRows := by
  rw [rows, List.length_map, List.length_range]

theorem getElem?_rows (h : rowId < this.numberOfRows) : this.rows[rowId]? = some (this.rowAt rowId) := by
  rw [rows, List.getElem?_map, List.getElem?_range h, Option.map_some]

/-- Rows are equal if they are at each index. -/
theorem rows_eq {rows : List (String → Option Value)} (hlength : rows.length = this.numberOfRows)
    (h : ∀ rowId < this.numberOfRows, rows[rowId]? = some (this.rowAt rowId)) : this.rows = rows := by
  refine List.ext_getElem? fun rowId => ?_
  by_cases hlt : rowId < this.numberOfRows
  · rw [getElem?_rows hlt, h rowId hlt]
  · rw [List.getElem?_eq_none (by simpa using hlt), List.getElem?_eq_none (by omega)]

theorem rows_construct (numberOfRows : Nat) :
    (construct numberOfRows).rows = List.replicate numberOfRows fun _ => none := by
  refine rows_eq List.length_replicate fun rowId hrowId => ?_
  have hlt : rowId < numberOfRows := hrowId
  rw [List.getElem?_replicate, if_pos hlt]
  rfl

/-! ## One operation -/

theorem isRectangular_iff_wellFormed : this.IsRectangular ↔ this.WellFormed fun _ _ => True := by
  constructor
  · intro h name column hcolumn
    exact ⟨h name column hcolumn, fun _ _ => trivial⟩
  · intro h name column hcolumn
    exact (h name column hcolumn).length

theorem IsRectangular.perform (h : this.IsRectangular) {operation : TableOperation}
    (hperform : this.perform ast operation = .ok next) : next.IsRectangular := by
  rw [isRectangular_iff_wellFormed] at h ⊢
  cases operation with
  | addColumn name column => exact h.addColumn hperform fun _ _ => trivial
  | addRow row => exact h.addRow hperform fun _ _ _ _ _ => trivial
  | dropRow rowId => exact h.dropRow hperform
  | dropRows rowIds => exact h.dropRows hperform
  | clone => exact h.clone hperform

theorem rows_addColumn (h : this.addColumn name column = .ok next) :
    next.rows = List.zipWith (fun row value => Function.update row name (some value)) this.rows
      column.values := by
  obtain ⟨hlength, rfl⟩ := addColumn_eq_ok h
  refine rows_eq ?_ fun rowId hrowId => ?_
  · rw [List.length_zipWith, length_rows, hlength, Nat.min_self]
  · have hlt : rowId < this.numberOfRows := hrowId
    have hvalue : rowId < column.values.length := by rwa [hlength]
    rw [List.getElem?_zipWith, getElem?_rows hlt, List.getElem?_eq_getElem hvalue]
    refine congrArg some (funext fun other => ?_)
    rw [rowAt, getColumn, JsMap.get?_set]
    by_cases hname : other = name
    · simp [hname, hvalue]
    · simp [hname, rowAt, getColumn]

section AddRow

variable {row : TableRow} {columns : JsMap String TableColumn}

/-- The rows before the added one stay. -/
theorem rowAt_pushed_of_lt (hrectangular : this.IsRectangular) (numberOfRows : Nat)
    (hpushed : row.entries.foldlM (pushValue ast) this.columns = .ok columns)
    (hlt : rowId < this.numberOfRows) :
    rowAt { numberOfRows, columns } rowId = this.rowAt rowId := by
  funext name
  rw [rowAt, rowAt, getColumn, getColumn, pushValues_get? row.nodup hpushed]
  cases hcolumn : this.columns.get? name with
  | none => rfl
  | some column =>
      have hlength : rowId < column.values.length := (hrectangular name column hcolumn).symm ▸ hlt
      simp [pushed, List.getElem?_append_left hlength]

/-- The added row has the values of its entries. -/
theorem rowAt_pushed (hrectangular : this.IsRectangular) (numberOfRows : Nat)
    (hfits : this.FitsColumns row)
    (hpushed : row.entries.foldlM (pushValue ast) this.columns = .ok columns) :
    rowAt { numberOfRows, columns } this.numberOfRows = row.get? := by
  funext name
  rw [rowAt, getColumn, pushValues_get? row.nodup hpushed]
  cases hcolumn : this.columns.get? name with
  | none =>
      rw [Option.map_none, Option.bind_none]
      by_contra hvalue
      obtain ⟨value, hvalue⟩ := Option.ne_none_iff_exists'.mp (Ne.symm hvalue)
      have hhas := hfits.2 name (JsMap.mem_keys_of_get? hvalue)
      obtain ⟨column, hsome⟩ := JsMap.exists_get?_of_mem_keys (of_decide_eq_true hhas)
      cases hcolumn.symm.trans hsome
  | some column =>
      have hlength : column.values.length = this.numberOfRows := hrectangular name column hcolumn
      rw [Option.map_some, Option.bind_some, pushed, ← hlength,
        List.getElem?_append_right (Nat.le_refl _), Nat.sub_self]
      show (row.get? name).toList[0]? = row.get? name
      cases row.get? name <;> rfl

theorem rows_addRow (hrectangular : this.IsRectangular) (hcolumns : 0 < this.columns.size)
    (h : this.addRow ast row = .ok next) : next.rows = this.rows ++ [row.get?] := by
  have hfits : this.FitsColumns row := by
    by_contra hnot
    exact addRow_of_not_fits hnot h
  have hsome : row.size ≠ 0 := by
    rw [hfits.1]
    omega
  obtain ⟨columns, hpushed, rfl⟩ := (addRow_of_fits hfits hsome).mp h
  refine rows_eq (by simp) fun rowId hrowId => ?_
  have hlt : rowId < this.numberOfRows + 1 := hrowId
  rw [List.getElem?_append, length_rows]
  split
  · rename_i hold
    rw [getElem?_rows hold, rowAt_pushed_of_lt hrectangular _ hpushed hold]
  · rename_i hnew
    obtain rfl : rowId = this.numberOfRows := by omega
    rw [Nat.sub_self, List.getElem?_cons_zero, rowAt_pushed hrectangular _ hfits hpushed]

end AddRow

theorem rowAt_mapColumns (f : List Value → List Value) (columns : JsMap String TableColumn)
    (numberOfRows rowId : Nat) (name : String) :
    rowAt { numberOfRows, columns := mapColumns f columns } rowId name =
      (columns.get? name).bind fun column => (f column.values)[rowId]? := by
  rw [rowAt, getColumn, mapColumns, JsMap.get?_mapValues]
  cases columns.get? name <;> rfl

theorem rows_dropRow (h : this.dropRow rowId = .ok next) :
    next.rows = this.rows.eraseIdx rowId := by
  obtain ⟨_, hbound, _⟩ := except_bind_eq_ok_iff.mp h
  have hlt : rowId < this.numberOfRows := by simpa [assert_eq_ok] using hbound
  cases h.symm.trans (dropRow_eq hlt)
  refine rows_eq ?_ fun other hother => ?_
  · rw [List.length_eraseIdx_of_lt (by simpa using hlt), length_rows]
  · have hless : other < this.numberOfRows - 1 := hother
    rw [List.getElem?_eraseIdx]
    split
    · rename_i hbefore
      rw [getElem?_rows (by omega)]
      refine congrArg some (funext fun name => ?_)
      simp only [rowAt_mapColumns, JsArray.splice_natCast, List.getElem?_eraseIdx, if_pos hbefore]
      rfl
    · rename_i hbehind
      rw [getElem?_rows (by omega)]
      refine congrArg some (funext fun name => ?_)
      simp only [rowAt_mapColumns, JsArray.splice_natCast, List.getElem?_eraseIdx, if_neg hbehind]
      rfl

theorem rows_foldlM_dropRow {rowIds : List Nat} (h : rowIds.foldlM dropRow this = .ok next) :
    next.rows = rowIds.foldl List.eraseIdx this.rows := by
  induction rowIds generalizing this with
  | nil =>
      cases h
      rfl
  | cons rowId rowIds ih =>
      rw [List.foldlM_cons] at h
      obtain ⟨between, hdrop, h⟩ := except_bind_eq_ok_iff.mp h
      rw [ih h, rows_dropRow hdrop, List.foldl_cons]

/-! ## Several rows at once -/

theorem descending_insertionSort {rowIds : List Nat} (hnodup : rowIds.Nodup) :
    (rowIds.insertionSort (· ≥ ·)).Pairwise (· > ·) := by
  have hsorted := List.pairwise_insertionSort (· ≥ ·) rowIds
  have hdistinct := (List.perm_insertionSort (· ≥ ·) rowIds).nodup_iff.mpr hnodup
  exact (hsorted.and hdistinct).imp fun hge => by omega

/-- The rows that had the ids before the call are dropped. -/
theorem rows_dropRows {rowIds : List Nat} (hnodup : rowIds.Nodup)
    (hvalid : ∀ rowId ∈ rowIds, rowId < this.numberOfRows) :
    ∃ dropped, this.dropRows rowIds = .ok dropped ∧
      dropped.rows = JsArray.removeIndexes this.rows (rowIds.map Int.ofNat) := by
  have hdescending := descending_insertionSort hnodup
  have hsorted : ∀ rowId ∈ rowIds.insertionSort (· ≥ ·), rowId < this.numberOfRows :=
    fun rowId hmem => hvalid rowId ((List.mem_insertionSort _).mp hmem)
  have hdrop := foldlM_dropRow_eq this hsorted hdescending
  refine ⟨_, hdrop, ?_⟩
  rw [rows_foldlM_dropRow hdrop, ← JsArray.spliceAll_natCast,
    JsArray.spliceAll_eq_removeIndexes (by simp) (by simpa using hvalid)]
  · exact JsArray.removeIndexes_congr fun i => by simp
  · exact List.pairwise_map.mpr (hdescending.imp fun hgt => by simpa using hgt)

/-! ## Reading a row -/

theorem getRow_eq (hrectangular : this.IsRectangular) (h : rowId < this.numberOfRows) :
    ∃ row, this.getRow rowId = .ok row ∧ row.get? = this.rowAt rowId := by
  have hlength : ∀ entry ∈ this.columns.entries, rowId < entry.2.values.length :=
    fun entry hentry => (hrectangular.entry hentry).symm ▸ h
  obtain ⟨row, hrow, hentries⟩ := getRow_entries hlength h
  refine ⟨row, hrow, funext fun name => ?_⟩
  have hget : row.get? name = (this.getColumn name).map fun column => cell column rowId := by
    rw [JsMap.get?, hentries]
    exact JsMap.lookup_map_snd (fun column => cell column rowId) this.columns.entries
  rw [hget, rowAt]
  cases hcolumn : this.getColumn name with
  | none => rfl
  | some column =>
      have hvalue : rowId < column.values.length := (hrectangular name column hcolumn).symm ▸ h
      exact (cell_eq hvalue).symm

/-! ## Runs -/

/-- What an operation does to the rows. Rows are dropped one after the other, the last one first. -/
def performOnRows (rows : List (String → Option Value)) :
    TableOperation → List (String → Option Value)
  | .addColumn name column =>
      List.zipWith (fun row value => Function.update row name (some value)) rows column.values
  | .addRow row => rows ++ [row.get?]
  | .dropRow rowId => rows.eraseIdx rowId
  | .dropRows rowIds => (rowIds.insertionSort (· ≥ ·)).foldl List.eraseIdx rows
  | .clone => rows

/-- A column is given a new name, and a row is added to a table with a column. -/
def Admits (this : Table) : TableOperation → Prop
  | .addColumn name _ => this.getColumn name = none
  | .addRow _ => 0 < this.columns.size
  | _ => True

/-- Operations that are admitted succeed one after the other. -/
inductive Run (ast : Ast) : Table → List TableOperation → Table → Prop where
  | nil (this : Table) : Run ast this [] this
  | cons {this next result : Table} {operation : TableOperation}
      {operations : List TableOperation} (hadmits : this.Admits operation)
      (hperform : this.perform ast operation = .ok next) (hrun : Run ast next operations result) :
      Run ast this (operation :: operations) result

theorem rows_perform (hrectangular : this.IsRectangular) {operation : TableOperation}
    (hadmits : this.Admits operation) (hperform : this.perform ast operation = .ok next) :
    next.rows = performOnRows this.rows operation := by
  cases operation with
  | addColumn name column => exact rows_addColumn hperform
  | addRow row => exact rows_addRow hrectangular hadmits hperform
  | dropRow rowId => exact rows_dropRow hperform
  | dropRows rowIds => exact rows_foldlM_dropRow hperform
  | clone =>
      cases hperform.symm.trans (clone_eq hrectangular)
      rfl

theorem Run.refines {result : Table} {operations : List TableOperation}
    (hrun : Run ast this operations result) (hrectangular : this.IsRectangular) :
    result.IsRectangular ∧ result.rows = operations.foldl performOnRows this.rows := by
  induction hrun with
  | nil this => exact ⟨hrectangular, rfl⟩
  | cons hadmits hperform hrun ih =>
      obtain ⟨hresult, hrows⟩ := ih (hrectangular.perform hperform)
      rw [rows_perform hrectangular hadmits hperform] at hrows
      exact ⟨hresult, hrows⟩

theorem isRectangular_construct (numberOfRows : Nat) : (construct numberOfRows).IsRectangular :=
  fun _ _ h => nomatch h

/-- After every run, the table is the list of rows that the operations make of the first rows. -/
theorem table_isListOfRows (ast : Ast) (numberOfRows : Nat) (operations : List TableOperation)
    (table : Table) (hrun : Run ast (construct numberOfRows) operations table) :
    (∀ name column, table.getColumn name = some column →
      column.values.length = table.numberOfRows) ∧
    table.rows = operations.foldl performOnRows (List.replicate numberOfRows fun _ => none) ∧
    (∀ row next, 0 < table.columns.size → table.addRow ast row = .ok next →
      next.rows = table.rows ++ [row.get?]) ∧
    (∀ rowIds : List Nat, rowIds.Nodup → (∀ rowId ∈ rowIds, rowId < table.numberOfRows) →
      ∃ dropped, table.dropRows rowIds = .ok dropped ∧
        dropped.rows = JsArray.removeIndexes table.rows (rowIds.map Int.ofNat)) ∧
    ∀ rowId < table.numberOfRows, ∃ row, table.getRow rowId = .ok row ∧
      table.rows[rowId]? = some row.get? := by
  obtain ⟨hrectangular, hrows⟩ := hrun.refines (isRectangular_construct numberOfRows)
  rw [rows_construct] at hrows
  refine ⟨hrectangular, hrows, ?_, ?_, ?_⟩
  · intro row next hcolumns hadd
    exact rows_addRow hrectangular hcolumns hadd
  · intro rowIds hnodup hvalid
    exact rows_dropRows hnodup hvalid
  · intro rowId hlt
    obtain ⟨row, hrow, hget⟩ := getRow_eq hrectangular hlt
    exact ⟨row, hrow, hget ▸ getElem?_rows hlt⟩

def columnOf (values : List Value) : JsMap String TableColumn :=
  JsMap.empty.set "a" ⟨values, .Text⟩

def operationsXY : List TableOperation :=
  [.addColumn "a" ⟨[], .Text⟩, .addRow (JsMap.empty.set "a" (.string "x")),
    .addRow (JsMap.empty.set "a" (.string "y")), .dropRows [0], .clone]

theorem table_isListOfRows_xy :
    ∃ row, getRow { numberOfRows := 1, columns := columnOf [.string "y"] } 0 = .ok row ∧
      (rows { numberOfRows := 1, columns := columnOf [.string "y"] })[0]? = some row.get? := by
  have hrun : Run emptyAst (construct 0) operationsXY
      { numberOfRows := 1, columns := columnOf [.string "y"] } := by
    refine .cons (by rfl) (by rfl) ?_
    refine .cons Nat.one_pos (by rfl) ?_
    refine .cons Nat.one_pos (by rfl) ?_
    refine .cons trivial (by rfl) ?_
    exact .cons trivial (by rfl) (.nil _)
  exact (table_isListOfRows emptyAst 0 operationsXY
    { numberOfRows := 1, columns := columnOf [.string "y"] } hrun).2.2.2.2 0 (by decide)

end Table

end Jayvee
