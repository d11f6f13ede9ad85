import Jayvee.Model.Table

/-! # Tables stay well formed

A predicate `V` says which values a value type has. -/

namespace Jayvee

open Foundation

/-- A column of the given height whose values are values of its type. -/
structure TableColumn.Fits (V : Value → ValueType → Prop) (numberOfRows : Nat)
    (column : TableColumn) : Prop where
  length : column.values.length = numberOfRows
  valid : ∀ value ∈ column.values, V value column.valueType

namespace Table

def WellFormed (V : Value → ValueType → Prop) (this : Table) : Prop :=
  ∀ name column, this.columns.get? name = some column → column.Fits V this.numberOfRows

variable {V : Value → ValueType → Prop} {this result : Table} {name : String}
  {column : TableColumn}

theorem wellFormed_empty (numberOfRows : Nat) :
    WellFormed V { numberOfRows, columns := .empty } := by
  intro name column h
  cases h

theorem addColumn_eq (h : column.values.length = this.numberOfRows) :
    this.addColumn name column = .ok { this with columns := this.columns.set name column } := by
  simp [addColumn, assert, h]

theorem addColumn_eq_ok (h : this.addColumn name column = .ok result) :
    column.values.length = this.numberOfRows ∧
      result = { this with columns := this.columns.set name column } := by
  obtain ⟨_, hlength, h⟩ := except_bind_eq_ok_iff.mp h
  cases h
  exact ⟨by simpa [assert_eq_ok] using hlength, rfl⟩

theorem WellFormed.addColumn (h : this.WellFormed V)
    (hadd : this.addColumn name column = .ok result)
    (hvalid : ∀ value ∈ column.values, V value column.valueType) : result.WellFormed V := by
  obtain ⟨hlength, rfl⟩ := addColumn_eq_ok hadd
  intro other otherColumn hother
  rw [JsMap.get?_set] at hother
  split at hother
  · cases hother
    exact ⟨hlength, hvalid⟩
  · exact h other otherColumn hother

/-! ## Rows -/

theorem WellFormed.dropRow (h : this.WellFormed V) {rowId : Nat}
    (hdrop : this.dropRow rowId = .ok result) : result.WellFormed V := by
  obtain ⟨_, hbound, hdrop⟩ := except_bind_eq_ok_iff.mp hdrop
  cases hdrop
  have hlt : rowId < this.numberOfRows := by simpa [assert_eq_ok] using hbound
  intro name column' hcolumn'
  rw [JsMap.get?_mapValues] at hcolumn'
  obtain ⟨column, hcolumn, rfl⟩ := Option.map_eq_some_iff.mp hcolumn'
  have hfits := h name column hcolumn
  refine ⟨?_, fun value hvalue => hfits.valid value (JsArray.mem_splice hvalue)⟩
  have hne : column.values ≠ [] := by
    rw [← List.length_pos_iff, hfits.length]
    omega
  have hlength : (rowId : ℤ) < column.values.length := by
    rw [hfits.length]
    exact_mod_cast hlt
  rw [JsArray.length_splice_of_lt hne hlength, hfits.length]

theorem WellFormed.dropRows (h : this.WellFormed V) {rowIds : List Nat}
    (hdrop : this.dropRows rowIds = .ok result) : result.WellFormed V := by
  rw [Table.dropRows] at hdrop
  generalize rowIds.insertionSort (· ≥ ·) = sorted at hdrop
  induction sorted generalizing this with
  | nil =>
      cases hdrop
      exact h
  | cons rowId sorted ih =>
      rw [List.foldlM_cons] at hdrop
      obtain ⟨next, hnext, hdrop⟩ := except_bind_eq_ok_iff.mp hdrop
      exact ih (h.dropRow hnext) hdrop

theorem WellFormed.clone (h : this.WellFormed V) (hclone : this.clone = .ok result) :
    result.WellFormed V := by
  have hvalid : ∀ entry ∈ this.columns.entries,
      ∀ value ∈ entry.2.values, V value entry.2.valueType :=
    fun entry hentry => (h entry.1 entry.2 (JsMap.mem_entries_iff.mp hentry)).valid
  rw [Table.clone] at hclone
  generalize this.columns.entries = entries at hclone hvalid
  have hcloned := wellFormed_empty (V := V) this.numberOfRows
  generalize ({ numberOfRows := this.numberOfRows, columns := .empty } : Table) = cloned
    at hclone hcloned
  induction entries generalizing cloned with
  | nil =>
      cases hclone
      exact hcloned
  | cons entry entries ih =>
      rw [List.foldlM_cons] at hclone
      rw [List.forall_mem_cons] at hvalid
      obtain ⟨next, hnext, hclone⟩ := except_bind_eq_ok_iff.mp hclone
      exact ih hvalid.2 next hclone (hcloned.addColumn hnext hvalid.1)

/-! ## Added rows -/

/-- The values that are added to the column of a name. -/
def pushed (column : TableColumn) (value : Option Value) : TableColumn :=
  { column with values := column.values ++ value.toList }

theorem pushed_none : pushed column none = column := by
  rw [pushed, Option.toList_none, List.append_nil]

theorem pushValue_eq_ok {ast : Ast} {columns columns' : JsMap String TableColumn}
    {entry : String × Value} (h : pushValue ast columns entry = .ok columns') :
    ∃ column, columns.get? entry.1 = some column ∧
      columns' = columns.set entry.1 (pushed column (some entry.2)) := by
  rw [pushValue] at h
  split at h
  · cases h
  · rename_i column hcolumn
    obtain ⟨_, _, h⟩ := except_bind_eq_ok_iff.mp h
    obtain ⟨_, _, h⟩ := except_bind_eq_ok_iff.mp h
    cases h
    exact ⟨column, hcolumn, rfl⟩

/-- Every column gets the value that the row has for it. -/
theorem pushValues_get? {ast : Ast} {entries : List (String × Value)}
    {columns columns' : JsMap String TableColumn} (hnodup : (entries.map Prod.fst).Nodup)
    (h : entries.foldlM (pushValue ast) columns = .ok columns') (name : String) :
    columns'.get? name =
      (columns.get? name).map fun column => pushed column (entries.lookup name) := by
  induction entries generalizing columns with
  | nil =>
      cases h
      simp [pushed_none]
  | cons entry entries ih =>
      rw [List.map_cons, List.nodup_cons] at hnodup
      rw [List.foldlM_cons] at h
      obtain ⟨next, hnext, h⟩ := except_bind_eq_ok_iff.mp h
      obtain ⟨column, hcolumn, rfl⟩ := pushValue_eq_ok hnext
      rw [ih hnodup.2 h, JsMap.get?_set, JsMap.lookup_cons_eq]
      by_cases hname : name = entry.1
      · have hnone : entries.lookup name = none := by
          rw [hname, List.lookup_eq_none_iff]
          intro other hother
          exact bne_iff_ne.mpr fun heq => hnodup.1 (heq ▸ List.mem_map_of_mem hother)
        rw [if_pos hname, if_pos hname, hnone, hname, hcolumn]
        simp [pushed_none]
      · rw [if_neg hname, if_neg hname]

/-- Values of the types of their columns are all added. -/
theorem pushValues_eq {ast : Ast} {entries : List (String × Value)}
    {columns : JsMap String TableColumn}
    (hfits : ∀ entry ∈ entries, ∃ column, columns.get? entry.1 = some column ∧
      column.valueType.isInternalValueRepresentation ast entry.2 = .ok true) :
    ∃ columns', entries.foldlM (pushValue ast) columns = .ok columns' ∧
      columns'.keys = columns.keys := by
  induction entries generalizing columns with
  | nil => exact ⟨columns, rfl, rfl⟩
  | cons entry entries ih =>
      rw [List.forall_mem_cons] at hfits
      obtain ⟨⟨column, hcolumn, hvalue⟩, hrest⟩ := hfits
      have hpush : pushValue ast columns entry =
          .ok (columns.set entry.1 (pushed column (some entry.2))) := by
        rw [pushValue, hcolumn]
        simp only [hvalue]
        rfl
      have hkeys : (columns.set entry.1 (pushed column (some entry.2))).keys = columns.keys :=
        (JsMap.keys_setEntry entry.1 _ columns.entries).trans
          (if_pos (JsMap.mem_keys_of_get? hcolumn))
      have hnext : ∀ other ∈ entries, ∃ otherColumn,
          (columns.set entry.1 (pushed column (some entry.2))).get? other.1 = some otherColumn ∧
            otherColumn.valueType.isInternalValueRepresentation ast other.2 = .ok true := by
        intro other hother
        obtain ⟨otherColumn, hget, hotherValue⟩ := hrest other hother
        rw [JsMap.get?_set]
        by_cases hname : other.1 = entry.1
        · rw [hname, hcolumn] at hget
          cases hget
          exact ⟨pushed column (some entry.2), if_pos hname, hotherValue⟩
        · exact ⟨otherColumn, (if_neg hname).trans hget, hotherValue⟩
      obtain ⟨columns', hcolumns', hkeys'⟩ := ih hnext
      refine ⟨columns', ?_, hkeys'.trans hkeys⟩
      rw [List.foldlM_cons, hpush]
      exact hcolumns'

/-- A row of values for all columns is added. -/
theorem addRow_eq {ast : Ast} {row : TableRow} (hsome : row.size ≠ 0)
    (hsize : row.size = this.columns.size)
    (hfits : ∀ entry ∈ row.entries, ∃ column, this.columns.get? entry.1 = some column ∧
      column.valueType.isInternalValueRepresentation ast entry.2 = .ok true) :
    ∃ result, this.addRow ast row = .ok result ∧
      result.numberOfRows = this.numberOfRows + 1 ∧ result.columns.keys = this.columns.keys ∧
      ∀ name, result.columns.get? name =
        (this.columns.get? name).map fun column => pushed column (row.get? name) := by
  obtain ⟨columns, hcolumns, hkeys⟩ := pushValues_eq hfits
  have hhas : row.keys.all this.hasColumn = true := by
    rw [List.all_eq_true]
    intro key hkey
    obtain ⟨entry, hentry, rfl⟩ := List.mem_map.mp hkey
    obtain ⟨column, hcolumn, _⟩ := hfits entry hentry
    exact decide_eq_true (JsMap.mem_keys_of_get? hcolumn)
  refine ⟨{ numberOfRows := this.numberOfRows + 1, columns }, ?_, rfl, hkeys,
    pushValues_get? row.nodup hcolumns⟩
  simp only [addRow, assertWith, hsize, decide_true, if_true, hhas, hcolumns]
  rw [if_neg (hsize ▸ hsome)]
  rfl

/-- A row either has no values, or one for every column and for nothing else. -/
theorem addRow_eq_ok {ast : Ast} {row : TableRow} (h : this.addRow ast row = .ok result) :
    result = this ∨ (result.numberOfRows = this.numberOfRows + 1 ∧
      ∀ name column', result.columns.get? name = some column' →
        ∃ column value, this.columns.get? name = some column ∧ row.get? name = some value ∧
          column' = pushed column (some value)) := by
  obtain ⟨_, hsize, h⟩ := except_bind_eq_ok_iff.mp h
  have hsize : row.size = this.columns.size := by simpa [assertWith_eq_ok] using hsize
  split at h
  · cases h
    exact Or.inl rfl
  · obtain ⟨_, hkeys, h⟩ := except_bind_eq_ok_iff.mp h
    obtain ⟨columns, hcolumns, h⟩ := except_bind_eq_ok_iff.mp h
    cases h
    have hkeys : ∀ key ∈ row.keys, key ∈ this.columns.keys := by
      simpa [assertWith_eq_ok, hasColumn, JsMap.has] using hkeys
    refine Or.inr ⟨rfl, fun name column' hcolumn' => ?_⟩
    rw [pushValues_get? row.nodup hcolumns] at hcolumn'
    obtain ⟨column, hcolumn, rfl⟩ := Option.map_eq_some_iff.mp hcolumn'
    obtain ⟨value, hvalue⟩ := JsMap.exists_get?_of_mem_keys
      (JsMap.mem_of_size_eq hsize hkeys (JsMap.mem_keys_of_get? hcolumn))
    refine ⟨column, value, hcolumn, hvalue, ?_⟩
    rw [← hvalue, JsMap.get?]

theorem WellFormed.addRow (h : this.WellFormed V) {ast : Ast} {row : TableRow}
    (hadd : this.addRow ast row = .ok result)
    (hvalid : ∀ name column value, this.columns.get? name = some column →
      row.get? name = some value → V value column.valueType) : result.WellFormed V := by
  cases addRow_eq_ok hadd with
  | inl hsame =>
      rw [hsame]
      exact h
  | inr hadded =>
      intro name column' hcolumn'
      obtain ⟨column, value, hcolumn, hvalue, rfl⟩ := hadded.2 name column' hcolumn'
      have hfits := h name column hcolumn
      refine ⟨?_, fun other hother => ?_⟩
      · rw [hadded.1, ← hfits.length, pushed, List.length_append]
        rfl
      · cases List.mem_append.mp hother with
        | inl hold => exact hfits.valid other hold
        | inr hnew =>
            obtain rfl : other = value := by simpa using hnew
            exact hvalid name column other hcolumn hvalue

/-- Rows do not change the types of the columns. -/
theorem addRow_valueType {ast : Ast} {row : TableRow} (hadd : this.addRow ast row = .ok result)
    (h : result.columns.get? name = some column) :
    ∃ column', this.columns.get? name = some column' ∧ column.valueType = column'.valueType := by
  cases addRow_eq_ok hadd with
  | inl hsame =>
      rw [hsame] at h
      exact ⟨column, h, rfl⟩
  | inr hadded =>
      obtain ⟨column', value, hcolumn', _, rfl⟩ := hadded.2 name column h
      exact ⟨column', hcolumn', rfl⟩

end Table

end Jayvee
