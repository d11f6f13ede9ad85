import Jayvee.Foundation.Deletion
import Jayvee.Model.DeleterExecutors
import Jayvee.Verification.Sheets.Dimensions

/-! # The deleters of rows and columns -/

namespace Jayvee

open Foundation ExecutionContext

/-! ## Lines whose indexes are known -/

namespace LineKind

section Indexed

variable {kind : LineKind} {key : CellRangeWrapper → ℤ} {lines : List CellRangeWrapper}

/-- Each of the lines is one of its kind, with the index that `key` gives. -/
def Indexed (kind : LineKind) (key : CellRangeWrapper → ℤ) (lines : List CellRangeWrapper) : Prop :=
  ∀ line ∈ lines, kind.getIndex line = .ok (key line)

theorem Indexed.subset (h : Indexed kind key lines) {lines' : List CellRangeWrapper}
    (hsubset : lines' ⊆ lines) : Indexed kind key lines' :=
  fun line hline => h line (hsubset hline)

theorem exists_map_ok_iff {m : Except JsError Sheet} {Q : Sheet → Prop} :
    (∃ result, m.map (Except.ok : Sheet → Result Sheet) = .ok (.ok result) ∧ Q result) ↔
      ∃ result, m = .ok result ∧ Q result := by
  cases m <;> simp [Except.map]

theorem mapM_ok {ε α β : Type} {f : α → Except ε β} {g : α → β} {xs : List α}
    (h : ∀ x ∈ xs, f x = .ok (g x)) : xs.mapM f = .ok (xs.map g) := by
  induction xs with
  | nil => rfl
  | cons x xs ih =>
      rw [List.mapM_cons, h x List.mem_cons_self,
        ih fun x' hx' => h x' (List.mem_cons_of_mem _ hx')]
      rfl

theorem checkLinesExist_ok {inputSheet : Sheet}
    (h : ∀ line ∈ lines, inputSheet.isInBounds line = true) :
    kind.checkLinesExist inputSheet lines = .ok (.ok ()) := by
  induction lines with
  | nil => rfl
  | cons line lines ih =>
      rw [checkLinesExist, h line List.mem_cons_self]
      exact ih fun line' hline' => h line' (List.mem_cons_of_mem _ hline')

/-- The lines by their indexes. -/
def sorted (key : CellRangeWrapper → ℤ) (lines : List CellRangeWrapper) : List CellRangeWrapper :=
  lines.insertionSort fun first second => key first ≤ key second

theorem sortByIndex_eq (h : Indexed kind key lines) :
    kind.sortByIndex lines = .ok (sorted key lines) := by
  rw [sortByIndex]
  split_ifs with hlength
  · rcases lines with _ | ⟨line, _ | ⟨line', lines⟩⟩
    · rfl
    · rfl
    · simp at hlength
  · have hmap : (lines.mapM fun line => do
        let index ← kind.getIndex line
        return (index, line)) = Except.ok (lines.map fun line => (key line, line)) := by
      refine mapM_ok fun line hline => ?_
      rw [h line hline]
      rfl
    rw [hmap]
    have hsort := List.map_insertionSort (fun first second => key first ≤ key second)
      (fun first second : ℤ × CellRangeWrapper => first.1 ≤ second.1)
      (fun line => (key line, line)) lines fun _ _ _ _ => Iff.rfl
    change Except.ok _ = _
    rw [← hsort, List.map_map, sorted]
    congr 1
    exact List.map_id _

theorem map_sorted (key : CellRangeWrapper → ℤ) (lines : List CellRangeWrapper) :
    (sorted key lines).map key = (lines.map key).insertionSort (· ≤ ·) :=
  List.map_insertionSort _ _ key lines fun _ _ _ _ => Iff.rfl

theorem get?_append_single {α : Type} (previous : List α) (x : α) :
    JsArray.get? (previous ++ [x]) (((previous.length + 1 : Nat) : ℤ) - 1) = some x := by
  rw [JsArray.get?, if_pos (by omega)]
  have htoNat : (((previous.length + 1 : Nat) : ℤ) - 1).toNat = previous.length := by omega
  rw [htoNat, List.getElem?_append_right le_rfl, Nat.sub_self]
  rfl

/-- Once an element was skipped, the accumulator is too short for the index. -/
theorem removeDuplicatesFrom_of_length_lt {index : Nat} {previous : List CellRangeWrapper}
    (hlength : previous.length < index) :
    kind.removeDuplicatesFrom index previous lines = .ok (previous ++ lines) := by
  induction lines generalizing index previous with
  | nil =>
      rw [removeDuplicatesFrom, List.append_nil]
      rfl
  | cons line lines ih =>
      have hnone : JsArray.get? previous ((index : ℤ) - 1) = none := by
        rw [JsArray.get?, if_pos (by omega), List.getElem?_eq_none (by omega)]
      rw [removeDuplicatesFrom, hnone]
      simp only
      rw [ih (by simpa using hlength)]
      simp

theorem removeDuplicatesFrom_eq (last : CellRangeWrapper) (previous : List CellRangeWrapper)
    (h : Indexed kind key (last :: lines)) :
    kind.removeDuplicatesFrom (previous.length + 1) (previous ++ [last]) lines =
      .ok (previous ++ JsArray.dropFirstRepeated key (last :: lines)) := by
  induction lines generalizing last previous with
  | nil => rfl
  | cons line lines ih =>
      have hlast := h last List.mem_cons_self
      have hline := h line (List.mem_cons_of_mem _ List.mem_cons_self)
      rw [removeDuplicatesFrom, get?_append_single]
      simp only [hlast, hline]
      change (if key last = key line then _ else _) = _
      rw [JsArray.dropFirstRepeated]
      split_ifs with heq
      · rw [removeDuplicatesFrom_of_length_lt (by simp)]
        simp
      · have hrest := ih line (previous ++ [last]) (h.subset (List.subset_cons_self _ _))
        rw [List.length_append, List.length_singleton] at hrest
        rw [hrest]
        simp

/-- Only the first repetition is removed. -/
theorem removeDuplicates_eq (h : Indexed kind key lines) :
    kind.removeDuplicates lines = .ok (JsArray.dropFirstRepeated key lines) := by
  cases lines with
  | nil => rfl
  | cons line lines =>
      have hnone : JsArray.get? ([] : List CellRangeWrapper) (((0 : Nat) : ℤ) - 1) = none := rfl
      rw [removeDuplicates, removeDuplicatesFrom, hnone]
      exact removeDuplicatesFrom_eq line [] h

/-- The lines that are deleted, in the order in which they are sorted. -/
def deleted (key : CellRangeWrapper → ℤ) (lines : List CellRangeWrapper) : List CellRangeWrapper :=
  JsArray.dropFirstRepeated key (sorted key lines)

theorem deleted_sublist (key : CellRangeWrapper → ℤ) (lines : List CellRangeWrapper) :
    (deleted key lines).Sublist (sorted key lines) :=
  JsArray.dropFirstRepeated_sublist _ _

theorem deleted_subset (key : CellRangeWrapper → ℤ) (lines : List CellRangeWrapper) :
    deleted key lines ⊆ lines := by
  intro line hline
  exact (List.mem_insertionSort _).mp ((deleted_sublist key lines).subset hline)

theorem deleteLines_eq {inputSheet : Sheet} {cellRanges : List CellRangeLiteral}
    {relativeLines : List CellRangeWrapper}
    (hwrap : cellRanges.mapM CellRangeWrapper.wrap = .ok relativeLines)
    (hkind : relativeLines.all kind.isWrapper = true)
    (hbounds : ∀ line ∈ relativeLines.map inputSheet.resolveRelativeIndexes,
      inputSheet.isInBounds line = true)
    (hindexed : Indexed kind key (relativeLines.map inputSheet.resolveRelativeIndexes)) :
    kind.deleteLines inputSheet cellRanges =
      ((deleted key (relativeLines.map inputSheet.resolveRelativeIndexes)).reverse.foldlM
        kind.delete inputSheet.clone).map .ok := by
  have hsorted : Indexed kind key
      (sorted key (relativeLines.map inputSheet.resolveRelativeIndexes)) :=
    hindexed.subset fun line hline => (List.mem_insertionSort _).mp hline
  have hdeleted := hsorted.subset
    (deleted_sublist key (relativeLines.map inputSheet.resolveRelativeIndexes)).subset
  have hmessage := mapM_ok hdeleted
  rw [deleteLines, hwrap, except_ok_bind, hkind]
  simp only [assert, if_true, except_ok_bind, checkLinesExist_ok hbounds, sortByIndex_eq hindexed,
    removeDuplicates_eq hsorted]
  rw [deleted] at hmessage ⊢
  rw [deletionMessage, hmessage]
  simp only [except_ok_bind]
  cases List.foldlM kind.delete inputSheet.clone _ <;> rfl

/-! ### The indexes that are deleted -/

theorem map_deleted (key : CellRangeWrapper → ℤ) (lines : List CellRangeWrapper) :
    (deleted key lines).map key =
      JsArray.dropFirstRepeated id ((lines.map key).insertionSort (· ≤ ·)) := by
  rw [deleted, JsArray.map_dropFirstRepeated, map_sorted]

theorem mem_map_deleted {index : ℤ} :
    index ∈ (deleted key lines).map key ↔ index ∈ lines.map key := by
  rw [map_deleted, JsArray.mem_dropFirstRepeated, List.mem_insertionSort]

theorem map_deleted_ascending (key : CellRangeWrapper → ℤ) (lines : List CellRangeWrapper) :
    ((deleted key lines).map key).Pairwise (· ≤ ·) := by
  rw [map_deleted]
  exact (List.pairwise_insertionSort (· ≤ ·) _).sublist (JsArray.dropFirstRepeated_sublist _ _)

/-- At most one of the indexes repeats another one. -/
def AtMostOneRepetition (indexes : List ℤ) : Prop :=
  indexes.length ≤ indexes.dedup.length + 1

instance (indexes : List ℤ) : Decidable (AtMostOneRepetition indexes) :=
  inferInstanceAs (Decidable (_ ≤ _))

theorem nodup_map_deleted_iff :
    ((deleted key lines).map key).Nodup ↔ AtMostOneRepetition (lines.map key) := by
  have hperm := List.perm_insertionSort (· ≤ ·) (lines.map key)
  rw [map_deleted,
    JsArray.nodup_dropFirstRepeated_iff (List.pairwise_insertionSort (· ≤ ·) (lines.map key)),
    hperm.length_eq, hperm.dedup.length_eq, AtMostOneRepetition]

/-- Too few elements are left if an index is deleted twice or is none of the array. -/
theorem nodup_map_deleted_of_length {α : Type} {xs : List α}
    (hlt : ∀ line ∈ lines, key line < xs.length)
    (hcount : ((JsArray.removeIndexes xs (lines.map key)).length : ℤ) =
      xs.length - (deleted key lines).length) :
    ((deleted key lines).map key).Nodup ∧ ∀ index ∈ (deleted key lines).map key, 0 ≤ index := by
  have hcongr : JsArray.removeIndexes xs ((deleted key lines).map key) =
      JsArray.removeIndexes xs (lines.map key) :=
    JsArray.removeIndexes_congr fun _ => mem_map_deleted
  have hdeleted : ∀ index ∈ (deleted key lines).map key, index < xs.length :=
    List.forall_mem_map.mpr fun line hline => hlt line (deleted_subset key lines hline)
  refine JsArray.nodup_of_length_removeIndexes hdeleted (map_deleted_ascending key lines) ?_
  rw [hcongr, List.length_map]
  omega

theorem spliceAll_deleted {α : Type} {xs : List α}
    (hdescending : ((deleted key lines).reverse.map key).Pairwise (· > ·))
    (hbounds : ∀ index ∈ (deleted key lines).reverse.map key, 0 ≤ index ∧ index < xs.length) :
    JsArray.spliceAll xs ((deleted key lines).reverse.map key) =
      JsArray.removeIndexes xs (lines.map key) := by
  rw [JsArray.spliceAll_eq_removeIndexes (fun index hindex => (hbounds index hindex).1)
    (fun index hindex => (hbounds index hindex).2) hdescending]
  refine JsArray.removeIndexes_congr fun i => ?_
  rw [List.map_reverse, List.mem_reverse, mem_map_deleted]

theorem map_deleted_descending (hnodup : ((deleted key lines).map key).Nodup) :
    ((deleted key lines).reverse.map key).Pairwise (· > ·) := by
  rw [List.map_reverse, List.pairwise_reverse]
  exact ((map_deleted_ascending key lines).and hnodup).imp fun hlt => by omega

end Indexed

/-! ## Deletions in a row -/

section Removes

variable {kind : LineKind} {key : CellRangeWrapper → ℤ} {lines : List CellRangeWrapper}
  {P : Sheet → Prop} {size : Sheet → ℤ} {remove : Sheet → ℤ → Sheet}

/-- The deletion of one of the lines checks that the sheet has enough lines, and removes one
line of it. -/
structure Removes (kind : LineKind) (key : CellRangeWrapper → ℤ) (P : Sheet → Prop)
    (size : Sheet → ℤ) (remove : Sheet → ℤ → Sheet) (lines : List CellRangeWrapper) : Prop where
  delete_eq : ∀ line ∈ lines, ∀ sheet, P sheet → kind.delete sheet line =
    (assert (0 < size sheet ∧ key line < size sheet)).map fun _ => remove sheet (key line)
  kept : ∀ sheet index, P sheet → 0 < size sheet → index < size sheet →
    P (remove sheet index) ∧ size (remove sheet index) = size sheet - 1

theorem Removes.subset (h : Removes kind key P size remove lines) {lines' : List CellRangeWrapper}
    (hsubset : lines' ⊆ lines) : Removes kind key P size remove lines' :=
  ⟨fun line hline => h.delete_eq line (hsubset hline), h.kept⟩

/-- The sheet behind several deletions has that many lines less. -/
theorem Removes.run (h : Removes kind key P size remove lines) {sheet result : Sheet}
    (hsheet : P sheet) (hrun : lines.foldlM kind.delete sheet = .ok result) :
    P result ∧ size result = size sheet - lines.length := by
  induction lines generalizing sheet with
  | nil =>
      cases hrun
      simpa using hsheet
  | cons line lines ih =>
      rw [List.foldlM_cons, h.delete_eq line List.mem_cons_self sheet hsheet] at hrun
      obtain ⟨next, hnext, hrest⟩ := except_bind_eq_ok_iff.mp hrun
      cases hassert : assert (0 < size sheet ∧ key line < size sheet) with
      | error e =>
          rw [hassert] at hnext
          cases hnext
      | ok u =>
          rw [hassert] at hnext
          cases hnext
          obtain ⟨hpos, hlt⟩ := of_decide_eq_true (assert_eq_ok.mp hassert)
          obtain ⟨hP, hsize⟩ := h.kept sheet (key line) hsheet hpos hlt
          obtain ⟨hresult, hcount⟩ := ih (h.subset (List.subset_cons_self _ _)) hP hrest
          refine ⟨hresult, ?_⟩
          rw [hcount, hsize, List.length_cons]
          omega

/-- From the back, every line is deleted. -/
theorem Removes.run_descending (h : Removes kind key P size remove lines) {sheet : Sheet}
    (hsheet : P sheet) (hbounds : ∀ line ∈ lines, 0 ≤ key line ∧ key line < size sheet)
    (hdescending : (lines.map key).Pairwise (· > ·)) :
    lines.foldlM kind.delete sheet = .ok ((lines.map key).foldl remove sheet) := by
  induction lines generalizing sheet with
  | nil => rfl
  | cons line lines ih =>
      obtain ⟨hhead, htail⟩ := List.pairwise_cons.mp hdescending
      obtain ⟨hnonneg, hlt⟩ := hbounds line List.mem_cons_self
      have hpos : 0 < size sheet := by omega
      obtain ⟨hP, hsize⟩ := h.kept sheet (key line) hsheet hpos hlt
      have hassert : assert (0 < size sheet ∧ key line < size sheet) = .ok () := by
        simp [assert, hpos, hlt]
      rw [List.foldlM_cons, h.delete_eq line List.mem_cons_self sheet hsheet, hassert]
      refine ih (h.subset (List.subset_cons_self _ _)) hP ?_ htail
      intro other hother
      have hless := hhead (key other) (List.mem_map_of_mem hother)
      have hboundsOther := hbounds other (List.mem_cons_of_mem _ hother)
      change 0 ≤ key other ∧ key other < size (remove sheet (key line))
      omega

/-- The skeleton of both deleters: whether `Q` describes the sheet without the lines depends only
on the number of lines that are left. -/
theorem Removes.deletes_iff (h : Removes kind key P size remove lines) {sheet : Sheet}
    (hsheet : P sheet) (hlt : ∀ line ∈ lines, key line < size sheet) {Q : Sheet → Prop}
    (hcount : ∀ result, P result → Q result →
      size result = size sheet - (deleted key lines).length →
      ((deleted key lines).map key).Nodup ∧ ∀ index ∈ (deleted key lines).map key, 0 ≤ index)
    (hremoved : ((deleted key lines).reverse.map key).Pairwise (· > ·) →
      (∀ index ∈ (deleted key lines).reverse.map key, 0 ≤ index ∧ index < size sheet) →
      P (((deleted key lines).reverse.map key).foldl remove sheet) →
      Q (((deleted key lines).reverse.map key).foldl remove sheet)) :
    (∃ result, (deleted key lines).reverse.foldlM kind.delete sheet = .ok result ∧ Q result) ↔
      ((deleted key lines).map key).Nodup ∧
        ∀ index ∈ (deleted key lines).map key, 0 ≤ index := by
  have hdeleted := h.subset fun line hline =>
    deleted_subset key lines (List.mem_reverse.mp hline)
  constructor
  · rintro ⟨result, hrun, hresult⟩
    obtain ⟨hP, hsize⟩ := hdeleted.run hsheet hrun
    rw [List.length_reverse] at hsize
    exact hcount result hP hresult hsize
  · rintro ⟨hnodup, hnonneg⟩
    have hdescending := map_deleted_descending hnodup
    have hbounds : ∀ line ∈ (deleted key lines).reverse, 0 ≤ key line ∧ key line < size sheet := by
      intro line hline
      have hmem := List.mem_reverse.mp hline
      exact ⟨hnonneg (key line) (List.mem_map_of_mem hmem),
        hlt line (deleted_subset key lines hmem)⟩
    have hrun := hdeleted.run_descending hsheet hbounds hdescending
    exact ⟨_, hrun, hremoved hdescending (List.forall_mem_map.mpr hbounds)
      (hdeleted.run hsheet hrun).1⟩

end Removes

end LineKind

/-! ## Rectangular sheets -/

/-- All rows have the stored number of columns. -/
structure Sheet.IsRectangular (sheet : Sheet) : Prop where
  numberOfRows_eq : sheet.numberOfRows = sheet.data.length
  length_eq : ∀ row ∈ sheet.data, (row.length : ℤ) = sheet.numberOfColumns

theorem Sheet.IsRectangular.data_ne_nil {sheet : Sheet} (h : sheet.IsRectangular)
    (hpos : 0 < sheet.numberOfRows) : sheet.data ≠ [] := by
  intro hnil
  have hrows := h.numberOfRows_eq
  rw [hnil, List.length_nil] at hrows
  omega

theorem Sheet.IsRectangular.clone_numberOfColumns {sheet : Sheet} (h : sheet.IsRectangular)
    (hne : sheet.data ≠ []) : sheet.clone.numberOfColumns = sheet.numberOfColumns := by
  refine (isWidth_maxRowLength sheet.data).unique ⟨?_, .inl ?_⟩
  · exact fun row hrow => (h.length_eq row hrow).le
  · obtain ⟨row, hrow⟩ := List.exists_mem_of_ne_nil _ hne
    exact ⟨row, hrow, h.length_eq row hrow⟩

theorem Sheet.IsRectangular.clone {sheet : Sheet} (h : sheet.IsRectangular) :
    sheet.clone.IsRectangular := by
  refine ⟨rfl, fun row hrow => ?_⟩
  rw [h.clone_numberOfColumns (List.ne_nil_of_mem hrow)]
  exact h.length_eq row hrow

/-! ## Literals of rows and columns -/

def rowLiteral (rowId : RowIdValue) : CellRangeLiteral :=
  .row (some ⟨some rowId⟩)

def columnLiteral (columnId : String) : CellRangeLiteral :=
  .column (some ⟨some columnId⟩)

namespace Sheet

/-- The range of the literal is in the bounds of the sheet. -/
def Contains (sheet : Sheet) (cellRange : CellRangeLiteral) : Prop :=
  ∃ range, CellRangeWrapper.construct cellRange = .ok range ∧ sheet.isInBounds range = true

def indexOfRow (sheet : Sheet) (rowId : RowIdValue) : ℤ :=
  CellIndex.resolveIndex (parseRowId rowId) (sheet.numberOfRows - 1)

def indexOfColumn (sheet : Sheet) (columnId : String) : ℤ :=
  CellIndex.resolveIndex (parseColumnId columnId) (sheet.numberOfColumns - 1)

/-- The line of a row, after its indexes are resolved. -/
def rowLine (sheet : Sheet) (rowId : RowIdValue) : CellRangeWrapper :=
  ⟨rowLiteral rowId, ⟨0, sheet.indexOfRow rowId⟩,
    ⟨sheet.numberOfColumns - 1, sheet.indexOfRow rowId⟩⟩

def columnLine (sheet : Sheet) (columnId : String) : CellRangeWrapper :=
  ⟨columnLiteral columnId, ⟨sheet.indexOfColumn columnId, 0⟩,
    ⟨sheet.indexOfColumn columnId, sheet.numberOfRows - 1⟩⟩

theorem resolveIndex_zero (last : ℤ) : CellIndex.resolveIndex 0 last = 0 := by
  rw [CellIndex.resolveIndex, if_neg (by decide)]

theorem resolveIndex_last (last : ℤ) : CellIndex.resolveIndex LAST_INDEX last = last := by
  rw [CellIndex.resolveIndex, if_pos rfl]

theorem resolve_row (sheet : Sheet) (rowId : RowIdValue) :
    sheet.resolveRelativeIndexes
      ⟨rowLiteral rowId, ⟨0, parseRowId rowId⟩, ⟨LAST_INDEX, parseRowId rowId⟩⟩ =
        sheet.rowLine rowId := by
  rw [Sheet.resolveRelativeIndexes_eq]
  simp [CellRangeWrapper.resolveRelativeIndexes, CellIndex.resolveRelativeIndexes, rowLine,
    resolveIndex_zero, resolveIndex_last, indexOfRow, getBounds]

theorem resolve_column (sheet : Sheet) (columnId : String) :
    sheet.resolveRelativeIndexes
      ⟨columnLiteral columnId, ⟨parseColumnId columnId, 0⟩, ⟨parseColumnId columnId, LAST_INDEX⟩⟩ =
        sheet.columnLine columnId := by
  rw [Sheet.resolveRelativeIndexes_eq]
  simp [CellRangeWrapper.resolveRelativeIndexes, CellIndex.resolveRelativeIndexes, columnLine,
    resolveIndex_zero, resolveIndex_last, indexOfColumn, getBounds]

/-- A range without relative indexes is in bounds if no index is behind the last one. -/
theorem isInBounds_of_le {sheet : Sheet} {range : CellRangeWrapper}
    (hrows : 0 < sheet.numberOfRows) (hcolumns : 0 < sheet.numberOfColumns)
    (hfromRow : range.from.rowIndex < sheet.numberOfRows)
    (htoRow : range.to.rowIndex < sheet.numberOfRows)
    (hfromColumn : range.from.columnIndex < sheet.numberOfColumns)
    (htoColumn : range.to.columnIndex < sheet.numberOfColumns) :
    sheet.isInBounds range = true := by
  rw [Sheet.isInBounds_iff]
  simp only [isIndexInBounds_iff]
  omega

theorem Contains.pos {sheet : Sheet} {cellRange : CellRangeLiteral}
    (h : sheet.Contains cellRange) : 0 < sheet.numberOfRows ∧ 0 < sheet.numberOfColumns := by
  obtain ⟨range, _, hbounds⟩ := h
  obtain ⟨⟨hcolumn, _⟩, hrow, _⟩ := (sheet.isInBounds_iff range).mp hbounds
  have hcolumns := ((isIndexInBounds_iff _ _).mp hcolumn).1
  have hrows := ((isIndexInBounds_iff _ _).mp hrow).1
  omega

theorem Contains.indexOfRow_lt {sheet : Sheet} {rowId : RowIdValue}
    (h : sheet.Contains (rowLiteral rowId)) : sheet.indexOfRow rowId < sheet.numberOfRows := by
  obtain ⟨range, hconstruct, hbounds⟩ := h
  cases hconstruct
  obtain ⟨_, hrow, _⟩ := (sheet.isInBounds_iff _).mp hbounds
  have hindex : sheet.indexOfRow rowId ≤ sheet.numberOfRows - 1 := resolveIndex_le hrow
  omega

theorem Contains.indexOfColumn_lt {sheet : Sheet} {columnId : String}
    (h : sheet.Contains (columnLiteral columnId)) :
    sheet.indexOfColumn columnId < sheet.numberOfColumns := by
  obtain ⟨range, hconstruct, hbounds⟩ := h
  cases hconstruct
  obtain ⟨⟨hcolumn, _⟩, _⟩ := (sheet.isInBounds_iff _).mp hbounds
  have hindex : sheet.indexOfColumn columnId ≤ sheet.numberOfColumns - 1 :=
    resolveIndex_le hcolumn
  omega

theorem indexOfRow_nonneg_iff {sheet : Sheet} (rowId : RowIdValue)
    (hpos : 0 < sheet.numberOfRows) : 0 ≤ sheet.indexOfRow rowId ↔ ¬ IsRowZero rowId := by
  have hge := parseRowId_ge rowId
  rw [← parseRowId_eq_iff, indexOfRow, CellIndex.resolveIndex]
  split_ifs with hlast
  · rw [hlast, LAST_INDEX]
    omega
  · omega

/-! ## Deleting one line -/

def removeRow (sheet : Sheet) (index : ℤ) : Sheet :=
  { sheet with
    data := JsArray.splice sheet.data index
    numberOfRows := sheet.numberOfRows - 1 }

def removeColumn (sheet : Sheet) (index : ℤ) : Sheet :=
  { sheet with
    data := sheet.data.map fun row => JsArray.splice row index
    numberOfColumns := sheet.numberOfColumns - 1 }

/-- An index below the sentinel is in bounds if it is below the length. -/
theorem isIndexInBounds_eq {index length : ℤ} (h : index < LAST_INDEX) :
    CellIndex.isIndexInBounds index (length - 1) = decide (0 < length ∧ index < length) := by
  rw [Bool.eq_iff_iff, isIndexInBounds_iff, decide_eq_true_eq]
  omega

theorem resolveRelativeIndexes_of_absolute {sheet : Sheet} {line : CellRangeWrapper}
    (hfrom : line.from.columnIndex ≠ LAST_INDEX ∧ line.from.rowIndex ≠ LAST_INDEX)
    (hto : line.to.columnIndex ≠ LAST_INDEX ∧ line.to.rowIndex ≠ LAST_INDEX) :
    sheet.resolveRelativeIndexes line = line := by
  rw [resolveRelativeIndexes, if_neg]
  rw [Bool.not_eq_true, CellRangeWrapper.hasRelativeIndexes_eq_false_iff]
  exact ⟨hfrom, hto⟩

theorem deleteRow_eq {sheet : Sheet} {line : CellRangeWrapper} {literal : Option RowId}
    (hliteral : line.astNode = .row literal) (hsame : line.from.rowIndex = line.to.rowIndex)
    (hrow : line.from.rowIndex < LAST_INDEX)
    (hfrom : line.from.columnIndex < sheet.numberOfColumns)
    (hto : line.to.columnIndex < sheet.numberOfColumns) (hpos : 0 < sheet.numberOfColumns)
    (hlast : sheet.numberOfColumns ≤ LAST_INDEX) :
    sheet.deleteRow line =
      (assert (0 < sheet.numberOfRows ∧ line.from.rowIndex < sheet.numberOfRows)).map fun _ =>
        sheet.removeRow line.from.rowIndex := by
  have hbounds : sheet.isInBounds line =
      decide (0 < sheet.numberOfRows ∧ line.from.rowIndex < sheet.numberOfRows) := by
    rw [Bool.eq_iff_iff, Sheet.isInBounds_iff, ← hsame, isIndexInBounds_eq (by omega),
      isIndexInBounds_eq (by omega), isIndexInBounds_eq hrow]
    simp [hpos, hfrom, hto]
  have habsolute : sheet.resolveRelativeIndexes line = line :=
    resolveRelativeIndexes_of_absolute (by omega) (by omega)
  have hindex : getRowIndex line = .ok line.from.rowIndex := by
    simp [getRowIndex, isRowWrapper, hliteral]
  rw [deleteRow, hbounds, habsolute]
  simp only [hindex]
  cases assert _ <;> rfl

theorem deleteColumn_eq {sheet : Sheet} {line : CellRangeWrapper} {literal : Option ColumnId}
    (hliteral : line.astNode = .column literal)
    (hsame : line.from.columnIndex = line.to.columnIndex)
    (hcolumn : line.from.columnIndex < LAST_INDEX)
    (hfrom : line.from.rowIndex < sheet.numberOfRows)
    (hto : line.to.rowIndex < sheet.numberOfRows) (hpos : 0 < sheet.numberOfRows)
    (hlast : sheet.numberOfRows ≤ LAST_INDEX) :
    sheet.deleteColumn line =
      (assert (0 < sheet.numberOfColumns ∧
        line.from.columnIndex < sheet.numberOfColumns)).map fun _ =>
          sheet.removeColumn line.from.columnIndex := by
  have hbounds : sheet.isInBounds line =
      decide (0 < sheet.numberOfColumns ∧ line.from.columnIndex < sheet.numberOfColumns) := by
    rw [Bool.eq_iff_iff, Sheet.isInBounds_iff, ← hsame, isIndexInBounds_eq hcolumn,
      isIndexInBounds_eq (by omega), isIndexInBounds_eq (by omega)]
    simp [hpos, hfrom, hto]
  have habsolute : sheet.resolveRelativeIndexes line = line :=
    resolveRelativeIndexes_of_absolute (by omega) (by omega)
  have hindex : getColumnIndex line = .ok line.from.columnIndex := by
    simp [getColumnIndex, isColumnWrapper, hliteral]
  rw [deleteColumn, hbounds, habsolute]
  simp only [hindex]
  cases assert _ <;> rfl

theorem IsRectangular.removeRow {sheet : Sheet} {index : ℤ} (h : sheet.IsRectangular)
    (hpos : 0 < sheet.numberOfRows) (hlt : index < sheet.numberOfRows) :
    (sheet.removeRow index).IsRectangular := by
  have hrows := h.numberOfRows_eq
  constructor
  · have hne := h.data_ne_nil hpos
    have hlength := JsArray.length_splice_of_lt hne (by omega : index < sheet.data.length)
    simp only [Sheet.removeRow, hlength]
    omega
  · exact fun row hrow => h.length_eq row (JsArray.mem_splice hrow)

theorem IsRectangular.removeColumn {sheet : Sheet} {index : ℤ} (h : sheet.IsRectangular)
    (hpos : 0 < sheet.numberOfColumns) (hlt : index < sheet.numberOfColumns) :
    (sheet.removeColumn index).IsRectangular := by
  constructor
  · simpa [Sheet.removeColumn] using h.numberOfRows_eq
  · intro row hrow
    obtain ⟨row, hmem, rfl⟩ := List.mem_map.mp hrow
    have hlength := h.length_eq row hmem
    have hne : row ≠ [] := by
      rintro rfl
      simp only [List.length_nil] at hlength
      omega
    have hsplice := JsArray.length_splice_of_lt hne (by omega : index < row.length)
    simp only [Sheet.removeColumn, hsplice]
    omega

theorem foldl_removeRow_data (sheet : Sheet) (indexes : List ℤ) :
    (indexes.foldl removeRow sheet).data = JsArray.spliceAll sheet.data indexes := by
  induction indexes generalizing sheet with
  | nil => rfl
  | cons index indexes ih => exact ih (sheet.removeRow index)

theorem foldl_removeColumn_data (sheet : Sheet) (indexes : List ℤ) :
    (indexes.foldl removeColumn sheet).data =
      sheet.data.map fun row => JsArray.spliceAll row indexes := by
  induction indexes generalizing sheet with
  | nil => exact (List.map_id _).symm
  | cons index indexes ih =>
      rw [List.foldl_cons, ih, removeColumn, List.map_map]
      rfl

end Sheet

/-! ## Rows -/

section Rows

variable {sheet : Sheet} {rowIds : List RowIdValue}

/-- The index that the executor sorts rows by. -/
def rowKey (line : CellRangeWrapper) : ℤ :=
  line.from.rowIndex

theorem map_rowKey (sheet : Sheet) (rowIds : List RowIdValue) :
    (rowIds.map sheet.rowLine).map rowKey = rowIds.map sheet.indexOfRow := by
  rw [List.map_map]
  rfl

theorem indexed_rowLines (sheet : Sheet) (rowIds : List RowIdValue) :
    LineKind.row.Indexed rowKey (rowIds.map sheet.rowLine) := by
  intro line hline
  obtain ⟨rowId, _, rfl⟩ := List.mem_map.mp hline
  rfl

theorem removes_rowLines (hsheet : sheet.IsRectangular) (hfits : sheet.FitsArrays)
    (hcontains : ∀ rowId ∈ rowIds, sheet.Contains (rowLiteral rowId)) :
    LineKind.row.Removes rowKey
      (fun current => current.IsRectangular ∧
        current.numberOfColumns = sheet.clone.numberOfColumns)
      Sheet.numberOfRows Sheet.removeRow (rowIds.map sheet.rowLine) := by
  constructor
  · rintro line hline current ⟨_, hcolumns⟩
    obtain ⟨rowId, hrowId, rfl⟩ := List.mem_map.mp hline
    obtain ⟨hrows, hpos⟩ := (hcontains rowId hrowId).pos
    have hlt := (hcontains rowId hrowId).indexOfRow_lt
    rw [hsheet.clone_numberOfColumns (hsheet.data_ne_nil hrows)] at hcolumns
    obtain ⟨hrowsLimit, hcolumnsLimit⟩ := hfits
    have hlast : LAST_INDEX = 9007199254740991 := rfl
    have hrow : sheet.indexOfRow rowId < LAST_INDEX := by omega
    have hto : sheet.numberOfColumns - 1 < current.numberOfColumns := by omega
    have hwidth : 0 < current.numberOfColumns := by omega
    exact Sheet.deleteRow_eq rfl rfl hrow hwidth hto hwidth (by omega)
  · rintro current index ⟨hrectangular, hcolumns⟩ hpos hlt
    exact ⟨⟨hrectangular.removeRow hpos hlt, hcolumns⟩, rfl⟩

theorem deleteLines_rows (hcontains : ∀ rowId ∈ rowIds, sheet.Contains (rowLiteral rowId)) :
    LineKind.row.deleteLines sheet (rowIds.map rowLiteral) =
      ((LineKind.deleted rowKey (rowIds.map sheet.rowLine)).reverse.foldlM
        Sheet.deleteRow sheet.clone).map .ok := by
  let relativeLine : RowIdValue → CellRangeWrapper := fun rowId =>
    ⟨rowLiteral rowId, ⟨0, parseRowId rowId⟩, ⟨LAST_INDEX, parseRowId rowId⟩⟩
  have hwrap : (rowIds.map rowLiteral).mapM CellRangeWrapper.wrap =
      .ok (rowIds.map relativeLine) := by
    rw [List.mapM_map]
    exact LineKind.mapM_ok fun _ _ => rfl
  have hresolve : (rowIds.map relativeLine).map sheet.resolveRelativeIndexes =
      rowIds.map sheet.rowLine := by
    rw [List.map_map]
    exact List.map_congr_left fun rowId _ => sheet.resolve_row rowId
  have hkind : (rowIds.map relativeLine).all LineKind.row.isWrapper = true := by
    simp [relativeLine, LineKind.row, isRowWrapper, rowLiteral]
  have hbounds : ∀ line ∈ rowIds.map sheet.rowLine, sheet.isInBounds line = true := by
    intro line hline
    obtain ⟨rowId, hrowId, rfl⟩ := List.mem_map.mp hline
    obtain ⟨hrows, hpos⟩ := (hcontains rowId hrowId).pos
    have hlt := (hcontains rowId hrowId).indexOfRow_lt
    exact Sheet.isInBounds_of_le hrows hpos hlt hlt hpos
      (by omega : sheet.numberOfColumns - 1 < sheet.numberOfColumns)
  rw [← hresolve] at hbounds
  have hlines := LineKind.deleteLines_eq hwrap hkind hbounds
    (by rw [hresolve]; exact indexed_rowLines sheet rowIds)
  rwa [hresolve] at hlines

/-- The rows are deleted as a set. -/
theorem deleteLines_rows_iff (hsheet : sheet.IsRectangular) (hfits : sheet.FitsArrays)
    (hcontains : ∀ rowId ∈ rowIds, sheet.Contains (rowLiteral rowId)) :
    (∃ result, LineKind.row.deleteLines sheet (rowIds.map rowLiteral) = .ok (.ok result) ∧
      result.IsRectangular ∧
      result.data = JsArray.removeIndexes sheet.data (rowIds.map sheet.indexOfRow)) ↔
    LineKind.AtMostOneRepetition (rowIds.map sheet.indexOfRow) ∧
      ∀ rowId ∈ rowIds, ¬ IsRowZero rowId := by
  have hrows := hsheet.numberOfRows_eq
  have hclone : sheet.clone.numberOfRows = sheet.data.length := rfl
  have hlt : ∀ line ∈ rowIds.map sheet.rowLine, rowKey line < sheet.data.length := by
    rw [List.forall_mem_map, ← hrows]
    exact fun rowId hrowId => (hcontains rowId hrowId).indexOfRow_lt
  have hnonneg : (∀ index ∈ (LineKind.deleted rowKey (rowIds.map sheet.rowLine)).map rowKey,
      0 ≤ index) ↔ ∀ rowId ∈ rowIds, ¬ IsRowZero rowId := by
    simp only [LineKind.mem_map_deleted, map_rowKey, List.forall_mem_map]
    exact forall₂_congr fun rowId hrowId =>
      Sheet.indexOfRow_nonneg_iff rowId (hcontains rowId hrowId).pos.1
  rw [← hnonneg, ← map_rowKey, ← LineKind.nodup_map_deleted_iff, deleteLines_rows hcontains,
    LineKind.exists_map_ok_iff]
  refine (removes_rowLines hsheet hfits hcontains).deletes_iff ⟨hsheet.clone, rfl⟩ hlt ?_ ?_
  · rintro result ⟨hrectangular, _⟩ ⟨_, hdata⟩ hsize
    refine LineKind.nodup_map_deleted_of_length hlt ?_
    rw [← hdata, ← hrectangular.numberOfRows_eq, hsize, hclone]
  · rintro hdescending hbounds ⟨hrectangular, _⟩
    refine ⟨hrectangular, ?_⟩
    rw [Sheet.foldl_removeRow_data]
    exact LineKind.spliceAll_deleted hdescending hbounds

end Rows

/-! ## Columns -/

section Columns

variable {sheet : Sheet} {columnIds : List String}

/-- The index that the executor sorts columns by. -/
def columnKey (line : CellRangeWrapper) : ℤ :=
  line.from.columnIndex

theorem map_columnKey (sheet : Sheet) (columnIds : List String) :
    (columnIds.map sheet.columnLine).map columnKey = columnIds.map sheet.indexOfColumn := by
  rw [List.map_map]
  rfl

theorem indexed_columnLines (sheet : Sheet) (columnIds : List String) :
    LineKind.column.Indexed columnKey (columnIds.map sheet.columnLine) := by
  intro line hline
  obtain ⟨columnId, _, rfl⟩ := List.mem_map.mp hline
  rfl

theorem removes_columnLines (hfits : sheet.FitsArrays)
    (hcontains : ∀ columnId ∈ columnIds, sheet.Contains (columnLiteral columnId)) :
    LineKind.column.Removes columnKey
      (fun current => current.IsRectangular ∧ current.numberOfRows = sheet.numberOfRows)
      Sheet.numberOfColumns Sheet.removeColumn (columnIds.map sheet.columnLine) := by
  constructor
  · rintro line hline current ⟨_, hrows⟩
    obtain ⟨columnId, hcolumnId, rfl⟩ := List.mem_map.mp hline
    obtain ⟨hpos, _⟩ := (hcontains columnId hcolumnId).pos
    have hlt := (hcontains columnId hcolumnId).indexOfColumn_lt
    obtain ⟨hrowsLimit, hcolumnsLimit⟩ := hfits
    have hlast : LAST_INDEX = 9007199254740991 := rfl
    have hcolumn : sheet.indexOfColumn columnId < LAST_INDEX := by omega
    have hto : sheet.numberOfRows - 1 < current.numberOfRows := by omega
    have hheight : 0 < current.numberOfRows := by omega
    exact Sheet.deleteColumn_eq rfl rfl hcolumn hheight hto hheight (by omega)
  · rintro current index ⟨hrectangular, hrows⟩ hpos hlt
    exact ⟨⟨hrectangular.removeColumn hpos hlt, hrows⟩, rfl⟩

theorem deleteLines_columns
    (hcontains : ∀ columnId ∈ columnIds, sheet.Contains (columnLiteral columnId)) :
    LineKind.column.deleteLines sheet (columnIds.map columnLiteral) =
      ((LineKind.deleted columnKey (columnIds.map sheet.columnLine)).reverse.foldlM
        Sheet.deleteColumn sheet.clone).map .ok := by
  let relativeLine : String → CellRangeWrapper := fun columnId =>
    ⟨columnLiteral columnId, ⟨parseColumnId columnId, 0⟩, ⟨parseColumnId columnId, LAST_INDEX⟩⟩
  have hwrap : (columnIds.map columnLiteral).mapM CellRangeWrapper.wrap =
      .ok (columnIds.map relativeLine) := by
    rw [List.mapM_map]
    exact LineKind.mapM_ok fun _ _ => rfl
  have hresolve : (columnIds.map relativeLine).map sheet.resolveRelativeIndexes =
      columnIds.map sheet.columnLine := by
    rw [List.map_map]
    exact List.map_congr_left fun columnId _ => sheet.resolve_column columnId
  have hkind : (columnIds.map relativeLine).all LineKind.column.isWrapper = true := by
    simp [relativeLine, LineKind.column, isColumnWrapper, columnLiteral]
  have hbounds : ∀ line ∈ columnIds.map sheet.columnLine, sheet.isInBounds line = true := by
    intro line hline
    obtain ⟨columnId, hcolumnId, rfl⟩ := List.mem_map.mp hline
    obtain ⟨hpos, hcolumns⟩ := (hcontains columnId hcolumnId).pos
    have hlt := (hcontains columnId hcolumnId).indexOfColumn_lt
    exact Sheet.isInBounds_of_le hpos hcolumns hpos
      (by omega : sheet.numberOfRows - 1 < sheet.numberOfRows) hlt hlt
  rw [← hresolve] at hbounds
  have hlines := LineKind.deleteLines_eq hwrap hkind hbounds
    (by rw [hresolve]; exact indexed_columnLines sheet columnIds)
  rwa [hresolve] at hlines

theorem indexOfColumn_nonneg {columnId : String} (hcolumnId : (columnLiteral columnId).IsAccepted)
    (hpos : 0 < sheet.numberOfColumns) : 0 ≤ sheet.indexOfColumn columnId := by
  have hmem : ⟨some columnId⟩ ∈ (columnLiteral columnId).columnIds := by
    simp [columnLiteral, CellRangeLiteral.columnIds]
  have hnonneg := parseColumnId_nonneg (hcolumnId.columnIds hmem)
  rw [Sheet.indexOfColumn, CellIndex.resolveIndex]
  split_ifs <;> omega

/-- The columns are deleted as a set. -/
theorem deleteLines_columns_iff (hsheet : sheet.IsRectangular) (hfits : sheet.FitsArrays)
    (haccepted : ∀ columnId ∈ columnIds, (columnLiteral columnId).IsAccepted)
    (hcontains : ∀ columnId ∈ columnIds, sheet.Contains (columnLiteral columnId)) :
    (∃ result, LineKind.column.deleteLines sheet (columnIds.map columnLiteral) = .ok (.ok result) ∧
      result.IsRectangular ∧
      result.data = sheet.data.map fun row =>
        JsArray.removeIndexes row (columnIds.map sheet.indexOfColumn)) ↔
    LineKind.AtMostOneRepetition (columnIds.map sheet.indexOfColumn) := by
  have hnonneg : ∀ index ∈ (LineKind.deleted columnKey (columnIds.map sheet.columnLine)).map
      columnKey, 0 ≤ index := by
    simp only [LineKind.mem_map_deleted, map_columnKey, List.forall_mem_map]
    exact fun columnId hcolumnId =>
      indexOfColumn_nonneg (haccepted columnId hcolumnId) (hcontains columnId hcolumnId).pos.2
  have hclone : ∀ columnId ∈ columnIds, sheet.clone.numberOfColumns = sheet.numberOfColumns :=
    fun columnId hcolumnId =>
      hsheet.clone_numberOfColumns (hsheet.data_ne_nil (hcontains columnId hcolumnId).pos.1)
  have hlt : ∀ line ∈ columnIds.map sheet.columnLine,
      columnKey line < sheet.clone.numberOfColumns := by
    refine List.forall_mem_map.mpr fun columnId hcolumnId => ?_
    rw [hclone columnId hcolumnId]
    exact (hcontains columnId hcolumnId).indexOfColumn_lt
  rw [← map_columnKey, ← LineKind.nodup_map_deleted_iff, deleteLines_columns hcontains,
    LineKind.exists_map_ok_iff]
  refine Iff.trans ((removes_columnLines hfits hcontains).deletes_iff
    ⟨hsheet.clone, hsheet.numberOfRows_eq.symm⟩ hlt ?_ ?_) (and_iff_left hnonneg)
  · rintro result ⟨hrectangular, _⟩ ⟨_, hdata⟩ hsize
    by_cases hempty : columnIds = []
    · subst hempty
      exact ⟨List.nodup_nil, hnonneg⟩
    · obtain ⟨columnId, hcolumnId⟩ := List.exists_mem_of_ne_nil _ hempty
      obtain ⟨row, hrow⟩ := List.exists_mem_of_ne_nil _
        (hsheet.data_ne_nil (hcontains columnId hcolumnId).pos.1)
      have hlength : (row.length : ℤ) = sheet.clone.numberOfColumns :=
        hsheet.clone.length_eq row hrow
      have hleft : ((JsArray.removeIndexes row _).length : ℤ) = result.numberOfColumns :=
        hrectangular.length_eq _ (hdata ▸ List.mem_map_of_mem hrow)
      have hltRow : ∀ line ∈ columnIds.map sheet.columnLine, columnKey line < row.length :=
        hlength ▸ hlt
      refine LineKind.nodup_map_deleted_of_length hltRow ?_
      rw [hleft, hsize, hlength]
  · rintro hdescending hbounds ⟨hrectangular, _⟩
    refine ⟨hrectangular, ?_⟩
    rw [Sheet.foldl_removeColumn_data]
    refine List.map_congr_left fun row hrow => ?_
    refine LineKind.spliceAll_deleted hdescending fun index hindex => ?_
    rw [hsheet.clone.length_eq row hrow]
    exact hbounds index hindex

end Columns

/-! ## The executors -/

section Executors

variable {δ : Type}

/-- The value of the property `delete` of the current block. -/
def HasDeleteProperty (services : ExecutionServices) (context : ExecutionContext δ)
    (cellRanges : List CellRangeLiteral) : Prop :=
  ∃ after, getTypedPropertyValue services LineKind.cellRangesTypeguard "delete"
    (.collection .CellRange) context = some (.ok cellRanges, after)

/-- The result is the input sheet without the rows of the given indexes. -/
def DeletesRows (services : ExecutionServices) (context : ExecutionContext δ) (inputSheet : Sheet)
    (indexes : List ℤ) : Prop :=
  ∃ result after,
    RowDeleterExecutor.doExecute services inputSheet context = some (.ok (.ok result), after) ∧
      result.IsRectangular ∧ result.data = JsArray.removeIndexes inputSheet.data indexes

def DeletesColumns (services : ExecutionServices) (context : ExecutionContext δ)
    (inputSheet : Sheet) (indexes : List ℤ) : Prop :=
  ∃ result after,
    ColumnDeleterExecutor.doExecute services inputSheet context =
        some (.ok (.ok result), after) ∧
      result.IsRectangular ∧
      result.data = inputSheet.data.map fun row => JsArray.removeIndexes row indexes

theorem LineKind.doExecute_eq {services : ExecutionServices} {context : ExecutionContext δ}
    {cellRanges : List CellRangeLiteral} (h : HasDeleteProperty services context cellRanges)
    (kind : LineKind) (inputSheet : Sheet) :
    ∃ after, kind.doExecute services inputSheet context =
      some (kind.deleteLines inputSheet cellRanges, after) := by
  obtain ⟨after, h⟩ := h
  refine ⟨after, ?_⟩
  rw [doExecute, Exec.bind_of_ok h]
  rfl

theorem LineKind.doExecute_iff {kind : LineKind} {services : ExecutionServices}
    {context : ExecutionContext δ} {inputSheet : Sheet} {cellRanges : List CellRangeLiteral}
    (h : HasDeleteProperty services context cellRanges) {Q : Sheet → Prop} :
    (∃ result after,
      kind.doExecute services inputSheet context = some (.ok (.ok result), after) ∧ Q result) ↔
    ∃ result, kind.deleteLines inputSheet cellRanges = .ok (.ok result) ∧ Q result := by
  obtain ⟨after, hrun⟩ := doExecute_eq h kind inputSheet
  simp [hrun]

/-- The deleters delete a set of rows or columns exactly if at most one entry of the list repeats
another one, and no row is the row zero. -/
theorem deletersDeleteSet_iff (services : ExecutionServices) (sheet : Sheet)
    (hsheet : sheet.IsRectangular) (hfits : sheet.FitsArrays) :
    (∀ (context : ExecutionContext δ) (rowIds : List RowIdValue),
      (∀ rowId ∈ rowIds, sheet.Contains (rowLiteral rowId)) →
      HasDeleteProperty services context (rowIds.map rowLiteral) →
        (DeletesRows services context sheet (rowIds.map sheet.indexOfRow) ↔
          LineKind.AtMostOneRepetition (rowIds.map sheet.indexOfRow) ∧
            ∀ rowId ∈ rowIds, ¬ IsRowZero rowId)) ∧
    (∀ (context : ExecutionContext δ) (columnIds : List String),
      (∀ columnId ∈ columnIds, (columnLiteral columnId).IsAccepted) →
      (∀ columnId ∈ columnIds, sheet.Contains (columnLiteral columnId)) →
      HasDeleteProperty services context (columnIds.map columnLiteral) →
        (DeletesColumns services context sheet (columnIds.map sheet.indexOfColumn) ↔
          LineKind.AtMostOneRepetition (columnIds.map sheet.indexOfColumn))) := by
  constructor
  · intro context rowIds hcontains hproperty
    rw [← deleteLines_rows_iff hsheet hfits hcontains]
    exact LineKind.doExecute_iff hproperty
  · intro context columnIds haccepted hcontains hproperty
    rw [← deleteLines_columns_iff hsheet hfits haccepted hcontains]
    exact LineKind.doExecute_iff hproperty

/-- Blocks that delete `row 2, row *`, `column A, column A` and `column A, column B, column A,
column B`. -/
def deleterServices : ExecutionServices :=
  sampleServices {
    valuetypes := []
    constraints := []
    transforms := []
    blocks := [
      ⟨"Rows", none, [⟨"delete", .expression (.collectionLiteral
        [.cellRangeLiteral (rowLiteral (.index 2)), .cellRangeLiteral (rowLiteral .star)])⟩]⟩,
      ⟨"Columns", none, [⟨"delete", .expression (.collectionLiteral
        [.cellRangeLiteral (columnLiteral "A"), .cellRangeLiteral (columnLiteral "A")])⟩]⟩,
      ⟨"Twice", none, [⟨"delete", .expression (.collectionLiteral
        [.cellRangeLiteral (columnLiteral "A"), .cellRangeLiteral (columnLiteral "B"),
          .cellRangeLiteral (columnLiteral "A"), .cellRangeLiteral (columnLiteral "B")])⟩]⟩]
    blockTypes := [] }

def deleterContext (block : BlockId) : ExecutionContext Unit :=
  { construct (.construct ⟨fun _ => none, none⟩) with stack := [.block block] }

def gridSheet : Sheet :=
  Sheet.ofTexts [["a", "b", "c"], ["d", "e", "f"], ["g", "h", "i"]]

theorem deletersDeleteSet_gridSheet :
    (DeletesRows deleterServices (deleterContext 0) gridSheet [1, 2] ↔
      LineKind.AtMostOneRepetition [1, 2] ∧
        ∀ rowId ∈ [RowIdValue.index 2, .star], ¬ IsRowZero rowId) ∧
    (DeletesColumns deleterServices (deleterContext 1) gridSheet [0, 0] ↔
      LineKind.AtMostOneRepetition [0, 0]) := by
  have hsheet : gridSheet.IsRectangular := ⟨by decide, by decide⟩
  have hfits : gridSheet.FitsArrays := ⟨by decide, by decide⟩
  refine ⟨(deletersDeleteSet_iff deleterServices gridSheet hsheet hfits).1 (deleterContext 0)
      [.index 2, .star] ?_ ⟨_, rfl⟩,
    (deletersDeleteSet_iff deleterServices gridSheet hsheet hfits).2 (deleterContext 1)
      ["A", "A"] ?_ ?_ ⟨_, rfl⟩⟩
  · simp only [List.forall_mem_cons, List.not_mem_nil, false_imp_iff, implies_true, and_true]
    exact ⟨⟨_, rfl, by decide⟩, ⟨_, rfl, by decide⟩⟩
  · simp only [List.forall_mem_cons, List.not_mem_nil, false_imp_iff, implies_true, and_true]
    exact ⟨⟨by decide, by rfl⟩, ⟨by decide, by rfl⟩⟩
  · simp only [List.forall_mem_cons, List.not_mem_nil, false_imp_iff, implies_true, and_true]
    exact ⟨⟨_, rfl, by decide⟩, ⟨_, rfl, by decide⟩⟩

/-- The second column is deleted twice, which takes the third one away. -/
theorem not_deletersDeleteSet_twice :
    ¬ ∀ (services : ExecutionServices) (sheet : Sheet) (context : ExecutionContext Unit)
      (columnIds : List String), sheet.IsRectangular → sheet.FitsArrays →
      (∀ columnId ∈ columnIds, (columnLiteral columnId).IsAccepted) →
      (∀ columnId ∈ columnIds, sheet.Contains (columnLiteral columnId)) →
      HasDeleteProperty services context (columnIds.map columnLiteral) →
      DeletesColumns services context sheet (columnIds.map sheet.indexOfColumn) := by
  intro h
  have hdeletes := h deleterServices gridSheet (deleterContext 2) ["A", "B", "A", "B"]
    ⟨by decide, by decide⟩ ⟨by decide, by decide⟩ ?_ ?_ ⟨_, rfl⟩
  · obtain ⟨result, after, hrun, _, hdata⟩ := hdeletes
    have hempty : ColumnDeleterExecutor.doExecute deleterServices gridSheet (deleterContext 2) =
        some (.ok (.ok ⟨[[], [], []], 3, 0⟩), deleterContext 2) := by rfl
    rw [hempty] at hrun
    cases hrun
    exact absurd hdata (by decide)
  · simp only [List.forall_mem_cons, List.not_mem_nil, false_imp_iff, implies_true, and_true]
    exact ⟨⟨by decide, by rfl⟩, ⟨by decide, by rfl⟩, ⟨by decide, by rfl⟩, ⟨by decide, by rfl⟩⟩
  · simp only [List.forall_mem_cons, List.not_mem_nil, false_imp_iff, implies_true, and_true]
    exact ⟨⟨_, rfl, by decide⟩, ⟨_, rfl, by decide⟩, ⟨_, rfl, by decide⟩, ⟨_, rfl, by decide⟩⟩

end Executors

end Jayvee
