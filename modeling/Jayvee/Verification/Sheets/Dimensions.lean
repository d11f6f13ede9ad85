import Jayvee.Foundation.Trace
import Jayvee.Verification.Sheets.CellRanges

/-! # The dimensions of a sheet -/

namespace Jayvee

open Foundation

/-! ## The width of the data -/

/-- `width` is the greatest length of a row, or zero without rows. -/
structure IsWidth (data : List (List (Option String))) (width : ℤ) : Prop where
  length_le : ∀ row ∈ data, (row.length : ℤ) ≤ width
  attained : (∃ row ∈ data, (row.length : ℤ) = width) ∨ (data = [] ∧ width = 0)

theorem foldl_max_eq (data : List (List (Option String))) (prev : Nat) :
    data.foldl (fun prev curr => if curr.length > prev then curr.length else prev) prev =
      max prev (Sheet.maxRowLength data) := by
  induction data generalizing prev with
  | nil => simp [Sheet.maxRowLength]
  | cons row data ih =>
      rw [Sheet.maxRowLength, List.foldl_cons, List.foldl_cons, ih, ih]
      split_ifs <;> omega

theorem maxRowLength_cons (row : List (Option String)) (data : List (List (Option String))) :
    Sheet.maxRowLength (row :: data) = max row.length (Sheet.maxRowLength data) := by
  have hfold := foldl_max_eq data row.length
  rw [Sheet.maxRowLength, List.foldl_cons, ← hfold]
  congr 1
  split_ifs <;> omega

theorem isWidth_maxRowLength (data : List (List (Option String))) :
    IsWidth data (Sheet.maxRowLength data) := by
  induction data with
  | nil => exact ⟨by simp, .inr ⟨rfl, rfl⟩⟩
  | cons row data ih =>
      rw [maxRowLength_cons]
      constructor
      · intro other hother
        cases List.mem_cons.mp hother with
        | inl heq =>
            rw [heq]
            omega
        | inr hmem =>
            have hle := ih.length_le other hmem
            omega
      · by_cases hle : Sheet.maxRowLength data ≤ row.length
        · exact .inl ⟨row, List.mem_cons_self, by omega⟩
        · cases ih.attained with
          | inl hattained =>
              obtain ⟨other, hother, hlength⟩ := hattained
              exact .inl ⟨other, List.mem_cons_of_mem _ hother, by omega⟩
          | inr hempty => omega

theorem IsWidth.unique {data : List (List (Option String))} {width width' : ℤ}
    (h : IsWidth data width) (h' : IsWidth data width') : width = width' := by
  obtain ⟨hle, hattained⟩ := h
  obtain ⟨hle', hattained'⟩ := h'
  rcases hattained with ⟨row, hrow, hlength⟩ | ⟨rfl, rfl⟩
  · rcases hattained' with ⟨row', hrow', hlength'⟩ | ⟨rfl, rfl⟩
    · have hwidth := hle' row hrow
      have hwidth' := hle row' hrow'
      omega
    · cases hrow
  · rcases hattained' with ⟨row', hrow', _⟩ | ⟨_, rfl⟩
    · cases hrow'
    · rfl

/-! ## Consistent sheets -/

/-- The stored dimensions are those of the data, and a clone has them too. -/
structure Sheet.Consistent (sheet : Sheet) : Prop where
  numberOfRows_eq : sheet.numberOfRows = sheet.data.length
  numberOfColumns_eq : IsWidth sheet.data sheet.numberOfColumns
  clone_numberOfRows : sheet.clone.numberOfRows = sheet.numberOfRows
  clone_numberOfColumns : sheet.clone.numberOfColumns = sheet.numberOfColumns
  clone_isInBounds : ∀ range, sheet.isInBounds range = true → sheet.clone.isInBounds range = true

theorem Sheet.consistent_iff (sheet : Sheet) :
    sheet.Consistent ↔
      sheet.numberOfRows = sheet.data.length ∧ IsWidth sheet.data sheet.numberOfColumns := by
  constructor
  · exact fun h => ⟨h.numberOfRows_eq, h.numberOfColumns_eq⟩
  · rintro ⟨hrows, hcolumns⟩
    have hcloneRows : sheet.clone.numberOfRows = sheet.numberOfRows := hrows.symm
    have hcloneColumns : sheet.clone.numberOfColumns = sheet.numberOfColumns :=
      (isWidth_maxRowLength sheet.data).unique hcolumns
    refine ⟨hrows, hcolumns, hcloneRows, hcloneColumns, ?_⟩
    intro range hbounds
    rwa [Sheet.isInBounds, Sheet.getBounds, hcloneRows, hcloneColumns]

theorem Sheet.consistent_mk_iff {data : List (List (Option String))}
    {numberOfRows numberOfColumns : ℤ} :
    (Sheet.mk data numberOfRows numberOfColumns).Consistent ↔
      numberOfRows = data.length ∧ IsWidth data numberOfColumns :=
  Sheet.consistent_iff _

theorem Sheet.construct_consistent (data : List (List (Option String))) :
    (Sheet.construct data).Consistent :=
  (Sheet.consistent_iff _).mpr ⟨rfl, isWidth_maxRowLength data⟩

/-- The matrix is one of JavaScript, where no array has `2 ^ 32` elements. -/
structure IsArrayData (data : List (List (Option String))) : Prop where
  length_lt : data.length < 2 ^ 32
  rows_lt : ∀ row ∈ data, row.length < 2 ^ 32

theorem Sheet.Consistent.fitsArrays {sheet : Sheet} (h : sheet.Consistent)
    (hfits : IsArrayData sheet.data) : sheet.FitsArrays := by
  refine ⟨?_, ?_⟩
  · have hlength := hfits.length_lt
    rw [h.numberOfRows_eq]
    omega
  · rcases h.numberOfColumns_eq.attained with ⟨row, hrow, hlength⟩ | ⟨_, hzero⟩
    · have hlt := hfits.rows_lt row hrow
      omega
    · omega

/-! ## What an operation does -/

theorem Sheet.numberOfRows_pos {sheet : Sheet} {range : CellRangeWrapper}
    (h : sheet.isInBounds range = true) : 0 < sheet.numberOfRows ∧ 0 < sheet.numberOfColumns := by
  obtain ⟨⟨hcolumn, _⟩, hrow, _⟩ := (sheet.isInBounds_iff range).mp h
  have hcolumns := ((isIndexInBounds_iff _ _).mp hcolumn).1
  have hrows := ((isIndexInBounds_iff _ _).mp hrow).1
  omega

theorem getRowIndex_eq_ok {row : CellRangeWrapper} {rowIndex : ℤ}
    (h : getRowIndex row = .ok rowIndex) : rowIndex = row.from.rowIndex := by
  rw [getRowIndex] at h
  split_ifs at h
  cases h
  rfl

theorem getColumnIndex_eq_ok {column : CellRangeWrapper} {columnIndex : ℤ}
    (h : getColumnIndex column = .ok columnIndex) : columnIndex = column.from.columnIndex := by
  rw [getColumnIndex] at h
  split_ifs at h
  cases h
  rfl

theorem Sheet.deleteRow_eq_ok {sheet sheet' : Sheet} {row : CellRangeWrapper}
    (h : sheet.deleteRow row = .ok sheet') :
    sheet.isInBounds row = true ∧ sheet' =
      ⟨JsArray.splice sheet.data (sheet.resolveRelativeIndexes row).from.rowIndex,
        sheet.numberOfRows - 1, sheet.numberOfColumns⟩ := by
  obtain ⟨_, hbounds, h⟩ := except_bind_eq_ok_iff.mp h
  obtain ⟨rowIndex, hindex, h⟩ := except_bind_eq_ok_iff.mp h
  cases h
  rw [getRowIndex_eq_ok hindex]
  exact ⟨assert_eq_ok.mp hbounds, rfl⟩

theorem Sheet.deleteColumn_eq_ok {sheet sheet' : Sheet} {column : CellRangeWrapper}
    (h : sheet.deleteColumn column = .ok sheet') :
    sheet.isInBounds column = true ∧ sheet' =
      ⟨sheet.data.map fun row =>
          JsArray.splice row (sheet.resolveRelativeIndexes column).from.columnIndex,
        sheet.numberOfRows, sheet.numberOfColumns - 1⟩ := by
  obtain ⟨_, hbounds, h⟩ := except_bind_eq_ok_iff.mp h
  obtain ⟨columnIndex, hindex, h⟩ := except_bind_eq_ok_iff.mp h
  cases h
  rw [getColumnIndex_eq_ok hindex]
  exact ⟨assert_eq_ok.mp hbounds, rfl⟩

theorem Sheet.writeCell_eq_ok {sheet sheet' : Sheet} {cell : CellIndex} {content : String}
    (h : sheet.writeCell cell content = .ok sheet') :
    cell.isInBounds sheet.getBounds = true ∧
      ∃ row, JsArray.get? sheet.data cell.rowIndex = some row ∧ sheet' =
        ⟨sheet.data.set cell.rowIndex.toNat (JsArray.assign row cell.columnIndex content),
          sheet.numberOfRows, sheet.numberOfColumns⟩ := by
  obtain ⟨_, hbounds, h⟩ := except_bind_eq_ok_iff.mp h
  cases hrow : JsArray.get? sheet.data cell.rowIndex with
  | none =>
      simp only [hrow] at h
      cases h
  | some row =>
      simp only [hrow] at h
      cases h
      exact ⟨assert_eq_ok.mp hbounds, row, rfl, rfl⟩

theorem Sheet.selectRange_eq_ok {sheet sheet' : Sheet} {range : CellRangeWrapper}
    (h : sheet.selectRange range = .ok sheet') :
    sheet.isInBounds range = true ∧ sheet' =
      let resolved := sheet.resolveRelativeIndexes range
      ⟨Sheet.selectCells sheet.data resolved,
        resolved.to.rowIndex - resolved.from.rowIndex + 1,
        resolved.to.columnIndex - resolved.from.columnIndex + 1⟩ := by
  obtain ⟨_, hbounds, h⟩ := except_bind_eq_ok_iff.mp h
  cases h
  exact ⟨assert_eq_ok.mp hbounds, rfl⟩

/-- The rows of a range are a section of the data. -/
theorem selectCells_eq (data : List (List (Option String))) (range : CellRangeWrapper) :
    Sheet.selectCells data range =
      ((data.take (range.to.rowIndex + 1).toNat).drop range.from.rowIndex.toNat).map fun row =>
        JsArray.slice row range.from.columnIndex (range.to.columnIndex + 1) := by
  have hrows := JsArray.map_filter_zipIdx data 0 range.from.rowIndex range.to.rowIndex
  simp only [Nat.cast_zero, sub_zero] at hrows
  rw [← hrows, List.map_map, Sheet.selectCells]
  apply congrArg
  apply List.filter_congr
  rintro ⟨row, rowIndex⟩ _
  simp

/-! ## The dimensions after an operation -/

/-- The selection starts at a row of the sheet, and one of its rows is as wide as it is. -/
def SelectsWidestRow (data : List (List (Option String))) (resolved : CellRangeWrapper) : Prop :=
  0 ≤ resolved.from.rowIndex ∧ ∃ (rowIndex : Nat) (row : List (Option String)),
    data[rowIndex]? = some row ∧ resolved.from.rowIndex ≤ rowIndex ∧
    rowIndex ≤ resolved.to.rowIndex ∧ resolved.to.columnIndex < row.length

namespace SheetOperation

/-- The ranges are such as the validation accepts them. -/
def IsProper : SheetOperation → Prop
  | selectRange range => range.IsProper
  | _ => True

/-- A row that is as wide as the sheet remains, or as wide as the selection. -/
def KeepsWidestRow (sheet : Sheet) : SheetOperation → Prop
  | deleteRow row =>
      ∃ other ∈ JsArray.splice sheet.data (sheet.resolveRelativeIndexes row).from.rowIndex,
        (other.length : ℤ) = sheet.numberOfColumns
  | selectRange range => SelectsWidestRow sheet.data (sheet.resolveRelativeIndexes range)
  | _ => True

end SheetOperation

section Operations

variable {sheet sheet' : Sheet}

theorem deleteRow_consistent_iff {row : CellRangeWrapper} (hsheet : sheet.Consistent)
    (h : sheet.deleteRow row = .ok sheet') :
    sheet'.Consistent ↔ (SheetOperation.deleteRow row).KeepsWidestRow sheet := by
  obtain ⟨hbounds, rfl⟩ := Sheet.deleteRow_eq_ok h
  obtain ⟨hrows, hcolumns⟩ := (Sheet.consistent_iff _).mp hsheet
  obtain ⟨hrowsPos, hcolumnsPos⟩ := Sheet.numberOfRows_pos hbounds
  obtain ⟨_, hfrom, _⟩ := (sheet.isInBounds_iff row).mp hbounds
  have hindex : (sheet.resolveRelativeIndexes row).from.rowIndex < sheet.data.length := by
    have hle := resolveIndex_le hfrom
    rw [Sheet.resolveRelativeIndexes_eq, ← hrows]
    exact Int.lt_of_le_sub_one hle
  have hne : sheet.data ≠ [] := by
    intro hnil
    rw [hnil] at hrows
    simp [hrows] at hrowsPos
  have hlength := JsArray.length_splice_of_lt hne hindex
  have hpos : 0 < sheet.data.length := List.length_pos_iff.mpr hne
  rw [Sheet.consistent_mk_iff]
  constructor
  · rintro ⟨_, hwidth⟩
    cases hwidth.attained with
    | inl hattained => exact hattained
    | inr hempty => omega
  · intro hkeeps
    refine ⟨?_, ?_, .inl hkeeps⟩
    · rw [hlength, hrows]
      omega
    · exact fun other hother => hcolumns.length_le other (JsArray.mem_splice hother)

theorem deleteColumn_consistent {column : CellRangeWrapper} (hsheet : sheet.Consistent)
    (h : sheet.deleteColumn column = .ok sheet') : sheet'.Consistent := by
  obtain ⟨hbounds, rfl⟩ := Sheet.deleteColumn_eq_ok h
  obtain ⟨hrows, hcolumns⟩ := (Sheet.consistent_iff _).mp hsheet
  obtain ⟨hrowsPos, hcolumnsPos⟩ := Sheet.numberOfRows_pos hbounds
  obtain ⟨⟨hfrom, _⟩, _⟩ := (sheet.isInBounds_iff column).mp hbounds
  have hindex : (sheet.resolveRelativeIndexes column).from.columnIndex ≤
      sheet.numberOfColumns - 1 := by
    rw [Sheet.resolveRelativeIndexes_eq]
    exact resolveIndex_le hfrom
  rw [Sheet.consistent_mk_iff]
  refine ⟨by simp [hrows], ?_, ?_⟩
  · intro other hother
    obtain ⟨row, hrow, rfl⟩ := List.mem_map.mp hother
    have hle := hcolumns.length_le row hrow
    by_cases hlt : (sheet.resolveRelativeIndexes column).from.columnIndex < row.length
    · by_cases hnil : row = []
      · simp only [hnil, JsArray.splice, List.eraseIdx_nil, List.length_nil]
        omega
      · have hpos : 0 < row.length := List.length_pos_iff.mpr hnil
        rw [JsArray.length_splice_of_lt hnil hlt]
        omega
    · have hsplice := JsArray.length_splice_le row
        (sheet.resolveRelativeIndexes column).from.columnIndex
      omega
  · rcases hcolumns.attained with ⟨row, hrow, hlength⟩ | ⟨_, hzero⟩
    · have hnil : row ≠ [] := by
        rintro rfl
        simp at hlength
        omega
      have hpos : 0 < row.length := List.length_pos_iff.mpr hnil
      refine .inl ⟨_, List.mem_map_of_mem hrow, ?_⟩
      rw [JsArray.length_splice_of_lt hnil (by omega)]
      omega
    · omega

theorem writeCell_consistent {cell : CellIndex} {content : String} (hsheet : sheet.Consistent)
    (h : sheet.writeCell cell content = .ok sheet') : sheet'.Consistent := by
  obtain ⟨hbounds, row, hrow, rfl⟩ := Sheet.writeCell_eq_ok h
  obtain ⟨hrows, hcolumns⟩ := (Sheet.consistent_iff _).mp hsheet
  obtain ⟨hcolumn, _⟩ := (Bool.and_eq_true _ _).mp hbounds
  obtain ⟨_, hindex⟩ := (isIndexInBounds_iff _ _).mp hcolumn
  have hrowLe := hcolumns.length_le row (JsArray.mem_of_get? hrow)
  have hwritten : ((JsArray.assign row cell.columnIndex content).length : ℤ) ≤
      sheet.numberOfColumns := by
    apply JsArray.length_assign_le hrowLe
    rintro ⟨_, hlt⟩
    have hlast : LAST_INDEX = 9007199254740991 := rfl
    simp only [Sheet.getBounds] at hindex
    omega
  have hlonger := JsArray.length_le_length_assign row cell.columnIndex content
  have hget := (JsArray.get?_eq_some hrow).2
  rw [Sheet.consistent_mk_iff]
  refine ⟨by simp [hrows], ?_, ?_⟩
  · intro other hother
    cases List.mem_or_eq_of_mem_set hother with
    | inl hold => exact hcolumns.length_le other hold
    | inr hnew => exact hnew ▸ hwritten
  · rcases hcolumns.attained with ⟨widest, hwidest, hlength⟩ | ⟨hnil, _⟩
    · obtain ⟨i, hi⟩ := List.mem_iff_getElem?.mp hwidest
      by_cases hsame : cell.rowIndex.toNat = i
      · rw [hsame, hi] at hget
        cases hget
        refine .inl ⟨_, List.mem_set (List.getElem?_eq_some_iff.mp (hsame ▸ hi)).1 _, ?_⟩
        omega
      · refine .inl ⟨widest, List.mem_of_getElem? (i := i) ?_, hlength⟩
        rw [List.getElem?_set_ne hsame, hi]
    · rw [hnil] at hget
      cases hget

theorem selectRange_consistent_iff {range : CellRangeWrapper} (hsheet : sheet.Consistent)
    (hfits : IsArrayData sheet.data) (hproper : range.IsProper)
    (h : sheet.selectRange range = .ok sheet') :
    sheet'.Consistent ↔ (SheetOperation.selectRange range).KeepsWidestRow sheet := by
  obtain ⟨hbounds, rfl⟩ := Sheet.selectRange_eq_ok h
  obtain ⟨hrows, _⟩ := (Sheet.consistent_iff _).mp hsheet
  obtain ⟨⟨hcolumn, hcolumnsLe, _⟩, hrowsLe, hlastRow⟩ :=
    resolveRelativeIndexes_bounds (hsheet.fitsArrays hfits) hproper hbounds
  rw [Sheet.consistent_mk_iff, selectCells_eq]
  change _ ↔ SelectsWidestRow sheet.data (sheet.resolveRelativeIndexes range)
  generalize sheet.resolveRelativeIndexes range = resolved at *
  have hslice : ∀ row : List (Option String),
      (JsArray.slice row resolved.from.columnIndex (resolved.to.columnIndex + 1)).length =
        min (resolved.to.columnIndex + 1).toNat row.length -
          min resolved.from.columnIndex.toNat row.length :=
    fun row => JsArray.length_slice hcolumn (by omega)
  simp only [List.length_map, List.length_drop, List.length_take]
  constructor
  · rintro ⟨hlength, _, hattained⟩
    have hnonneg : 0 ≤ resolved.from.rowIndex := by omega
    refine ⟨hnonneg, ?_⟩
    cases hattained with
    | inl hattained =>
        obtain ⟨other, hother, hwidth⟩ := hattained
        obtain ⟨row, hrow, rfl⟩ := List.mem_map.mp hother
        obtain ⟨i, hi, hstart, hstop⟩ := JsArray.mem_drop_take_iff.mp hrow
        rw [hslice row] at hwidth
        exact ⟨i, row, hi, by omega, by omega, by omega⟩
    | inr hempty => omega
  · rintro ⟨hnonneg, i, row, hi, hstart, hstop, hwide⟩
    refine ⟨by omega, ?_, .inl ?_⟩
    · intro other hother
      obtain ⟨row, _, rfl⟩ := List.mem_map.mp hother
      rw [hslice row]
      omega
    · refine ⟨_, List.mem_map_of_mem (JsArray.mem_drop_take_iff.mpr ⟨i, hi, ?_, ?_⟩), ?_⟩
      · omega
      · omega
      · rw [hslice row]
        omega

/-! ## Runs -/

theorem execute_isArrayData {operation : SheetOperation} (hfits : IsArrayData sheet.data)
    (h : operation.execute sheet = .ok sheet') : IsArrayData sheet'.data := by
  obtain ⟨hlength, hrows⟩ := hfits
  cases operation with
  | deleteRow row =>
      obtain ⟨_, rfl⟩ := Sheet.deleteRow_eq_ok h
      refine ⟨(JsArray.length_splice_le _ _).trans_lt hlength, ?_⟩
      exact fun other hother => hrows other (JsArray.mem_splice hother)
  | deleteColumn column =>
      obtain ⟨_, rfl⟩ := Sheet.deleteColumn_eq_ok h
      refine ⟨by simpa using hlength, ?_⟩
      intro other hother
      obtain ⟨row, hrow, rfl⟩ := List.mem_map.mp hother
      exact (JsArray.length_splice_le _ _).trans_lt (hrows row hrow)
  | writeCell cell content =>
      obtain ⟨_, row, hrow, rfl⟩ := Sheet.writeCell_eq_ok h
      refine ⟨by simpa using hlength, ?_⟩
      intro other hother
      cases List.mem_or_eq_of_mem_set hother with
      | inl hold => exact hrows other hold
      | inr hnew =>
          have hrowLt := hrows row (JsArray.mem_of_get? hrow)
          have hwritten : ((JsArray.assign row cell.columnIndex content).length : ℤ) ≤
              2 ^ 32 - 1 :=
            JsArray.length_assign_le (by omega) fun hindex => hindex.2
          rw [hnew]
          omega
  | selectRange range =>
      obtain ⟨_, rfl⟩ := Sheet.selectRange_eq_ok h
      simp only [selectCells_eq]
      constructor
      · simp only [List.length_map, List.length_drop, List.length_take]
        omega
      · intro other hother
        obtain ⟨row, hrow, rfl⟩ := List.mem_map.mp hother
        have hmem := List.mem_of_mem_take (List.mem_of_mem_drop hrow)
        exact (JsArray.length_slice_le _ _ _).trans_lt (hrows row hmem)
  | clone =>
      cases h
      exact ⟨hlength, hrows⟩

theorem execute_consistent_iff {operation : SheetOperation} (hsheet : sheet.Consistent)
    (hfits : IsArrayData sheet.data) (hproper : operation.IsProper)
    (h : operation.execute sheet = .ok sheet') :
    sheet'.Consistent ↔ operation.KeepsWidestRow sheet := by
  cases operation with
  | deleteRow row => exact deleteRow_consistent_iff hsheet h
  | deleteColumn column => exact iff_of_true (deleteColumn_consistent hsheet h) trivial
  | writeCell cell content => exact iff_of_true (writeCell_consistent hsheet h) trivial
  | selectRange range => exact selectRange_consistent_iff hsheet hfits hproper h
  | clone =>
      cases h
      exact iff_of_true (Sheet.construct_consistent _) trivial

end Operations

/-- In every run of operations on a sheet, the stored dimensions are those of the data, and of
a clone, in all states that are reached exactly if every step keeps a widest row. -/
theorem sheet_consistent_iff (data : List (List String))
    (hfits : IsArrayData (data.map fun row => row.map some)) (operations : List SheetOperation)
    (hproper : ∀ operation ∈ operations, operation.IsProper) :
    EveryState (fun sheet operation => SheetOperation.execute sheet operation) Sheet.Consistent
        (Sheet.ofTexts data) operations ↔
      EveryStep (fun sheet operation => SheetOperation.execute sheet operation)
        (fun sheet operation => operation.KeepsWidestRow sheet) (Sheet.ofTexts data)
        operations := by
  apply everyState_iff_everyStep (Q := fun sheet => IsArrayData sheet.data)
    (Sheet.construct_consistent _) hfits
  intro sheet sheet' operation hmem hsheet hfits h
  exact ⟨execute_consistent_iff hsheet hfits (hproper operation hmem) h,
    fun _ => execute_isArrayData hfits h⟩

/-- `row 1`. -/
def firstRow : CellRangeWrapper :=
  ⟨.row (some ⟨some (.index 1)⟩), ⟨0, 0⟩, ⟨LAST_INDEX, 0⟩⟩

theorem sheet_consistent_narrowFirst :
    EveryState (fun sheet operation => SheetOperation.execute sheet operation) Sheet.Consistent
      (Sheet.ofTexts [["a"], ["b", "c"]]) [.deleteRow firstRow, .clone] := by
  refine (sheet_consistent_iff [["a"], ["b", "c"]] ⟨by decide, by decide⟩
    [.deleteRow firstRow, .clone] ?_).mpr ?_
  · intro operation hoperation
    simp only [List.mem_cons, List.not_mem_nil, or_false] at hoperation
    rcases hoperation with rfl | rfl <;> trivial
  · rintro _ ⟨⟩
    refine ⟨⟨[some "b", some "c"], by decide, by decide⟩, ?_⟩
    rintro _ ⟨⟩
    exact ⟨trivial, trivial⟩

theorem not_sheet_consistent_wideFirst :
    ¬ ∀ (data : List (List String)) (operations : List SheetOperation),
      IsArrayData (data.map fun row => row.map some) →
      (∀ operation ∈ operations, operation.IsProper) →
      EveryState (fun sheet operation => SheetOperation.execute sheet operation)
        Sheet.Consistent (Sheet.ofTexts data) operations := by
  intro h
  have hstates := h [["a", "b"], ["c"]] [.deleteRow firstRow] ⟨by decide, by decide⟩
    (by
      intro operation hoperation
      simp only [List.mem_cons, List.not_mem_nil, or_false] at hoperation
      rw [hoperation]
      trivial)
  have hconsistent := hstates.2 ⟨[[some "c"]], 1, 2⟩ (by rfl)
  exact absurd hconsistent.clone_numberOfColumns (by decide)

end Jayvee
