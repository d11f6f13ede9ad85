import Jayvee.Foundation.Grid
import Jayvee.Model.CellExecutors
import Jayvee.Verification.Execution.Properties
import Jayvee.Verification.Sheets.Classification

/-! # Selections of cell ranges -/

namespace Jayvee

open Foundation ExecutionContext

/-! ## Rectangular sheets as grids -/

namespace Sheet

/-- `data[rowIndex][columnIndex]`. -/
def cell (this : Sheet) (rowIndex columnIndex : ℤ) : Option (Option String) :=
  (JsArray.get? this.data rowIndex).bind fun row => JsArray.get? row columnIndex

theorem cell_natCast (sheet : Sheet) (i j : Nat) : sheet.cell i j = Grid.cell sheet.data i j := by
  simp [cell, Grid.cell, JsArray.get?]

theorem cell_eq_grid {sheet : Sheet} {rowIndex columnIndex : ℤ} (hrow : 0 ≤ rowIndex)
    (hcolumn : 0 ≤ columnIndex) :
    sheet.cell rowIndex columnIndex = Grid.cell sheet.data rowIndex.toNat columnIndex.toNat := by
  rw [← cell_natCast, Int.toNat_of_nonneg hrow, Int.toNat_of_nonneg hcolumn]

namespace IsRectangular

variable {sheet : Sheet}

theorem hasSize (h : sheet.IsRectangular) :
    Grid.HasSize sheet.data sheet.numberOfRows.toNat sheet.numberOfColumns.toNat := by
  refine ⟨?_, fun row hrow => ?_⟩
  · rw [h.numberOfRows_eq]
    rfl
  · rw [← h.length_eq row hrow]
    rfl

/-- A sheet of non-negative dimensions whose data have these dimensions. -/
theorem of_hasSize (hrows : 0 ≤ sheet.numberOfRows) (hcolumns : 0 ≤ sheet.numberOfColumns)
    (h : Grid.HasSize sheet.data sheet.numberOfRows.toNat sheet.numberOfColumns.toNat) :
    sheet.IsRectangular := by
  refine ⟨?_, fun row hrow => ?_⟩
  · rw [h.length_eq, Int.toNat_of_nonneg hrows]
  · rw [h.length_row row hrow, Int.toNat_of_nonneg hcolumns]

/-- Rectangular sheets of the same dimensions and cells are the same. -/
theorem ext {sheet' : Sheet} (h : sheet.IsRectangular) (h' : sheet'.IsRectangular)
    (hrows : sheet.numberOfRows = sheet'.numberOfRows)
    (hcolumns : sheet.numberOfColumns = sheet'.numberOfColumns)
    (hcell : ∀ i j : Nat, i < sheet.numberOfRows → j < sheet.numberOfColumns →
      sheet.cell i j = sheet'.cell i j) : sheet = sheet' := by
  have hsize := h'.hasSize
  rw [← hrows, ← hcolumns] at hsize
  have hdata : sheet.data = sheet'.data := by
    refine h.hasSize.ext hsize fun i j hi hj => ?_
    rw [← cell_natCast, ← cell_natCast]
    exact hcell i j (by omega) (by omega)
  cases sheet
  cases sheet'
  simp_all

/-- A sheet with a row knows its dimensions from the data. -/
theorem clone_eq (h : sheet.IsRectangular) (hpos : 0 < sheet.numberOfRows) :
    sheet.clone = sheet := by
  have hcolumns := h.clone_numberOfColumns (h.data_ne_nil hpos)
  exact h.clone.ext h h.numberOfRows_eq.symm hcolumns fun _ _ _ _ => rfl

theorem cell_eq_none (h : sheet.IsRectangular) {i j : ℤ}
    (hout : ¬ ((0 ≤ i ∧ i < sheet.numberOfRows) ∧ 0 ≤ j ∧ j < sheet.numberOfColumns)) :
    sheet.cell i j = none := by
  by_cases hnonneg : 0 ≤ i ∧ 0 ≤ j
  · rw [cell_eq_grid hnonneg.1 hnonneg.2]
    exact h.hasSize.cell_eq_none (by omega)
  · rw [cell, Option.bind_eq_none_iff]
    intro row hrow
    have hi := (JsArray.get?_eq_some hrow).1
    rw [JsArray.get?, if_neg (by omega)]

end IsRectangular

end Sheet

/-! ## One selection -/

/-- The sheet consists of the cells of another one that lie inside of a range. -/
structure IsSelection (sheet : Sheet) (range : CellRangeWrapper) (result : Sheet) : Prop where
  rectangular : result.IsRectangular
  numberOfRows_eq : result.numberOfRows = range.to.rowIndex - range.from.rowIndex + 1
  numberOfColumns_eq : result.numberOfColumns = range.to.columnIndex - range.from.columnIndex + 1
  cell_eq : ∀ i j : ℤ, 0 ≤ i ∧ i < result.numberOfRows → 0 ≤ j ∧ j < result.numberOfColumns →
    result.cell i j = sheet.cell (range.from.rowIndex + i) (range.from.columnIndex + j)
  cell_eq_none : ∀ i j : ℤ,
    ¬ ((0 ≤ i ∧ i < result.numberOfRows) ∧ 0 ≤ j ∧ j < result.numberOfColumns) →
    result.cell i j = none

namespace CellRangeWrapper

/-- The range, counted from another cell. -/
def shift (this : CellRangeWrapper) (origin : CellIndex) : CellRangeWrapper where
  astNode := this.astNode
  «from» := ⟨origin.columnIndex + this.from.columnIndex, origin.rowIndex + this.from.rowIndex⟩
  «to» := ⟨origin.columnIndex + this.to.columnIndex, origin.rowIndex + this.to.rowIndex⟩

end CellRangeWrapper

section Selections

variable {sheet result result' : Sheet} {range range' : CellRangeWrapper}

theorem IsSelection.unique (h : IsSelection sheet range result)
    (h' : IsSelection sheet range result') : result = result' := by
  have hrows := h.numberOfRows_eq.trans h'.numberOfRows_eq.symm
  have hcolumns := h.numberOfColumns_eq.trans h'.numberOfColumns_eq.symm
  refine h.rectangular.ext h'.rectangular hrows hcolumns fun i j hi hj => ?_
  rw [h.cell_eq i j (by omega) (by omega), h'.cell_eq i j (by omega) (by omega)]

/-- A selection of a selection is one of the first sheet, from a range that is shifted by the
origin of the first selection. -/
theorem IsSelection.trans (h : IsSelection sheet range result)
    (h' : IsSelection result range' result') (hinside : range'.LiesInside result) :
    IsSelection sheet (range'.shift range.from) result' := by
  obtain ⟨_, hcolumn, _, hlastColumn, hrow, _, hlastRow⟩ := hinside
  have hrows := h'.numberOfRows_eq
  have hcolumns := h'.numberOfColumns_eq
  refine ⟨h'.rectangular, ?_, ?_, ?_, h'.cell_eq_none⟩
  · simp only [CellRangeWrapper.shift]
    omega
  · simp only [CellRangeWrapper.shift]
    omega
  · intro i j hi hj
    rw [h'.cell_eq i j hi hj, h.cell_eq _ _ (by omega) (by omega)]
    simp only [CellRangeWrapper.shift, add_assoc]

theorem selectCells_eq_block (hinside : range.LiesInside sheet) :
    Sheet.selectCells sheet.data range =
      Grid.block sheet.data range.from.rowIndex.toNat (range.to.rowIndex + 1).toNat
        range.from.columnIndex.toNat (range.to.columnIndex + 1).toNat := by
  have hcolumn := hinside.columns_nonneg
  have hcolumns := hinside.columns_le
  rw [selectCells_eq, Grid.block]
  refine List.map_congr_left fun row _ => ?_
  rw [JsArray.slice_of_nonneg hcolumn (by omega)]

theorem isSelection_of_eq (hsheet : sheet.IsRectangular) (hinside : range.LiesInside sheet)
    (hdata : result.data = Sheet.selectCells sheet.data range)
    (hresultRows : result.numberOfRows = range.to.rowIndex - range.from.rowIndex + 1)
    (hresultColumns : result.numberOfColumns = range.to.columnIndex - range.from.columnIndex + 1) :
    IsSelection sheet range result := by
  rw [selectCells_eq_block hinside] at hdata
  obtain ⟨_, hcolumn, hcolumns, hlastColumn, hrow, hrows, hlastRow⟩ := hinside
  have hbottom : (range.to.rowIndex + 1).toNat ≤ sheet.numberOfRows.toNat := by omega
  have hright : (range.to.columnIndex + 1).toNat ≤ sheet.numberOfColumns.toNat := by omega
  have hsize := hsheet.hasSize.block range.from.rowIndex.toNat range.from.columnIndex.toNat
    hbottom hright
  have hrectangular : result.IsRectangular := by
    refine .of_hasSize (by omega) (by omega) ?_
    rw [hdata]
    convert hsize using 1 <;> omega
  refine ⟨hrectangular, hresultRows, hresultColumns, ?_, fun i j => hrectangular.cell_eq_none⟩
  intro i j hi hj
  rw [Sheet.cell_eq_grid hi.1 hj.1, Sheet.cell_eq_grid (by omega) (by omega), hdata,
    Grid.cell_block (by omega) (by omega)]
  congr 1 <;> omega

theorem isInBounds_of_liesInside (hinside : range.LiesInside sheet) :
    sheet.isInBounds range = true := by
  obtain ⟨_, hcolumn, hcolumns, hlastColumn, hrow, hrows, hlastRow⟩ := hinside
  exact Sheet.isInBounds_of_le (by omega) (by omega) (by omega) (by omega) (by omega) (by omega)

theorem resolveRelativeIndexes_of_liesInside (hinside : range.LiesInside sheet) :
    sheet.resolveRelativeIndexes range = range := by
  rw [Sheet.resolveRelativeIndexes, hinside.absolute]
  rfl

theorem selectRange_of_liesInside (hsheet : sheet.IsRectangular)
    (hbounds : sheet.isInBounds range = true)
    (hinside : (sheet.resolveRelativeIndexes range).LiesInside sheet) :
    ∃ result, sheet.selectRange range = .ok result ∧
      IsSelection sheet (sheet.resolveRelativeIndexes range) result := by
  refine ⟨⟨_, _, _⟩, ?_, isSelection_of_eq hsheet hinside rfl rfl rfl⟩
  rw [Sheet.selectRange, hbounds]
  rfl

theorem selectRange_of_absolute (hsheet : sheet.IsRectangular) (hinside : range.LiesInside sheet) :
    ∃ result, sheet.selectRange range = .ok result ∧ IsSelection sheet range result := by
  have hresolved := resolveRelativeIndexes_of_liesInside hinside
  have hselect := selectRange_of_liesInside hsheet (isInBounds_of_liesInside hinside)
    (by rwa [hresolved])
  rwa [hresolved] at hselect

theorem IsSelection.fitsArrays (h : IsSelection sheet range result) (hfits : sheet.FitsArrays)
    (hinside : range.LiesInside sheet) : result.FitsArrays := by
  obtain ⟨_, hcolumn, _, hlastColumn, hrow, _, hlastRow⟩ := hinside
  obtain ⟨hsheetRows, hsheetColumns⟩ := hfits
  have hrows := h.numberOfRows_eq
  have hcolumns := h.numberOfColumns_eq
  exact ⟨by omega, by omega⟩

theorem IsSelection.shift_liesInside (h : IsSelection sheet range result)
    (hfits : sheet.FitsArrays) (hinside : range.LiesInside sheet)
    (hinside' : range'.LiesInside result) : (range'.shift range.from).LiesInside sheet := by
  obtain ⟨_, hcolumn, _, hlastColumn, hrow, _, hlastRow⟩ := hinside
  obtain ⟨_, hcolumn', hcolumns', hlastColumn', hrow', hrows', hlastRow'⟩ := hinside'
  obtain ⟨hsheetRows, hsheetColumns⟩ := hfits
  have hrows := h.numberOfRows_eq
  have hcolumns := h.numberOfColumns_eq
  have hlast : LAST_INDEX = 9007199254740991 := rfl
  refine ⟨?_, ?_, ?_, ?_, ?_, ?_, ?_⟩
  · rw [CellRangeWrapper.hasRelativeIndexes_eq_false_iff]
    simp only [CellRangeWrapper.shift]
    omega
  all_goals
    simp only [CellRangeWrapper.shift]
    omega

end Selections

/-! ## The executor -/

section Executor

variable {δ : Type}

theorem selectCellRange_eq {sheet result : Sheet} {cellRange : CellRangeLiteral}
    {range : CellRangeWrapper} (hconstruct : CellRangeWrapper.construct cellRange = .ok range)
    (hsheet : sheet.IsRectangular)
    (hinside : (sheet.resolveRelativeIndexes range).LiesInside sheet)
    (h : IsSelection sheet (sheet.resolveRelativeIndexes range) result) :
    CellRangeSelectorExecutor.selectCellRange sheet cellRange = .ok (.ok result) := by
  have hbounds := isInBounds_of_liesInside hinside
  have hclone := hsheet.clone_eq (Sheet.numberOfRows_pos hbounds).1
  obtain ⟨result', hselect, h'⟩ := selectRange_of_absolute hsheet hinside
  rw [CellRangeSelectorExecutor.selectCellRange, wrap_of_construct hconstruct, except_ok_bind,
    hclone]
  simp only [hbounds, hselect, h.unique h']
  rfl

theorem selectorDoExecute_eq {services : ExecutionServices} {context : ExecutionContext δ}
    {sheet result : Sheet} {cellRange : CellRangeLiteral}
    (hproperty : HasTypedProperty services context LineKind.cellRangeTypeguard "select" .CellRange
      cellRange)
    (h : CellRangeSelectorExecutor.selectCellRange sheet cellRange = .ok (.ok result)) :
    ∃ after, CellRangeSelectorExecutor.doExecute services sheet context =
      some (.ok (.ok result), after) := by
  obtain ⟨after, hproperty⟩ := hproperty
  refine ⟨after, ?_⟩
  rw [CellRangeSelectorExecutor.doExecute, Exec.bind_of_ok hproperty, h]
  rfl

end Executor

/-! ## Two selections -/

/-- A range that is in bounds selects its cells, which is also what the executor returns. A range
that is in bounds of the selection then selects what the shifted range selects from the sheet. -/
theorem selectRange_composes {δ : Type} (sheet : Sheet) (hsheet : sheet.IsRectangular)
    (hfits : sheet.FitsArrays) (range : CellRangeWrapper) (hproper : range.IsProper)
    (hrow : 0 ≤ range.from.rowIndex) (hbounds : sheet.isInBounds range = true) :
    ∃ result, sheet.selectRange range = .ok result ∧
      IsSelection sheet (sheet.resolveRelativeIndexes range) result ∧
      (∀ (services : ExecutionServices) (context : ExecutionContext δ)
        (cellRange : CellRangeLiteral), CellRangeWrapper.construct cellRange = .ok range →
        HasTypedProperty services context LineKind.cellRangeTypeguard "select" .CellRange
          cellRange →
        ∃ after, CellRangeSelectorExecutor.doExecute services sheet context =
          some (.ok (.ok result), after)) ∧
      ∀ range' : CellRangeWrapper, range'.IsProper → 0 ≤ range'.from.rowIndex →
        result.isInBounds range' = true →
        ∃ result', result.selectRange range' = .ok result' ∧
          sheet.selectRange ((result.resolveRelativeIndexes range').shift
            (sheet.resolveRelativeIndexes range).from) = .ok result' := by
  have hinside := (resolveRelativeIndexes_liesInside_iff hfits hproper hbounds).mpr (by omega)
  obtain ⟨result, hselect, hresult⟩ := selectRange_of_liesInside hsheet hbounds hinside
  refine ⟨result, hselect, hresult, ?_, ?_⟩
  · intro services context cellRange hconstruct hproperty
    exact selectorDoExecute_eq hproperty (selectCellRange_eq hconstruct hsheet hinside hresult)
  · intro range' hproper' hrow' hbounds'
    have hfits' := hresult.fitsArrays hfits hinside
    have hinside' :=
      (resolveRelativeIndexes_liesInside_iff hfits' hproper' hbounds').mpr (by omega)
    obtain ⟨result', hselect', hresult'⟩ :=
      selectRange_of_liesInside hresult.rectangular hbounds' hinside'
    refine ⟨result', hselect', ?_⟩
    obtain ⟨direct, hdirect, hshifted⟩ :=
      selectRange_of_absolute hsheet (hresult.shift_liesInside hfits hinside hinside')
    rw [hdirect, hshifted.unique (hresult.trans hresult' hinside')]

/-- `range B1:*2`. -/
def rangeB1ToLast2 : CellRangeLiteral :=
  .range (some (.text "B1")) (some (.ids (some ⟨some "*"⟩) (some ⟨some (.index 2)⟩)))

/-- A block that selects it. -/
def selectorServices : ExecutionServices :=
  sampleServices {
    valuetypes := []
    constraints := []
    transforms := []
    blocks := [⟨"Select", none,
      [⟨"select", .expression (.cellRangeLiteral rangeB1ToLast2)⟩]⟩]
    blockTypes := [] }

theorem selectRange_composes_gridSheet :
    ∃ result, gridSheet.selectRange ⟨rangeB1ToLast2, ⟨1, 0⟩, ⟨LAST_INDEX, 1⟩⟩ = .ok result ∧
      (∃ after, CellRangeSelectorExecutor.doExecute selectorServices gridSheet
        (deleterContext 0) = some (.ok (.ok result), after)) ∧
      ∃ result', result.selectRange ⟨.row (some ⟨some .star⟩), ⟨0, LAST_INDEX⟩,
          ⟨LAST_INDEX, LAST_INDEX⟩⟩ = .ok result' ∧ result'.data = [[some "e", some "f"]] := by
  obtain ⟨result, hselect, _, hexecute, hcompose⟩ :=
    selectRange_composes gridSheet ⟨by decide, by decide⟩ ⟨by decide, by decide⟩
      ⟨rangeB1ToLast2, ⟨1, 0⟩, ⟨LAST_INDEX, 1⟩⟩
      ⟨by decide, by decide, by decide, by decide⟩ (by decide) (by decide)
  refine ⟨result, hselect, ?_, ?_⟩
  · exact hexecute selectorServices (deleterContext 0) rangeB1ToLast2 (by rfl) ⟨_, rfl⟩
  · cases hselect
    obtain ⟨result', hselect', _⟩ := hcompose ⟨.row (some ⟨some .star⟩), ⟨0, LAST_INDEX⟩,
      ⟨LAST_INDEX, LAST_INDEX⟩⟩ ⟨by decide, by decide, by decide, by decide⟩ (by decide)
      (by decide)
    refine ⟨result', hselect', ?_⟩
    cases hselect'
    rfl

end Jayvee
