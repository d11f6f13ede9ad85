import Jayvee.Verification.Sheets.RangeSelection

/-! # The cell writer -/

namespace Jayvee

open Foundation ExecutionContext

/-! ## The cells of a range -/

namespace Sheet

variable {first last : ℤ}

theorem mem_countUp {x : ℤ} : x ∈ countUp first last ↔ first ≤ x ∧ x ≤ last := by
  simp only [countUp, List.mem_map, List.mem_range]
  constructor
  · rintro ⟨i, hi, rfl⟩
    omega
  · intro hx
    exact ⟨(x - first).toNat, by omega, by omega⟩

theorem countUp_ascending (first last : ℤ) : (countUp first last).Pairwise (· < ·) := by
  rw [countUp, List.pairwise_map]
  exact List.pairwise_lt_range.imp fun hlt => by omega

theorem length_countUp (first last : ℤ) :
    (countUp first last).length = (last - first + 1).toNat := by
  simp [countUp]

end Sheet

namespace CellIndex

/-- The order in which a sheet is read row by row. -/
def Precedes (this other : CellIndex) : Prop :=
  this.rowIndex < other.rowIndex ∨
    this.rowIndex = other.rowIndex ∧ this.columnIndex < other.columnIndex

/-- The cell lies between the ends of a range. -/
def LiesIn (this : CellIndex) (range : CellRangeWrapper) : Prop :=
  (range.from.rowIndex ≤ this.rowIndex ∧ this.rowIndex ≤ range.to.rowIndex) ∧
    range.from.columnIndex ≤ this.columnIndex ∧ this.columnIndex ≤ range.to.columnIndex

end CellIndex

/-- The cells of a range row by row, each once. -/
structure EnumeratesRowByRow (range : CellRangeWrapper) (cells : List CellIndex) : Prop where
  sorted : cells.Pairwise CellIndex.Precedes
  nodup : cells.Nodup
  mem_iff : ∀ cell, cell ∈ cells ↔ cell.LiesIn range

section Enumeration

variable {sheet : Sheet} {range : CellRangeWrapper}

theorem enumerateCellIndexes_sorted (sheet : Sheet) (range : CellRangeWrapper) :
    (sheet.enumerateCellIndexes range).Pairwise CellIndex.Precedes := by
  rw [Sheet.enumerateCellIndexes, List.pairwise_flatMap]
  constructor
  · intro row _
    rw [List.pairwise_map]
    exact (Sheet.countUp_ascending _ _).imp fun hlt => .inr ⟨rfl, hlt⟩
  · refine (Sheet.countUp_ascending _ _).imp fun hlt cell hcell cell' hcell' => ?_
    obtain ⟨column, _, rfl⟩ := List.mem_map.mp hcell
    obtain ⟨column', _, rfl⟩ := List.mem_map.mp hcell'
    exact .inl hlt

theorem mem_enumerateCellIndexes {cell : CellIndex} :
    cell ∈ sheet.enumerateCellIndexes range ↔ cell.LiesIn (sheet.resolveRelativeIndexes range) := by
  simp only [Sheet.enumerateCellIndexes, List.mem_flatMap, List.mem_map, Sheet.mem_countUp]
  constructor
  · rintro ⟨row, hrow, column, hcolumn, rfl⟩
    exact ⟨hrow, hcolumn⟩
  · intro h
    exact ⟨cell.rowIndex, h.1, cell.columnIndex, h.2, rfl⟩

theorem enumeratesRowByRow (sheet : Sheet) (range : CellRangeWrapper) :
    EnumeratesRowByRow (sheet.resolveRelativeIndexes range) (sheet.enumerateCellIndexes range) := by
  refine ⟨enumerateCellIndexes_sorted sheet range, ?_, fun _ => mem_enumerateCellIndexes⟩
  refine (enumerateCellIndexes_sorted sheet range).imp ?_
  rintro cell cell' hlt rfl
  cases hlt with
  | inl hrow => omega
  | inr hcolumn => omega

theorem length_enumerateCellIndexes (sheet : Sheet) (range : CellRangeWrapper) :
    (sheet.enumerateCellIndexes range).length =
      ((sheet.resolveRelativeIndexes range).to.rowIndex -
        (sheet.resolveRelativeIndexes range).from.rowIndex + 1).toNat *
      ((sheet.resolveRelativeIndexes range).to.columnIndex -
        (sheet.resolveRelativeIndexes range).from.columnIndex + 1).toNat := by
  simp [Sheet.enumerateCellIndexes, List.length_flatMap, Sheet.length_countUp]

/-! ## The static number of cells -/

/-- In each dimension, both ends are relative or none of them is. -/
structure CellRangeWrapper.HasUniformEnds (range : CellRangeWrapper) : Prop where
  rows : range.from.rowIndex = LAST_INDEX ↔ range.to.rowIndex = LAST_INDEX
  columns : range.from.columnIndex = LAST_INDEX ↔ range.to.columnIndex = LAST_INDEX

/-- The distance of two ends of one kind does not depend on the last index. -/
theorem resolveIndex_sub {index index' : ℤ} (h : index = LAST_INDEX ↔ index' = LAST_INDEX)
    (last : ℤ) :
    CellIndex.resolveIndex index' last - CellIndex.resolveIndex index last + 1 =
      if index = LAST_INDEX ∧ index' = LAST_INDEX then 1 else index' - index + 1 := by
  rw [CellIndex.resolveIndex, CellIndex.resolveIndex]
  split_ifs <;> omega

theorem numberOfCells_eq (hfits : sheet.FitsArrays) (hproper : range.IsProper)
    (hbounds : sheet.isInBounds range = true) (huniform : range.HasUniformEnds) :
    range.numberOfCells = (sheet.enumerateCellIndexes range).length := by
  obtain ⟨⟨_, hcolumns, _⟩, hrows, _⟩ := resolveRelativeIndexes_bounds hfits hproper hbounds
  have hnumberOfRows : range.getNumberOfRows =
      (sheet.resolveRelativeIndexes range).to.rowIndex -
        (sheet.resolveRelativeIndexes range).from.rowIndex + 1 := by
    rw [Sheet.resolveRelativeIndexes_eq]
    exact (resolveIndex_sub huniform.rows _).symm
  have hnumberOfColumns : range.getNumberOfColumns =
      (sheet.resolveRelativeIndexes range).to.columnIndex -
        (sheet.resolveRelativeIndexes range).from.columnIndex + 1 := by
    rw [Sheet.resolveRelativeIndexes_eq]
    exact (resolveIndex_sub huniform.columns _).symm
  rw [CellRangeWrapper.numberOfCells, hnumberOfRows, hnumberOfColumns, length_enumerateCellIndexes,
    Nat.cast_mul, Int.toNat_of_nonneg (by omega), Int.toNat_of_nonneg (by omega)]

end Enumeration

/-! ## Writing one cell -/

def CellIndex.position (this : CellIndex) : Nat × Nat :=
  (this.rowIndex.toNat, this.columnIndex.toNat)

/-- The cell is one of the sheet. -/
def Sheet.HasCell (sheet : Sheet) (cell : CellIndex) : Prop :=
  (0 ≤ cell.rowIndex ∧ cell.rowIndex < sheet.numberOfRows) ∧
    0 ≤ cell.columnIndex ∧ cell.columnIndex < sheet.numberOfColumns

namespace Sheet

variable {sheet : Sheet} {cell : CellIndex}

theorem HasCell.isInBounds (h : sheet.HasCell cell) :
    cell.isInBounds sheet.getBounds = true := by
  obtain ⟨hrow, hcolumn⟩ := h
  rw [CellIndex.isInBounds, Bool.and_eq_true, isIndexInBounds_iff, isIndexInBounds_iff]
  simp only [getBounds]
  omega

theorem writeCell_eq (hsheet : sheet.IsRectangular) (hfits : sheet.FitsArrays)
    (hcell : sheet.HasCell cell) (content : String) :
    sheet.writeCell cell content =
      .ok { sheet with data := Grid.write sheet.data cell.position (some content) } := by
  obtain ⟨hrow, hcolumn⟩ := hcell
  have hlength := hsheet.hasSize.length_eq
  have hlt : cell.rowIndex.toNat < sheet.data.length := by omega
  have hget : JsArray.get? sheet.data cell.rowIndex = some sheet.data[cell.rowIndex.toNat] := by
    rw [JsArray.get?, if_pos hrow.1, List.getElem?_eq_getElem hlt]
  have hwidth := hsheet.length_eq _ (List.getElem_mem hlt)
  have hcolumns := hfits.numberOfColumns_lt
  have hassign : JsArray.assign sheet.data[cell.rowIndex.toNat] cell.columnIndex content =
      sheet.data[cell.rowIndex.toNat].set cell.columnIndex.toNat (some content) := by
    rw [JsArray.assign, if_pos ⟨hcolumn.1, by omega⟩, if_pos (by omega)]
  rw [writeCell, HasCell.isInBounds ⟨hrow, hcolumn⟩]
  simp only [hget, hassign, Grid.write, CellIndex.position]
  rw [List.modify_eq_set_getElem?, List.getElem?_eq_getElem hlt]
  rfl

/-- The writes of a list of cells, as writes to the data. -/
def gridWrites (writes : List (CellIndex × String)) : List ((Nat × Nat) × Option String) :=
  writes.map fun entry => (entry.1.position, some entry.2)

/-- The sheet with other data of the same size. -/
theorem IsRectangular.withData (h : sheet.IsRectangular) (hcolumns : 0 ≤ sheet.numberOfColumns)
    {data : List (List (Option String))}
    (hsize : Grid.HasSize data sheet.numberOfRows.toNat sheet.numberOfColumns.toNat) :
    IsRectangular { sheet with data := data } := by
  have hrows : 0 ≤ sheet.numberOfRows := by
    rw [h.numberOfRows_eq]
    exact Int.natCast_nonneg _
  exact .of_hasSize hrows hcolumns hsize

/-- The loop of the cell writer. -/
theorem foldlM_writeCell (hsheet : sheet.IsRectangular) (hfits : sheet.FitsArrays)
    {writes : List (CellIndex × String)} (hcells : ∀ entry ∈ writes, sheet.HasCell entry.1) :
    writes.foldlM (fun sheet entry => sheet.writeCell entry.1 entry.2) sheet =
      .ok { sheet with data := Grid.writeAll sheet.data (gridWrites writes) } := by
  induction writes generalizing sheet with
  | nil => rfl
  | cons entry writes ih =>
      have hcell := hcells entry List.mem_cons_self
      have hcolumns : 0 ≤ sheet.numberOfColumns := hcell.2.1.trans hcell.2.2.le
      rw [List.foldlM_cons, writeCell_eq hsheet hfits hcell, except_ok_bind]
      exact ih (hsheet.withData hcolumns hsheet.hasSize.write)
        ⟨hfits.numberOfRows_lt, hfits.numberOfColumns_lt⟩
        fun other hother => hcells other (List.mem_cons_of_mem _ hother)

end Sheet

/-! ## Writing a range -/

/-- Text `k` is in cell `k`; all other cells and the dimensions are those of the sheet. -/
structure WritesExactly (sheet : Sheet) (cells : List CellIndex) (texts : List String)
    (result : Sheet) : Prop where
  rectangular : result.IsRectangular
  numberOfRows_eq : result.numberOfRows = sheet.numberOfRows
  numberOfColumns_eq : result.numberOfColumns = sheet.numberOfColumns
  written : ∀ (k : Nat) (cell : CellIndex) (text : String), cells[k]? = some cell →
    texts[k]? = some text → result.cell cell.rowIndex cell.columnIndex = some (some text)
  unchanged : ∀ cell : CellIndex, cell ∉ cells.take texts.length →
    result.cell cell.rowIndex cell.columnIndex = sheet.cell cell.rowIndex cell.columnIndex

section Writing

variable {sheet : Sheet} {cells : List CellIndex} {texts : List String}

theorem CellIndex.position_injOn {cell cell' : CellIndex} (hcell : sheet.HasCell cell)
    (hcell' : sheet.HasCell cell') (h : cell.position = cell'.position) : cell = cell' := by
  obtain ⟨⟨hrow, _⟩, hcolumn, _⟩ := hcell
  obtain ⟨⟨hrow', _⟩, hcolumn', _⟩ := hcell'
  obtain ⟨hrows, hcolumns⟩ := Prod.mk.inj h
  cases cell
  cases cell'
  simp only [CellIndex.mk.injEq] at *
  omega

theorem map_fst_gridWrites (cells : List CellIndex) (texts : List String) :
    (Sheet.gridWrites (cells.zip texts)).map Prod.fst =
      (cells.take texts.length).map CellIndex.position := by
  induction cells generalizing texts with
  | nil => simp [Sheet.gridWrites]
  | cons cell cells ih =>
      cases texts with
      | nil => rfl
      | cons text texts => exact congrArg (cell.position :: ·) (ih texts)

theorem writesExactly_writeAll (hsheet : sheet.IsRectangular)
    (hcolumns : 0 ≤ sheet.numberOfColumns) (hcells : ∀ cell ∈ cells, sheet.HasCell cell)
    (hnodup : cells.Nodup) :
    WritesExactly sheet cells texts
      { sheet with data := Grid.writeAll sheet.data (Sheet.gridWrites (cells.zip texts)) } := by
  have hsize := hsheet.hasSize
  have hrectangular := hsheet.withData hcolumns
    (hsize.writeAll (Sheet.gridWrites (cells.zip texts)))
  have hpositions : ((Sheet.gridWrites (cells.zip texts)).map Prod.fst).Nodup := by
    rw [map_fst_gridWrites]
    refine (hnodup.sublist (List.take_sublist _ _)).map_on ?_
    intro cell hcell cell' hcell' heq
    exact CellIndex.position_injOn (hcells cell (List.mem_of_mem_take hcell))
      (hcells cell' (List.mem_of_mem_take hcell')) heq
  refine ⟨hrectangular, rfl, rfl, ?_, ?_⟩
  · intro k cell text hcell htext
    obtain ⟨hrow, hcolumn⟩ := hcells cell (List.mem_of_getElem? hcell)
    have hzip : (cell, text) ∈ cells.zip texts := by
      refine List.mem_of_getElem? (i := k) ?_
      rw [List.getElem?_zip_eq_some]
      exact ⟨hcell, htext⟩
    have hmem : (cell.position, some text) ∈ Sheet.gridWrites (cells.zip texts) :=
      List.mem_map_of_mem (f := fun entry => (entry.1.position, some entry.2)) hzip
    rw [Sheet.cell_eq_grid hrow.1 hcolumn.1]
    exact Grid.cell_writeAll_of_mem hsize hpositions hmem
      (by simp only [CellIndex.position]; omega) (by simp only [CellIndex.position]; omega)
  · intro cell hnot
    by_cases hcell : sheet.HasCell cell
    · obtain ⟨hrow, hcolumn⟩ := hcell
      rw [Sheet.cell_eq_grid hrow.1 hcolumn.1, Sheet.cell_eq_grid hrow.1 hcolumn.1]
      refine Grid.cell_writeAll_of_not_mem ?_
      rw [map_fst_gridWrites]
      intro hmem
      obtain ⟨other, hother, heq⟩ := List.mem_map.mp hmem
      have hsame := CellIndex.position_injOn (hcells other (List.mem_of_mem_take hother))
        ⟨hrow, hcolumn⟩ heq
      exact hnot (hsame ▸ hother)
    · rw [hrectangular.cell_eq_none hcell, hsheet.cell_eq_none hcell]

end Writing

/-! ## The executor -/

section Executor

variable {δ : Type} {sheet : Sheet} {range : CellRangeWrapper} {cellRange : CellRangeLiteral}
  {texts : List String}

/-- The values that are read for the properties of the current block. -/
def HasWriterProperties (services : ExecutionServices) (context : ExecutionContext δ)
    (cellRange : CellRangeLiteral) (texts : List String) : Prop :=
  ∃ between, getTypedPropertyValue services LineKind.cellRangeTypeguard "at" .CellRange context =
      some (.ok cellRange, between) ∧
    HasTypedProperty services between TableTransformerExecutor.textsTypeguard "write"
      (.collection .Text) texts

theorem hasCell_of_liesIn {resolved : CellRangeWrapper} (hinside : resolved.LiesInside sheet)
    {cell : CellIndex} (h : cell.LiesIn resolved) : sheet.HasCell cell := by
  obtain ⟨_, hcolumn, _, hlastColumn, hrow, _, hlastRow⟩ := hinside
  obtain ⟨hrows, hcolumns⟩ := h
  exact ⟨by omega, by omega⟩

theorem writeTexts_eq (hsheet : sheet.IsRectangular) (hfits : sheet.FitsArrays)
    (hinside : (sheet.resolveRelativeIndexes range).LiesInside sheet)
    (hconstruct : CellRangeWrapper.construct cellRange = .ok range)
    (hdimension : range.isOneDimensional = true) (texts : List String) :
    ∃ result, CellWriterExecutor.writeTexts sheet cellRange texts = .ok (.ok result) ∧
      WritesExactly sheet (sheet.enumerateCellIndexes range) texts result := by
  have hbounds := isInBounds_of_liesInside hinside
  obtain ⟨hrows, hcolumns⟩ := Sheet.numberOfRows_pos hbounds
  have hcells : ∀ cell ∈ sheet.enumerateCellIndexes range, sheet.HasCell cell := by
    intro cell hcell
    exact hasCell_of_liesIn hinside (mem_enumerateCellIndexes.mp hcell)
  have hwrites : ∀ entry ∈ (sheet.enumerateCellIndexes range).zip texts, sheet.HasCell entry.1 :=
    fun entry hentry => hcells entry.1 (List.of_mem_zip hentry).1
  refine ⟨_, ?_, writesExactly_writeAll hsheet hcolumns.le hcells
    (enumeratesRowByRow sheet range).nodup⟩
  rw [CellWriterExecutor.writeTexts, wrap_of_construct hconstruct, except_ok_bind, hdimension,
    hsheet.clone_eq hrows]
  simp only [hbounds, assert, if_true, except_ok_bind,
    Sheet.foldlM_writeCell hsheet hfits hwrites]
  rfl

theorem writerDoExecute_eq {services : ExecutionServices} {context : ExecutionContext δ}
    (hproperties : HasWriterProperties services context cellRange texts) (sheet : Sheet) :
    ∃ after, CellWriterExecutor.doExecute services sheet context =
      some (CellWriterExecutor.writeTexts sheet cellRange texts, after) := by
  obtain ⟨between, hat, after, hwrite⟩ := hproperties
  refine ⟨after, ?_⟩
  rw [CellWriterExecutor.doExecute, Exec.bind_of_ok hat, Exec.bind_of_ok hwrite]
  rfl

end Executor

/-! ## The validation -/

def numberOfValuesWarning (numberOfValuesToWrite : Nat) (numberOfCells : ℤ)
    (propertyNode : PropertyAssignment) : Diagnostic where
  severity := .warning
  message := numberOfValuesMessage numberOfValuesToWrite numberOfCells
  info := { node := .propertyValue propertyNode.value }

theorem checkNumberOfValues_logs {cellRange : CellRangeLiteral} {range : CellRangeWrapper}
    (hconstruct : CellRangeWrapper.construct cellRange = .ok range) (texts : List String)
    (writeProperty atProperty : PropertyAssignment) :
    Exec.Logs (checkNumberOfValues writeProperty atProperty texts cellRange) (.ok ())
      (if range.numberOfCells = texts.length then [] else
        [writeProperty, atProperty].map
          (numberOfValuesWarning texts.length range.numberOfCells)) := by
  rw [checkNumberOfValues, canBeWrapped_of_construct hconstruct]
  refine Exec.Logs.ofExcept_bind (wrap_of_construct hconstruct) ?_
  by_cases heq : range.numberOfCells = texts.length
  · simp only [heq, ne_eq, not_true_eq_false, if_false, if_true]
    exact Exec.Logs.pure ()
  · simp only [heq, ne_eq, not_false_eq_true, if_true, if_false]
    exact Exec.Logs.forEach fun propertyNode _ => accept_logs _ _ _

/-! ## The range that is written -/

/-- The cell writer writes exactly the cells of its range, row by row. If the ends of the range
are of one kind, the validation warns exactly if there are more or fewer texts than cells. -/
theorem cellWriter_writesRange {δ : Type} (sheet : Sheet) (hsheet : sheet.IsRectangular)
    (hfits : sheet.FitsArrays) (range : CellRangeWrapper) (hproper : range.IsProper)
    (hrow : 0 ≤ range.from.rowIndex) (hbounds : sheet.isInBounds range = true) :
    EnumeratesRowByRow (sheet.resolveRelativeIndexes range) (sheet.enumerateCellIndexes range) ∧
    (∀ cell ∈ sheet.enumerateCellIndexes range, sheet.HasCell cell) ∧
    (range.HasUniformEnds → range.numberOfCells = (sheet.enumerateCellIndexes range).length) ∧
    ∀ (cellRange : CellRangeLiteral) (texts : List String),
      CellRangeWrapper.construct cellRange = .ok range →
      (range.isOneDimensional = true →
        ∃ result, CellWriterExecutor.writeTexts sheet cellRange texts = .ok (.ok result) ∧
          WritesExactly sheet (sheet.enumerateCellIndexes range) texts result ∧
          ∀ (services : ExecutionServices) (context : ExecutionContext δ),
            HasWriterProperties services context cellRange texts →
            ∃ after, CellWriterExecutor.doExecute services sheet context =
              some (.ok (.ok result), after)) ∧
      (range.HasUniformEnds → ∀ writeProperty atProperty : PropertyAssignment,
        Exec.Logs (checkNumberOfValues writeProperty atProperty texts cellRange) (.ok ())
          (if (sheet.enumerateCellIndexes range).length = texts.length then [] else
            [writeProperty, atProperty].map (numberOfValuesWarning texts.length
              (sheet.enumerateCellIndexes range).length))) := by
  have hinside := (resolveRelativeIndexes_liesInside_iff hfits hproper hbounds).mpr (by omega)
  have hnumber := numberOfCells_eq hfits hproper hbounds
  refine ⟨enumeratesRowByRow sheet range, ?_, hnumber, ?_⟩
  · exact fun cell hcell => hasCell_of_liesIn hinside (mem_enumerateCellIndexes.mp hcell)
  · intro cellRange texts hconstruct
    constructor
    · intro hdimension
      obtain ⟨result, hwrite, hresult⟩ :=
        writeTexts_eq hsheet hfits hinside hconstruct hdimension texts
      refine ⟨result, hwrite, hresult, ?_⟩
      intro services context hproperties
      obtain ⟨after, hrun⟩ := writerDoExecute_eq hproperties sheet
      exact ⟨after, by rw [hrun, hwrite]⟩
    · intro huniform writeProperty atProperty
      have hlogs := checkNumberOfValues_logs hconstruct texts writeProperty atProperty
      rw [hnumber huniform] at hlogs
      simpa only [Nat.cast_inj] using hlogs

/-- `range B1:B2`. -/
def rangeB1ToB2 : CellRangeLiteral :=
  .range (some (.text "B1")) (some (.text "B2"))

/-- A block that writes one text to it. -/
def writerServices : ExecutionServices :=
  sampleServices {
    valuetypes := []
    constraints := []
    transforms := []
    blocks := [⟨"Write", none,
      [⟨"at", .expression (.cellRangeLiteral rangeB1ToB2)⟩,
        ⟨"write", .expression (.collectionLiteral [.textLiteral "x"])⟩]⟩]
    blockTypes := [] }

theorem cellWriter_writesRange_gridSheet :
    CellRangeWrapper.numberOfCells ⟨rangeB1ToB2, ⟨1, 0⟩, ⟨1, 1⟩⟩ =
      (gridSheet.enumerateCellIndexes ⟨rangeB1ToB2, ⟨1, 0⟩, ⟨1, 1⟩⟩).length ∧
    ∃ result, (∃ after, CellWriterExecutor.doExecute writerServices gridSheet
        (deleterContext 0) = some (.ok (.ok result), after)) ∧
      result.cell 0 1 = some (some "x") ∧ result.cell 1 1 = gridSheet.cell 1 1 := by
  obtain ⟨_, _, hnumber, hexecute⟩ :=
    cellWriter_writesRange gridSheet ⟨by decide, by decide⟩ ⟨by decide, by decide⟩
      ⟨rangeB1ToB2, ⟨1, 0⟩, ⟨1, 1⟩⟩ ⟨by decide, by decide, by decide, by decide⟩ (by decide)
      (by decide)
  obtain ⟨result, _, hresult, hrun⟩ := (hexecute rangeB1ToB2 ["x"] (by rfl)).1 (by decide)
  refine ⟨hnumber ⟨by decide, by decide⟩, result, ?_, ?_, ?_⟩
  · exact hrun writerServices (deleterContext 0) ⟨_, rfl, _, rfl⟩
  · exact hresult.written 0 ⟨1, 0⟩ "x" (by decide) rfl
  · exact hresult.unchanged ⟨1, 1⟩ (by decide)

end Jayvee
