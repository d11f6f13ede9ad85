import Jayvee.Model.Sheet
import Jayvee.Verification.Pipeline.Validation
import Jayvee.Verification.Sheets.ColumnIds
import Mathlib.Data.List.TakeWhile

/-! # Cell ranges in the bounds of a sheet -/

namespace Jayvee

open Foundation

/-! ## Ids of columns and rows -/

/-- An id of a column that `checkColumnIdSyntax` accepts. -/
def IsColumnId (value : String) : Prop :=
  value = "*" ∨ columnIdRegexTest value = true

theorem parseColumnId_nonneg {value : String} (h : IsColumnId value) : 0 ≤ parseColumnId value := by
  rw [parseColumnId]
  split_ifs with hstar
  · decide
  · obtain ⟨word, hne, hword, rfl⟩ := exists_columnIdOf (h.resolve_left hstar)
    have hpos := BijectiveNumeral.value_pos hword hne
    rw [columnCharactersAsIndex_columnIdOf hword]
    omega

/-- A row id that is no row number of a sheet: rows are counted from one. -/
def IsRowZero (rowId : RowIdValue) : Prop :=
  rowId = .index 0

theorem parseRowId_ge (rowId : RowIdValue) : -1 ≤ parseRowId rowId := by
  cases rowId with
  | star => decide
  | index row =>
      rw [parseRowId]
      omega

theorem parseRowId_eq_iff (rowId : RowIdValue) : parseRowId rowId = -1 ↔ IsRowZero rowId := by
  cases rowId with
  | star => simp [parseRowId, IsRowZero, LAST_INDEX]
  | index row =>
      simp only [parseRowId, IsRowZero, RowIdValue.index.injEq]
      omega

/-! ## Accepted literals -/

/-- The literal is accepted by the grammar, and its validation reports nothing. -/
structure CellRangeLiteral.IsAccepted (cellRange : CellRangeLiteral) : Prop where
  grammatical : cellRange.isGrammatical = true
  valid : validateCellRangeLiteral cellRange [] = some (.ok (), [])

theorem validateColumnId_moves (columnId : ColumnId) :
    Exec.Moves StillReported (validateColumnId columnId) := by
  unfold validateColumnId checkColumnIdSyntax
  cases columnId.value with
  | none => exact Exec.Moves.pure ()
  | some value => exact Exec.Moves.ite (Exec.Moves.pure ()) (accept_moves _ _ _)

theorem validateRangeLiteral_moves (range : CellRangeLiteral) :
    Exec.Moves StillReported (validateRangeLiteral range) := by
  apply Exec.Moves.ite (Exec.Moves.pure ())
  apply Exec.Moves.bind (Exec.Moves.ofExcept _)
  intro wrappedRange
  exact Exec.Moves.ite (accept_moves _ _ _) (Exec.Moves.pure ())

theorem isColumnId_of_validateColumnId {value : String} {before : List Diagnostic}
    (h : validateColumnId ⟨some value⟩ before = some (.ok (), [])) : IsColumnId value := by
  by_contra hvalue
  rw [IsColumnId] at hvalue
  simp only [validateColumnId, checkColumnIdSyntax, if_neg hvalue, accept, Exec.modify_apply] at h
  simp at h

theorem CellRangeLiteral.validate_moves (cellRange : CellRangeLiteral) :
    Exec.Moves StillReported cellRange.validate := by
  cases cellRange with
  | range cellFrom cellTo => exact validateRangeLiteral_moves _
  | _ => exact Exec.Moves.pure ()

theorem CellRangeLiteral.IsAccepted.columnIds {cellRange : CellRangeLiteral}
    (h : cellRange.IsAccepted) {value : String} (hvalue : ⟨some value⟩ ∈ cellRange.columnIds) :
    IsColumnId value := by
  obtain ⟨_, after, hcolumns, hrange⟩ := Exec.bind_eq_ok_iff.mp h.valid
  have hafter := List.subset_nil.mp (cellRange.validate_moves after _ _ hrange)
  rw [hafter] at hcolumns
  obtain ⟨_, _, hcheck, hsubset⟩ :=
    Exec.Moves.of_mem_forEach validateColumnId_moves hcolumns hvalue
  rw [List.subset_nil.mp hsubset] at hcheck
  exact isColumnId_of_validateColumnId hcheck

theorem CellRangeLiteral.IsAccepted.validate {cellRange : CellRangeLiteral}
    (h : cellRange.IsAccepted) : cellRange.validate [] = some (.ok (), []) := by
  obtain ⟨_, after, _, hrange⟩ := Exec.bind_eq_ok_iff.mp h.valid
  have hafter := List.subset_nil.mp (cellRange.validate_moves after _ _ hrange)
  rwa [hafter] at hrange

theorem ColumnId.eq_some_of_isGrammatical {columnId : Option ColumnId}
    (h : ColumnId.isGrammatical columnId = true) : ∃ value, columnId = some ⟨some value⟩ := by
  rcases columnId with _ | ⟨_ | value⟩
  · cases h
  · cases h
  · exact ⟨value, rfl⟩

theorem RowId.eq_some_of_isGrammatical {rowId : Option RowId}
    (h : RowId.isGrammatical rowId = true) : ∃ value, rowId = some ⟨some value⟩ := by
  rcases rowId with _ | ⟨_ | value⟩
  · cases h
  · cases h
  · exact ⟨value, rfl⟩

/-! ## Cells -/

/-- The row ids that are written in a cell range literal. -/
def CellReference.rowIds (cellReference : Option CellReference) : List RowIdValue :=
  match CellReference.getIds cellReference with
  | .ok (_, rowId) => [rowId]
  | .error _ => []

theorem execCellReferenceRegex_terminal {text : String} (h : isCellReferenceTerminal text = true) :
    ∃ letters digits, execCellReferenceRegex text.toList = some (letters, digits) ∧
      letters ≠ [] ∧ letters.all Char.isUpper = true := by
  simp only [isCellReferenceTerminal, decide_eq_true_eq] at h
  obtain ⟨hletters, hdigits, hall⟩ := h
  refine ⟨_, text.toList.drop (text.toList.takeWhile Char.isUpper).length, ?_, hletters,
    List.all_takeWhile⟩
  cases htext : text.toList with
  | nil => simp [htext] at hletters
  | cons c cs =>
      rw [htext] at hletters hdigits hall
      rw [execCellReferenceRegex]
      rw [List.takeWhile_eq_self_iff.mpr (List.all_eq_true.mp hall)]
      rw [if_pos ⟨hletters, hdigits⟩]

theorem isColumnId_of_letters {letters : List Char} (hne : letters ≠ [])
    (h : letters.all Char.isUpper = true) : IsColumnId (String.ofList letters) := by
  refine .inr ?_
  simpa [columnIdRegexTest, hne] using h

theorem getIds_of_accepted {cellReference : Option CellReference}
    (hgrammatical : CellReference.isGrammatical cellReference = true)
    (hcolumnIds : ∀ value, ⟨some value⟩ ∈ CellReference.columnIds cellReference →
      IsColumnId value) :
    ∃ columnId rowId, CellReference.getIds cellReference = .ok (columnId, rowId) ∧
      IsColumnId columnId := by
  cases cellReference with
  | none => cases hgrammatical
  | some cellReference =>
      cases cellReference with
      | text cell =>
          obtain ⟨letters, digits, hexec, hne, hupper⟩ :=
            execCellReferenceRegex_terminal hgrammatical
          refine ⟨_, .index (parseInt digits), ?_, isColumnId_of_letters hne hupper⟩
          rw [CellReference.getIds, parseStringCellReference, hexec]
      | ids columnId rowId =>
          obtain ⟨hcolumnId, hrowId⟩ := (Bool.and_eq_true _ _).mp hgrammatical
          obtain ⟨value, rfl⟩ := ColumnId.eq_some_of_isGrammatical hcolumnId
          obtain ⟨row, rfl⟩ := RowId.eq_some_of_isGrammatical hrowId
          exact ⟨value, row, rfl, hcolumnIds value (by simp [CellReference.columnIds])⟩

theorem parseCellReference_of_accepted {cellReference : Option CellReference}
    (hgrammatical : CellReference.isGrammatical cellReference = true)
    (hcolumnIds : ∀ value, ⟨some value⟩ ∈ CellReference.columnIds cellReference →
      IsColumnId value) :
    ∃ cellIndex rowId, parseCellReference cellReference = .ok cellIndex ∧
      CellReference.rowIds cellReference = [rowId] ∧
      0 ≤ cellIndex.columnIndex ∧ cellIndex.rowIndex = parseRowId rowId := by
  obtain ⟨columnId, rowId, hids, hcolumnId⟩ := getIds_of_accepted hgrammatical hcolumnIds
  refine ⟨⟨parseColumnId columnId, parseRowId rowId⟩, rowId, ?_, ?_,
    parseColumnId_nonneg hcolumnId, rfl⟩
  · rw [parseCellReference, hids]
    rfl
  · rw [CellReference.rowIds, hids]

/-! ## Ranges -/

def CellRangeLiteral.rowIds : CellRangeLiteral → List RowIdValue
  | .range cellFrom cellTo => CellReference.rowIds cellFrom ++ CellReference.rowIds cellTo
  | .column _ => []
  | .row rowId => (rowId.bind RowId.value).toList
  | .cell cellId => CellReference.rowIds cellId

/-- The literal names the row zero, which no sheet has. -/
def CellRangeLiteral.HasRowZero (cellRange : CellRangeLiteral) : Prop :=
  ∃ rowId ∈ cellRange.rowIds, IsRowZero rowId

/-- What the validation of a cell range guarantees of its indexes. -/
structure CellRangeWrapper.IsProper (range : CellRangeWrapper) : Prop where
  columns_nonneg : 0 ≤ range.from.columnIndex
  columns_le : range.from.columnIndex ≤ range.to.columnIndex
  rows_ge : -1 ≤ range.from.rowIndex
  rows_le : range.from.rowIndex ≤ range.to.rowIndex

theorem isCompleteCellReference_of_isGrammatical {cellReference : Option CellReference}
    (h : CellReference.isGrammatical cellReference = true) :
    CellRangeLiteral.isCompleteCellReference cellReference = true := by
  rcases cellReference with _ | (cell | ⟨columnId, rowId⟩)
  · cases h
  · rfl
  · obtain ⟨hcolumnId, hrowId⟩ := (Bool.and_eq_true _ _).mp h
    obtain ⟨value, rfl⟩ := ColumnId.eq_some_of_isGrammatical hcolumnId
    obtain ⟨row, rfl⟩ := RowId.eq_some_of_isGrammatical hrowId
    rfl

theorem validateRangeLiteral_eq_ok {cellRange : CellRangeLiteral} {range : CellRangeWrapper}
    (hcomplete : cellRange.canBeWrapped = true)
    (hrange : CellRangeWrapper.construct cellRange = .ok range)
    (h : validateRangeLiteral cellRange [] = some (.ok (), [])) :
    range.from.columnIndex ≤ range.to.columnIndex ∧ range.from.rowIndex ≤ range.to.rowIndex := by
  rw [validateRangeLiteral, hcomplete, hrange] at h
  have hlimits : checkRangeLimits range [] = some (.ok (), []) := h
  by_contra hreversed
  have hreported : range.from.columnIndex > range.to.columnIndex ∨
      range.from.rowIndex > range.to.rowIndex := by omega
  rw [checkRangeLimits, if_pos hreported] at hlimits
  cases hlimits

theorem construct_range_of_accepted {cellFrom cellTo : Option CellReference}
    (h : (CellRangeLiteral.range cellFrom cellTo).IsAccepted) :
    ∃ range, CellRangeWrapper.construct (.range cellFrom cellTo) = .ok range ∧ range.IsProper ∧
      (range.from.rowIndex = -1 ↔ (CellRangeLiteral.range cellFrom cellTo).HasRowZero) := by
  obtain ⟨hfrom, hto⟩ := (Bool.and_eq_true _ _).mp h.grammatical
  obtain ⟨fromIndex, fromId, hparseFrom, hfromIds, hfromColumn, hfromRow⟩ :=
    parseCellReference_of_accepted hfrom fun value hvalue =>
      h.columnIds (List.mem_append_left _ hvalue)
  obtain ⟨toIndex, toId, hparseTo, htoIds, _, htoRow⟩ :=
    parseCellReference_of_accepted hto fun value hvalue =>
      h.columnIds (List.mem_append_right _ hvalue)
  have hconstruct : CellRangeWrapper.construct (.range cellFrom cellTo) =
      .ok ⟨.range cellFrom cellTo, fromIndex, toIndex⟩ := by
    rw [CellRangeWrapper.construct, hparseFrom, hparseTo]
    rfl
  have hcomplete : (CellRangeLiteral.range cellFrom cellTo).canBeWrapped = true := by
    simp [CellRangeLiteral.canBeWrapped, isCompleteCellReference_of_isGrammatical hfrom,
      isCompleteCellReference_of_isGrammatical hto]
  obtain ⟨hcolumns, hrows⟩ := validateRangeLiteral_eq_ok hcomplete hconstruct h.validate
  have hge := parseRowId_ge fromId
  refine ⟨_, hconstruct, ⟨hfromColumn, hcolumns, hfromRow ▸ hge, hrows⟩, ?_⟩
  have hzero := parseRowId_eq_iff fromId
  have hzero' := parseRowId_eq_iff toId
  dsimp only at hrows ⊢
  rw [hfromRow, htoRow] at hrows
  rw [hfromRow]
  simp only [CellRangeLiteral.HasRowZero, CellRangeLiteral.rowIds, hfromIds, htoIds,
    List.mem_append, List.mem_singleton, exists_eq_or_imp, exists_eq_left, ← hzero, ← hzero']
  omega

theorem construct_of_accepted {cellRange : CellRangeLiteral} (h : cellRange.IsAccepted) :
    ∃ range, CellRangeWrapper.construct cellRange = .ok range ∧ range.IsProper ∧
      (range.from.rowIndex = -1 ↔ cellRange.HasRowZero) := by
  cases cellRange with
  | cell cellId =>
      obtain ⟨cellIndex, rowId, hparse, hrowIds, hcolumn, hrow⟩ :=
        parseCellReference_of_accepted h.grammatical fun value => h.columnIds
      refine ⟨⟨.cell cellId, cellIndex, cellIndex⟩, ?_, ⟨hcolumn, le_rfl, ?_, le_rfl⟩, ?_⟩
      · rw [CellRangeWrapper.construct, hparse]
        rfl
      · rw [hrow]
        exact parseRowId_ge rowId
      · simp [CellRangeLiteral.HasRowZero, CellRangeLiteral.rowIds, hrowIds, hrow,
          parseRowId_eq_iff]
  | column columnId =>
      obtain ⟨value, rfl⟩ := ColumnId.eq_some_of_isGrammatical h.grammatical
      have hmem : ⟨some value⟩ ∈ (CellRangeLiteral.column (some ⟨some value⟩)).columnIds := by
        simp [CellRangeLiteral.columnIds]
      have hcolumn := parseColumnId_nonneg (h.columnIds hmem)
      refine ⟨_, rfl, ⟨hcolumn, le_rfl, by norm_num, by norm_num [LAST_INDEX]⟩, ?_⟩
      simp [CellRangeLiteral.HasRowZero, CellRangeLiteral.rowIds]
  | row rowId =>
      obtain ⟨row, rfl⟩ := RowId.eq_some_of_isGrammatical h.grammatical
      refine ⟨_, rfl, ⟨le_rfl, by norm_num [LAST_INDEX], parseRowId_ge row, le_rfl⟩, ?_⟩
      simp [CellRangeLiteral.HasRowZero, CellRangeLiteral.rowIds, parseRowId_eq_iff]
  | range cellFrom cellTo => exact construct_range_of_accepted h

/-! ## Bounds -/

theorem isIndexInBounds_iff (index max : ℤ) :
    CellIndex.isIndexInBounds index max = true ↔ 0 ≤ max ∧ (index = LAST_INDEX ∨ index ≤ max) := by
  rw [CellIndex.isIndexInBounds]
  split_ifs with hmax
  · simp [hmax]
  · simp [not_lt.mp hmax]

/-- An index in bounds is resolved to one at most the last index. -/
theorem resolveIndex_le {index last : ℤ} (h : CellIndex.isIndexInBounds index last = true) :
    CellIndex.resolveIndex index last ≤ last := by
  obtain ⟨_, hindex⟩ := (isIndexInBounds_iff index last).mp h
  rw [CellIndex.resolveIndex]
  split_ifs with hlast
  · exact le_rfl
  · exact hindex.resolve_left hlast

/-- Resolving keeps the order of indexes in bounds. -/
theorem resolveIndex_mono {index index' last : ℤ} (hlast : last < LAST_INDEX)
    (hle : index ≤ index')
    (h : CellIndex.isIndexInBounds index last = true)
    (h' : CellIndex.isIndexInBounds index' last = true) :
    CellIndex.resolveIndex index last ≤ CellIndex.resolveIndex index' last := by
  obtain ⟨_, hindex⟩ := (isIndexInBounds_iff index last).mp h
  obtain ⟨_, hindex'⟩ := (isIndexInBounds_iff index' last).mp h'
  rw [CellIndex.resolveIndex, CellIndex.resolveIndex]
  split_ifs <;> omega

theorem resolveIndex_nonneg {index last : ℤ} (hindex : 0 ≤ index)
    (h : CellIndex.isIndexInBounds index last = true) : 0 ≤ CellIndex.resolveIndex index last := by
  obtain ⟨hlast, _⟩ := (isIndexInBounds_iff index last).mp h
  rw [CellIndex.resolveIndex]
  split_ifs <;> omega

theorem CellIndex.hasRelativeIndexes_eq_false_iff (cellIndex : CellIndex) :
    cellIndex.hasRelativeIndexes = false ↔
      cellIndex.columnIndex ≠ LAST_INDEX ∧ cellIndex.rowIndex ≠ LAST_INDEX := by
  simp [CellIndex.hasRelativeIndexes]

theorem CellRangeWrapper.hasRelativeIndexes_eq_false_iff (range : CellRangeWrapper) :
    range.hasRelativeIndexes = false ↔
      (range.from.columnIndex ≠ LAST_INDEX ∧ range.from.rowIndex ≠ LAST_INDEX) ∧
        range.to.columnIndex ≠ LAST_INDEX ∧ range.to.rowIndex ≠ LAST_INDEX := by
  rw [hasRelativeIndexes, Bool.or_eq_false_iff, CellIndex.hasRelativeIndexes_eq_false_iff,
    CellIndex.hasRelativeIndexes_eq_false_iff]

/-- Without relative indexes there is nothing to resolve. -/
theorem Sheet.resolveRelativeIndexes_eq (sheet : Sheet) (range : CellRangeWrapper) :
    sheet.resolveRelativeIndexes range = range.resolveRelativeIndexes sheet.getBounds := by
  rw [Sheet.resolveRelativeIndexes]
  split_ifs with hrelative
  · rfl
  · simp only [CellRangeWrapper.hasRelativeIndexes, CellIndex.hasRelativeIndexes,
      Bool.or_eq_true, decide_eq_true_eq, not_or] at hrelative
    simp [CellRangeWrapper.resolveRelativeIndexes, CellIndex.resolveRelativeIndexes,
      CellIndex.resolveIndex, hrelative]

theorem Sheet.isInBounds_iff (sheet : Sheet) (range : CellRangeWrapper) :
    sheet.isInBounds range = true ↔
      (CellIndex.isIndexInBounds range.from.columnIndex (sheet.numberOfColumns - 1) = true ∧
        CellIndex.isIndexInBounds range.to.columnIndex (sheet.numberOfColumns - 1) = true) ∧
      CellIndex.isIndexInBounds range.from.rowIndex (sheet.numberOfRows - 1) = true ∧
        CellIndex.isIndexInBounds range.to.rowIndex (sheet.numberOfRows - 1) = true := by
  simp only [Sheet.isInBounds, CellRangeWrapper.isInBounds, CellIndex.isInBounds,
    Sheet.getBounds, Bool.and_eq_true]
  tauto

/-- The indexes of a range lie inside of a sheet. -/
structure CellRangeWrapper.LiesInside (range : CellRangeWrapper) (sheet : Sheet) : Prop where
  absolute : range.hasRelativeIndexes = false
  columns_nonneg : 0 ≤ range.from.columnIndex
  columns_le : range.from.columnIndex ≤ range.to.columnIndex
  columns_le_last : range.to.columnIndex ≤ sheet.numberOfColumns - 1
  rows_nonneg : 0 ≤ range.from.rowIndex
  rows_le : range.from.rowIndex ≤ range.to.rowIndex
  rows_le_last : range.to.rowIndex ≤ sheet.numberOfRows - 1

/-- JavaScript has no arrays of `2 ^ 32` elements. -/
structure Sheet.FitsArrays (sheet : Sheet) : Prop where
  numberOfRows_lt : sheet.numberOfRows < 2 ^ 32
  numberOfColumns_lt : sheet.numberOfColumns < 2 ^ 32

/-- A proper range in the bounds of a sheet ends inside of it. -/
theorem resolveRelativeIndexes_bounds {sheet : Sheet} {range : CellRangeWrapper}
    (hsheet : sheet.FitsArrays) (hrange : range.IsProper) (h : sheet.isInBounds range = true) :
    let resolved := sheet.resolveRelativeIndexes range
    (0 ≤ resolved.from.columnIndex ∧ resolved.from.columnIndex ≤ resolved.to.columnIndex ∧
      resolved.to.columnIndex ≤ sheet.numberOfColumns - 1) ∧
    resolved.from.rowIndex ≤ resolved.to.rowIndex ∧
      resolved.to.rowIndex ≤ sheet.numberOfRows - 1 := by
  obtain ⟨⟨hfromColumn, htoColumn⟩, hfromRow, htoRow⟩ := (sheet.isInBounds_iff range).mp h
  obtain ⟨hrows, hcolumns⟩ := hsheet
  have hlast : LAST_INDEX = 9007199254740991 := rfl
  have hlastColumn : sheet.numberOfColumns - 1 < LAST_INDEX := by omega
  have hlastRow : sheet.numberOfRows - 1 < LAST_INDEX := by omega
  rw [Sheet.resolveRelativeIndexes_eq]
  refine ⟨⟨?_, ?_, ?_⟩, ?_, ?_⟩
  · exact resolveIndex_nonneg hrange.columns_nonneg hfromColumn
  · exact resolveIndex_mono hlastColumn hrange.columns_le hfromColumn htoColumn
  · exact resolveIndex_le htoColumn
  · exact resolveIndex_mono hlastRow hrange.rows_le hfromRow htoRow
  · exact resolveIndex_le htoRow

/-- It lies inside of the sheet, unless it starts at row zero. -/
theorem resolveRelativeIndexes_liesInside_iff {sheet : Sheet} {range : CellRangeWrapper}
    (hsheet : sheet.FitsArrays) (hrange : range.IsProper) (h : sheet.isInBounds range = true) :
    (sheet.resolveRelativeIndexes range).LiesInside sheet ↔ range.from.rowIndex ≠ -1 := by
  obtain ⟨⟨hcolumn, hcolumns, hlastColumn⟩, hrows, hlastRow⟩ :=
    resolveRelativeIndexes_bounds hsheet hrange h
  obtain ⟨_, hfromRow, _⟩ := (sheet.isInBounds_iff range).mp h
  have hfrom : (sheet.resolveRelativeIndexes range).from.rowIndex =
      CellIndex.resolveIndex range.from.rowIndex (sheet.numberOfRows - 1) := by
    rw [Sheet.resolveRelativeIndexes_eq]
    rfl
  constructor
  · intro hinside hzero
    have hnonneg := hinside.rows_nonneg
    rw [hfrom, hzero, CellIndex.resolveIndex, if_neg (by decide)] at hnonneg
    omega
  · intro hzero
    have hge := hrange.rows_ge
    have hnonneg := resolveIndex_nonneg (by omega) hfromRow
    rw [← hfrom] at hnonneg
    refine ⟨?_, hcolumn, hcolumns, hlastColumn, hnonneg, hrows, hlastRow⟩
    obtain ⟨hsheetRows, hsheetColumns⟩ := hsheet
    have hlast : LAST_INDEX = 9007199254740991 := rfl
    rw [CellRangeWrapper.hasRelativeIndexes_eq_false_iff]
    omega

/-- A range that the validation accepts and that is in the bounds of a sheet is resolved to
indexes inside of the sheet exactly if it does not name the row zero. No range is in the bounds
of a sheet without rows or without columns. -/
theorem isInBounds_liesInside_iff (cellRange : CellRangeLiteral) (h : cellRange.IsAccepted)
    (sheet : Sheet) (hsheet : sheet.FitsArrays) :
    ∃ range, CellRangeWrapper.construct cellRange = .ok range ∧
      ((sheet.isInBounds range = true → (sheet.resolveRelativeIndexes range).LiesInside sheet) ↔
        ¬ (cellRange.HasRowZero ∧ sheet.isInBounds range = true)) ∧
      (sheet.isInBounds range = true → 0 < sheet.numberOfRows ∧ 0 < sheet.numberOfColumns) := by
  obtain ⟨range, hconstruct, hproper, hzero⟩ := construct_of_accepted h
  refine ⟨range, hconstruct, ?_, ?_⟩
  · rw [← hzero]
    by_cases hbounds : sheet.isInBounds range = true
    · simp [hbounds, resolveRelativeIndexes_liesInside_iff hsheet hproper hbounds]
    · simp [hbounds]
  · intro hbounds
    obtain ⟨⟨hcolumn, _⟩, hrow, _⟩ := (sheet.isInBounds_iff range).mp hbounds
    have hcolumns := ((isIndexInBounds_iff _ _).mp hcolumn).1
    have hrows := ((isIndexInBounds_iff _ _).mp hrow).1
    omega

/-- `cell A0`. -/
def cellA0 : CellRangeLiteral :=
  .cell (some (.text "A0"))

/-- `range A1:B*`. -/
def rangeA1ToBLast : CellRangeLiteral :=
  .range (some (.text "A1")) (some (.ids (some ⟨some "B"⟩) (some ⟨some .star⟩)))

def sampleSheet : Sheet :=
  Sheet.ofTexts [["name", "age"], ["Ada"], ["Alan", "41", "x"]]

theorem sampleSheet_fitsArrays : sampleSheet.FitsArrays :=
  ⟨by decide, by decide⟩

theorem isInBounds_liesInside_sample :
    ∃ range, CellRangeWrapper.construct rangeA1ToBLast = .ok range ∧
      ((sampleSheet.isInBounds range = true →
        (sampleSheet.resolveRelativeIndexes range).LiesInside sampleSheet) ↔
        ¬ (rangeA1ToBLast.HasRowZero ∧ sampleSheet.isInBounds range = true)) ∧
      (sampleSheet.isInBounds range = true →
        0 < sampleSheet.numberOfRows ∧ 0 < sampleSheet.numberOfColumns) :=
  isInBounds_liesInside_iff rangeA1ToBLast ⟨by decide, by rfl⟩ sampleSheet sampleSheet_fitsArrays

theorem not_isInBounds_liesInside_cellA0 :
    ¬ ∀ (cellRange : CellRangeLiteral) (sheet : Sheet) (range : CellRangeWrapper),
      cellRange.IsAccepted → sheet.FitsArrays → CellRangeWrapper.construct cellRange = .ok range →
      sheet.isInBounds range = true → (sheet.resolveRelativeIndexes range).LiesInside sheet := by
  intro h
  have hinside := h cellA0 sampleSheet ⟨cellA0, ⟨0, -1⟩, ⟨0, -1⟩⟩ ⟨by decide, by rfl⟩
    sampleSheet_fitsArrays (by rfl) (by decide)
  exact absurd hinside.rows_nonneg (by decide)

end Jayvee
