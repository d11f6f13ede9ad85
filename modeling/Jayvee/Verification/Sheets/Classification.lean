import Jayvee.Verification.Sheets.Deleters

/-! # Rows and columns after their indexes are resolved -/

namespace Jayvee

open Foundation ExecutionContext

/-! ## Literals that can be wrapped -/

theorem isComplete_of_parseCellReference {cellReference : Option CellReference}
    {cellIndex : CellIndex} (h : parseCellReference cellReference = .ok cellIndex) :
    CellRangeLiteral.isCompleteCellReference cellReference = true := by
  rcases cellReference with _ | ⟨_ | ⟨columnId, rowId⟩⟩
  · cases h
  · rfl
  · rcases columnId with _ | ⟨_ | columnId⟩
    · cases h
    · cases h
    · rcases rowId with _ | ⟨_ | rowId⟩
      · cases h
      · cases h
      · rfl

theorem canBeWrapped_of_construct {cellRange : CellRangeLiteral} {range : CellRangeWrapper}
    (h : CellRangeWrapper.construct cellRange = .ok range) : cellRange.canBeWrapped = true := by
  cases cellRange with
  | cell cellId =>
      obtain ⟨cellIndex, hparse, _⟩ := except_bind_eq_ok_iff.mp h
      exact isComplete_of_parseCellReference hparse
  | column columnId =>
      rcases columnId with _ | ⟨_ | columnId⟩
      · cases h
      · cases h
      · rfl
  | row rowId =>
      rcases rowId with _ | ⟨_ | rowId⟩
      · cases h
      · cases h
      · rfl
  | range cellFrom cellTo =>
      obtain ⟨cellIndex, hfrom, hrest⟩ := except_bind_eq_ok_iff.mp h
      obtain ⟨cellIndex', hto, _⟩ := except_bind_eq_ok_iff.mp hrest
      rw [CellRangeLiteral.canBeWrapped, isComplete_of_parseCellReference hfrom,
        isComplete_of_parseCellReference hto]
      rfl

theorem wrap_of_construct {cellRange : CellRangeLiteral} {range : CellRangeWrapper}
    (h : CellRangeWrapper.construct cellRange = .ok range) :
    CellRangeWrapper.wrap cellRange = .ok range := by
  rw [CellRangeWrapper.wrap, if_pos (canBeWrapped_of_construct h), h]

theorem astNode_of_construct {cellRange : CellRangeLiteral} {range : CellRangeWrapper}
    (h : CellRangeWrapper.construct cellRange = .ok range) : range.astNode = cellRange := by
  cases cellRange with
  | cell cellId =>
      obtain ⟨cellIndex, _, h⟩ := except_bind_eq_ok_iff.mp h
      cases h
      rfl
  | column columnId =>
      obtain ⟨value, _, h⟩ := except_bind_eq_ok_iff.mp h
      cases h
      rfl
  | row rowId =>
      obtain ⟨value, _, h⟩ := except_bind_eq_ok_iff.mp h
      cases h
      rfl
  | range cellFrom cellTo =>
      obtain ⟨cellIndex, _, hrest⟩ := except_bind_eq_ok_iff.mp h
      obtain ⟨cellIndex', _, h⟩ := except_bind_eq_ok_iff.mp hrest
      cases h
      rfl

/-! ## A single line -/

/-- An execution that ends with an assertion that fails. -/
def FailsAssertion (outcome : Except JsError (Result Sheet)) : Prop :=
  ∃ message, outcome = .error (.assertionError message)

namespace LineKind

variable {kind : LineKind} {sheet : Sheet} {cellRange : CellRangeLiteral}
  {range : CellRangeWrapper}

theorem isWrapper_of_checkCellRange (hconstruct : CellRangeWrapper.construct cellRange = .ok range)
    (h : kind.checkCellRange cellRange [] = some (.ok (), [])) : kind.isWrapper range = true := by
  by_contra hkind
  rw [checkCellRange, canBeWrapped_of_construct hconstruct] at h
  obtain ⟨wrapper, between, hwrap, haccept⟩ := Exec.bind_eq_ok_iff.mp h
  rw [wrap_of_construct hconstruct] at hwrap
  cases hwrap
  simp [hkind, accept] at haccept

theorem doExecute_failsAssertion_iff {δ : Type} {services : ExecutionServices}
    {context : ExecutionContext δ} {cellRanges : List CellRangeLiteral}
    (h : HasDeleteProperty services context cellRanges) :
    (∀ message after, kind.doExecute services sheet context ≠
        some (.error (.assertionError message), after)) ↔
      ¬ FailsAssertion (kind.deleteLines sheet cellRanges) := by
  obtain ⟨after, hrun⟩ := doExecute_eq h kind sheet
  simp [hrun, FailsAssertion]

/-- A line that is none of its kind any more after its indexes are resolved. -/
theorem deleteLines_of_getIndex_error {message : String}
    (hconstruct : CellRangeWrapper.construct cellRange = .ok range)
    (hkind : kind.isWrapper range = true)
    (hindex : kind.getIndex (sheet.resolveRelativeIndexes range) =
      .error (.assertionError message)) :
    FailsAssertion (kind.deleteLines sheet [cellRange]) := by
  refine ⟨message, ?_⟩
  have hwrap : [cellRange].mapM CellRangeWrapper.wrap = .ok [range] := by
    rw [List.mapM_cons, wrap_of_construct hconstruct]
    rfl
  rw [deleteLines, hwrap, except_ok_bind]
  simp only [List.all_cons, hkind, List.all_nil, Bool.and_true, assert, if_true, except_ok_bind,
    List.map_cons, List.map_nil, checkLinesExist, hindex]
  cases sheet.isInBounds (sheet.resolveRelativeIndexes range) with
  | false => rfl
  | true =>
      have hmessage : kind.deletionMessage [sheet.resolveRelativeIndexes range] =
          .error (.assertionError message) := by
        rw [deletionMessage, List.mapM_cons, hindex]
        rfl
      -- A single line is neither compared nor a duplicate.
      change (kind.deletionMessage [sheet.resolveRelativeIndexes range] >>= _) = _
      rw [hmessage]
      rfl

end LineKind

/-! ## Rows -/

theorem isRowWrapper_resolved_eq_false {sheet : Sheet} {range : CellRangeWrapper}
    {cellFrom cellTo : Option CellReference} (hfits : sheet.FitsArrays)
    (hliteral : range.astNode = .range cellFrom cellTo) (hrow : isRowWrapper range = true) :
    isRowWrapper (sheet.resolveRelativeIndexes range) = false := by
  simp only [isRowWrapper, hliteral, decide_eq_true_eq] at hrow
  have hlast : LAST_INDEX = 9007199254740991 := rfl
  have hcolumns := hfits.numberOfColumns_lt
  have hresolved : (sheet.resolveRelativeIndexes range).to.columnIndex ≠ LAST_INDEX := by
    rw [Sheet.resolveRelativeIndexes_eq]
    simp only [CellRangeWrapper.resolveRelativeIndexes, CellIndex.resolveRelativeIndexes, hrow.2.2,
      Sheet.resolveIndex_last, Sheet.getBounds]
    omega
  have hsame : (sheet.resolveRelativeIndexes range).astNode = .range cellFrom cellTo := by
    rw [Sheet.resolveRelativeIndexes_eq]
    exact hliteral
  simp [isRowWrapper, hsame, hresolved]

theorem isColumnWrapper_resolved_eq_false {sheet : Sheet} {range : CellRangeWrapper}
    {cellFrom cellTo : Option CellReference} (hfits : sheet.FitsArrays)
    (hliteral : range.astNode = .range cellFrom cellTo) (hcolumn : isColumnWrapper range = true) :
    isColumnWrapper (sheet.resolveRelativeIndexes range) = false := by
  simp only [isColumnWrapper, hliteral, decide_eq_true_eq] at hcolumn
  have hlast : LAST_INDEX = 9007199254740991 := rfl
  have hrows := hfits.numberOfRows_lt
  have hresolved : (sheet.resolveRelativeIndexes range).to.rowIndex ≠ LAST_INDEX := by
    rw [Sheet.resolveRelativeIndexes_eq]
    simp only [CellRangeWrapper.resolveRelativeIndexes, CellIndex.resolveRelativeIndexes,
      hcolumn.2.2, Sheet.resolveIndex_last, Sheet.getBounds]
    omega
  have hsame : (sheet.resolveRelativeIndexes range).astNode = .range cellFrom cellTo := by
    rw [Sheet.resolveRelativeIndexes_eq]
    exact hliteral
  simp [isColumnWrapper, hsame, hresolved]

/-- A row literal stays one; only its bounds are checked once more, in the clone. -/
theorem deleteRow_failsAssertion_iff {sheet : Sheet} {line : CellRangeWrapper}
    {literal : Option RowId} (hliteral : line.astNode = .row literal) :
    FailsAssertion ((sheet.deleteRow line).map .ok) ↔ sheet.isInBounds line = false := by
  have hsame : (sheet.resolveRelativeIndexes line).astNode = .row literal := by
    rw [Sheet.resolveRelativeIndexes_eq]
    exact hliteral
  have hindex : getRowIndex (sheet.resolveRelativeIndexes line) =
      .ok (sheet.resolveRelativeIndexes line).from.rowIndex := by
    simp [getRowIndex, isRowWrapper, hsame]
  rw [Sheet.deleteRow, FailsAssertion]
  simp only [hindex]
  cases sheet.isInBounds line with
  | false => simp [assert, Except.map, bind, Except.bind]
  | true => simp [assert, Except.map, bind, Except.bind, pure, Except.pure]

theorem deleteColumn_failsAssertion_iff {sheet : Sheet} {line : CellRangeWrapper}
    {literal : Option ColumnId} (hliteral : line.astNode = .column literal) :
    FailsAssertion ((sheet.deleteColumn line).map .ok) ↔ sheet.isInBounds line = false := by
  have hsame : (sheet.resolveRelativeIndexes line).astNode = .column literal := by
    rw [Sheet.resolveRelativeIndexes_eq]
    exact hliteral
  have hindex : getColumnIndex (sheet.resolveRelativeIndexes line) =
      .ok (sheet.resolveRelativeIndexes line).from.columnIndex := by
    simp [getColumnIndex, isColumnWrapper, hsame]
  rw [Sheet.deleteColumn, FailsAssertion]
  simp only [hindex]
  cases sheet.isInBounds line with
  | false => simp [assert, Except.map, bind, Except.bind]
  | true => simp [assert, Except.map, bind, Except.bind, pure, Except.pure]

/-! ## The executors -/

namespace Sheet

/-- The stored dimensions of the sheet are not greater than those of its clone, as far as the
range is concerned. -/
def CloneContains (sheet : Sheet) (cellRange : CellRangeLiteral) : Prop :=
  ∃ range, CellRangeWrapper.construct cellRange = .ok range ∧
    sheet.clone.isInBounds (sheet.resolveRelativeIndexes range) = true

theorem cloneContains_iff {sheet : Sheet} {cellRange : CellRangeLiteral}
    {range : CellRangeWrapper} (hconstruct : CellRangeWrapper.construct cellRange = .ok range) :
    sheet.CloneContains cellRange ↔
      sheet.clone.isInBounds (sheet.resolveRelativeIndexes range) = true := by
  simp [CloneContains, hconstruct]

end Sheet

def CellRangeLiteral.IsRange : CellRangeLiteral → Prop
  | .range _ _ => True
  | _ => False

theorem deleteLines_row_failsAssertion_iff {sheet : Sheet} (hfits : sheet.FitsArrays)
    {cellRange : CellRangeLiteral} (hcontains : sheet.Contains cellRange)
    (hvalid : LineKind.row.checkCellRange cellRange [] = some (.ok (), [])) :
    ¬ FailsAssertion (LineKind.row.deleteLines sheet [cellRange]) ↔
      ¬ cellRange.IsRange ∧ sheet.CloneContains cellRange := by
  obtain ⟨range, hconstruct, hbounds⟩ := hcontains
  have hkind : isRowWrapper range = true :=
    LineKind.isWrapper_of_checkCellRange hconstruct hvalid
  have hliteral := astNode_of_construct hconstruct
  cases cellRange with
  | cell cellId => simp [isRowWrapper, hliteral] at hkind
  | column columnId => simp [isRowWrapper, hliteral] at hkind
  | range cellFrom cellTo =>
      have hresolved := isRowWrapper_resolved_eq_false hfits hliteral hkind
      have hindex : getRowIndex (sheet.resolveRelativeIndexes range) =
          .error (.assertionError "The expression evaluated to a falsy value") := by
        rw [getRowIndex, hresolved]
        rfl
      have hfails : FailsAssertion (LineKind.row.deleteLines sheet [.range cellFrom cellTo]) :=
        LineKind.deleteLines_of_getIndex_error hconstruct hkind hindex
      simp [hfails, CellRangeLiteral.IsRange]
  | row rowId =>
      rcases rowId with _ | ⟨_ | rowId⟩
      · cases hconstruct
      · cases hconstruct
      · have hsingle : ∀ other ∈ [rowId], sheet.Contains (rowLiteral other) :=
          List.forall_mem_singleton.mpr ⟨range, hconstruct, hbounds⟩
        have hdelete : LineKind.row.deleteLines sheet [rowLiteral rowId] =
            (sheet.clone.deleteRow (sheet.rowLine rowId)).map .ok := by
          refine (deleteLines_rows hsingle).trans ?_
          change Except.map Except.ok (sheet.clone.deleteRow (sheet.rowLine rowId) >>= pure) = _
          rw [bind_pure]
        have hclone : sheet.CloneContains (rowLiteral rowId) ↔
            sheet.clone.isInBounds (sheet.rowLine rowId) = true := by
          rw [← Sheet.resolve_row]
          exact Sheet.cloneContains_iff rfl
        change ¬ FailsAssertion (LineKind.row.deleteLines sheet [rowLiteral rowId]) ↔
          ¬ False ∧ sheet.CloneContains (rowLiteral rowId)
        rw [hdelete, deleteRow_failsAssertion_iff rfl, hclone]
        simp

theorem deleteLines_column_failsAssertion_iff {sheet : Sheet} (hfits : sheet.FitsArrays)
    {cellRange : CellRangeLiteral} (hcontains : sheet.Contains cellRange)
    (hvalid : LineKind.column.checkCellRange cellRange [] = some (.ok (), [])) :
    ¬ FailsAssertion (LineKind.column.deleteLines sheet [cellRange]) ↔
      ¬ cellRange.IsRange ∧ sheet.CloneContains cellRange := by
  obtain ⟨range, hconstruct, hbounds⟩ := hcontains
  have hkind : isColumnWrapper range = true :=
    LineKind.isWrapper_of_checkCellRange hconstruct hvalid
  have hliteral := astNode_of_construct hconstruct
  cases cellRange with
  | cell cellId => simp [isColumnWrapper, hliteral] at hkind
  | row rowId => simp [isColumnWrapper, hliteral] at hkind
  | range cellFrom cellTo =>
      have hresolved := isColumnWrapper_resolved_eq_false hfits hliteral hkind
      have hindex : getColumnIndex (sheet.resolveRelativeIndexes range) =
          .error (.assertionError "The expression evaluated to a falsy value") := by
        rw [getColumnIndex, hresolved]
        rfl
      have hfails : FailsAssertion (LineKind.column.deleteLines sheet [.range cellFrom cellTo]) :=
        LineKind.deleteLines_of_getIndex_error hconstruct hkind hindex
      simp [hfails, CellRangeLiteral.IsRange]
  | column columnId =>
      rcases columnId with _ | ⟨_ | columnId⟩
      · cases hconstruct
      · cases hconstruct
      · have hsingle : ∀ other ∈ [columnId], sheet.Contains (columnLiteral other) :=
          List.forall_mem_singleton.mpr ⟨range, hconstruct, hbounds⟩
        have hdelete : LineKind.column.deleteLines sheet [columnLiteral columnId] =
            (sheet.clone.deleteColumn (sheet.columnLine columnId)).map .ok := by
          refine (deleteLines_columns hsingle).trans ?_
          change Except.map Except.ok (sheet.clone.deleteColumn (sheet.columnLine columnId) >>= pure) = _
          rw [bind_pure]
        have hclone : sheet.CloneContains (columnLiteral columnId) ↔
            sheet.clone.isInBounds (sheet.columnLine columnId) = true := by
          rw [← Sheet.resolve_column]
          exact Sheet.cloneContains_iff rfl
        change ¬ FailsAssertion (LineKind.column.deleteLines sheet [columnLiteral columnId]) ↔
          ¬ False ∧ sheet.CloneContains (columnLiteral columnId)
        rw [hdelete, deleteColumn_failsAssertion_iff rfl, hclone]
        simp

/-- A cell range that the deleters take for an entire row or column is deleted without a failing
assertion exactly if it is not written as a range, and the sheet is not smaller than it says. -/
theorem deleters_failsAssertion_iff {δ : Type} (services : ExecutionServices)
    (context : ExecutionContext δ) (cellRange : CellRangeLiteral) (sheet : Sheet)
    (hfits : sheet.FitsArrays) (hcontains : sheet.Contains cellRange)
    (hproperty : HasDeleteProperty services context [cellRange]) :
    (LineKind.row.checkCellRange cellRange [] = some (.ok (), []) →
      ((∀ message after, RowDeleterExecutor.doExecute services sheet context ≠
          some (.error (.assertionError message), after)) ↔
        ¬ cellRange.IsRange ∧ sheet.CloneContains cellRange)) ∧
    (LineKind.column.checkCellRange cellRange [] = some (.ok (), []) →
      ((∀ message after, ColumnDeleterExecutor.doExecute services sheet context ≠
          some (.error (.assertionError message), after)) ↔
        ¬ cellRange.IsRange ∧ sheet.CloneContains cellRange)) := by
  constructor
  · intro hvalid
    rw [← deleteLines_row_failsAssertion_iff hfits hcontains hvalid]
    exact LineKind.doExecute_failsAssertion_iff hproperty
  · intro hvalid
    rw [← deleteLines_column_failsAssertion_iff hfits hcontains hvalid]
    exact LineKind.doExecute_failsAssertion_iff hproperty

/-- `range A2:*2`, the second row. -/
def rangeA2ToLast2 : CellRangeLiteral :=
  .range (some (.text "A2")) (some (.ids (some ⟨some "*"⟩) (some ⟨some (.index 2)⟩)))

/-- Blocks that delete `row 2` and `range A2:*2`. -/
def secondRowServices : ExecutionServices :=
  sampleServices {
    valuetypes := []
    constraints := []
    transforms := []
    blocks := [
      ⟨"Row", none, [⟨"delete", .expression (.collectionLiteral
        [.cellRangeLiteral (rowLiteral (.index 2))])⟩]⟩,
      ⟨"Range", none, [⟨"delete", .expression (.collectionLiteral
        [.cellRangeLiteral rangeA2ToLast2])⟩]⟩]
    blockTypes := [] }

theorem deleters_failsAssertion_secondRow :
    (∀ message after, RowDeleterExecutor.doExecute secondRowServices gridSheet (deleterContext 0) ≠
        some (.error (.assertionError message), after)) ↔
      ¬ (rowLiteral (.index 2)).IsRange ∧ gridSheet.CloneContains (rowLiteral (.index 2)) :=
  (deleters_failsAssertion_iff secondRowServices (deleterContext 0) (rowLiteral (.index 2))
    gridSheet ⟨by decide, by decide⟩ ⟨_, rfl, by decide⟩ ⟨_, rfl⟩).1 rfl

theorem not_deleters_keepRows_rangeA2ToLast2 :
    ¬ ∀ (services : ExecutionServices) (context : ExecutionContext Unit)
      (cellRange : CellRangeLiteral) (sheet : Sheet), cellRange.IsAccepted → sheet.FitsArrays →
      sheet.Contains cellRange → HasDeleteProperty services context [cellRange] →
      LineKind.row.checkCellRange cellRange [] = some (.ok (), []) →
      ∀ message after, RowDeleterExecutor.doExecute services sheet context ≠
        some (.error (.assertionError message), after) := by
  intro h
  exact h secondRowServices (deleterContext 1) rangeA2ToLast2 gridSheet ⟨by decide, by rfl⟩
    ⟨by decide, by decide⟩ ⟨_, by rfl, by decide⟩ ⟨_, rfl⟩ (by rfl) _ _ (by rfl)

end Jayvee
