import Jayvee.Verification.Tables.WellFormedStatements
import Mathlib.Tactic.NormNum

/-! # Rows that are inserted into a database -/

namespace Jayvee

open Foundation Sql Lexeme ValueType

variable {ast : Ast} {runtime : JsRuntime} {table : Table} {tableName : String}

/-! ## Reading rows -/

/-- A literal as a value of a column. -/
def decodeLiteral : PrimitiveValueType → Literal → Option Value
  | .boolean, .text value =>
      if value = "true" then some (.boolean true)
      else if value = "false" then some (.boolean false)
      else none
  | .decimal, .number value => some (.number (.finite value))
  | .integer, .number value => some (.number (.finite value))
  | .text, .text value => some (.string value)
  | _, _ => none

def decodeTuple : List PrimitiveValueType → List Literal → Option (List Value)
  | [], [] => some []
  | kind :: kinds, literal :: literals => do
      let value ← decodeLiteral kind literal
      let values ← decodeTuple kinds literals
      return value :: values
  | _, _ => none

/-- The table, the columns and the rows of a statement, for columns of the given types. -/
def decodeInsert (ast : Ast) (valueTypes : List ValueType) (statement : String) :
    Option (String × List String × List (List Value)) := do
  let tokens ← tokenize statement.toList
  let insert ← parseInsert tokens
  let rows ← insert.tuples.mapM (decodeTuple (valueTypes.map (rootKind ast)))
  return (insert.table, insert.columns, rows)

/-- The text is read as the number. -/
def ReadsBack (runtime : JsRuntime) (x : JsNumber) : Prop :=
  ∃ v, x.value = some v ∧ readNumber (runtime.numberToString x).toList = some v

/-- The numbers of a table are printed such that they are read back. -/
def ReadsNumbersBack (runtime : JsRuntime) (table : Table) : Prop :=
  ∀ name column, table.getColumn name = some column → ∀ x, Value.number x ∈ column.values →
    ReadsBack runtime x

theorem ReadsNumbersBack.printsNumbers (h : ReadsNumbersBack runtime table) :
    PrintsNumbers runtime table := by
  intro name column hcolumn x hx
  obtain ⟨v, _, hread⟩ := h name column hcolumn x hx
  rw [hread]
  rfl

/-- Negative zero, which is printed without its sign, is replaced by the zero that it equals. -/
def Value.withoutNegativeZero : Value → Value
  | number .negativeZero => number 0
  | value => value

theorem withoutNegativeZero_number {x : JsNumber} {v : ℚ} (h : x.value = some v) :
    (Value.number x).withoutNegativeZero = .number (.finite v) := by
  cases x <;> cases h <;> rfl

/-! ## Rows of the table -/

theorem setRowValues_eq_ok {entries : List (String × TableColumn)} {rowId : Nat}
    {row : JsMap String Value} (hlength : ∀ entry ∈ entries, rowId < entry.2.values.length)
    (hnew : ∀ entry ∈ entries, entry.1 ∉ row.keys) (hnodup : (entries.map Prod.fst).Nodup) :
    ∃ result, entries.foldlM (Table.setRowValue rowId) row = .ok result ∧
      result.entries = row.entries ++ entries.map fun entry => (entry.1, cell entry.2 rowId) := by
  induction entries generalizing row with
  | nil => exact ⟨row, rfl, by simp⟩
  | cons entry entries ih =>
      rw [List.forall_mem_cons] at hlength hnew
      rw [List.map_cons, List.nodup_cons] at hnodup
      have hset : Table.setRowValue rowId row entry =
          .ok (row.set entry.1 (cell entry.2 rowId)) := by
        rw [Table.setRowValue, cell_eq hlength.1]
      have hentries : (row.set entry.1 (cell entry.2 rowId)).entries =
          row.entries ++ [(entry.1, cell entry.2 rowId)] :=
        JsMap.entries_set_of_not_mem hnew.1
      have hnew' : ∀ other ∈ entries, other.1 ∉ (row.set entry.1 (cell entry.2 rowId)).keys := by
        intro other hother
        rw [JsMap.keys, hentries, List.map_append, List.mem_append, not_or]
        refine ⟨hnew.2 other hother, ?_⟩
        rw [List.map_singleton, List.mem_singleton]
        intro heq
        exact hnodup.1 (heq ▸ List.mem_map_of_mem hother)
      obtain ⟨result, hresult, hresultEntries⟩ := ih hlength.2 hnew' hnodup.2
      refine ⟨result, ?_, ?_⟩
      · rw [List.foldlM_cons, hset]
        exact hresult
      · rw [hresultEntries, hentries, List.append_assoc]
        rfl

/-- A row of the table has its cells. -/
theorem getRow_entries {rowId : Nat}
    (hlength : ∀ entry ∈ table.columns.entries, rowId < entry.2.values.length)
    (hrow : rowId < table.numberOfRows) :
    ∃ row, table.getRow rowId = .ok row ∧
      row.entries = table.columns.entries.map fun entry => (entry.1, cell entry.2 rowId) := by
  have hnew : ∀ entry ∈ table.columns.entries, entry.1 ∉ (JsMap.empty : JsMap String Value).keys :=
    fun _ _ => List.not_mem_nil
  obtain ⟨row, hrowOk, hentries⟩ := setRowValues_eq_ok hlength hnew table.columns.nodup
  refine ⟨row, ?_, ?_⟩
  · rw [Table.getRow, if_neg (by omega)]
    exact hrowOk
  · rw [hentries, JsMap.empty, List.nil_append]

theorem getRow_eq_ok (h : table.Loadable ast) {rowId : Nat} (hrow : rowId < table.numberOfRows) :
    ∃ row, table.getRow rowId = .ok row ∧ row.entries.map Prod.snd = rowCells table rowId := by
  have hlength : ∀ entry ∈ table.columns.entries, rowId < entry.2.values.length := by
    intro entry hentry
    rwa [(h.entry hentry).2.length]
  obtain ⟨row, hrowOk, hentries⟩ := getRow_entries hlength hrow
  refine ⟨row, hrowOk, ?_⟩
  rw [hentries, List.map_map]
  rfl

/-! ## Rows of the statement -/

theorem decodeLiteral_readCell {kind : PrimitiveValueType} {value : Value}
    (hreferenceable : kind.isReferenceableByUser = true)
    (hkind : kind.isInternalValueRepresentation value = true)
    (hnumber : ∀ x, value = .number x → ReadsBack runtime x) :
    decodeLiteral kind (readCell runtime value) = some value.withoutNegativeZero := by
  rcases cases_of_isInternalValueRepresentation hreferenceable hkind with
    ⟨b, rfl⟩ | ⟨x, rfl⟩ | ⟨text, rfl⟩
  · obtain rfl : kind = .boolean := by
      cases kind <;> simp_all [PrimitiveValueType.isInternalValueRepresentation]
    cases b <;> rfl
  · obtain ⟨v, hv, hread⟩ := hnumber x rfl
    rw [readCell, hread, withoutNegativeZero_number hv]
    cases kind with
    | decimal => rfl
    | integer => rfl
    | _ => cases hkind
  · obtain rfl : kind = .text := by
      cases kind <;> simp_all [PrimitiveValueType.isInternalValueRepresentation]
    rfl

theorem decodeTuple_map {entries : List (String × TableColumn)} {rowIndex : Nat}
    (h : ∀ entry ∈ entries, decodeLiteral (rootKind ast entry.2.valueType)
      (readCell runtime (cell entry.2 rowIndex)) =
        some (cell entry.2 rowIndex).withoutNegativeZero) :
    decodeTuple ((entries.map fun entry => entry.2.valueType).map (rootKind ast))
        ((entries.map fun entry => cell entry.2 rowIndex).map (readCell runtime)) =
      some ((entries.map fun entry => cell entry.2 rowIndex).map Value.withoutNegativeZero) := by
  induction entries with
  | nil => rfl
  | cons entry entries ih =>
      rw [List.forall_mem_cons] at h
      simp only [List.map_cons]
      rw [decodeTuple, h.1, ih h.2]
      rfl

theorem decodeTuple_rowCells (h : table.Loadable ast) (hnumbers : ReadsNumbersBack runtime table)
    {rowIndex : Nat} (hrow : rowIndex < table.numberOfRows) :
    decodeTuple ((table.columns.entries.map fun entry => entry.2.valueType).map (rootKind ast))
        ((rowCells table rowIndex).map (readCell runtime)) =
      some ((rowCells table rowIndex).map Value.withoutNegativeZero) := by
  refine decodeTuple_map fun entry hentry => ?_
  have hcolumn : table.getColumn entry.1 = some entry.2 := JsMap.mem_entries_iff.mp hentry
  obtain ⟨hrepresentable, hfits⟩ := h.entry hentry
  have hmem : cell entry.2 rowIndex ∈ entry.2.values := cell_mem (by rwa [hfits.length])
  refine decodeLiteral_readCell hrepresentable.root.1
    (hrepresentable.isInternalValueRepresentation (hfits.valid _ hmem)) fun x hx => ?_
  exact hnumbers entry.1 entry.2 hcolumn x (hx ▸ hmem)

theorem getRows_eq_ok (h : table.Loadable ast) {rowIds : List Nat}
    (hrows : ∀ rowId ∈ rowIds, rowId < table.numberOfRows) : ∃ rows,
      rowIds.mapM table.getRow = .ok rows ∧
        (rows.map fun row => row.entries.map Prod.snd) = rowIds.map (rowCells table) := by
  induction rowIds with
  | nil => exact ⟨[], rfl, rfl⟩
  | cons rowId rowIds ih =>
      rw [List.forall_mem_cons] at hrows
      obtain ⟨row, hrow, hcells⟩ := getRow_eq_ok h hrows.1
      obtain ⟨rows, hothers, hotherCells⟩ := ih hrows.2
      refine ⟨row :: rows, ?_, ?_⟩
      · rw [List.mapM_cons, hrow, hothers]
        rfl
      · rw [List.map_cons, List.map_cons, hcells, hotherCells]

theorem noteTable_readsNumbersBack : ReadsNumbersBack sampleRuntime noteTable := by
  intro name column hcolumn x hx
  rcases eq_of_getColumn_noteTable hcolumn with rfl | rfl
  · simp at hx
  · obtain rfl : x = -3 := by simpa using hx
    have hprinted : (sampleRuntime.numberToString (-3)).toList = ['-', '3'] := by decide
    have hread : (scanNumber ['3']).1 = 3 := by
      show (((3 : ℕ) : ℚ) + ((0 : ℕ) : ℚ) / 10 ^ (0 : ℕ)) * 10 ^ (0 : ℤ) = 3
      norm_num
    refine ⟨-3, rfl, ?_⟩
    rw [hprinted, readNumber, if_pos (by decide), hread]

end Jayvee
