import Mathlib.Data.List.Nodup
import Mathlib.Data.List.Zip

/-! # Grids

Lists of rows, read by cells. A grid of a given size is determined by its cells. -/

namespace Jayvee.Foundation.Grid

variable {α : Type}

/-- The cell in row `i` and column `j`. -/
def cell (data : List (List α)) (i j : Nat) : Option α :=
  data[i]?.bind fun row => row[j]?

structure HasSize (data : List (List α)) (rows columns : Nat) : Prop where
  length_eq : data.length = rows
  length_row : ∀ row ∈ data, row.length = columns

section Cells

variable {data data' : List (List α)} {rows columns i j : Nat}

theorem HasSize.cell_eq_none (h : HasSize data rows columns) (hout : rows ≤ i ∨ columns ≤ j) :
    cell data i j = none := by
  rw [cell, Option.bind_eq_none_iff]
  intro row hrow
  have hlength := h.length_row row (List.mem_of_getElem? hrow)
  have hlt := (List.getElem?_eq_some_iff.mp hrow).1
  have hrows := h.length_eq
  exact List.getElem?_eq_none (by omega)

/-- Two grids of one size with the same cells are the same. -/
theorem HasSize.ext (h : HasSize data rows columns) (h' : HasSize data' rows columns)
    (hcell : ∀ i j, i < rows → j < columns → cell data i j = cell data' i j) : data = data' := by
  have hlength := h.length_eq
  have hlength' := h'.length_eq
  apply List.ext_getElem (by omega)
  intro i hi hi'
  have hrow := h.length_row _ (List.getElem_mem hi)
  have hrow' := h'.length_row _ (List.getElem_mem hi')
  apply List.ext_getElem? fun j => ?_
  by_cases hj : j < columns
  · simpa [cell, hi, hi'] using hcell i j (by omega) hj
  · rw [List.getElem?_eq_none (by omega), List.getElem?_eq_none (by omega)]

end Cells

/-! ## Blocks -/

/-- The rows from `top` up to but not including `bottom`, cut to the columns from `left` up to
`right`. -/
def block (data : List (List α)) (top bottom left right : Nat) : List (List α) :=
  ((data.take bottom).drop top).map fun row => (row.take right).drop left

section Blocks

variable {data : List (List α)} {rows columns top bottom left right i j : Nat}

theorem HasSize.block (h : HasSize data rows columns) (top left : Nat) (hbottom : bottom ≤ rows)
    (hright : right ≤ columns) :
    HasSize (block data top bottom left right) (bottom - top) (right - left) := by
  have hlength := h.length_eq
  refine ⟨?_, ?_⟩
  · rw [Grid.block, List.length_map, List.length_drop, List.length_take]
    omega
  · intro row hrow
    obtain ⟨row, hmem, rfl⟩ := List.mem_map.mp hrow
    have hcolumns := h.length_row row (List.mem_of_mem_take (List.mem_of_mem_drop hmem))
    rw [List.length_drop, List.length_take]
    omega

theorem cell_block (hi : i < bottom - top) (hj : j < right - left) :
    cell (block data top bottom left right) i j = cell data (top + i) (left + j) := by
  have hrow : top + i < bottom := by omega
  have hcolumn : left + j < right := by omega
  rw [cell, block, List.getElem?_map, List.getElem?_drop, List.getElem?_take, if_pos hrow, cell]
  cases data[top + i]? with
  | none => rfl
  | some row =>
      simp only [Option.map_some, Option.bind_some]
      rw [List.getElem?_drop, List.getElem?_take, if_pos hcolumn]

end Blocks

/-! ## Writing -/

/-- Replaces the cell in row `position.1` and column `position.2`. -/
def write (data : List (List α)) (position : Nat × Nat) (value : α) : List (List α) :=
  data.modify position.1 fun row => row.set position.2 value

/-- One write after the other. -/
def writeAll (data : List (List α)) (writes : List ((Nat × Nat) × α)) : List (List α) :=
  writes.foldl (fun data entry => write data entry.1 entry.2) data

section Writing

variable {data : List (List α)} {rows columns : Nat} {position : Nat × Nat} {value : α}

theorem HasSize.write (h : HasSize data rows columns) :
    HasSize (write data position value) rows columns := by
  refine ⟨?_, ?_⟩
  · rw [Grid.write, List.length_modify]
    exact h.length_eq
  · intro row hrow
    obtain ⟨i, hi⟩ := List.mem_iff_getElem?.mp hrow
    rw [Grid.write, List.getElem?_modify] at hi
    obtain ⟨old, hold, rfl⟩ := Option.map_eq_some_iff.mp hi
    have hlength := h.length_row old (List.mem_of_getElem? hold)
    split <;> simp [hlength]

theorem cell_write_self (h : HasSize data rows columns) (hi : position.1 < rows)
    (hj : position.2 < columns) :
    cell (write data position value) position.1 position.2 = some value := by
  have hlt : position.1 < data.length := by
    rw [h.length_eq]
    exact hi
  have hrow := h.length_row _ (List.getElem_mem hlt)
  simp [cell, write, hlt, hrow, hj]

theorem cell_write_of_ne {i j : Nat} (hne : (i, j) ≠ position) :
    cell (write data position value) i j = cell data i j := by
  rw [cell, cell, write, List.getElem?_modify]
  cases data[i]? with
  | none => rfl
  | some row =>
      by_cases hi : position.1 = i
      · have hj : position.2 ≠ j := by
          rintro rfl
          exact hne (by rw [← hi])
        simp [hi, List.getElem?_set_ne hj]
      · simp [hi]

variable {writes : List ((Nat × Nat) × α)}

theorem HasSize.writeAll (h : HasSize data rows columns) (writes : List ((Nat × Nat) × α)) :
    HasSize (writeAll data writes) rows columns := by
  induction writes generalizing data with
  | nil => exact h
  | cons entry writes ih => exact ih h.write

/-- A cell that is not written is as before. -/
theorem cell_writeAll_of_not_mem {i j : Nat} (hnot : (i, j) ∉ writes.map Prod.fst) :
    cell (writeAll data writes) i j = cell data i j := by
  induction writes generalizing data with
  | nil => rfl
  | cons entry writes ih =>
      rw [List.map_cons, List.mem_cons, not_or] at hnot
      exact (ih hnot.2).trans (cell_write_of_ne hnot.1)

/-- If no cell is written twice, every write can be read afterwards. -/
theorem cell_writeAll_of_mem (h : HasSize data rows columns)
    (hnodup : (writes.map Prod.fst).Nodup) (hmem : (position, value) ∈ writes)
    (hi : position.1 < rows) (hj : position.2 < columns) :
    cell (writeAll data writes) position.1 position.2 = some value := by
  induction writes generalizing data with
  | nil => cases hmem
  | cons entry writes ih =>
      rw [List.map_cons, List.nodup_cons] at hnodup
      cases List.mem_cons.mp hmem with
      | inl heq =>
          have hnot : (position.1, position.2) ∉ writes.map Prod.fst := by
            rw [← heq] at hnodup
            exact hnodup.1
          have hrest : cell (Grid.writeAll data (entry :: writes)) position.1 position.2 =
              cell (write data entry.1 entry.2) position.1 position.2 :=
            cell_writeAll_of_not_mem hnot
          rw [hrest, ← heq]
          exact cell_write_self h hi hj
      | inr hrest => exact ih h.write hnodup.2 hrest

end Writing

end Jayvee.Foundation.Grid
