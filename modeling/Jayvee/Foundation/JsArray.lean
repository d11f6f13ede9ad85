import Mathlib.Data.List.Basic
import Mathlib.Data.List.Nodup
import Mathlib.Algebra.Order.Group.Nat
import Mathlib.Algebra.Order.Ring.Int

/-! # Arrays of JavaScript

Lists with the operations of JavaScript arrays, whose indexes are integers. -/

namespace Jayvee.Foundation.JsArray

variable {α β : Type}

/-! ## Indexes -/

/-- A position that is given from the end if it is negative, clamped to the array. -/
def relativeIndex (length : Nat) (index : ℤ) : Nat :=
  if index < 0 then (length + index).toNat else min index.toNat length

theorem relativeIndex_lt {length : Nat} {index : ℤ} (hlength : 0 < length)
    (h : index < length) : relativeIndex length index < length := by
  rw [relativeIndex]
  split <;> omega

theorem relativeIndex_of_nonneg {length : Nat} {index : ℤ} (h : 0 ≤ index) :
    relativeIndex length index = min index.toNat length := by
  rw [relativeIndex, if_neg (by omega)]

/-- The indexes of elements; any other one is a property of the array object. -/
def isArrayIndex (index : ℤ) : Prop :=
  0 ≤ index ∧ index < 2 ^ 32 - 1

instance (index : ℤ) : Decidable (isArrayIndex index) :=
  inferInstanceAs (Decidable (_ ∧ _))

/-! ## Operations -/

/-- `xs[index]`. -/
def get? (xs : List α) (index : ℤ) : Option α :=
  if 0 ≤ index then xs[index.toNat]? else none

/-- `xs.splice(start, 1)`. -/
def splice (xs : List α) (start : ℤ) : List α :=
  xs.eraseIdx (relativeIndex xs.length start)

/-- `xs.slice(start, stop)`. -/
def slice (xs : List α) (start stop : ℤ) : List α :=
  (xs.take (relativeIndex xs.length stop)).drop (relativeIndex xs.length start)

/-- `xs[index] = value`; behind the end, the array is extended with holes. -/
def assign (xs : List (Option α)) (index : ℤ) (value : α) : List (Option α) :=
  if isArrayIndex index then
    if index.toNat < xs.length then
      xs.set index.toNat (some value)
    else
      xs ++ List.replicate (index.toNat - xs.length) none ++ [some value]
  else
    xs

/-! ## Lengths -/

theorem length_splice_of_lt {xs : List α} {start : ℤ} (hxs : xs ≠ [])
    (h : start < xs.length) : (splice xs start).length = xs.length - 1 := by
  have hlength : 0 < xs.length := List.length_pos_iff.mpr hxs
  rw [splice, List.length_eraseIdx_of_lt (relativeIndex_lt hlength h)]

theorem length_splice_le (xs : List α) (start : ℤ) : (splice xs start).length ≤ xs.length := by
  rw [splice, List.length_eraseIdx]
  split <;> omega

theorem mem_splice {xs : List α} {start : ℤ} {x : α} (h : x ∈ splice xs start) : x ∈ xs :=
  List.mem_of_mem_eraseIdx h

theorem length_slice {xs : List α} {start stop : ℤ} (hstart : 0 ≤ start) (hstop : 0 ≤ stop) :
    (slice xs start stop).length = min stop.toNat xs.length - min start.toNat xs.length := by
  rw [slice, relativeIndex_of_nonneg hstart, relativeIndex_of_nonneg hstop]
  simp

theorem slice_of_nonneg {xs : List α} {start stop : ℤ} (hstart : 0 ≤ start) (hstop : 0 ≤ stop) :
    slice xs start stop = (xs.take stop.toNat).drop start.toNat := by
  rw [slice, relativeIndex_of_nonneg hstart, relativeIndex_of_nonneg hstop]
  refine List.ext_getElem? fun i => ?_
  simp only [List.getElem?_drop, List.getElem?_take]
  by_cases hlength : start.toNat ≤ xs.length
  · have hmin : min start.toNat xs.length = start.toNat := by omega
    rw [hmin]
    by_cases hi : start.toNat + i < xs.length
    · have hiff : start.toNat + i < min stop.toNat xs.length ↔ start.toNat + i < stop.toNat := by
        omega
      simp only [hiff]
    · simp [List.getElem?_eq_none (not_lt.mp hi)]
  · have hi : xs.length ≤ start.toNat + i := by omega
    have hmin : xs.length ≤ min start.toNat xs.length + i := by omega
    simp [List.getElem?_eq_none hi, List.getElem?_eq_none hmin]

theorem length_slice_le (xs : List α) (start stop : ℤ) :
    (slice xs start stop).length ≤ xs.length := by
  rw [slice, List.length_drop, List.length_take]
  omega

theorem length_assign {xs : List (Option α)} {index : ℤ} {value : α} :
    (assign xs index value).length =
      if isArrayIndex index then max xs.length (index.toNat + 1) else xs.length := by
  rw [assign]
  split_ifs with hindex hlt
  · rw [List.length_set]
    omega
  · simp only [List.length_append, List.length_replicate, List.length_singleton]
    omega
  · rfl

theorem length_le_length_assign (xs : List (Option α)) (index : ℤ) (value : α) :
    xs.length ≤ (assign xs index value).length := by
  rw [length_assign]
  split_ifs <;> omega

theorem length_assign_le {xs : List (Option α)} {index bound : ℤ} {value : α}
    (hxs : xs.length ≤ bound) (hindex : isArrayIndex index → index < bound) :
    ((assign xs index value).length : ℤ) ≤ bound := by
  rw [length_assign]
  split_ifs with harray
  · have hnonneg := harray.1
    have hlt := hindex harray
    omega
  · exact hxs

theorem mem_of_get? {xs : List α} {index : ℤ} {x : α} (h : get? xs index = some x) : x ∈ xs := by
  rw [get?] at h
  split_ifs at h
  exact List.mem_of_getElem? h

theorem get?_eq_some {xs : List α} {index : ℤ} {x : α} (h : get? xs index = some x) :
    0 ≤ index ∧ xs[index.toNat]? = some x := by
  rw [get?] at h
  split_ifs at h with hindex
  exact ⟨hindex, h⟩

/-! ## Positions -/

/-- The elements at the positions from `start` to `stop`, counted from `first`. -/
theorem map_filter_zipIdx (xs : List α) (first : Nat) (start stop : ℤ) :
    ((xs.zipIdx first).filter fun x => start ≤ x.2 ∧ (x.2 : ℤ) ≤ stop).map Prod.fst =
      (xs.take (stop + 1 - first).toNat).drop (start - first).toNat := by
  induction xs generalizing first with
  | nil => simp
  | cons x xs ih =>
      have hrest := ih (first + 1)
      rw [List.zipIdx_cons, List.filter_cons]
      by_cases hstop : (first : ℤ) ≤ stop
      · have htake : (stop + 1 - first).toNat = (stop + 1 - (first + 1 : Nat)).toNat + 1 := by omega
        rw [htake, List.take_succ_cons]
        by_cases hstart : start ≤ first
        · have hdrop : (start - first).toNat = 0 := by omega
          have hdrop' : (start - (first + 1 : Nat)).toNat = 0 := by omega
          rw [if_pos (by simp [hstart, hstop]), List.map_cons, hrest, hdrop, hdrop']
          simp
        · have hdrop : (start - first).toNat = (start - (first + 1 : Nat)).toNat + 1 := by omega
          rw [if_neg (by simp [hstart]), hrest, hdrop, List.drop_succ_cons]
      · have htake : (stop + 1 - first).toNat = 0 := by omega
        have htake' : (stop + 1 - (first + 1 : Nat)).toNat = 0 := by omega
        rw [if_neg (by simp [hstop]), hrest, htake, htake']
        simp

theorem mem_drop_take_iff {xs : List α} {start stop : Nat} {x : α} :
    x ∈ (xs.take stop).drop start ↔ ∃ i : Nat, xs[i]? = some x ∧ start ≤ i ∧ i < stop := by
  rw [List.mem_iff_getElem?]
  constructor
  · rintro ⟨i, hi⟩
    rw [List.getElem?_drop, List.getElem?_take] at hi
    split_ifs at hi with hlt
    exact ⟨start + i, hi, by omega, hlt⟩
  · rintro ⟨i, hi, hstart, hstop⟩
    refine ⟨i - start, ?_⟩
    rw [List.getElem?_drop, List.getElem?_take, if_pos (by omega)]
    rwa [Nat.add_sub_cancel' hstart]

/-! ## Searching -/

/-- Among elements with different keys, the search for a key finds its element. -/
theorem find?_of_nodup_map [BEq β] [LawfulBEq β] {xs : List α} {key : α → β}
    (hnodup : (xs.map key).Nodup) {x : α} (hx : x ∈ xs) :
    xs.find? (fun y => key y == key x) = some x := by
  cases hfind : xs.find? fun y => key y == key x with
  | none => simpa using List.find?_eq_none.mp hfind x hx
  | some found =>
      have hkey : key found = key x := by simpa using List.find?_some hfind
      rw [List.inj_on_of_nodup_map hnodup (List.mem_of_find?_eq_some hfind) hx hkey]

end Jayvee.Foundation.JsArray
