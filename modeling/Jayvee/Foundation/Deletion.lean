import Jayvee.Foundation.JsArray
import Mathlib.Data.List.Dedup
import Mathlib.Data.List.Induction
import Mathlib.Data.List.Sort

/-! # Deleting elements by their indexes

One element after the other from the back, or all at once. -/

namespace Jayvee.Foundation.JsArray

variable {α β : Type}

/-! ## All at once -/

/-- The elements whose index is not listed, in order. -/
def removeIndexes (xs : List α) (indexes : List ℤ) : List α :=
  (xs.zipIdx.filter fun x => (x.2 : ℤ) ∉ indexes).map Prod.fst

theorem removeIndexes_congr {xs : List α} {indexes indexes' : List ℤ}
    (h : ∀ i : Nat, (i : ℤ) ∈ indexes ↔ (i : ℤ) ∈ indexes') :
    removeIndexes xs indexes = removeIndexes xs indexes' := by
  unfold removeIndexes
  congr 1
  exact List.filter_congr fun x _ => by simp [h x.2]

@[simp]
theorem removeIndexes_nil (xs : List α) : removeIndexes xs [] = xs := by
  simp [removeIndexes, List.zipIdx_map_fst]

theorem filter_zipIdx_of_lt {xs : List α} {indexes : List ℤ} {first : Nat}
    (h : ∀ index ∈ indexes, index < first) :
    ((xs.zipIdx first).filter fun x => (x.2 : ℤ) ∉ indexes).map Prod.fst = xs := by
  rw [List.filter_eq_self.mpr]
  · exact List.zipIdx_map_fst first xs
  · rintro ⟨x, i⟩ hx
    have hle := List.le_snd_of_mem_zipIdx hx
    simp only [decide_eq_true_eq]
    intro hmem
    have hlt := h _ hmem
    simp only at hle hlt
    omega

/-- The greatest index first. -/
theorem removeIndexes_cons {xs : List α} {i : Nat} {indexes : List ℤ} (hi : i < xs.length)
    (h : ∀ index ∈ indexes, index < i) :
    removeIndexes xs (i :: indexes) = removeIndexes (xs.eraseIdx i) indexes := by
  obtain ⟨front, x, back, rfl, rfl⟩ :
      ∃ front x back, xs = front ++ x :: back ∧ front.length = i := by
    refine ⟨xs.take i, xs[i], xs.drop (i + 1), ?_, ?_⟩
    · rw [List.getElem_cons_drop, List.take_append_drop]
    · rw [List.length_take]
      omega
  have herase : (front ++ x :: back).eraseIdx front.length = front ++ back := by
    rw [List.eraseIdx_append_of_length_le le_rfl]
    simp
  have hback : ((back.zipIdx front.length).filter fun x =>
      (x.2 : ℤ) ∉ indexes).map Prod.fst = back := filter_zipIdx_of_lt h
  have hback' : ((back.zipIdx (front.length + 1)).filter fun x =>
      (x.2 : ℤ) ∉ (front.length : ℤ) :: indexes).map Prod.fst = back := by
    refine filter_zipIdx_of_lt fun index hindex => ?_
    cases List.mem_cons.mp hindex with
    | inl heq => omega
    | inr hmem =>
        have hlt := h index hmem
        omega
  have hfront : ((front.zipIdx 0).filter fun x => (x.2 : ℤ) ∉ (front.length : ℤ) :: indexes) =
      (front.zipIdx 0).filter fun x => (x.2 : ℤ) ∉ indexes := by
    refine List.filter_congr fun x hx => ?_
    have hlt := List.snd_lt_of_mem_zipIdx hx
    have hne : (x.2 : ℤ) ≠ front.length := by omega
    simp [hne]
  rw [herase, removeIndexes, removeIndexes, List.zipIdx_append, List.zipIdx_append,
    List.zipIdx_cons, List.filter_append, List.filter_append, List.map_append, List.map_append,
    hfront, List.filter_cons]
  simp only [Nat.zero_add, List.mem_cons_self, not_true, decide_false, hback]
  simp only [Bool.false_eq_true, if_false, hback']

/-- The other elements, index by index. -/
theorem removeIndexes_eq_filterMap (xs : List α) (indexes : List ℤ) :
    removeIndexes xs indexes =
      ((List.range xs.length).filter fun i : Nat => (i : ℤ) ∉ indexes).filterMap fun i => xs[i]? := by
  induction xs using List.reverseRecOn with
  | nil => rfl
  | append_singleton xs x ih =>
      have hfront : ((List.range xs.length).filter fun i : Nat => (i : ℤ) ∉ indexes).filterMap
          (fun i => (xs ++ [x])[i]?) = removeIndexes xs indexes := by
        rw [ih]
        refine List.filterMap_congr fun i hi => ?_
        have hlt := List.mem_range.mp (List.mem_filter.mp hi).1
        rw [List.getElem?_append_left hlt]
      rw [List.length_append, List.length_singleton, List.range_succ, List.filter_append,
        List.filterMap_append, hfront, removeIndexes, removeIndexes, List.zipIdx_append,
        List.filter_append, List.map_append, List.zipIdx_singleton]
      congr 1
      by_cases hmem : (xs.length : ℤ) ∈ indexes <;> simp [hmem]

/-! ## One after the other -/

/-- The splices of an array at several indexes. -/
def spliceAll (xs : List α) (indexes : List ℤ) : List α :=
  indexes.foldl splice xs

/-- A partial function that is defined everywhere keeps the positions. -/
theorem getElem?_filterMap_of_isSome {f : α → Option β} {xs : List α}
    (h : ∀ x ∈ xs, (f x).isSome) (i : Nat) : (xs.filterMap f)[i]? = xs[i]?.bind f := by
  induction xs generalizing i with
  | nil => rfl
  | cons x xs ih =>
      rw [List.forall_mem_cons] at h
      obtain ⟨y, hy⟩ := Option.isSome_iff_exists.mp h.1
      rw [List.filterMap_cons_some hy]
      cases i with
      | zero => exact hy.symm
      | succ i => exact ih h.2 i

theorem splice_natCast (xs : List α) (i : Nat) : splice xs i = xs.eraseIdx i := by
  rw [splice, relativeIndex_of_nonneg (by omega), Int.toNat_natCast]
  by_cases hi : i < xs.length
  · rw [Nat.min_eq_left (by omega)]
  · rw [Nat.min_eq_right (by omega), List.eraseIdx_of_length_le (by omega),
      List.eraseIdx_of_length_le (by omega)]

theorem spliceAll_natCast (xs : List α) (indexes : List Nat) :
    spliceAll xs (indexes.map Int.ofNat) = indexes.foldl List.eraseIdx xs := by
  rw [spliceAll, List.foldl_map]
  simp only [Int.ofNat_eq_natCast, splice_natCast]

theorem exists_position {index : ℤ} {length : Nat} (hnonneg : 0 ≤ index) (hlt : index < length) :
    ∃ i : Nat, index = i ∧ i < length :=
  ⟨index.toNat, by omega, by omega⟩

/-- From the back, each index still stands for the element it stood for. -/
theorem spliceAll_eq_removeIndexes {xs : List α} {indexes : List ℤ}
    (hnonneg : ∀ index ∈ indexes, 0 ≤ index) (hlt : ∀ index ∈ indexes, index < xs.length)
    (hdescending : indexes.Pairwise (· > ·)) : spliceAll xs indexes = removeIndexes xs indexes := by
  induction indexes generalizing xs with
  | nil => rw [removeIndexes_nil, spliceAll, List.foldl_nil]
  | cons index indexes ih =>
      obtain ⟨hhead, htail⟩ := List.pairwise_cons.mp hdescending
      obtain ⟨i, rfl, hi⟩ := exists_position (hnonneg index List.mem_cons_self)
        (hlt index List.mem_cons_self)
      rw [removeIndexes_cons hi hhead, ← splice_natCast, spliceAll, List.foldl_cons]
      refine ih (fun index hindex => hnonneg index (List.mem_cons_of_mem _ hindex)) ?_ htail
      intro index hindex
      have hless := hhead index hindex
      rw [splice_natCast, List.length_eraseIdx_of_lt hi]
      omega

theorem length_spliceAll {xs : List α} {indexes : List ℤ}
    (hnonneg : ∀ index ∈ indexes, 0 ≤ index) (hlt : ∀ index ∈ indexes, index < xs.length)
    (hdescending : indexes.Pairwise (· > ·)) :
    (spliceAll xs indexes).length + indexes.length = xs.length := by
  induction indexes generalizing xs with
  | nil => rfl
  | cons index indexes ih =>
      obtain ⟨hhead, htail⟩ := List.pairwise_cons.mp hdescending
      obtain ⟨i, rfl, hi⟩ := exists_position (hnonneg index List.mem_cons_self)
        (hlt index List.mem_cons_self)
      have hsplice : (splice xs i).length = xs.length - 1 := by
        rw [splice_natCast, List.length_eraseIdx_of_lt hi]
      have hlt' : ∀ index ∈ indexes, index < (splice xs i).length := by
        intro index hindex
        have hless := hhead index hindex
        omega
      have hrest := ih (fun index hindex => hnonneg index (List.mem_cons_of_mem _ hindex)) hlt' htail
      rw [spliceAll, List.foldl_cons, List.length_cons]
      rw [spliceAll] at hrest
      omega

/-- Only distinct indexes of elements remove one element each. -/
theorem nodup_of_length_removeIndexes {xs : List α} {indexes : List ℤ}
    (hlt : ∀ index ∈ indexes, index < xs.length) (hascending : indexes.Pairwise (· ≤ ·))
    (hlength : (removeIndexes xs indexes).length + indexes.length = xs.length) :
    indexes.Nodup ∧ ∀ index ∈ indexes, 0 ≤ index := by
  have hkept : (indexes.dedup.filter fun index => 0 ≤ index).Sublist indexes :=
    List.filter_sublist.trans (List.dedup_sublist indexes)
  have hdescending : ((indexes.dedup.filter fun index => 0 ≤ index).reverse).Pairwise (· > ·) := by
    rw [List.pairwise_reverse]
    have hnodup := (List.nodup_dedup indexes).filter fun index => 0 ≤ index
    exact ((hascending.sublist hkept).and hnodup).imp fun hlt => by omega
  have hmem : ∀ index ∈ (indexes.dedup.filter fun index => 0 ≤ index).reverse,
      0 ≤ index ∧ index < xs.length := by
    intro index hindex
    simp only [List.mem_reverse, List.mem_filter, List.mem_dedup, decide_eq_true_eq] at hindex
    exact ⟨hindex.2, hlt index hindex.1⟩
  have hremoved : removeIndexes xs indexes =
      spliceAll xs (indexes.dedup.filter fun index => 0 ≤ index).reverse := by
    rw [spliceAll_eq_removeIndexes (fun index h => (hmem index h).1) (fun index h => (hmem index h).2)
      hdescending]
    exact removeIndexes_congr fun i => by simp
  have hcount := length_spliceAll (fun index h => (hmem index h).1)
    (fun index h => (hmem index h).2) hdescending
  rw [← hremoved, List.length_reverse] at hcount
  have heq := hkept.eq_of_length (by omega)
  constructor
  · rw [← heq]
    exact (List.nodup_dedup indexes).filter _
  · intro index hindex
    rw [← heq] at hindex
    simpa using (List.mem_filter.mp hindex).2

/-! ## Distinct elements -/

/-- The induction is on the length: the first element is left out of the rest. -/
theorem nodup_eraseDups [DecidableEq α] (xs : List α) : xs.eraseDups.Nodup := by
  induction h : xs.length using Nat.strong_induction_on generalizing xs with
  | _ n ih =>
      cases xs with
      | nil => exact List.nodup_nil
      | cons x xs =>
          have hlt : (xs.filter fun y => !y == x).length < n := by
            have hle := List.length_filter_le (fun y => !y == x) xs
            rw [← h, List.length_cons]
            omega
          rw [List.eraseDups_cons, List.nodup_cons]
          exact ⟨by simp [List.mem_eraseDups], ih _ hlt _ rfl⟩

/-- Distinct indexes, the greatest one first. -/
theorem pairwise_reverse_insertionSort {indexes : List ℤ} (hnodup : indexes.Nodup) :
    (indexes.insertionSort (· ≤ ·)).reverse.Pairwise (· > ·) := by
  have hsorted := List.pairwise_insertionSort (· ≤ ·) indexes
  have hdistinct := (List.perm_insertionSort (· ≤ ·) indexes).nodup_iff.mpr hnodup
  rw [List.pairwise_reverse]
  exact (hsorted.and hdistinct).imp fun hlt => by omega

/-! ## The first repetition -/

/-- Without the first element that has the same key as the one before it. -/
def dropFirstRepeated (key : α → ℤ) : List α → List α
  | x :: y :: xs => if key x = key y then x :: xs else x :: dropFirstRepeated key (y :: xs)
  | xs => xs

theorem dropFirstRepeated_sublist (key : α → ℤ) (xs : List α) :
    (dropFirstRepeated key xs).Sublist xs := by
  fun_induction dropFirstRepeated key xs with
  | case1 x y xs h => exact ((List.Sublist.refl xs).cons y).cons_cons x
  | case2 x y xs h ih => exact ih.cons_cons x
  | case3 xs h => exact List.Sublist.refl xs

theorem map_dropFirstRepeated (key : α → ℤ) (xs : List α) :
    (dropFirstRepeated key xs).map key = dropFirstRepeated id (xs.map key) := by
  fun_induction dropFirstRepeated key xs with
  | case1 x y xs h => simp [dropFirstRepeated, h]
  | case2 x y xs h ih => simpa [dropFirstRepeated, h] using ih
  | case3 xs h =>
      rcases xs with _ | ⟨x, _ | ⟨y, xs⟩⟩
      · rfl
      · rfl
      · exact (h x y xs rfl).elim

theorem mem_dropFirstRepeated {indexes : List ℤ} {index : ℤ} :
    index ∈ dropFirstRepeated id indexes ↔ index ∈ indexes := by
  fun_induction dropFirstRepeated id indexes with
  | case1 x y xs h => simp [show x = y from h]
  | case2 x y xs h ih => simp [ih]
  | case3 xs h => rfl

theorem length_le_dropFirstRepeated (indexes : List ℤ) :
    indexes.length ≤ (dropFirstRepeated id indexes).length + 1 := by
  fun_induction dropFirstRepeated id indexes with
  | case1 x y xs h => simp
  | case2 x y xs h ih => simpa using ih
  | case3 xs h => omega

theorem nodup_or_length_dropFirstRepeated {indexes : List ℤ}
    (hascending : indexes.Pairwise (· ≤ ·)) :
    indexes.Nodup ∨ (dropFirstRepeated id indexes).length + 1 = indexes.length := by
  fun_induction dropFirstRepeated id indexes with
  | case1 x y xs h => exact .inr rfl
  | case2 x y xs h ih =>
      obtain ⟨hhead, htail⟩ := List.pairwise_cons.mp hascending
      obtain ⟨hsecond, _⟩ := List.pairwise_cons.mp htail
      cases ih htail with
      | inl hnodup =>
          have hnot : x ∉ y :: xs := by
            intro hmem
            have hle := hhead y List.mem_cons_self
            have hne : x ≠ y := h
            cases List.mem_cons.mp hmem with
            | inl heq => exact hne heq
            | inr hxs =>
                have hge := hsecond x hxs
                omega
          exact .inl (List.nodup_cons.mpr ⟨hnot, hnodup⟩)
      | inr hlength => exact .inr (by simpa using hlength)
  | case3 xs h =>
      rcases xs with _ | ⟨x, _ | ⟨y, xs⟩⟩
      · exact .inl List.nodup_nil
      · exact .inl (List.nodup_singleton x)
      · exact (h x y xs rfl).elim

/-- All repetitions are gone exactly if there was at most one. -/
theorem nodup_dropFirstRepeated_iff {indexes : List ℤ} (hascending : indexes.Pairwise (· ≤ ·)) :
    (dropFirstRepeated id indexes).Nodup ↔ indexes.length ≤ indexes.dedup.length + 1 := by
  have hdedup : (dropFirstRepeated id indexes).dedup.length = indexes.dedup.length := by
    refine List.Perm.length_eq ((List.perm_ext_iff_of_nodup (List.nodup_dedup _)
      (List.nodup_dedup _)).mpr fun index => ?_)
    simp [mem_dropFirstRepeated]
  constructor
  · intro hnodup
    rw [← hdedup, hnodup.dedup]
    exact length_le_dropFirstRepeated indexes
  · intro hlength
    cases nodup_or_length_dropFirstRepeated hascending with
    | inl hnodup => exact hnodup.sublist (dropFirstRepeated_sublist id indexes)
    | inr hdropped =>
        have hsublist := List.dedup_sublist (dropFirstRepeated id indexes)
        rw [← hsublist.eq_of_length_le (by omega)]
        exact List.nodup_dedup _

end Jayvee.Foundation.JsArray
