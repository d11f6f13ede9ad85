import Mathlib.Data.List.Nodup
import Mathlib.Data.List.Perm.Subperm

/-! # Maps of JavaScript -/

namespace Jayvee.Foundation

/-- The entries are in the order in which their keys were added. -/
structure JsMap (K V : Type) where
  entries : List (K × V)
  nodup : (entries.map Prod.fst).Nodup

namespace JsMap

variable {K V : Type}

@[ext] theorem ext {map map' : JsMap K V} (h : map.entries = map'.entries) : map = map' := by
  cases map
  cases map'
  cases h
  rfl

def empty : JsMap K V where
  entries := []
  nodup := List.nodup_nil

def keys (map : JsMap K V) : List K :=
  map.entries.map Prod.fst

def size (map : JsMap K V) : Nat :=
  map.entries.length

variable [DecidableEq K]

def get? (map : JsMap K V) (key : K) : Option V :=
  map.entries.lookup key

def has (map : JsMap K V) (key : K) : Bool :=
  key ∈ map.keys

/-- A key that is there keeps its position. -/
def setEntry (key : K) (value : V) : (entries : List (K × V)) → List (K × V)
  | [] => [(key, value)]
  | entry :: entries =>
      if entry.1 = key then
        (key, value) :: entries
      else
        entry :: setEntry key value entries

theorem keys_setEntry (key : K) (value : V) (entries : List (K × V)) :
    (setEntry key value entries).map Prod.fst =
      if key ∈ entries.map Prod.fst then entries.map Prod.fst
      else entries.map Prod.fst ++ [key] := by
  induction entries with
  | nil => simp [setEntry]
  | cons entry entries ih =>
      rw [setEntry]
      by_cases hkey : entry.1 = key
      · simp [hkey]
      · have hne : key ≠ entry.1 := fun heq => hkey heq.symm
        rw [if_neg hkey, List.map_cons, ih]
        by_cases hmem : key ∈ entries.map Prod.fst <;> simp_all

def set (map : JsMap K V) (key : K) (value : V) : JsMap K V where
  entries := setEntry key value map.entries
  nodup := by
    rw [keys_setEntry]
    split
    · exact map.nodup
    · rename_i hnew
      rw [List.nodup_append]
      exact ⟨map.nodup, List.nodup_singleton key, by
        intro k hk k' hk' heq
        rw [List.mem_singleton] at hk'
        exact hnew (hk' ▸ heq ▸ hk)⟩

def mapValues (f : V → V) (map : JsMap K V) : JsMap K V where
  entries := map.entries.map fun entry => (entry.1, f entry.2)
  nodup := by
    rw [List.map_map]
    exact map.nodup

variable {map : JsMap K V} {key key' : K} {value : V}

/-! ## Lookup -/

theorem lookup_cons_eq (entry : K × V) (entries : List (K × V)) :
    (entry :: entries).lookup key = if key = entry.1 then some entry.2 else entries.lookup key := by
  rw [List.lookup_cons]
  by_cases h : key = entry.1
  · rw [beq_iff_eq.mpr h, if_pos h]
  · rw [beq_eq_false_iff_ne.mpr h, if_neg h]

theorem lookup_setEntry (entries : List (K × V)) :
    (setEntry key value entries).lookup key' =
      if key' = key then some value else entries.lookup key' := by
  induction entries with
  | nil => rw [setEntry, lookup_cons_eq]
  | cons entry entries ih =>
      rw [setEntry, lookup_cons_eq entry]
      by_cases hkey : entry.1 = key
      · rw [if_pos hkey, lookup_cons_eq, hkey]
        by_cases h : key' = key <;> simp [h]
      · rw [if_neg hkey, lookup_cons_eq, ih]
        by_cases h : key' = key
        · have hne : ¬ key = entry.1 := fun heq => hkey heq.symm
          simp only [h, hne, if_true, if_false]
        · simp only [h, if_false]

theorem get?_set : (map.set key value).get? key' =
    if key' = key then some value else map.get? key' :=
  lookup_setEntry map.entries

theorem lookup_map_snd {W : Type} (f : V → W) (entries : List (K × V)) :
    (entries.map fun entry => (entry.1, f entry.2)).lookup key = (entries.lookup key).map f := by
  induction entries with
  | nil => rfl
  | cons entry entries ih =>
      rw [List.map_cons, lookup_cons_eq, lookup_cons_eq, ih]
      by_cases h : key = entry.1 <;> simp [h]

theorem get?_mapValues (f : V → V) : (map.mapValues f).get? key = (map.get? key).map f :=
  lookup_map_snd f map.entries

theorem mem_keys_of_get? (h : map.get? key = some value) : key ∈ map.keys := by
  obtain ⟨entries, hnodup⟩ := map
  replace h : entries.lookup key = some value := h
  show key ∈ entries.map Prod.fst
  clear hnodup
  induction entries with
  | nil => cases h
  | cons entry entries ih =>
      rw [lookup_cons_eq] at h
      rw [List.map_cons, List.mem_cons]
      by_cases hkey : key = entry.1
      · exact Or.inl hkey
      · rw [if_neg hkey] at h
        exact Or.inr (ih h)

theorem mem_entries_iff : (key, value) ∈ map.entries ↔ map.get? key = some value := by
  obtain ⟨entries, hnodup⟩ := map
  show (key, value) ∈ entries ↔ entries.lookup key = some value
  induction entries with
  | nil => simp
  | cons entry entries ih =>
      rw [List.map_cons, List.nodup_cons] at hnodup
      rw [List.mem_cons, lookup_cons_eq, ih hnodup.2]
      by_cases h : key = entry.1
      · have hnone : entries.lookup key ≠ some value := by
          intro hsome
          have hmem := List.mem_map_of_mem (f := Prod.fst) ((ih hnodup.2).mpr hsome)
          exact hnodup.1 (h ▸ hmem)
        rw [if_pos h, Option.some.injEq, or_iff_left hnone, Prod.ext_iff]
        exact ⟨fun heq => heq.2.symm, fun heq => ⟨h, heq.symm⟩⟩
      · have hne : (key, value) ≠ entry := fun heq => h (congrArg Prod.fst heq)
        rw [if_neg h, or_iff_right hne]

theorem exists_get?_of_mem_keys (h : key ∈ map.keys) : ∃ value, map.get? key = some value := by
  obtain ⟨entry, hentry, rfl⟩ := List.mem_map.mp h
  exact ⟨entry.2, mem_entries_iff.mp hentry⟩

/-- A map is its keys, in order, and their values. -/
theorem ext_get? {map' : JsMap K V} (hkeys : map.keys = map'.keys)
    (hget : ∀ key, map.get? key = map'.get? key) : map = map' := by
  refine ext (List.ext_getElem ?_ fun i hi hi' => ?_)
  · simpa [keys] using congrArg List.length hkeys
  · have hkey : map.entries[i].1 = map'.entries[i].1 := by
      have hat : map.keys[i]? = map'.keys[i]? := by rw [hkeys]
      simpa [keys, hi, hi'] using hat
    have hvalue : map.get? map.entries[i].1 = some map.entries[i].2 :=
      mem_entries_iff.mp (List.getElem_mem hi)
    have hvalue' : map'.get? map'.entries[i].1 = some map'.entries[i].2 :=
      mem_entries_iff.mp (List.getElem_mem hi')
    rw [hget, hkey, hvalue'] at hvalue
    exact Prod.ext hkey (Option.some.inj hvalue.symm)

/-- Maps with the same entries in any order have the same values. -/
theorem get?_eq_of_perm {map' : JsMap K V} (h : map.entries.Perm map'.entries) (key : K) :
    map.get? key = map'.get? key := by
  refine Option.ext fun value => ?_
  rw [← mem_entries_iff, ← mem_entries_iff]
  exact h.mem_iff

/-- A new key comes last. -/
theorem entries_set_of_not_mem (h : key ∉ map.keys) :
    (map.set key value).entries = map.entries ++ [(key, value)] := by
  obtain ⟨entries, hnodup⟩ := map
  show setEntry key value entries = entries ++ [(key, value)]
  replace h : key ∉ entries.map Prod.fst := h
  clear hnodup
  induction entries with
  | nil => rfl
  | cons entry entries ih =>
      rw [List.map_cons, List.mem_cons, not_or] at h
      rw [setEntry, if_neg (Ne.symm h.1), ih h.2, List.cons_append]

omit [DecidableEq K] in
theorem length_keys : map.keys.length = map.size :=
  List.length_map _

omit [DecidableEq K] in
/-- Keys that are all in a map of the same size are all its keys. -/
theorem mem_of_size_eq {W : Type} {row : JsMap K W} (hsize : row.size = map.size)
    (hsubset : ∀ key ∈ row.keys, key ∈ map.keys) (hkey : key ∈ map.keys) : key ∈ row.keys := by
  have hsubperm : row.keys.Subperm map.keys := row.nodup.subperm hsubset
  have hlength : map.keys.length = row.keys.length := by
    rw [length_keys, length_keys, hsize]
  exact (hsubperm.perm_of_length_le (Nat.le_of_eq hlength)).mem_iff.mpr hkey

end JsMap

end Jayvee.Foundation
