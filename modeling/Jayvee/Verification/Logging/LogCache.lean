import Jayvee.Model.LogCache
import Mathlib.Data.List.DropRight
import Mathlib.Tactic.Common

/-! # What the cache of a logger holds

It should hold the newest entries. When it exceeds its size, it drops all entries but the oldest
one. -/

namespace Jayvee

namespace LogCache

variable {this cache : LogCache} {history : List LogEntry} {size : Nat}

/-! ## Entries since the last clear -/

/-- The entries since the last clear, after one more call. -/
def record (history : List LogEntry) : Call → List LogEntry
  | .insertLogMessage message severity => history ++ [{ message, severity }]
  | .clearLogs => []

def insertedEntries (calls : List Call) : List LogEntry :=
  calls.foldl record []

/-- What a cache should hold of the entries. -/
def newestEntries (maxCacheSize : Option ℤ) (entries : List LogEntry) : List LogEntry :=
  match maxCacheSize with
  | none => entries
  | some size => entries.rtake size.toNat

/-- What a cache of a size does hold: the oldest entry, and those that were inserted since it was
the only one. -/
def heldEntries (size : Nat) : (entries : List LogEntry) → List LogEntry
  | [] => []
  | oldest :: entries => oldest :: entries.rtake (entries.length % size)

/-! ## One more entry -/

theorem succ_mod (n : Nat) (hsize : 0 < size) :
    (n + 1) % size = if n % size + 1 = size then 0 else n % size + 1 := by
  have hlt := Nat.mod_lt n hsize
  rw [← Nat.mod_add_mod]
  split
  · rename_i hfull
    rw [hfull, Nat.mod_self]
  · exact Nat.mod_eq_of_lt (by omega)

theorem length_rtake_mod (entries : List LogEntry) (size : Nat) :
    (entries.rtake (entries.length % size)).length = entries.length % size := by
  have hle := Nat.mod_le entries.length size
  rw [List.rtake, List.length_drop]
  omega

/-- The entries that are held after an insertion. -/
theorem heldEntries_append (hsize : 0 < size) (history : List LogEntry) (entry : LogEntry) :
    heldEntries size (history ++ [entry]) =
      if (heldEntries size history ++ [entry]).length > size then
        (heldEntries size history ++ [entry]).take 1
      else heldEntries size history ++ [entry] := by
  cases history with
  | nil =>
      have hnot : ¬ ([] ++ [entry]).length > size := by
        rw [List.nil_append, List.length_singleton]
        omega
      rw [heldEntries, if_neg hnot]
      rfl
  | cons oldest entries =>
      have hlt := Nat.mod_lt entries.length hsize
      have hlength := length_rtake_mod entries size
      rw [List.cons_append, heldEntries, heldEntries, List.length_append, List.length_singleton,
        succ_mod _ hsize, List.cons_append, List.length_cons, List.length_append, hlength,
        List.length_singleton]
      by_cases hfull : entries.length % size + 1 = size
      · rw [if_pos hfull, if_pos (by omega), List.rtake_zero]
        rfl
      · rw [if_neg hfull, if_neg (by omega), List.rtake_concat_succ]

variable {message : String} {severity : DiagnosticSeverity}

theorem insertLogMessage_none (h : this.logCacheMaxSize = none) :
    this.insertLogMessage message severity =
      { this with logs := this.logs ++ [⟨severity, message⟩] } := by
  simp only [insertLogMessage, removeOldestLogsIfSizeExceeded, h]
  rfl

theorem insertLogMessage_some (h : this.logCacheMaxSize = some (size : ℤ)) :
    this.insertLogMessage message severity =
      { this with
        logs :=
          if (this.logs ++ [LogEntry.mk severity message]).length > size then
            (this.logs ++ [LogEntry.mk severity message]).take 1
          else this.logs ++ [LogEntry.mk severity message] } := by
  simp only [insertLogMessage, removeOldestLogsIfSizeExceeded, h, Option.any_some,
    decide_eq_true_eq, gt_iff_lt, Int.ofNat_lt]
  split <;> rfl

/-! ## Runs -/

/-- If each insertion keeps what is held of the entries, so does every run. -/
theorem callAll_logs (held : List LogEntry → List LogEntry) {maxSize : Option ℤ}
    (hempty : held [] = [])
    (hinsert : ∀ (cache : LogCache) (history : List LogEntry) message severity,
      cache.logCacheMaxSize = maxSize → cache.logs = held history →
        cache.insertLogMessage message severity =
          { cache with logs := held (history ++ [⟨severity, message⟩]) })
    (h : this.logCacheMaxSize = maxSize) (hlogs : this.logs = held history) (calls : List Call) :
    (this.callAll calls).logs = held (calls.foldl record history) := by
  induction calls generalizing this history with
  | nil => exact hlogs
  | cons call calls ih =>
      rw [callAll, List.foldl_cons, List.foldl_cons]
      cases call with
      | insertLogMessage message severity =>
          rw [LogCache.call, hinsert this history message severity h hlogs, record]
          exact ih h rfl
      | clearLogs => exact ih h hempty.symm

theorem callAll_of_none (h : this.logCacheMaxSize = none) (hlogs : this.logs = history)
    (calls : List Call) :
    (this.callAll calls).logs = calls.foldl record history := by
  refine callAll_logs id rfl (fun cache history message severity hmax hheld => ?_) h
    hlogs calls
  rw [insertLogMessage_none hmax, hheld]
  rfl

theorem callAll_of_some (hsize : 0 < size) (h : this.logCacheMaxSize = some (size : ℤ))
    (hlogs : this.logs = heldEntries size history) (calls : List Call) :
    (this.callAll calls).logs = heldEntries size (calls.foldl record history) := by
  refine callAll_logs (heldEntries size) rfl (fun cache history message severity hmax hheld => ?_)
    h hlogs calls
  rw [insertLogMessage_some hmax, hheld, heldEntries_append hsize]

/-! ## The newest entries -/

/-- The entry at the place where the newest entries start. -/
theorem rtake_eq_cons {entries : List LogEntry} (hsize : 0 < size)
    (hlength : size ≤ entries.length) :
    ∃ first, entries[entries.length - size]? = some first ∧
      entries.rtake size = first :: entries.rtake (size - 1) := by
  have hlt : entries.length - size < entries.length := by omega
  refine ⟨entries[entries.length - size], List.getElem?_eq_getElem hlt, ?_⟩
  have hnext : entries.length - size + 1 = entries.length - (size - 1) := by omega
  rw [List.rtake, List.rtake, ← hnext, List.drop_eq_getElem_cons hlt]

/-- Beyond the size, these are the newest entries only in a full cycle, and only if the oldest
entry is the same as the first of them. -/
theorem heldEntries_eq_rtake_iff (hsize : 0 < size) (entries : List LogEntry) :
    heldEntries size entries = entries.rtake size ↔
      entries.length ≤ size ∨
        size ∣ entries.length ∧ entries.head? = entries[entries.length - size]? := by
  cases entries with
  | nil => simp [heldEntries]
  | cons oldest entries =>
      have hlength := length_rtake_mod entries size
      rw [heldEntries, List.length_cons]
      by_cases hle : entries.length + 1 ≤ size
      · have hall : (oldest :: entries).length - size = 0 := by
          rw [List.length_cons]
          omega
        have hrest : entries.length - entries.length = 0 := by omega
        rw [iff_true_right (Or.inl hle), List.rtake, List.rtake, hall,
          Nat.mod_eq_of_lt (by omega), hrest, List.drop_zero, List.drop_zero]
      · have hnewest : (oldest :: entries).rtake size = entries.rtake size := by
          have hdrop : (oldest :: entries).length - size = entries.length - size + 1 := by
            rw [List.length_cons]
            omega
          rw [List.rtake, hdrop, List.drop_succ_cons, List.rtake]
        have hindex : entries.length + 1 - size = entries.length - size + 1 := by omega
        obtain ⟨first, hfirst, hcons⟩ := rtake_eq_cons hsize (by omega : size ≤ entries.length)
        have hdivides : size ∣ entries.length + 1 ↔ entries.length % size = size - 1 := by
          have hlt := Nat.mod_lt entries.length hsize
          rw [Nat.dvd_iff_mod_eq_zero, succ_mod _ hsize]
          split <;> omega
        rw [hnewest, hcons, or_iff_right hle, hdivides, hindex, List.head?_cons,
          List.getElem?_cons_succ, hfirst, List.cons.injEq, Option.some.injEq]
        constructor
        · intro h
          refine ⟨?_, h.1⟩
          rw [← hlength, h.2, List.rtake, List.length_drop]
          omega
        · intro h
          exact ⟨h.2, by rw [h.1]⟩

/-- When a cache of a size holds the newest of the entries since the last clear. -/
def HoldsNewest (maxCacheSize : Option ℤ) (entries : List LogEntry) : Prop :=
  ∀ size, maxCacheSize = some size → entries.length ≤ size ∨
    size ∣ entries.length ∧ entries.head? = entries[entries.length - size.toNat]?

theorem construct_eq_ok {maxCacheSize : Option ℤ} (h : construct maxCacheSize = .ok cache) :
    cache.logCacheMaxSize = maxCacheSize ∧ cache.logs = [] ∧ ∀ size, maxCacheSize = some size →
      0 < size := by
  rw [construct] at h
  split at h
  · cases h
  · rename_i hpos
    cases h
    refine ⟨rfl, rfl, fun size hsize => ?_⟩
    simpa [hsize] using hpos

/-- After a run, the cache holds the newest entries only before it has ever exceeded its size, and
in those full cycles after it that happen to repeat the oldest entry. -/
theorem getLogs_eq_newestEntries_iff (maxCacheSize : Option ℤ) (cache : LogCache)
    (h : construct maxCacheSize = .ok cache) (calls : List Call) :
    (cache.callAll calls).getLogs = newestEntries maxCacheSize (insertedEntries calls) ↔
      HoldsNewest maxCacheSize (insertedEntries calls) := by
  obtain ⟨hmax, hlogs, hpos⟩ := construct_eq_ok h
  cases maxCacheSize with
  | none => exact iff_of_true (callAll_of_none hmax hlogs calls) fun _ hsize => nomatch hsize
  | some maxSize =>
      obtain ⟨size, rfl⟩ := Int.eq_ofNat_of_zero_le (Int.le_of_lt (hpos maxSize rfl))
      have hsize : 0 < size := Int.ofNat_lt.mp (hpos size rfl)
      have hempty : cache.logs = heldEntries size [] := hlogs
      have hheld := callAll_of_some hsize hmax hempty calls
      rw [getLogs, hheld, newestEntries, Int.toNat_natCast, ← insertedEntries,
        heldEntries_eq_rtake_iff hsize, HoldsNewest]
      simp [Int.natCast_dvd_natCast]

theorem getLogs_eq_newestEntries_iff_two :
    construct (some 2) = .ok { logCacheMaxSize := some 2, logs := [] } ∧
      (callAll { logCacheMaxSize := some 2, logs := [] }
          [.insertLogMessage "a" .INFO, .clearLogs, .insertLogMessage "b" .ERROR]).getLogs =
        newestEntries (some 2) [⟨.ERROR, "b"⟩] :=
  ⟨rfl, (getLogs_eq_newestEntries_iff (some 2) { logCacheMaxSize := some 2, logs := [] } rfl
    [.insertLogMessage "a" .INFO, .clearLogs, .insertLogMessage "b" .ERROR]).mpr
      fun _ hsize => Option.some.inj hsize ▸ Or.inl (by decide)⟩

/-- A cache of two entries holds only the first of three. -/
theorem not_getLogs_eq_newestEntries :
    ¬ ∀ (maxCacheSize : Option ℤ) (cache : LogCache), construct maxCacheSize = .ok cache →
      ∀ calls : List Call,
        (cache.callAll calls).getLogs = newestEntries maxCacheSize (insertedEntries calls) := by
  intro h
  have hthree := h (some 2) { logCacheMaxSize := some 2, logs := [] } rfl
    [.insertLogMessage "a" .INFO, .insertLogMessage "b" .INFO, .insertLogMessage "c" .INFO]
  exact absurd hthree (by decide)

end LogCache

end Jayvee
