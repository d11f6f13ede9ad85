import Jayvee.Model.TableOperations
import Jayvee.Verification.Tables.Operations

/-! # What a row that could not be added leaves behind

The values are pushed one after the other, each one after its check. -/

namespace Jayvee

open Foundation

namespace Table

variable {ast : Ast} {this result : Table} {row : TableRow} {columns columns' : JsMap String TableColumn}
  {entry other : String × Value} {entries : List (String × Value)}

/-! ## Entries that are accepted -/

/-- The value is one of the type of its column. -/
def AcceptsEntry (ast : Ast) (columns : JsMap String TableColumn) (entry : String × Value) : Prop :=
  ∃ column, columns.get? entry.1 = some column ∧
    column.valueType.isInternalValueRepresentation ast entry.2 = .ok true

theorem pushValue_eq_ok_iff :
    pushValue ast columns entry = .ok columns' ↔
      AcceptsEntry ast columns entry ∧ ∃ column, columns.get? entry.1 = some column ∧
        columns' = columns.set entry.1 (pushed column (some entry.2)) := by
  constructor
  · intro h
    have hpushed := pushValue_eq_ok h
    obtain ⟨column, hcolumn, _⟩ := hpushed
    refine ⟨⟨column, hcolumn, ?_⟩, pushValue_eq_ok h⟩
    simp only [pushValue, hcolumn] at h
    obtain ⟨valid, hvalid, h⟩ := except_bind_eq_ok_iff.mp h
    obtain ⟨_, hassert, _⟩ := except_bind_eq_ok_iff.mp h
    rw [hvalid, assert_eq_ok.mp hassert]
  · intro h
    obtain ⟨⟨column, hcolumn, hvalid⟩, column', hcolumn', rfl⟩ := h
    cases hcolumn.symm.trans hcolumn'
    simp only [pushValue, hcolumn, hvalid]
    rfl

theorem acceptsEntry_iff_exists_pushValue :
    AcceptsEntry ast columns entry ↔ ∃ columns', pushValue ast columns entry = .ok columns' := by
  constructor
  · intro h
    obtain ⟨column, hcolumn, hvalid⟩ := h
    exact ⟨_, pushValue_eq_ok_iff.mpr ⟨⟨column, hcolumn, hvalid⟩, column, hcolumn, rfl⟩⟩
  · intro h
    obtain ⟨columns', hpush⟩ := h
    exact (pushValue_eq_ok_iff.mp hpush).1

/-- A push does not change the types of the columns. -/
theorem acceptsEntry_pushValue (h : pushValue ast columns entry = .ok columns') :
    AcceptsEntry ast columns' other ↔ AcceptsEntry ast columns other := by
  obtain ⟨column, hcolumn, rfl⟩ := pushValue_eq_ok h
  simp only [AcceptsEntry, JsMap.get?_set]
  by_cases hname : other.1 = entry.1
  · simp only [hname, if_true, hcolumn, Option.some.injEq, exists_eq_left']
    rfl
  · simp only [hname, if_false]

/-! ## The loop -/

/-- The loop ends without an error exactly if it pushes all values. -/
theorem pushValues_eq_ok_iff :
    pushValues ast entries columns = (.ok (), columns') ↔
      entries.foldlM (pushValue ast) columns = .ok columns' := by
  induction entries generalizing columns with
  | nil =>
      rw [pushValues, List.foldlM_nil]
      constructor
      · intro h
        cases h
        rfl
      · intro h
        cases h
        rfl
  | cons entry entries ih =>
      rw [pushValues, List.foldlM_cons]
      cases hpush : pushValue ast columns entry with
      | error error =>
          constructor
          · intro h
            cases h
          · intro h
            cases h
      | ok next =>
          rw [except_ok_bind]
          exact ih

theorem pushValues_fst_eq_ok_iff (ast : Ast) (entries : List (String × Value))
    (columns : JsMap String TableColumn) :
    (pushValues ast entries columns).1 = .ok () ↔
      ∀ entry ∈ entries, AcceptsEntry ast columns entry := by
  induction entries generalizing columns with
  | nil => simp [pushValues]
  | cons entry entries ih =>
      rw [pushValues, List.forall_mem_cons, acceptsEntry_iff_exists_pushValue]
      cases hpush : pushValue ast columns entry with
      | error error => simp
      | ok next => simp [ih next, acceptsEntry_pushValue hpush]

/-- The number of values of a column. -/
def height (columns : JsMap String TableColumn) (name : String) : Nat :=
  (columns.get? name).elim 0 fun column => column.values.length

theorem height_pushValue (h : pushValue ast columns entry = .ok columns') (name : String) :
    height columns' name = height columns name + if name = entry.1 then 1 else 0 := by
  obtain ⟨column, hcolumn, rfl⟩ := pushValue_eq_ok h
  rw [height, height, JsMap.get?_set]
  by_cases hname : name = entry.1
  · rw [if_pos hname, if_pos hname, hname, hcolumn]
    simp [pushed]
  · rw [if_neg hname, if_neg hname]
    rfl

/-- Values are never taken away. -/
theorem height_le_pushValues (ast : Ast) (entries : List (String × Value))
    (columns : JsMap String TableColumn) (name : String) :
    height columns name ≤ height (pushValues ast entries columns).2 name := by
  induction entries generalizing columns with
  | nil => exact Nat.le_refl _
  | cons entry entries ih =>
      rw [pushValues]
      cases hpush : pushValue ast columns entry with
      | error error => exact Nat.le_refl _
      | ok next =>
          have hnext := height_pushValue hpush name
          exact Nat.le_trans (by omega) (ih next)

/-- Nothing is pushed exactly if the first value is not accepted. -/
theorem pushValues_snd_eq_iff (ast : Ast) (entry : String × Value)
    (entries : List (String × Value)) (columns : JsMap String TableColumn) :
    (pushValues ast (entry :: entries) columns).2 = columns ↔ ¬ AcceptsEntry ast columns entry := by
  rw [acceptsEntry_iff_exists_pushValue, pushValues]
  cases hpush : pushValue ast columns entry with
  | error error => simp
  | ok next =>
      have hle := height_le_pushValues ast entries next entry.1
      have hnext := height_pushValue hpush entry.1
      rw [if_pos rfl] at hnext
      refine iff_of_false ?_ (not_not_intro ⟨next, rfl⟩)
      intro heq
      simp only at heq
      rw [heq] at hle
      omega

/-! ## The order of the entries -/

theorem objectEntries_perm (row : TableRow) : row.objectEntries.Perm row.entries := by
  have hsplit := List.filter_append_perm
    (fun entry : String × Value => (arrayIndexOf entry.1).isSome) row.entries
  rw [TableRow.objectEntries]
  simp only [Option.not_isSome] at hsplit
  exact ((List.perm_insertionSort _ _).append_right _).trans hsplit

/-- The row with its entries in the order in which they are visited. -/
def orderedRow (row : TableRow) : TableRow where
  entries := row.objectEntries
  nodup := ((objectEntries_perm row).map Prod.fst).nodup_iff.mpr row.nodup

theorem acceptsEntry_of_foldlM (h : entries.foldlM (pushValue ast) columns = .ok columns') :
    ∀ entry ∈ entries, AcceptsEntry ast columns entry := by
  rw [← pushValues_fst_eq_ok_iff, pushValues_eq_ok_iff.mpr h]

/-- Rows with the same entries are pushed with the same result. -/
theorem foldlM_pushValue_perm {row' : TableRow} (hperm : row.entries.Perm row'.entries)
    (h : row.entries.foldlM (pushValue ast) columns = .ok columns') :
    row'.entries.foldlM (pushValue ast) columns = .ok columns' := by
  have haccepts := acceptsEntry_of_foldlM h
  obtain ⟨pushed, hpushed, hkeys⟩ := pushValues_eq haccepts
  cases h.symm.trans hpushed
  obtain ⟨pushed', hpushed', hkeys'⟩ := pushValues_eq fun entry hentry =>
    haccepts entry (hperm.mem_iff.mpr hentry)
  have hsame : columns' = pushed' := by
    refine JsMap.ext_get? (hkeys.trans hkeys'.symm) fun name => ?_
    have hvalue : row.entries.lookup name = row'.entries.lookup name := JsMap.get?_eq_of_perm hperm name
    rw [pushValues_get? row.nodup h, pushValues_get? row'.nodup hpushed', hvalue]
  rw [hpushed', hsame]

theorem foldlM_objectEntries (row : TableRow) :
    row.objectEntries.foldlM (pushValue ast) columns = .ok columns' ↔
      row.entries.foldlM (pushValue ast) columns = .ok columns' := by
  have hperm : (orderedRow row).entries.Perm row.entries := objectEntries_perm row
  exact ⟨foldlM_pushValue_perm hperm, foldlM_pushValue_perm hperm.symm⟩

/-! ## The call -/

/-- The dimension and the names of the row are right. -/
def FitsColumns (this : Table) (row : TableRow) : Prop :=
  row.size = this.columns.size ∧ ∀ key ∈ row.keys, this.hasColumn key = true

theorem callAddRow_of_not_fits (ast : Ast) (h : ¬ this.FitsColumns row) :
    ∃ error, this.callAddRow ast row = (.error error, this) := by
  rw [callAddRow]
  by_cases hsize : row.size = this.columns.size
  · have hkeys : row.keys.all this.hasColumn = false := by
      by_contra hall
      exact h ⟨hsize, List.all_eq_true.mp (by simpa using hall)⟩
    have hsome : row.size ≠ 0 := by
      intro hzero
      have hnil : row.keys = [] := by rw [← List.length_eq_zero_iff, JsMap.length_keys, hzero]
      rw [hnil] at hkeys
      cases hkeys
    simp only [hsize, hkeys, ne_eq, not_true, if_false, Bool.not_false, if_true]
    rw [if_neg (hsize ▸ hsome)]
    exact ⟨_, rfl⟩
  · simp only [ne_eq, hsize, not_false_eq_true, if_true]
    exact ⟨_, rfl⟩

theorem callAddRow_of_empty (h : this.FitsColumns row) (hempty : row.size = 0) :
    this.callAddRow ast row = (.ok (), this) := by
  simp only [callAddRow, ← h.1, hempty, ne_eq, not_true, if_false, if_true]

theorem callAddRow_of_error {error : JsError} (h : this.FitsColumns row) (hsome : row.size ≠ 0)
    (herror : pushValues ast row.objectEntries this.columns = (.error error, columns)) :
    this.callAddRow ast row = (.error error, { this with columns }) := by
  have hkeys : row.keys.all this.hasColumn = true := List.all_eq_true.mpr h.2
  simp only [callAddRow, h.1, ne_eq, not_true, if_false, hkeys, Bool.not_true, Bool.false_eq_true,
    herror]
  rw [if_neg (h.1 ▸ hsome)]

theorem callAddRow_of_ok (h : this.FitsColumns row) (hsome : row.size ≠ 0)
    (hok : pushValues ast row.objectEntries this.columns = (.ok (), columns)) :
    this.callAddRow ast row = (.ok (), { numberOfRows := this.numberOfRows + 1, columns }) := by
  have hkeys : row.keys.all this.hasColumn = true := List.all_eq_true.mpr h.2
  simp only [callAddRow, h.1, ne_eq, not_true, if_false, hkeys, Bool.not_true, Bool.false_eq_true,
    hok]
  rw [if_neg (h.1 ▸ hsome)]

theorem addRow_of_not_fits (h : ¬ this.FitsColumns row) :
    this.addRow ast row ≠ .ok result := by
  intro hadd
  obtain ⟨_, hsize, hadd⟩ := except_bind_eq_ok_iff.mp hadd
  have hsize : row.size = this.columns.size := by simpa [assertWith_eq_ok] using hsize
  split at hadd
  · rename_i hempty
    refine h ⟨hsize, fun key hkey => ?_⟩
    rw [List.length_eq_zero_iff.mp (JsMap.length_keys.trans hempty)] at hkey
    cases hkey
  · obtain ⟨_, hkeys, _⟩ := except_bind_eq_ok_iff.mp hadd
    exact h ⟨hsize, List.all_eq_true.mp (assertWith_eq_ok.mp hkeys)⟩

theorem addRow_of_empty (h : this.FitsColumns row) (hempty : row.size = 0) :
    this.addRow ast row = .ok this := by
  simp only [addRow, ← h.1, hempty, assertWith, decide_true, if_true, except_ok_bind]
  rfl

theorem addRow_of_fits (h : this.FitsColumns row) (hsome : row.size ≠ 0) :
    this.addRow ast row = .ok result ↔
      ∃ columns, row.entries.foldlM (pushValue ast) this.columns = .ok columns ∧
        result = { numberOfRows := this.numberOfRows + 1, columns } := by
  have hkeys : row.keys.all this.hasColumn = true := List.all_eq_true.mpr h.2
  simp only [addRow, h.1, assertWith, decide_true, if_true, except_ok_bind, hkeys]
  rw [if_neg (h.1 ▸ hsome), except_bind_eq_ok_iff]
  simp only [pure, Except.pure, Except.ok.injEq, eq_comm]

/-- The call returns exactly if `addRow` does, with the same table. -/
theorem callAddRow_eq_ok_iff :
    this.callAddRow ast row = (.ok (), result) ↔ this.addRow ast row = .ok result := by
  by_cases hfits : this.FitsColumns row
  · by_cases hempty : row.size = 0
    · rw [callAddRow_of_empty hfits hempty, addRow_of_empty hfits hempty]
      simp
    · rw [addRow_of_fits hfits hempty]
      constructor
      · intro h
        cases hpush : pushValues ast row.objectEntries this.columns with
        | mk outcome columns =>
            cases outcome with
            | error error =>
                rw [callAddRow_of_error hfits hempty hpush] at h
                cases h
            | ok u =>
                rw [callAddRow_of_ok hfits hempty hpush] at h
                cases h
                exact ⟨columns, (foldlM_objectEntries row).mp (pushValues_eq_ok_iff.mp hpush), rfl⟩
      · intro h
        obtain ⟨columns, hcolumns, rfl⟩ := h
        exact callAddRow_of_ok hfits hempty
          (pushValues_eq_ok_iff.mpr ((foldlM_objectEntries row).mpr hcolumns))
  · obtain ⟨error, herror⟩ := callAddRow_of_not_fits ast hfits
    rw [herror]
    exact iff_of_false (fun h => by cases h) (addRow_of_not_fits hfits)

/-! ## Failed calls -/

/-- A call that throws leaves the table as it was. -/
def FailsUnchanged (ast : Ast) (this : Table) (row : TableRow) : Prop :=
  ∀ error, (this.callAddRow ast row).1 = .error error → (this.callAddRow ast row).2 = this

theorem failsUnchanged_of_call {outcome : Except JsError Unit}
    (h : this.callAddRow ast row = (outcome, this)) : FailsUnchanged ast this row := by
  intro error _
  rw [h]

theorem length_objectEntries (row : TableRow) : row.objectEntries.length = row.size :=
  (objectEntries_perm row).length_eq

/-- The values are visited, and one of them is not accepted. -/
theorem failsUnchanged_iff_of_error {error : JsError} {first : String × Value}
    {rest : List (String × Value)} (hfits : this.FitsColumns row) (hsome : row.size ≠ 0)
    (hentries : row.objectEntries = first :: rest)
    (herror : pushValues ast row.objectEntries this.columns = (.error error, columns)) :
    FailsUnchanged ast this row ↔ ¬ AcceptsEntry ast this.columns first := by
  have hcall := callAddRow_of_error hfits hsome herror
  have hsnd := pushValues_snd_eq_iff ast first rest this.columns
  rw [← hentries, herror] at hsnd
  rw [← hsnd, FailsUnchanged, hcall]
  constructor
  · intro h
    exact congrArg Table.columns (h error rfl)
  · intro h error' _
    simp only at h
    rw [h]

theorem failsUnchanged_iff_of_cons {first : String × Value} {rest : List (String × Value)}
    (hfits : this.FitsColumns row) (hentries : row.objectEntries = first :: rest) :
    FailsUnchanged ast this row ↔
      ¬ (AcceptsEntry ast this.columns first ∧
        ∃ other ∈ rest, ¬ AcceptsEntry ast this.columns other) := by
  have hsome : row.size ≠ 0 := by
    rw [← length_objectEntries, hentries, List.length_cons]
    omega
  have hall := pushValues_fst_eq_ok_iff ast row.objectEntries this.columns
  cases hpush : pushValues ast row.objectEntries this.columns with
  | mk outcome columns =>
      rw [hpush, hentries, List.forall_mem_cons] at hall
      cases outcome with
      | error error =>
          rw [failsUnchanged_iff_of_error hfits hsome hentries hpush]
          constructor
          · intro hfirst h
            exact hfirst h.1
          · intro hnot hfirst
            have hrest : ¬ ∀ other ∈ rest, AcceptsEntry ast this.columns other :=
              fun hrest => nomatch hall.mpr ⟨hfirst, hrest⟩
            push Not at hrest
            exact hnot ⟨hfirst, hrest⟩
      | ok u =>
          refine iff_of_true (fun error herror => ?_) fun h => ?_
          · rw [callAddRow_of_ok hfits hsome hpush] at herror
            cases herror
          · obtain ⟨_, other, hother, hnot⟩ := h
            exact hnot ((hall.mp rfl).2 other hother)

/-- Each failed call leaves the table unchanged, but those in which the first value is accepted and
a later one is not. -/
theorem failsUnchanged_iff (ast : Ast) (this : Table) (row : TableRow) :
    FailsUnchanged ast this row ↔
      ¬ (this.FitsColumns row ∧ ∃ first rest, row.objectEntries = first :: rest ∧
        AcceptsEntry ast this.columns first ∧
        ∃ other ∈ rest, ¬ AcceptsEntry ast this.columns other) := by
  by_cases hfits : this.FitsColumns row
  · cases hentries : row.objectEntries with
    | nil =>
        have hempty : row.size = 0 := by
          rw [← length_objectEntries, hentries, List.length_nil]
        refine iff_of_true (failsUnchanged_of_call (callAddRow_of_empty hfits hempty)) ?_
        rintro ⟨_, first, rest, hcons, _⟩
        cases hcons
    | cons first rest =>
        rw [failsUnchanged_iff_of_cons hfits hentries, not_iff_not]
        constructor
        · intro h
          exact ⟨hfits, first, rest, rfl, h⟩
        · rintro ⟨_, _, _, hcons, h⟩
          cases hcons
          exact h
  · obtain ⟨error, hcall⟩ := callAddRow_of_not_fits ast hfits
    exact iff_of_true (failsUnchanged_of_call hcall) fun h => hfits h.1

/-- The columns `a` of texts and `b` of integers. -/
def tableAB : Table where
  numberOfRows := 0
  columns := (JsMap.empty.set "a" ⟨[], .Text⟩).set "b" ⟨[], .Integer⟩

def rowXY : TableRow :=
  (JsMap.empty.set "a" (.string "x")).set "b" (.string "y")

/-- The value for `a` stays, although the value for `b` is no integer. -/
theorem not_failsUnchanged_rowXY :
    ¬ ∀ (this : Table) (row : TableRow), FailsUnchanged emptyAst this row := by
  intro h
  have horder : rowXY.objectEntries = rowXY.entries := by
    rfl
  have hcall : tableAB.callAddRow emptyAst rowXY =
      (.error (.assertionError "The expression evaluated to a falsy value"),
        { tableAB with columns := tableAB.columns.set "a" ⟨[.string "x"], .Text⟩ }) := by
    rw [callAddRow, horder]
    rfl
  have hsame := h tableAB rowXY _ (congrArg Prod.fst hcall)
  rw [hcall] at hsame
  have hheight := congrArg (fun table : Table => height table.columns "a") hsame
  exact absurd hheight (by decide)

end Table

end Jayvee
