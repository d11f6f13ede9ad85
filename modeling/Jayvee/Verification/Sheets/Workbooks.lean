import Jayvee.Model.Workbook

/-! # Sheets added to a workbook -/

namespace Jayvee

open Foundation

namespace Workbook

variable {this next : Workbook} {fuel : Nat} {sheetName : String}

theorem getSheetByName_eq_none_iff :
    this.getSheetByName sheetName = none ↔ sheetName ∉ this.sheets.keys := by
  constructor
  · intro hnone hmem
    obtain ⟨sheet, hsheet⟩ := JsMap.exists_get?_of_mem_keys hmem
    rw [getSheetByName, hsheet] at hnone
    cases hnone
  · intro hnot
    cases hget : this.getSheetByName sheetName with
    | none => rfl
    | some sheet => exact absurd (JsMap.mem_keys_of_get? hget) hnot

/-! ## Default names -/

theorem defaultName_injective : Function.Injective defaultName := by
  intro first second h
  have hrepr : first.repr = second.repr := (String.append_right_inj "Sheet").mp h
  have hdigits : Nat.toDigits 10 first = Nat.toDigits 10 second := by
    rw [← Nat.toList_repr, ← Nat.toList_repr, hrepr]
  rw [← Nat.ofDigitChars_ten_toDigits (n := first), hdigits, Nat.ofDigitChars_ten_toDigits]

/-- As many rounds as there are sheets, and one more, are enough. -/
theorem exists_uniqueDefaultName (hfuel : this.sheets.size < fuel) :
    ∃ name, this.getUniqueDefaultNameForNewSheet fuel = some name ∧
      this.getSheetByName name = none := by
  have hused : ∀ number, this.sheets.size + 1 ≤ number →
      (this.getSheetByName (defaultName number)).isSome = true →
      defaultName number ∈ this.sheets.keys := by
    intro number _ h
    obtain ⟨sheet, hsheet⟩ := Option.isSome_iff_exists.mp h
    exact JsMap.mem_keys_of_get? hsheet
  obtain ⟨number, hloop, hfresh⟩ := exists_fresh defaultName_injective
    (fun sheetName => (this.getSheetByName sheetName).isSome) this.sheets.keys
    (this.sheets.size + 1) fuel hused (by rwa [JsMap.length_keys])
  refine ⟨defaultName number, ?_, by simpa using hfresh⟩
  rw [getUniqueDefaultNameForNewSheet, hloop]
  rfl

/-! ## Added sheets -/

/-- A name that is given is not the name of a sheet. -/
def NewlyNamed (this : Workbook) (addition : Addition) : Prop :=
  ∀ sheetName, addition.sheetName = some sheetName → this.getSheetByName sheetName = none

/-- The entry of an added sheet: its name is the given one, if there is one. -/
structure IsEntryOf (addition : Addition) (entry : String × Sheet) : Prop where
  sheetName : ∀ sheetName, addition.sheetName = some sheetName → entry.1 = sheetName
  data : entry.2 = Sheet.ofTexts addition.data

variable {addition : Addition} {additions : List Addition}

theorem addSheet_eq_ok (hnew : this.NewlyNamed addition) (hfuel : this.sheets.size < fuel) :
    ∃ next entry, this.addSheet fuel addition.data addition.sheetName = some (.ok next) ∧
      IsEntryOf addition entry ∧ next.sheets.entries = this.sheets.entries ++ [entry] := by
  obtain ⟨name, hname, hfresh, hgiven⟩ : ∃ name,
      this.sheetNameOrDefault fuel addition.sheetName = some name ∧
      this.getSheetByName name = none ∧
      ∀ sheetName, addition.sheetName = some sheetName → name = sheetName := by
    cases hsheetName : addition.sheetName with
    | none =>
        obtain ⟨name, hname, hfresh⟩ := exists_uniqueDefaultName hfuel
        exact ⟨name, hname, hfresh, fun _ h => nomatch h⟩
    | some name => exact ⟨name, rfl, hnew name hsheetName, fun _ h => Option.some.inj h⟩
  refine ⟨{ sheets := this.sheets.set name (Sheet.ofTexts addition.data) },
    (name, Sheet.ofTexts addition.data), ?_, ⟨hgiven, rfl⟩,
    JsMap.entries_set_of_not_mem (getSheetByName_eq_none_iff.mp hfresh)⟩
  rw [getSheetByName] at hfresh
  simp [addSheet, hname, hfresh]

theorem addSheet_eq_error (fuel : Nat) (hnot : ¬ this.NewlyNamed addition) :
    ∃ error, this.addSheet fuel addition.data addition.sheetName = some (.error error) := by
  simp only [NewlyNamed, not_forall] at hnot
  obtain ⟨name, hname, hused⟩ := hnot
  obtain ⟨sheet, hsheet⟩ := Option.ne_none_iff_exists'.mp hused
  rw [getSheetByName] at hsheet
  exact ⟨_, by simp [addSheet, hname, sheetNameOrDefault, hsheet]; rfl⟩

/-! ## Runs -/

/-- Each name that is given is new when its sheet is added. -/
def DistinctlyNamed (fuel : Nat) (this : Workbook) (additions : List Addition) : Prop :=
  ∀ before addition after, additions = before ++ addition :: after →
    ∀ next, this.addSheets fuel before = some (.ok next) → next.NewlyNamed addition

theorem addSheets_cons_ok (h : this.addSheet fuel addition.data addition.sheetName =
    some (.ok next)) : this.addSheets fuel (addition :: additions) = next.addSheets fuel additions := by
  rw [addSheets, h]
  rfl

theorem DistinctlyNamed.head (h : this.DistinctlyNamed fuel (addition :: additions)) :
    this.NewlyNamed addition :=
  h [] addition additions rfl this rfl

theorem distinctlyNamed_cons_iff
    (h : this.addSheet fuel addition.data addition.sheetName = some (.ok next))
    (hnew : this.NewlyNamed addition) :
    this.DistinctlyNamed fuel (addition :: additions) ↔ next.DistinctlyNamed fuel additions := by
  constructor
  · intro hnames before other after hsplit result hresult
    refine hnames (addition :: before) other after (by rw [hsplit, List.cons_append]) result ?_
    rw [addSheets_cons_ok h, hresult]
  · intro hnames before other after hsplit result hresult
    cases before with
    | nil =>
        cases hsplit
        cases hresult
        exact hnew
    | cons first before =>
        cases hsplit
        rw [addSheets_cons_ok h] at hresult
        exact hnames before other after rfl result hresult

/-- Every sheet is added after those that are there. -/
theorem addSheets_eq_ok (hfuel : this.sheets.size + additions.length < fuel)
    (hnames : this.DistinctlyNamed fuel additions) :
    ∃ result entries, this.addSheets fuel additions = some (.ok result) ∧
      List.Forall₂ IsEntryOf additions entries ∧
      result.sheets.entries = this.sheets.entries ++ entries := by
  induction additions generalizing this with
  | nil => exact ⟨this, [], rfl, .nil, (List.append_nil _).symm⟩
  | cons addition additions ih =>
      rw [List.length_cons] at hfuel
      have hrounds : this.sheets.size < fuel := by omega
      obtain ⟨next, entry, hnext, hentry, hentries⟩ := addSheet_eq_ok hnames.head hrounds
      have hsize : next.sheets.size = this.sheets.size + 1 := by
        rw [JsMap.size, hentries, List.length_append]
        rfl
      obtain ⟨result, entries, hresult, hadded, hall⟩ := ih (by omega)
        ((distinctlyNamed_cons_iff hnext hnames.head).mp hnames)
      refine ⟨result, entry :: entries, ?_, .cons hentry hadded, ?_⟩
      · rw [addSheets_cons_ok hnext, hresult]
      · rw [hall, hentries, List.append_assoc]
        rfl

theorem addSheets_eq_error (hfuel : this.sheets.size + additions.length < fuel)
    (hnames : ¬ this.DistinctlyNamed fuel additions) :
    ∃ error, this.addSheets fuel additions = some (.error error) := by
  induction additions generalizing this with
  | nil => exact absurd (fun before _ _ hsplit => by simp at hsplit) hnames
  | cons addition additions ih =>
      rw [List.length_cons] at hfuel
      by_cases hnew : this.NewlyNamed addition
      · have hrounds : this.sheets.size < fuel := by omega
        obtain ⟨next, entry, hnext, _, hentries⟩ := addSheet_eq_ok hnew hrounds
        have hsize : next.sheets.size = this.sheets.size + 1 := by
          rw [JsMap.size, hentries, List.length_append]
          rfl
        rw [distinctlyNamed_cons_iff hnext hnew] at hnames
        rw [addSheets_cons_ok hnext]
        exact ih (by omega) hnames
      · obtain ⟨error, herror⟩ := addSheet_eq_error fuel hnew
        exact ⟨error, by rw [addSheets, herror]; rfl⟩

/-- Default names are always found and new. An addition of a sheet only fails if it is given a name
that is used, and no sheet is replaced. -/
theorem defaultNames_found_and_new :
    (∀ (this : Workbook) (fuel : Nat), this.sheets.size < fuel →
      ∃ name, this.getUniqueDefaultNameForNewSheet fuel = some name ∧
        this.getSheetByName name = none) ∧
    ∀ (this : Workbook) (additions : List Addition) (fuel : Nat),
      this.sheets.size + additions.length < fuel →
      (this.DistinctlyNamed fuel additions →
        ∃ result entries, this.addSheets fuel additions = some (.ok result) ∧
          List.Forall₂ IsEntryOf additions entries ∧
          result.sheets.entries = this.sheets.entries ++ entries) ∧
      (¬ this.DistinctlyNamed fuel additions →
        ∃ error, this.addSheets fuel additions = some (.error error)) := by
  constructor
  · intro this fuel hfuel
    exact exists_uniqueDefaultName hfuel
  · intro this additions fuel hfuel
    exact ⟨addSheets_eq_ok hfuel, addSheets_eq_error hfuel⟩

/-- Two sheets without a name around a named one. -/
def mixedAdditions : List Addition :=
  [⟨[["a"]], none⟩, ⟨[["b"]], some "Sheet5"⟩, ⟨[["c"]], none⟩]

def emptyWorkbook : Workbook :=
  { sheets := JsMap.empty }

theorem distinctlyNamed_mixedAdditions : emptyWorkbook.DistinctlyNamed 4 mixedAdditions := by
  have hunnamed : ∀ (this : Workbook) data, this.NewlyNamed ⟨data, none⟩ := by
    rintro _ _ _ ⟨⟩
  refine (distinctlyNamed_cons_iff rfl (hunnamed _ _)).mpr ?_
  refine (distinctlyNamed_cons_iff rfl ?_).mpr ?_
  · rintro _ ⟨⟩
    rfl
  · refine (distinctlyNamed_cons_iff rfl (hunnamed _ _)).mpr ?_
    intro before _ _ hsplit
    simp at hsplit

theorem defaultNames_found_and_new_mixedAdditions :
    ∃ result entries, emptyWorkbook.addSheets 4 mixedAdditions = some (.ok result) ∧
      List.Forall₂ IsEntryOf mixedAdditions entries ∧
      result.sheets.entries = emptyWorkbook.sheets.entries ++ entries :=
  (defaultNames_found_and_new.2 emptyWorkbook mixedAdditions 4 (by decide)).1
    distinctlyNamed_mixedAdditions

end Workbook

end Jayvee
