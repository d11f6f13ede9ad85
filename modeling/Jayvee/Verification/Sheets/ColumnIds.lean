import Jayvee.Foundation.BijectiveNumeral
import Jayvee.Model.DeleterExecutors

/-! # Ids of columns

The characters of a column are a bijective numeral with base 26: A to Z are the digits 1 to 26. -/

namespace Jayvee

open Foundation BijectiveNumeral

variable {digit : Nat} {c : Char} {word : List Nat}

/-! ## Characters as digits -/

def characterIndexOf (c : Char) : Nat :=
  c.toNat - 64

def characterOf (digit : Nat) : Char :=
  Char.ofNat (digit + 64)

theorem toNat_characterOf (hdigit : IsDigit 26 digit) : (characterOf digit).toNat = digit + 64 := by
  have hle := hdigit.2
  have hvalid : (digit + 64).isValidChar := Or.inl (by omega)
  rw [characterOf, Char.ofNat, dif_pos hvalid]
  rfl

theorem isUpper_iff (c : Char) : c.isUpper = true ↔ 65 ≤ c.toNat ∧ c.toNat ≤ 90 := by
  constructor
  · intro h
    have hbounds : 'A'.val ≤ c.val ∧ c.val ≤ 'Z'.val := of_decide_eq_true h
    exact hbounds
  · intro h
    have hbounds : 'A'.val ≤ c.val ∧ c.val ≤ 'Z'.val := h
    exact decide_eq_true hbounds

theorem isUpper_characterOf (hdigit : IsDigit 26 digit) : (characterOf digit).isUpper = true := by
  obtain ⟨hpos, hle⟩ := hdigit
  rw [isUpper_iff, toNat_characterOf ⟨hpos, hle⟩]
  omega

theorem isDigit_characterIndexOf (hc : c.isUpper = true) : IsDigit 26 (characterIndexOf c) := by
  have hbounds := (isUpper_iff c).mp hc
  rw [IsDigit, characterIndexOf]
  omega

theorem characterIndexOf_characterOf (hdigit : IsDigit 26 digit) :
    characterIndexOf (characterOf digit) = digit := by
  rw [characterIndexOf, toNat_characterOf hdigit, Nat.add_sub_cancel]

theorem characterOf_characterIndexOf (hc : c.isUpper = true) :
    characterOf (characterIndexOf c) = c := by
  have hbounds := (isUpper_iff c).mp hc
  rw [characterOf, characterIndexOf, Nat.sub_add_cancel (by omega), Char.ofNat_toNat]

/-! ## Both functions on words of digits -/

theorem columnCharactersSum_eq {columnCharacters : List Char}
    (h : ∀ c ∈ columnCharacters, c.isUpper = true) :
    columnCharactersSum columnCharacters = value 26 (columnCharacters.map characterIndexOf) := by
  induction columnCharacters with
  | nil => rfl
  | cons c columnCharacters ih =>
      have hbounds := (isUpper_iff c).mp (h c List.mem_cons_self)
      have hcharacter : ((c.toNat : ℤ) - ('A'.toNat : ℤ) + 1) = (characterIndexOf c : ℤ) := by
        rw [characterIndexOf]
        simp only [Char.reduceToNat]
        omega
      rw [columnCharactersSum, ih fun d hd => h d (List.mem_cons_of_mem c hd), List.map_cons, value,
        List.length_map, hcharacter]
      push_cast
      rfl

/-- One round of the loop takes the last digit off. -/
theorem columnCharactersOf_eq (hdigit : IsDigit 26 digit) (value : Nat)
    (columnCharacters : List Char) :
    columnCharactersOf (26 * value + digit) columnCharacters =
      if value > 0 then columnCharactersOf value (characterOf digit :: columnCharacters)
      else characterOf digit :: columnCharacters := by
  have hlast := lastDigit_eq hdigit value
  have hothers := otherDigits_eq hdigit value
  rw [columnCharactersOf]
  by_cases hzero : (26 * value + digit) % 26 = 0
  · rw [lastDigit, if_pos hzero] at hlast
    rw [otherDigits, if_pos hzero] at hothers
    subst hlast
    simp only [hzero, ne_eq, not_true, if_false, hothers]
    rfl
  · rw [lastDigit, if_neg hzero] at hlast
    rw [otherDigits, if_neg hzero] at hothers
    simp only [ne_eq, hzero, not_false_eq_true, if_true, hothers]
    rw [hlast]
    rfl

/-- The induction is on the digits from the back, as the loop takes them. -/
theorem columnCharactersOf_value (hword : ∀ digit ∈ word, IsDigit 26 digit) (hne : word ≠ [])
    (columnCharacters : List Char) :
    columnCharactersOf (value 26 word) columnCharacters =
      word.map characterOf ++ columnCharacters := by
  induction word using List.reverseRecOn generalizing columnCharacters with
  | nil => exact absurd rfl hne
  | append_singleton word digit ih =>
      have hdigit : IsDigit 26 digit := hword digit (by simp)
      have hothers : ∀ other ∈ word, IsDigit 26 other :=
        fun other hother => hword other (List.mem_append_left _ hother)
      rw [value_append_singleton, columnCharactersOf_eq hdigit, List.map_append,
        List.append_assoc]
      by_cases hnil : word = []
      · simp [hnil, value]
      · rw [if_pos (value_pos hothers hnil), ih hothers hnil]
        rfl

/-! ## Ids and indexes -/

theorem columnIdRegexTest_iff (value : String) :
    columnIdRegexTest value = true ↔ value.toList ≠ [] ∧ ∀ c ∈ value.toList, c.isUpper = true := by
  simp [columnIdRegexTest]

/-- The id of a word of digits. -/
def columnIdOf (word : List Nat) : String :=
  String.ofList (word.map characterOf)

theorem columnIdRegexTest_columnIdOf (hword : ∀ digit ∈ word, IsDigit 26 digit) (hne : word ≠ []) :
    columnIdRegexTest (columnIdOf word) = true := by
  rw [columnIdRegexTest_iff, columnIdOf, String.toList_ofList]
  refine ⟨by simpa using hne, fun c hc => ?_⟩
  obtain ⟨digit, hdigit, rfl⟩ := List.mem_map.mp hc
  exact isUpper_characterOf (hword digit hdigit)

theorem columnCharactersAsIndex_columnIdOf (hword : ∀ digit ∈ word, IsDigit 26 digit) :
    columnCharactersAsIndex (columnIdOf word) = value 26 word - 1 := by
  have hupper : ∀ c ∈ word.map characterOf, c.isUpper = true := by
    intro c hc
    obtain ⟨digit, hdigit, rfl⟩ := List.mem_map.mp hc
    exact isUpper_characterOf (hword digit hdigit)
  have hword' : (word.map characterOf).map characterIndexOf = word := by
    rw [List.map_map]
    exact (List.map_congr_left fun digit hdigit =>
      characterIndexOf_characterOf (hword digit hdigit)).trans (List.map_id word)
  rw [columnCharactersAsIndex, columnIdOf, String.toList_ofList, columnCharactersSum_eq hupper,
    hword']

theorem columnIndexAsCharacters_value (hword : ∀ digit ∈ word, IsDigit 26 digit) (hne : word ≠ []) :
    columnIndexAsCharacters (value 26 word - 1) = columnIdOf word := by
  rw [columnIndexAsCharacters, sub_add_cancel, Int.toNat_natCast,
    columnCharactersOf_value hword hne, List.append_nil, columnIdOf]

/-- Every id is the id of a word of digits. -/
theorem exists_columnIdOf {columnId : String} (h : columnIdRegexTest columnId = true) :
    ∃ word, word ≠ [] ∧ (∀ digit ∈ word, IsDigit 26 digit) ∧ columnId = columnIdOf word := by
  obtain ⟨hne, hupper⟩ := (columnIdRegexTest_iff columnId).mp h
  refine ⟨columnId.toList.map characterIndexOf, by simpa using hne, ?_, ?_⟩
  · intro digit hdigit
    obtain ⟨c, hc, rfl⟩ := List.mem_map.mp hdigit
    exact isDigit_characterIndexOf (hupper c hc)
  · have hcharacters : (columnId.toList.map characterIndexOf).map characterOf = columnId.toList := by
      rw [List.map_map]
      exact (List.map_congr_left fun c hc =>
        characterOf_characterIndexOf (hupper c hc)).trans (List.map_id columnId.toList)
    rw [columnIdOf, hcharacters, String.ofList_toList]

/-- The ids of columns and their indexes are in bijection. -/
theorem columnIds_bijective :
    (∀ columnIndex : Nat, columnIdRegexTest (columnIndexAsCharacters columnIndex) = true ∧
      columnCharactersAsIndex (columnIndexAsCharacters columnIndex) = columnIndex) ∧
    ∀ columnId : String, columnIdRegexTest columnId = true →
      columnIndexAsCharacters (columnCharactersAsIndex columnId) = columnId := by
  constructor
  · intro columnIndex
    obtain ⟨word, hne, hword, hvalue⟩ := exists_word (by decide : 0 < 26) (columnIndex + 1) (by omega)
    have hindex : (columnIndex : ℤ) = value 26 word - 1 := by
      rw [hvalue]
      push_cast
      ring
    rw [hindex, columnIndexAsCharacters_value hword hne]
    exact ⟨columnIdRegexTest_columnIdOf hword hne, columnCharactersAsIndex_columnIdOf hword⟩
  · intro columnId h
    obtain ⟨word, hne, hword, rfl⟩ := exists_columnIdOf h
    rw [columnCharactersAsIndex_columnIdOf hword, columnIndexAsCharacters_value hword hne]

example : columnIndexAsCharacters 701 = "ZZ" := by
  rw [show (701 : ℤ) = value 26 [26, 26] - 1 by decide,
    columnIndexAsCharacters_value (by simp [IsDigit]) (by decide)]
  decide

end Jayvee
