import Mathlib.Data.List.Induction
import Mathlib.Tactic.Ring

/-! # Bijective numerals

Words of digits from 1 to the base, the most significant digit first. There is no digit 0. -/

namespace Jayvee.Foundation.BijectiveNumeral

variable {base digit : Nat} {word : List Nat}

def IsDigit (base digit : Nat) : Prop :=
  1 ≤ digit ∧ digit ≤ base

def value (base : Nat) : (word : List Nat) → Nat
  | [] => 0
  | digit :: word => digit * base ^ word.length + value base word

theorem value_append_singleton (base : Nat) (word : List Nat) (digit : Nat) :
    value base (word ++ [digit]) = base * value base word + digit := by
  induction word with
  | nil => simp [value]
  | cons first word ih =>
      rw [List.cons_append, value, value, ih, List.length_append, List.length_singleton]
      ring

theorem value_pos (hword : ∀ digit ∈ word, IsDigit base digit) (hne : word ≠ []) :
    0 < value base word := by
  obtain ⟨others, digit, rfl⟩ := word.eq_nil_or_concat.resolve_left hne
  have hdigit : IsDigit base digit := hword digit (by simp)
  have hpos := hdigit.1
  rw [List.concat_eq_append, value_append_singleton]
  omega

/-! ## The last digit -/

def lastDigit (base value : Nat) : Nat :=
  if value % base = 0 then base else value % base

/-- The value of the other digits. -/
def otherDigits (base value : Nat) : Nat :=
  if value % base = 0 then value / base - 1 else value / base

theorem lastDigit_eq (hdigit : IsDigit base digit) (value : Nat) :
    lastDigit base (base * value + digit) = digit := by
  obtain ⟨hpos, hle⟩ := hdigit
  rw [lastDigit, Nat.mul_add_mod]
  rcases Nat.eq_or_lt_of_le hle with heq | hlt
  · rw [heq, Nat.mod_self, if_pos rfl]
  · rw [Nat.mod_eq_of_lt hlt, if_neg (by omega)]

theorem otherDigits_eq (hdigit : IsDigit base digit) (value : Nat) :
    otherDigits base (base * value + digit) = value := by
  obtain ⟨hpos, hle⟩ := hdigit
  rw [otherDigits, Nat.mul_add_mod, Nat.mul_add_div (by omega)]
  rcases Nat.eq_or_lt_of_le hle with heq | hlt
  · rw [heq, Nat.mod_self, if_pos rfl, Nat.div_self (by omega)]
    rfl
  · rw [Nat.mod_eq_of_lt hlt, if_neg (by omega), Nat.div_eq_of_lt hlt]
    rfl

theorem isDigit_lastDigit (hbase : 0 < base) (value : Nat) :
    IsDigit base (lastDigit base value) := by
  have hlt := Nat.mod_lt value hbase
  rw [lastDigit, IsDigit]
  split <;> omega

theorem eq_otherDigits_add (base : Nat) {value : Nat} (hvalue : 0 < value) :
    value = base * otherDigits base value + lastDigit base value := by
  have hdivision := Nat.div_add_mod value base
  rw [otherDigits, lastDigit]
  split
  · rename_i hzero
    have hpos : 0 < value / base := by
      by_contra hnot
      rw [Nat.eq_zero_of_not_pos hnot, hzero] at hdivision
      omega
    rw [Nat.mul_sub, Nat.mul_one, Nat.sub_add_cancel (Nat.le_mul_of_pos_right base hpos)]
    omega
  · exact hdivision.symm

/-! ## All values -/

/-- Every positive number has a word. The induction takes the last digit off. -/
theorem exists_word (hbase : 0 < base) (n : Nat) (hn : 0 < n) :
    ∃ word, word ≠ [] ∧ (∀ digit ∈ word, IsDigit base digit) ∧ value base word = n := by
  induction n using Nat.strong_induction_on with
  | _ n ih =>
      have hlast := isDigit_lastDigit hbase n
      have hsum := eq_otherDigits_add base hn
      rcases Nat.eq_zero_or_pos (otherDigits base n) with hzero | hpos
      · refine ⟨[lastDigit base n], List.cons_ne_nil _ _, by simpa using hlast, ?_⟩
        rw [hzero, Nat.mul_zero, Nat.zero_add] at hsum
        simpa [value] using hsum.symm
      · have hlt : otherDigits base n < n := by
          have hle := Nat.le_mul_of_pos_left (otherDigits base n) hbase
          have hfirst := hlast.1
          omega
        obtain ⟨word, _, hword, hvalue⟩ := ih (otherDigits base n) hlt hpos
        refine ⟨word ++ [lastDigit base n], by simp, ?_, ?_⟩
        · intro digit hdigit
          cases List.mem_append.mp hdigit with
          | inl hmem => exact hword digit hmem
          | inr hmem => exact List.mem_singleton.mp hmem ▸ hlast
        · rw [value_append_singleton, hvalue, ← hsum]

end Jayvee.Foundation.BijectiveNumeral
