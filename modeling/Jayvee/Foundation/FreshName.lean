import Jayvee.Foundation.Loop
import Mathlib.Data.List.Basic

/-! # Search for a fresh name

Numbered names are tried one after the other. The names are all different, so that finitely many
used names cannot be all of them. -/

namespace Jayvee.Foundation

variable {α : Type}

/-- One round: on to the next number if the name of this one is used. -/
def tryNextNumber (nameOf : Nat → α) (isUsed : α → Bool) (number : Nat) : Option Nat :=
  if isUsed (nameOf number) then some (number + 1) else none

/-- The induction is on the fuel. A used name is taken off the list of used names: no later number
has it. -/
theorem exists_fresh {nameOf : Nat → α} (hinjective : nameOf.Injective) (isUsed : α → Bool)
    (used : List α) (first fuel : Nat)
    (hused : ∀ number, first ≤ number → isUsed (nameOf number) = true → nameOf number ∈ used)
    (hfuel : used.length < fuel) :
    ∃ number, whileLoop (tryNextNumber nameOf isUsed) fuel first = some number ∧
      isUsed (nameOf number) = false := by
  classical
  induction fuel generalizing used first with
  | zero => omega
  | succ fuel ih =>
      by_cases hfirst : isUsed (nameOf first) = true
      · have hmem := hused first (Nat.le_refl first) hfirst
        have hstep : tryNextNumber nameOf isUsed first = some (first + 1) := if_pos hfirst
        have hlength := List.length_erase_of_mem hmem
        have hpos := List.length_pos_of_mem hmem
        rw [whileLoop_of_some hstep]
        refine ih (used.erase (nameOf first)) (first + 1) ?_ (by omega)
        intro number hnumber h
        have hne : nameOf number ≠ nameOf first := by
          intro heq
          have hsame := hinjective heq
          omega
        exact (List.mem_erase_of_ne hne).mpr (hused number (by omega) h)
      · have hstep : tryNextNumber nameOf isUsed first = none := if_neg hfirst
        exact ⟨first, whileLoop_of_none hstep, by simpa using hfirst⟩

end Jayvee.Foundation
