import Mathlib.Computability.RegularExpressions

/-! # Classes, optional parts and repetitions in regular expressions -/

namespace Jayvee.Foundation

namespace RegExp

open RegularExpression

variable {α : Type*} {r : RegularExpression α} {cs x : List α}

/-- A class of characters. -/
def oneOf : List α → RegularExpression α
  | [] => 0
  | c :: cs => char c + oneOf cs

/-- The quantifier `?`. -/
def optional (r : RegularExpression α) : RegularExpression α :=
  1 + r

/-- The quantifier `+`. -/
def atLeastOne (r : RegularExpression α) : RegularExpression α :=
  r * star r

theorem mem_oneOf : x ∈ (oneOf cs).matches' ↔ ∃ c ∈ cs, [c] = x := by
  induction cs with
  | nil => exact iff_of_false id (by simp)
  | cons c cs ih =>
      rw [oneOf, matches'_add, Language.mem_add, matches'_char, ih, List.exists_mem_cons_iff]
      exact or_congr_left eq_comm

theorem mem_optional : x ∈ (optional r).matches' ↔ x = [] ∨ x ∈ r.matches' := by
  rw [optional, matches'_add, Language.mem_add, matches'_epsilon, Language.mem_one]

theorem mem_star_oneOf : x ∈ (oneOf cs).star.matches' ↔ ∀ c ∈ x, c ∈ cs := by
  rw [matches'_star, Language.mem_kstar]
  constructor
  · intro h c hc
    obtain ⟨words, rfl, hwords⟩ := h
    obtain ⟨word, hword, hmem⟩ := List.mem_flatten.mp hc
    obtain ⟨d, hd, rfl⟩ := mem_oneOf.mp (hwords word hword)
    exact List.mem_singleton.mp hmem ▸ hd
  · intro h
    refine ⟨x.map fun c => [c], (List.flatMap_singleton' x).symm, ?_⟩
    intro word hword
    obtain ⟨c, hc, rfl⟩ := List.mem_map.mp hword
    exact mem_oneOf.mpr ⟨c, h c hc, rfl⟩

theorem mem_atLeastOne_oneOf :
    x ∈ (atLeastOne (oneOf cs)).matches' ↔ x ≠ [] ∧ ∀ c ∈ x, c ∈ cs := by
  rw [atLeastOne, matches'_mul, Language.mem_mul]
  constructor
  · intro h
    obtain ⟨first, hfirst, rest, hrest, rfl⟩ := h
    obtain ⟨c, hc, rfl⟩ := mem_oneOf.mp hfirst
    exact ⟨List.cons_ne_nil c rest, List.forall_mem_cons.mpr ⟨hc, mem_star_oneOf.mp hrest⟩⟩
  · intro h
    obtain ⟨hne, hmem⟩ := h
    obtain ⟨c, rest, rfl⟩ := List.exists_cons_of_ne_nil hne
    obtain ⟨hc, hrest⟩ := List.forall_mem_cons.mp hmem
    exact ⟨[c], mem_oneOf.mpr ⟨c, hc, rfl⟩, rest, mem_star_oneOf.mpr hrest, rfl⟩

end RegExp

end Jayvee.Foundation
