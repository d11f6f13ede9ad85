import Jayvee.Verification.Typing.CollectionTypes
import Jayvee.Verification.Typing.Hierarchy

/-! # Stacks of value types

The stack of a value type starts with the root of its hierarchy and ends with the value type. -/

namespace Jayvee

open Foundation

namespace ValueType

variable {ast : Ast}

/-! ## Stacks -/

/-- The types on the way from the root of the hierarchy to the value type. -/
inductive IsStack (ast : Ast) : ValueType → List ValueType → Prop where
  | root {T : ValueType} (hT : T.getPrimitiveOwn = some (some T)) : IsStack ast T [T]
  | atomic {astNode : ValuetypeId} {S : ValueType} {stack : List ValueType}
      (hS : (ValueType.atomic astNode).getSupertype ast = .ok (some S))
      (h : IsStack ast S stack) :
      IsStack ast (.atomic astNode) (stack ++ [.atomic astNode])

namespace IsStack

variable {T U : ValueType} {stack stack' : List ValueType}

theorem ne_nil (h : IsStack ast T stack) : stack ≠ [] := by
  cases h <;> simp

theorem getLast?_eq (h : IsStack ast T stack) : stack.getLast? = some T := by
  cases h <;> simp

theorem unique (h : IsStack ast T stack) (h' : IsStack ast T stack') : stack = stack' := by
  induction h generalizing stack' with
  | root hT =>
      cases h' with
      | root => rfl
      | atomic => cases hT
  | atomic hS _ ih =>
      cases h' with
      | root hT => cases hT
      | atomic hS' h' =>
          cases hS.symm.trans hS'
          rw [ih h']

/-- The stack of a type on the stack is the part of it down to the type. -/
theorem take (h : IsStack ast T stack) {level : Nat} (hU : stack[level]? = some U) :
    IsStack ast U (stack.take (level + 1)) := by
  induction h with
  | @root T hT =>
      obtain ⟨rfl, rfl⟩ : level = 0 ∧ T = U := by
        cases level with
        | zero => exact ⟨rfl, Option.some.inj hU⟩
        | succ level => cases hU
      exact .root hT
  | @atomic astNode S stack hS h ih =>
      by_cases hlevel : level < stack.length
      · rw [List.getElem?_append_left hlevel] at hU
        rw [List.take_append_of_le_length hlevel]
        exact ih hU
      · rw [List.getElem?_append_right (by omega)] at hU
        obtain ⟨rfl, hlast⟩ : ValueType.atomic astNode = U ∧ level - stack.length = 0 := by
          cases hindex : level - stack.length with
          | zero =>
              rw [hindex] at hU
              exact ⟨Option.some.inj hU, rfl⟩
          | succ index =>
              rw [hindex] at hU
              cases hU
        rw [List.take_of_length_le (by simp; omega)]
        exact .atomic hS h

theorem of_mem (h : IsStack ast T stack) (hU : U ∈ stack) :
    ∃ upper, IsStack ast U upper ∧ upper <+: stack := by
  obtain ⟨level, hlevel⟩ := List.mem_iff_getElem?.mp hU
  exact ⟨_, h.take hlevel, List.take_prefix _ _⟩

theorem exists_root (h : IsStack ast T stack) :
    ∃ root, stack.head? = some root ∧ root.getPrimitiveOwn = some (some root) := by
  induction h with
  | @root T hT => exact ⟨T, rfl, hT⟩
  | atomic _ _ ih =>
      obtain ⟨root, hhead, hroot⟩ := ih
      exact ⟨root, by simp [hhead], hroot⟩

/-- A type is convertible to the types on its stack, and to those its root is convertible to. -/
theorem isConvertibleTo_iff (h : IsStack ast T stack) {root : ValueType}
    (hroot : stack.head? = some root) :
    T.isConvertibleTo ast U = .ok true ↔
      U ∈ stack ∨ isConvertibleToOwn U root = some true := by
  induction h with
  | @root T hT =>
      cases hroot
      rw [isConvertibleTo_iff_own hT, List.mem_singleton, or_iff_right_of_imp]
      rintro rfl
      exact own_self hT
  | @atomic astNode S stack hS h ih =>
      obtain ⟨root', hhead, _⟩ := h.exists_root
      have hsame : root' = root := by simpa [hhead] using hroot
      rw [isConvertibleTo_atomic_iff, List.mem_append, List.mem_singleton]
      constructor
      · rintro (hself | ⟨S', hS', hconvertible⟩)
        · exact .inl (.inr hself)
        · cases hS.symm.trans hS'
          exact ((ih (hhead.trans (congrArg some hsame))).mp hconvertible).imp_left .inl
      · rintro ((hmem | hself) | hown)
        · exact .inr ⟨S, hS, (ih (hhead.trans (congrArg some hsame))).mpr (.inl hmem)⟩
        · exact .inl hself
        · exact .inr ⟨S, hS, (ih (hhead.trans (congrArg some hsame))).mpr (.inr hown)⟩

end IsStack

/-- A type whose chain of supertypes has an end has a stack, which the code finds. -/
theorem exists_stack {fuel : Nat} {T root : ValueType} (h : HasRoot ast fuel T root) :
    ∃ stack, getValuetypeHierarchyStack ast fuel T = .ok stack ∧ IsStack ast T stack := by
  induction fuel generalizing T with
  | zero => cases h
  | succ fuel ih =>
      cases T with
      | atomic astNode =>
          obtain ⟨_, hfuel, hself | ⟨_, S, hS, hask⟩⟩ := askSupertypes_eq_ok h (by simp)
          · cases hself
          · cases hfuel
            obtain ⟨stack, hstack, hspec⟩ := ih hask
            refine ⟨stack ++ [atomic astNode], ?_, .atomic hS hspec⟩
            rw [getValuetypeHierarchyStack, hS]
            simp only [except_ok_bind, hstack]
            rfl
      | _ => exact ⟨_, rfl, .root rfl⟩

/-- Value types that are convertible to each other are the same, where no type is above itself. -/
theorem isConvertibleTo_antisymm {T U : ValueType} {stack : List ValueType}
    (hstack : IsStack ast T stack) (h : T.isConvertibleTo ast U = .ok true)
    (h' : U.isConvertibleTo ast T = .ok true) : T = U := by
  obtain ⟨root, hhead, hroot⟩ := hstack.exists_root
  have hends : T.getPrimitiveOwn = some (some T) → stack = [T] :=
    fun hT => hstack.unique (.root hT)
  cases (hstack.isConvertibleTo_iff hhead).mp h with
  | inl hU =>
      obtain ⟨upper, hupper, hpre⟩ := hstack.of_mem hU
      obtain ⟨upperRoot, hupperHead, hupperRoot⟩ := hupper.exists_root
      cases (hupper.isConvertibleTo_iff hupperHead).mp h' with
      | inl hT =>
          obtain ⟨lower, hlower, hpre'⟩ := hupper.of_mem hT
          obtain rfl := hlower.unique hstack
          have hsame : upper = lower := hpre.eq_of_length_le hpre'.length_le
          have hlast := hupper.getLast?_eq
          rw [hsame, hstack.getLast?_eq] at hlast
          exact Option.some.inj hlast
      | inr hT =>
          rw [hends (getPrimitiveOwn_of_own hupperRoot hT)] at hU
          exact (List.mem_singleton.mp hU).symm
  | inr hU =>
      have hother : U.getPrimitiveOwn = some (some U) := getPrimitiveOwn_of_own hroot hU
      have hback : isConvertibleToOwn T U = some true := (isConvertibleTo_iff_own hother).mp h'
      have hT := getPrimitiveOwn_of_own hother hback
      obtain rfl : T = root := by simpa [hends hT] using hhead
      exact own_antisymm hT hU hback

end ValueType

end Jayvee
