import Jayvee.Verification.Typing.HierarchyStacks

/-! # The inferred element type is a least upper bound -/

namespace Jayvee

open Foundation ValueType

variable {ast : Ast}

/-! ## Upper bounds -/

/-- All the types are convertible to `T`. -/
def IsUpperBound (ast : Ast) (types : List ValueType) (T : ValueType) : Prop :=
  ∀ E ∈ types, E.isConvertibleTo ast T = .ok true

/-- All the types are convertible to `T`, and `T` to every other type of that kind. -/
structure IsLeastUpperBound (ast : Ast) (types : List ValueType) (T : ValueType) : Prop where
  upper : IsUpperBound ast types T
  least : ∀ U, IsUpperBound ast types U → T.isConvertibleTo ast U = .ok true

/-! ## The fold over the roots -/

/-- One of the roots that all of them are convertible to. -/
def IsGreatestRoot (roots : List ValueType) (T : ValueType) : Prop :=
  T ∈ roots ∧ ∀ root ∈ roots, isConvertibleToOwn T root = some true

/-- Two of the roots that are not convertible to each other. -/
def HaveConflict (roots : List ValueType) : Prop :=
  ∃ root ∈ roots, ∃ other ∈ roots, isConvertibleToOwn other root ≠ some true ∧
    isConvertibleToOwn root other ≠ some true

section Roots

variable {resulting current T : ValueType} {roots roots' : List ValueType}

theorem HaveConflict.mono (h : HaveConflict roots) (hsub : ∀ root ∈ roots, root ∈ roots') :
    HaveConflict roots' := by
  obtain ⟨root, hroot, other, hother, hconflict⟩ := h
  exact ⟨root, hsub root hroot, other, hsub other hother, hconflict⟩

/-- A root that is convertible to another one does not change the greatest root. -/
theorem IsGreatestRoot.cons (h : IsGreatestRoot roots T)
    (hcurrent : current.getPrimitiveOwn = some (some current)) (hresulting : resulting ∈ roots)
    (hown : isConvertibleToOwn resulting current = some true) :
    IsGreatestRoot (current :: roots) T := by
  refine ⟨List.mem_cons_of_mem _ h.1, List.forall_mem_cons.mpr ⟨?_, h.2⟩⟩
  exact own_trans hcurrent hown (h.2 resulting hresulting)

theorem IsGreatestRoot.congr (h : IsGreatestRoot roots T)
    (hsame : ∀ root, root ∈ roots ↔ root ∈ roots') : IsGreatestRoot roots' T :=
  ⟨(hsame T).mp h.1, fun root hroot => h.2 root ((hsame root).mpr hroot)⟩

/-- The fold keeps the more general root, and fails only for roots that are not convertible to
each other. -/
theorem pickMoreGeneralType_eq (ast : Ast)
    (hroots : ∀ root ∈ resulting :: roots, root.getPrimitiveOwn = some (some root)) :
    ∃ result, pickMoreGeneralType ast resulting roots = .ok result ∧
      (∀ T, result = some T → IsGreatestRoot (resulting :: roots) T) ∧
      (result = none → HaveConflict (resulting :: roots)) := by
  induction roots generalizing resulting with
  | nil =>
      refine ⟨some resulting, rfl, fun T hT => ?_, by simp⟩
      cases hT
      exact ⟨List.mem_cons_self, by simpa using own_self (hroots resulting List.mem_cons_self)⟩
  | cons current roots ih =>
      rw [List.forall_mem_cons, List.forall_mem_cons] at hroots
      obtain ⟨hresulting, hcurrent, hrest⟩ := hroots
      obtain ⟨isConvertible, hown, hconvertible⟩ := isConvertibleTo_eq_own ast resulting hcurrent
      obtain ⟨isResultConvertible, hown', hresult⟩ :=
        isConvertibleTo_eq_own ast current hresulting
      rw [pickMoreGeneralType, hconvertible, except_ok_bind]
      cases isConvertible with
      | true =>
          obtain ⟨result, hresult, hsome, hnone⟩ :=
            ih (List.forall_mem_cons.mpr ⟨hresulting, hrest⟩)
          refine ⟨result, hresult, fun T hT => ?_, fun hT => ?_⟩
          · refine ((hsome T hT).cons hcurrent List.mem_cons_self hown).congr fun root => ?_
            simp only [List.mem_cons, or_left_comm]
          · refine (hnone hT).mono fun root hroot => ?_
            exact List.mem_cons.mpr ((List.mem_cons.mp hroot).imp_right (List.mem_cons_of_mem _))
      | false =>
          simp only [Bool.false_eq_true, if_false, hresult, except_ok_bind]
          cases isResultConvertible with
          | true =>
              obtain ⟨result, hresult, hsome, hnone⟩ :=
                ih (List.forall_mem_cons.mpr ⟨hcurrent, hrest⟩)
              refine ⟨result, hresult, fun T hT => ?_, fun hT => ?_⟩
              · exact (hsome T hT).cons hresulting List.mem_cons_self hown'
              · exact (hnone hT).mono fun root hroot => List.mem_cons_of_mem _ hroot
          | false =>
              refine ⟨none, rfl, by simp, fun _ => ⟨resulting, List.mem_cons_self, current,
                List.mem_cons_of_mem _ List.mem_cons_self, ?_, ?_⟩⟩
              · rw [hown']
                simp
              · rw [hown]
                simp

theorem pickCommonPrimitiveValuetype_eq (ast : Ast) (hne : roots ≠ [])
    (hroots : ∀ root ∈ roots, root.getPrimitiveOwn = some (some root)) :
    ∃ result, pickCommonPrimitiveValuetype ast roots = .ok result ∧
      (∀ T, result = some T → IsGreatestRoot roots T) ∧ (result = none → HaveConflict roots) := by
  cases roots with
  | nil => exact (hne rfl).elim
  | cons resulting roots => exact pickMoreGeneralType_eq ast hroots

end Roots

/-! ## The loop over the levels -/

def typesOfLevel (hierarchyStacks : List (List ValueType)) (stackLevel : Nat) : List ValueType :=
  hierarchyStacks.filterMap fun stack => stack[stackLevel]?

/-- The stacks have the same type on the level. -/
def AgreeAt (hierarchyStacks : List (List ValueType)) (stackLevel : Nat) : Prop :=
  ∃ T, ∀ stack ∈ hierarchyStacks, stack[stackLevel]? = some T

section Levels

variable {hierarchyStacks : List (List ValueType)} {stackLevel : Nat}

theorem head?_typesOfLevel {T : ValueType} (hne : hierarchyStacks ≠ [])
    (h : ∀ stack ∈ hierarchyStacks, stack[stackLevel]? = some T) :
    (typesOfLevel hierarchyStacks stackLevel).head? = some T := by
  cases hierarchyStacks with
  | nil => exact (hne rfl).elim
  | cons stack hierarchyStacks =>
      rw [typesOfLevel, List.filterMap_cons, h stack List.mem_cons_self]
      rfl

theorem areAllTypesEqual_iff_agreeAt (hne : hierarchyStacks ≠ [])
    (hlevel : ∀ stack ∈ hierarchyStacks, stackLevel < stack.length) :
    areAllTypesEqual (typesOfLevel hierarchyStacks stackLevel) = true ↔
      AgreeAt hierarchyStacks stackLevel := by
  cases hierarchyStacks with
  | nil => exact (hne rfl).elim
  | cons first hierarchyStacks =>
      rw [List.forall_mem_cons] at hlevel
      have hfirst : first[stackLevel]? = some first[stackLevel] :=
        List.getElem?_eq_getElem hlevel.1
      rw [typesOfLevel, List.filterMap_cons, hfirst]
      dsimp only
      rw [areAllTypesEqual_iff]
      constructor
      · intro hequal
        refine ⟨first[stackLevel], List.forall_mem_cons.mpr ⟨hfirst, fun stack hstack => ?_⟩⟩
        obtain ⟨T, hget⟩ : ∃ T, stack[stackLevel]? = some T :=
          ⟨_, List.getElem?_eq_getElem (hlevel.2 stack hstack)⟩
        rw [hget, hequal T (List.mem_filterMap.mpr ⟨stack, hstack, hget⟩)]
      · rintro ⟨T, hT⟩ U hU
        rw [List.forall_mem_cons, hfirst] at hT
        obtain ⟨stack, hstack, hget⟩ := List.mem_filterMap.mp hU
        rw [hT.2 stack hstack] at hget
        exact (Option.some.inj hget).symm.trans (Option.some.inj hT.1).symm

/-- The loop ends with the type of the last level before the first one on which the stacks do not
agree. -/
theorem pickCommonTypeOfLevels_eq (hne : hierarchyStacks ≠ []) {count : Nat}
    (hlevel : ∀ stack ∈ hierarchyStacks, stackLevel + count ≤ stack.length)
    (resulting : Option ValueType) :
    ∃ passed ≤ count, (passed < count → ¬ AgreeAt hierarchyStacks (stackLevel + passed)) ∧
      pickCommonTypeOfLevels hierarchyStacks resulting (List.range' stackLevel count) =
        (if passed = 0 then resulting
        else (typesOfLevel hierarchyStacks (stackLevel + passed - 1)).head?) ∧
      ∀ level, stackLevel ≤ level → level < stackLevel + passed →
        AgreeAt hierarchyStacks level := by
  induction count generalizing stackLevel resulting with
  | zero => exact ⟨0, le_rfl, by omega, rfl, by omega⟩
  | succ count ih =>
      have hcurrent : ∀ stack ∈ hierarchyStacks, stackLevel < stack.length := by
        intro stack hstack
        have hlength := hlevel stack hstack
        omega
      have hnext : ∀ stack ∈ hierarchyStacks, stackLevel + 1 + count ≤ stack.length := by
        intro stack hstack
        have hlength := hlevel stack hstack
        omega
      have hagree := areAllTypesEqual_iff_agreeAt hne hcurrent
      rw [List.range'_succ, pickCommonTypeOfLevels, ← typesOfLevel]
      by_cases hequal : AgreeAt hierarchyStacks stackLevel
      · obtain ⟨passed, hle, hstop, hresult, hpassed⟩ :=
          ih hnext (typesOfLevel hierarchyStacks stackLevel).head?
        refine ⟨passed + 1, by omega, fun hlt => ?_, ?_, fun level hfrom hto => ?_⟩
        · have hsum : stackLevel + (passed + 1) = stackLevel + 1 + passed := by omega
          exact hsum ▸ hstop (by omega)
        · rw [if_neg (by simp [hagree.mpr hequal]), hresult, if_neg (Nat.succ_ne_zero passed)]
          by_cases hpassed : passed = 0
          · rw [if_pos hpassed, hpassed]
            rfl
          · have hsum : stackLevel + 1 + passed - 1 = stackLevel + (passed + 1) - 1 := by omega
            rw [if_neg hpassed, hsum]
        · by_cases hlevel : level = stackLevel
          · exact hlevel ▸ hequal
          · exact hpassed level (by omega) (by omega)
      · refine ⟨0, by omega, fun _ => hequal, ?_, by omega⟩
        have hstop : areAllTypesEqual (typesOfLevel hierarchyStacks stackLevel) = false := by
          rw [Bool.eq_false_iff, ne_eq, hagree]
          exact hequal
        rw [if_pos (by simp [hstop]), if_pos rfl]

/-- The common type is on the last level on which the stacks agree, if that is below the roots. -/
theorem pickCommonAtomicValueType_eq (hne : hierarchyStacks ≠ [])
    (hstacks : ∀ stack ∈ hierarchyStacks, stack ≠ []) :
    ∃ level, ¬ AgreeAt hierarchyStacks (level + 1) ∧
      ((level = 0 ∧ pickCommonAtomicValueType hierarchyStacks = none) ∨
        ∃ T, pickCommonAtomicValueType hierarchyStacks = some T ∧
          ∀ stack ∈ hierarchyStacks, stack[level]? = some T) := by
  obtain ⟨minimum, hminimum⟩ : ∃ minimum, (hierarchyStacks.map List.length).min? = some minimum :=
    Option.isSome_iff_exists.mp (by simpa using hne)
  obtain ⟨hmem, hle⟩ := List.min?_eq_some_iff.mp hminimum
  obtain ⟨shortest, hshortest, hlength⟩ := List.mem_map.mp hmem
  have hpos : 0 < minimum := by
    rw [← hlength]
    exact List.length_pos_iff.mpr (hstacks shortest hshortest)
  have hlevels : ∀ stack ∈ hierarchyStacks, 1 + (minimum - 1) ≤ stack.length := by
    intro stack hstack
    have hbound := hle stack.length (List.mem_map_of_mem hstack)
    omega
  obtain ⟨passed, hpassed, hstop, hresult, hagree⟩ :=
    pickCommonTypeOfLevels_eq hne hlevels none
  refine ⟨passed, ?_, ?_⟩
  · rw [Nat.add_comm]
    rcases Nat.lt_or_eq_of_le hpassed with hlt | heq
    · exact hstop hlt
    · rintro ⟨T, hT⟩
      have hnone : shortest[1 + passed]? = none :=
        List.getElem?_eq_none_iff.mpr (by omega)
      rw [hT shortest hshortest] at hnone
      cases hnone
  · have hpick : pickCommonAtomicValueType hierarchyStacks =
        pickCommonTypeOfLevels hierarchyStacks none (List.range' 1 (minimum - 1)) := by
      rw [pickCommonAtomicValueType, hminimum]
      rfl
    rw [hpick, hresult]
    cases passed with
    | zero => exact .inl ⟨rfl, rfl⟩
    | succ passed =>
        obtain ⟨T, hT⟩ := hagree (passed + 1) (by omega) (by omega)
        have hsum : 1 + (passed + 1) - 1 = passed + 1 := by omega
        refine .inr ⟨T, ?_, hT⟩
        rw [if_neg (Nat.succ_ne_zero passed), hsum]
        exact head?_typesOfLevel hne hT

end Levels

/-! ## Upper bounds of types with stacks -/

/-- The stacks of the types. -/
structure AreStacks (ast : Ast) (types : List ValueType) (hierarchyStacks : List (List ValueType)) :
    Prop where
  stack : ∀ E ∈ types, ∃ stack ∈ hierarchyStacks, IsStack ast E stack
  type : ∀ stack ∈ hierarchyStacks, ∃ E ∈ types, IsStack ast E stack

theorem exists_hierarchyStacks {types : List ValueType}
    (hresolved : ∀ E ∈ types, ∃ root, HasRoot ast (hierarchyDepth ast) E root) :
    ∃ hierarchyStacks, getValuetypeHierarchyStacks ast types = .ok hierarchyStacks ∧
      AreStacks ast types hierarchyStacks := by
  induction types with
  | nil => exact ⟨[], rfl, by simp, by simp⟩
  | cons E types ih =>
      rw [List.forall_mem_cons] at hresolved
      obtain ⟨⟨root, hroot⟩, hrest⟩ := hresolved
      obtain ⟨stack, hstack, hspec⟩ := exists_stack hroot
      obtain ⟨hierarchyStacks, hstacks, hall⟩ := ih hrest
      refine ⟨stack :: hierarchyStacks, ?_, ?_, ?_⟩
      · rw [getValuetypeHierarchyStacks, hstack, except_ok_bind, hstacks]
        rfl
      · refine List.forall_mem_cons.mpr ⟨⟨stack, List.mem_cons_self, hspec⟩, fun other hother => ?_⟩
        obtain ⟨upper, hmem, hupper⟩ := hall.stack other hother
        exact ⟨upper, List.mem_cons_of_mem _ hmem, hupper⟩
      · refine List.forall_mem_cons.mpr ⟨⟨E, List.mem_cons_self, hspec⟩, fun other hother => ?_⟩
        obtain ⟨lower, hmem, hlower⟩ := hall.type other hother
        exact ⟨lower, List.mem_cons_of_mem _ hmem, hlower⟩

theorem AreStacks.own_of_root {types : List ValueType} {hierarchyStacks : List (List ValueType)}
    (h : AreStacks ast types hierarchyStacks) {root : ValueType}
    (hroot : root ∈ hierarchyStacks.filterMap List.head?) :
    root.getPrimitiveOwn = some (some root) := by
  obtain ⟨stack, hstack, hhead⟩ := List.mem_filterMap.mp hroot
  obtain ⟨E, _, hspec⟩ := h.type stack hstack
  obtain ⟨root', hhead', hown⟩ := hspec.exists_root
  cases hhead.symm.trans hhead'
  exact hown

section Bounds

variable {types : List ValueType} {hierarchyStacks : List (List ValueType)} {T U : ValueType}

/-- A root on a stack is the first type on it. -/
theorem head?_eq_of_mem {stack : List ValueType} (h : IsStack ast T stack) (hU : U ∈ stack)
    (hown : U.getPrimitiveOwn = some (some U)) : stack.head? = some U := by
  obtain ⟨upper, hupper, hpre⟩ := h.of_mem hU
  obtain rfl := hupper.unique (.root hown)
  obtain ⟨rest, rfl⟩ := hpre
  rfl

/-- Either an atomic upper bound has a stack that all stacks start with, or all the roots are
convertible to the upper bound. -/
theorem IsUpperBound.stack_or_roots (hstacks : AreStacks ast types hierarchyStacks)
    (hne : types ≠ []) (h : IsUpperBound ast types U) :
    (∃ upper, IsStack ast U upper ∧ 2 ≤ upper.length ∧
      ∀ stack ∈ hierarchyStacks, upper <+: stack) ∨
    ∀ root ∈ hierarchyStacks.filterMap List.head?, isConvertibleToOwn U root = some true := by
  have hconvertible : ∀ stack ∈ hierarchyStacks, ∀ root, stack.head? = some root →
      root.getPrimitiveOwn = some (some root) ∧
        (U ∈ stack ∨ isConvertibleToOwn U root = some true) := by
    intro stack hstack root hhead
    obtain ⟨E, hE, hspec⟩ := hstacks.type stack hstack
    obtain ⟨root', hhead', hroot⟩ := hspec.exists_root
    cases hhead.symm.trans hhead'
    exact ⟨hroot, (hspec.isConvertibleTo_iff hhead).mp (h E hE)⟩
  by_cases hU : U.getPrimitiveOwn = some (some U)
  · right
    intro root hmem
    obtain ⟨stack, hstack, hhead⟩ := List.mem_filterMap.mp hmem
    obtain ⟨hroot, hmem | hown⟩ := hconvertible stack hstack root hhead
    · obtain ⟨E, _, hspec⟩ := hstacks.type stack hstack
      obtain rfl : root = U := by
        simpa [head?_eq_of_mem hspec hmem hU] using hhead.symm
      exact own_self hroot
    · exact hown
  · left
    have hon : ∀ stack ∈ hierarchyStacks, U ∈ stack := by
      intro stack hstack
      obtain ⟨E, _, hspec⟩ := hstacks.type stack hstack
      obtain ⟨root, hhead, _⟩ := hspec.exists_root
      obtain ⟨hroot, hmem | hown⟩ := hconvertible stack hstack root hhead
      · exact hmem
      · exact (hU (getPrimitiveOwn_of_own hroot hown)).elim
    obtain ⟨E, hE⟩ := List.exists_mem_of_ne_nil types hne
    obtain ⟨stack, hstack, hspec⟩ := hstacks.stack E hE
    obtain ⟨upper, hupper, _⟩ := hspec.of_mem (hon stack hstack)
    refine ⟨upper, hupper, ?_, fun other hother => ?_⟩
    · cases hupper with
      | root hown => exact (hU hown).elim
      | atomic _ hsupertype =>
          have hpos := List.length_pos_iff.mpr hsupertype.ne_nil
          rw [List.length_append, List.length_singleton]
          omega
    · obtain ⟨_, _, hother'⟩ := hstacks.type other hother
      obtain ⟨upper', hupper', hpre⟩ := hother'.of_mem (hon other hother)
      rwa [hupper.unique hupper']

/-- Stacks that start with the same one agree on its levels. -/
theorem agreeAt_of_isPrefix {upper : List ValueType}
    (hpre : ∀ stack ∈ hierarchyStacks, upper <+: stack) {level : Nat}
    (hlevel : level < upper.length) : AgreeAt hierarchyStacks level := by
  refine ⟨upper[level], fun stack hstack => ?_⟩
  obtain ⟨rest, rfl⟩ := hpre stack hstack
  rw [List.getElem?_append_left hlevel]
  exact List.getElem?_eq_getElem hlevel

/-- The type of the last level on which the stacks agree. -/
theorem isLeastUpperBound_of_level (hstacks : AreStacks ast types hierarchyStacks)
    (hne : types ≠ []) {level : Nat} (hT : ∀ stack ∈ hierarchyStacks, stack[level]? = some T)
    (hstop : ¬ AgreeAt hierarchyStacks (level + 1)) : IsLeastUpperBound ast types T := by
  constructor
  · intro E hE
    obtain ⟨stack, hstack, hspec⟩ := hstacks.stack E hE
    obtain ⟨root, hhead, _⟩ := hspec.exists_root
    exact (hspec.isConvertibleTo_iff hhead).mpr (.inl (List.mem_of_getElem? (hT stack hstack)))
  · intro U hU
    obtain ⟨E, hE⟩ := List.exists_mem_of_ne_nil types hne
    obtain ⟨stack, hstack, hspec⟩ := hstacks.stack E hE
    have hlower := hspec.take (hT stack hstack)
    obtain ⟨root, hhead, _⟩ := hlower.exists_root
    refine (hlower.isConvertibleTo_iff hhead).mpr ?_
    rcases hU.stack_or_roots hstacks hne with ⟨upper, hupper, _, hpre⟩ | hroots
    · left
      have hshort : upper.length ≤ level + 1 := by
        by_contra hlong
        exact hstop (agreeAt_of_isPrefix hpre (by omega))
      have hlength : (stack.take (level + 1)).length = level + 1 := by
        obtain ⟨hlt, _⟩ := List.getElem?_eq_some_iff.mp (hT stack hstack)
        rw [List.length_take]
        omega
      have hpart : upper <+: stack.take (level + 1) := List.prefix_of_prefix_length_le
        (hpre stack hstack) (List.take_prefix _ _) (by omega)
      exact hpart.subset (List.mem_of_getLast? hupper.getLast?_eq)
    · right
      rw [List.head?_take, if_neg (Nat.succ_ne_zero level)] at hhead
      exact hroots root (List.mem_filterMap.mpr ⟨stack, hstack, hhead⟩)

/-- The greatest root, where no atomic value type is on all stacks. -/
theorem isLeastUpperBound_of_root (hstacks : AreStacks ast types hierarchyStacks)
    (hne : types ≠ []) (hT : IsGreatestRoot (hierarchyStacks.filterMap List.head?) T)
    (hstop : ¬ AgreeAt hierarchyStacks 1) : IsLeastUpperBound ast types T := by
  constructor
  · intro E hE
    obtain ⟨stack, hstack, hspec⟩ := hstacks.stack E hE
    obtain ⟨root, hhead, _⟩ := hspec.exists_root
    refine (hspec.isConvertibleTo_iff hhead).mpr (.inr (hT.2 root ?_))
    exact List.mem_filterMap.mpr ⟨stack, hstack, hhead⟩
  · intro U hU
    rcases hU.stack_or_roots hstacks hne with ⟨upper, _, hlength, hpre⟩ | hroots
    · exact (hstop (agreeAt_of_isPrefix hpre (by omega))).elim
    · exact (isConvertibleTo_iff_own (hstacks.own_of_root hT.1)).mpr (hroots T hT.1)

theorem not_isUpperBound_of_conflict (hstacks : AreStacks ast types hierarchyStacks)
    (hne : types ≠ []) (h : HaveConflict (hierarchyStacks.filterMap List.head?)) :
    ¬ IsUpperBound ast types U := by
  intro hU
  obtain ⟨root, hroot, other, hother, hconflict⟩ := h
  have hown := hstacks.own_of_root hroot
  rcases hU.stack_or_roots hstacks hne with ⟨upper, _, hlength, hpre⟩ | hroots
  · obtain ⟨first, hfirst⟩ : AgreeAt hierarchyStacks 0 := agreeAt_of_isPrefix hpre (by omega)
    have hsame : ∀ root ∈ hierarchyStacks.filterMap List.head?, root = first := by
      intro root hroot
      obtain ⟨stack, hstack, hhead⟩ := List.mem_filterMap.mp hroot
      rw [List.head?_eq_getElem?, hfirst stack hstack] at hhead
      exact (Option.some.inj hhead).symm
    rw [hsame root hroot] at hconflict hown
    rw [hsame other hother] at hconflict
    exact hconflict.1 (own_self hown)
  · exact (own_comparable hown (hstacks.own_of_root hother) (hroots root hroot)
      (hroots other hother)).elim hconflict.1 hconflict.2

theorem isLeastUpperBound_of_singleton {stack : List ValueType}
    (hstacks : AreStacks ast types [stack]) (hT : T ∈ types) (hstack : IsStack ast T stack) :
    IsLeastUpperBound ast types T := by
  refine ⟨fun E hE => ?_, fun U hU => hU T hT⟩
  obtain ⟨other, hother, hspec⟩ := hstacks.stack E hE
  rw [List.mem_singleton.mp hother] at hspec
  obtain rfl : E = T := Option.some.inj (hspec.getLast?_eq.symm.trans hstack.getLast?_eq)
  exact isConvertibleTo_self E

/-- Least upper bounds of the same types are the same type. -/
theorem IsLeastUpperBound.unique {stack : List ValueType} (hstack : IsStack ast T stack)
    (hT : IsLeastUpperBound ast types T) (hU : IsLeastUpperBound ast types U) : T = U :=
  isConvertibleTo_antisymm hstack (hT.least U hU.upper) (hU.least T hT.upper)

theorem IsLeastUpperBound.perm {types' : List ValueType} (hperm : types.Perm types')
    (h : IsLeastUpperBound ast types T) : IsLeastUpperBound ast types' T := by
  have hbound : ∀ U, IsUpperBound ast types' U ↔ IsUpperBound ast types U :=
    fun U => forall_congr' fun E => by rw [hperm.mem_iff]
  exact ⟨(hbound T).mpr h.upper, fun U hU => h.least U ((hbound U).mp hU)⟩

end Bounds

/-! ## The inferred type -/

/-- What the element type means for the collection: without one, an error is reported. -/
def reportCollectionType (collection : Expression) :
    Option ValueType → Validation (Option ValueType)
  | some elementType => return some (.collection elementType)
  | none => do
      accept .error "The type of the collection cannot be inferred from its elements"
        { node := .expression collection }
      return none

/-- The element type is a least upper bound with a stack, or none exists. -/
def IsCommonType (ast : Ast) (types : List ValueType) : Option ValueType → Prop
  | some T => IsLeastUpperBound ast types T ∧ ∃ stack, IsStack ast T stack
  | none => ∀ U, ¬ IsUpperBound ast types U

/-- The common atomic value type is preferred to the common root. -/
theorem inferCollectionType_of_common {types : List ValueType} {first second : List ValueType}
    {hierarchyStacks : List (List ValueType)} {common : Option ValueType}
    (hget : getValuetypeHierarchyStacks ast types = .ok (first :: second :: hierarchyStacks))
    (hcommon : pickCommonPrimitiveValuetype ast
      ((first :: second :: hierarchyStacks).filterMap List.head?) = .ok common)
    (collection : Expression) :
    inferCollectionType ast collection types = reportCollectionType collection
      (common.map fun commonPrimitive =>
        (pickCommonAtomicValueType (first :: second :: hierarchyStacks)).getD commonPrimitive) := by
  funext diagnostics
  rw [inferCollectionType, hget, Exec.bind_of_ok (Exec.ofExcept_apply _ _)]
  dsimp only
  rw [hcommon, Exec.bind_of_ok (Exec.ofExcept_apply _ _)]
  cases common with
  | none => rfl
  | some commonPrimitive =>
      cases hatomic : pickCommonAtomicValueType (first :: second :: hierarchyStacks) <;> rfl

/-- For two elements or more, the roots and then the levels are compared. -/
theorem inferCollectionType_eq_of_stacks {types : List ValueType} (hne : types ≠ [])
    {first second : List ValueType} {hierarchyStacks : List (List ValueType)}
    (hget : getValuetypeHierarchyStacks ast types = .ok (first :: second :: hierarchyStacks))
    (hstacks : AreStacks ast types (first :: second :: hierarchyStacks))
    (collection : Expression) :
    ∃ elementType, IsCommonType ast types elementType ∧
      inferCollectionType ast collection types = reportCollectionType collection elementType := by
  have hnonempty : ∀ stack ∈ first :: second :: hierarchyStacks, stack ≠ [] := by
    intro stack hstack
    obtain ⟨E, _, hspec⟩ := hstacks.type stack hstack
    exact hspec.ne_nil
  obtain ⟨E, _, hfirst⟩ := hstacks.type first List.mem_cons_self
  obtain ⟨root, hhead, _⟩ := hfirst.exists_root
  have hroots : (first :: second :: hierarchyStacks).filterMap List.head? ≠ [] :=
    List.ne_nil_of_mem (List.mem_filterMap.mpr ⟨first, List.mem_cons_self, hhead⟩)
  obtain ⟨common, hcommon, hgreatest, hconflict⟩ :=
    pickCommonPrimitiveValuetype_eq ast hroots fun root => hstacks.own_of_root
  refine ⟨_, ?_, inferCollectionType_of_common hget hcommon collection⟩
  cases common with
  | none => exact fun U => not_isUpperBound_of_conflict hstacks hne (hconflict rfl)
  | some commonPrimitive =>
      have hgreatest := hgreatest commonPrimitive rfl
      obtain ⟨level, hstop, hlevel⟩ :=
        pickCommonAtomicValueType_eq (List.cons_ne_nil _ _) hnonempty
      rcases hlevel with ⟨rfl, hnone⟩ | ⟨T, hT, hall⟩
      · rw [hnone]
        exact ⟨isLeastUpperBound_of_root hstacks hne hgreatest hstop, _,
          .root (hstacks.own_of_root hgreatest.1)⟩
      · rw [hT]
        exact ⟨isLeastUpperBound_of_level hstacks hne hall hstop, _,
          hfirst.take (hall first List.mem_cons_self)⟩

theorem inferCollectionType_eq {types : List ValueType} (hne : types ≠ [])
    (hresolved : ∀ E ∈ types, ∃ root, HasRoot ast (hierarchyDepth ast) E root)
    (collection : Expression) :
    ∃ elementType, IsCommonType ast types elementType ∧
      inferCollectionType ast collection types = reportCollectionType collection elementType := by
  obtain ⟨hierarchyStacks, hget, hstacks⟩ := exists_hierarchyStacks hresolved
  obtain ⟨E, hE⟩ := List.exists_mem_of_ne_nil types hne
  obtain ⟨stack, hstack, hspec⟩ := hstacks.stack E hE
  cases hierarchyStacks with
  | nil => cases hstack
  | cons first hierarchyStacks =>
      cases hierarchyStacks with
      | nil =>
          obtain rfl := List.mem_singleton.mp hstack
          refine ⟨some E, ⟨isLeastUpperBound_of_singleton hstacks hE hspec, stack, hspec⟩, ?_⟩
          funext diagnostics
          rw [inferCollectionType, hget, Exec.bind_of_ok (Exec.ofExcept_apply _ _)]
          dsimp only
          rw [hspec.getLast?_eq]
          rfl
      | cons second hierarchyStacks =>
          exact inferCollectionType_eq_of_stacks hne hget hstacks collection

/-- The result is the same for all orders of the elements. -/
theorem IsCommonType.unique {types types' : List ValueType} (hperm : types.Perm types')
    {elementType elementType' : Option ValueType} (h : IsCommonType ast types elementType)
    (h' : IsCommonType ast types' elementType') : elementType = elementType' := by
  cases elementType with
  | none =>
      cases elementType' with
      | none => rfl
      | some U => exact (h U (h'.1.perm hperm.symm).upper).elim
  | some T =>
      cases elementType' with
      | none => exact (h' T (h.1.perm hperm).upper).elim
      | some U =>
          obtain ⟨hT, stack, hstack⟩ := h
          rw [hT.unique hstack (h'.1.perm hperm.symm)]

/-- The inferred element type of a collection literal is the least upper bound of the types of the
elements. It does not depend on their order, and is missing only where there is no upper bound. -/
theorem inferCollectionType_isLeastUpperBound (ast : Ast) (collection : Expression)
    (types : List ValueType) (hne : types ≠ [])
    (hresolved : ∀ E ∈ types, ∃ root, HasRoot ast (hierarchyDepth ast) E root)
    (diagnostics : List Diagnostic) :
    ∃ result after,
      inferCollectionType ast collection types diagnostics = some (.ok result, after) ∧
      (∀ T, result = some (.collection T) → IsLeastUpperBound ast types T) ∧
      (result = none → ∀ U, ¬ IsUpperBound ast types U) ∧
      (result = none ∨ ∃ T, result = some (.collection T)) ∧
      ∀ (types' : List ValueType) (collection' : Expression) (diagnostics' : List Diagnostic),
        types.Perm types' → ∃ after',
          inferCollectionType ast collection' types' diagnostics' = some (.ok result, after') := by
  obtain ⟨elementType, hcommon, hinfer⟩ := inferCollectionType_eq hne hresolved collection
  have hreport : ∀ collection diagnostics, ∃ after,
      reportCollectionType collection elementType diagnostics =
        some (.ok (elementType.map ValueType.collection), after) := by
    intro collection diagnostics
    cases elementType <;> exact ⟨_, rfl⟩
  obtain ⟨after, hafter⟩ := hreport collection diagnostics
  refine ⟨_, after, (congrFun hinfer diagnostics).trans hafter, ?_, ?_, ?_, ?_⟩
  · intro T hT
    obtain ⟨elementType, rfl, hsame⟩ := Option.map_eq_some_iff.mp hT
    cases hsame
    exact hcommon.1
  · intro hnone
    obtain rfl := Option.map_eq_none_iff.mp hnone
    exact hcommon
  · cases elementType with
    | none => exact .inl rfl
    | some T => exact .inr ⟨T, rfl⟩
  · intro types' collection' diagnostics' hperm
    have hne' : types' ≠ [] := by
      rintro rfl
      exact hne hperm.eq_nil
    obtain ⟨elementType', hcommon', hinfer'⟩ := inferCollectionType_eq hne'
      (fun E hE => hresolved E (hperm.mem_iff.mpr hE)) collection'
    obtain rfl := hcommon.unique hperm hcommon'
    obtain ⟨after', hafter'⟩ := hreport collection' diagnostics'
    exact ⟨after', (congrFun hinfer' diagnostics').trans hafter'⟩

/-- A collection of grades and points is one of points. -/
theorem inferCollectionType_isLeastUpperBound_points :
    IsLeastUpperBound gradeAst [.atomic 2, .atomic 1] (.atomic 1) := by
  have hresolved : ∀ E ∈ [ValueType.atomic 2, .atomic 1],
      ∃ root, HasRoot gradeAst (hierarchyDepth gradeAst) E root := by
    intro E hE
    obtain rfl | rfl := List.mem_pair.mp hE
    all_goals
      exact ⟨.Integer, rfl⟩
  obtain ⟨result, after, hrun, hleast, _⟩ := inferCollectionType_isLeastUpperBound gradeAst
    (.collectionLiteral []) [.atomic 2, .atomic 1] (List.cons_ne_nil _ _) hresolved []
  refine hleast (.atomic 1) ?_
  cases hrun
  rfl

end Jayvee
