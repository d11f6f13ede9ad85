import Jayvee.Model.TypeInference
import Jayvee.Verification.Typing.Convertibility

/-! # The inferred type of a collection -/

namespace Jayvee

open Foundation ValueType

variable {ast : Ast}

/-! ## Hierarchy stacks -/

namespace ValueType

/-- The values of a value type are values of its supertype. -/
theorem HasType.supertype {T S : ValueType} {v : Value} (hv : HasType ast T v)
    (hS : T.getSupertype ast = .ok (some S)) (hT : T.getPrimitiveOwn = none) :
    HasType ast S v := by
  obtain ⟨root, hroot, hvalue⟩ := hv.root
  rw [HasRoot, hierarchyDepth, askSupertypes_of_supertype hT hS] at hroot
  exact hvalue.of_root (HasRoot.mono (Nat.le_succ _) hroot)

/-- The last type of the stack of `T` is `T`, and all of its types have the values of `T`. -/
theorem getValuetypeHierarchyStack_spec {fuel : Nat} {T : ValueType} {stack : List ValueType}
    (h : getValuetypeHierarchyStack ast fuel T = .ok stack) :
    stack.getLast? = some T ∧ ∀ v, HasType ast T v → ∀ S ∈ stack, HasType ast S v := by
  induction fuel generalizing T stack with
  | zero => cases h
  | succ fuel ih =>
      cases T with
      | atomic astNode =>
          rw [getValuetypeHierarchyStack] at h
          obtain ⟨supertype, hsupertype, h⟩ := except_bind_eq_ok_iff.mp h
          cases supertype with
          | none => cases h
          | some S =>
              obtain ⟨lower, hlower, h⟩ := except_bind_eq_ok_iff.mp h
              cases h
              refine ⟨by simp, ?_⟩
              intro v hv U hU
              rcases List.mem_append.mp hU with hU | hU
              · exact (ih hlower).2 v (hv.supertype hsupertype rfl) U hU
              · rw [List.mem_singleton.mp hU]
                exact hv
      | _ =>
          cases h
          simp

end ValueType

theorem getValuetypeHierarchyStacks_spec {types : List ValueType}
    {hierarchyStacks : List (List ValueType)}
    (h : getValuetypeHierarchyStacks ast types = .ok hierarchyStacks) :
    List.Forall₂ (fun T stack =>
      stack.getLast? = some T ∧ ∀ v, HasType ast T v → ∀ S ∈ stack, HasType ast S v)
      types hierarchyStacks := by
  induction types generalizing hierarchyStacks with
  | nil =>
      cases h
      exact .nil
  | cons T types ih =>
      obtain ⟨stack, hstack, h⟩ := except_bind_eq_ok_iff.mp h
      obtain ⟨rest, hrest, h⟩ := except_bind_eq_ok_iff.mp h
      cases h
      exact .cons (getValuetypeHierarchyStack_spec hstack) (ih hrest)

/-! ## The common primitive value type -/

theorem pickMoreGeneralType_sound {resulting T : ValueType} {types : List ValueType}
    (h : pickMoreGeneralType ast resulting types = .ok (some T)) (v : Value) :
    (HasType ast resulting v → HasType ast T v) ∧
      ∀ current ∈ types, HasType ast current v → HasType ast T v := by
  induction types generalizing resulting with
  | nil =>
      cases h
      simp
  | cons current types ih =>
      obtain ⟨isConvertible, hconvertible, h⟩ := except_bind_eq_ok_iff.mp h
      cases isConvertible with
      | true =>
          obtain ⟨hresulting, htypes⟩ := ih h
          rw [List.forall_mem_cons]
          exact ⟨hresulting, fun hv => hresulting (hv.convert hconvertible), htypes⟩
      | false =>
          obtain ⟨isResultConvertible, hresult, h⟩ := except_bind_eq_ok_iff.mp h
          cases isResultConvertible with
          | true =>
              obtain ⟨hcurrent, htypes⟩ := ih h
              rw [List.forall_mem_cons]
              exact ⟨fun hv => hcurrent (hv.convert hresult), hcurrent, htypes⟩
          | false => cases h

theorem pickCommonPrimitiveValuetype_sound {T : ValueType} {types : List ValueType}
    (h : pickCommonPrimitiveValuetype ast types = .ok (some T)) {current : ValueType}
    (hmem : current ∈ types) {v : Value} (hv : HasType ast current v) : HasType ast T v := by
  cases types with
  | nil => cases hmem
  | cons first types =>
      obtain ⟨hfirst, htypes⟩ := pickMoreGeneralType_sound h v
      rcases List.mem_cons.mp hmem with rfl | hmem
      · exact hfirst hv
      · exact htypes current hmem hv

/-! ## The common atomic value type -/

theorem areAllTypesEqual_iff {first : ValueType} {types : List ValueType} :
    areAllTypesEqual (first :: types) = true ↔ ∀ T ∈ types, T = first := by
  induction types generalizing first with
  | nil => simp [areAllTypesEqual]
  | cons second types ih =>
      rw [areAllTypesEqual, Bool.and_eq_true, equals_iff, ih, List.forall_mem_cons]
      constructor
      · rintro ⟨rfl, h⟩
        exact ⟨rfl, h⟩
      · rintro ⟨rfl, h⟩
        exact ⟨rfl, h⟩

/-- Where the types of a level are all equal, that type is on every stack. -/
private theorem mem_of_areAllTypesEqual {hierarchyStacks : List (List ValueType)} {level : Nat}
    (hlevel : ∀ stack ∈ hierarchyStacks, level < stack.length) {T : ValueType}
    (hequal : areAllTypesEqual (hierarchyStacks.filterMap fun stack => stack[level]?) = true)
    (hhead : (hierarchyStacks.filterMap fun stack => stack[level]?).head? = some T) :
    ∀ stack ∈ hierarchyStacks, T ∈ stack := by
  intro stack hstack
  have hlt := hlevel stack hstack
  have hget : stack[level]? = some stack[level] := List.getElem?_eq_getElem hlt
  have hmem : stack[level] ∈ hierarchyStacks.filterMap fun stack => stack[level]? :=
    List.mem_filterMap.mpr ⟨stack, hstack, hget⟩
  cases htypes : hierarchyStacks.filterMap fun stack => stack[level]? with
  | nil => simp [htypes] at hmem
  | cons first types =>
      rw [htypes] at hequal hhead hmem
      cases hhead
      have heq : stack[level] = T := by
        rcases List.mem_cons.mp hmem with h | h
        · exact h
        · exact areAllTypesEqual_iff.mp hequal _ h
      exact heq ▸ List.getElem_mem hlt

private theorem pickCommonTypeOfLevels_mem {hierarchyStacks : List (List ValueType)}
    {levels : List Nat} {resulting : Option ValueType} {T : ValueType}
    (hlevels : ∀ level ∈ levels, ∀ stack ∈ hierarchyStacks, level < stack.length)
    (hresulting : ∀ S, resulting = some S → ∀ stack ∈ hierarchyStacks, S ∈ stack)
    (h : pickCommonTypeOfLevels hierarchyStacks resulting levels = some T) :
    ∀ stack ∈ hierarchyStacks, T ∈ stack := by
  induction levels generalizing resulting with
  | nil => exact hresulting T h
  | cons level levels ih =>
      rw [List.forall_mem_cons] at hlevels
      rw [pickCommonTypeOfLevels] at h
      split at h
      · exact hresulting T h
      · rename_i hequal
        refine ih hlevels.2 ?_ h
        intro S hS
        exact mem_of_areAllTypesEqual hlevels.1 (by simpa using hequal) hS

theorem pickCommonAtomicValueType_mem {hierarchyStacks : List (List ValueType)} {T : ValueType}
    (h : pickCommonAtomicValueType hierarchyStacks = some T) :
    ∀ stack ∈ hierarchyStacks, T ∈ stack := by
  refine pickCommonTypeOfLevels_mem ?_ (by simp) h
  intro level hlevel stack hstack
  have hlength : stack.length ∈ hierarchyStacks.map List.length := List.mem_map_of_mem hstack
  have hmin : ((hierarchyStacks.map List.length).min?).getD 0 ≤ stack.length := by
    cases hmin : (hierarchyStacks.map List.length).min? with
    | none => exact Nat.zero_le _
    | some m => exact (List.min?_eq_some_iff.mp hmin).2 _ hlength
  rw [List.mem_range'_1] at hlevel
  omega

/-! ## Collections -/

/-- A type that has the values of all element types is a type for the elements. -/
private theorem hasType_collection_of_forall {types : List ValueType} {T : ValueType}
    (h : ∀ U ∈ types, ∀ v, HasType ast U v → HasType ast T v) {values : List Value}
    (hvalues : List.Forall₂ (HasType ast) types values) :
    HasType ast (.collection T) (.collection values) := by
  refine hasType_collection.mpr ⟨values, rfl, ?_⟩
  induction hvalues with
  | nil => simp
  | cons hv _ ih =>
      rw [List.forall_mem_cons] at h ⊢
      exact ⟨h.1 _ hv, ih h.2⟩

/-- A type on every stack has the values of all element types. -/
private theorem forall_hasType_of_mem_stack {types : List ValueType}
    {hierarchyStacks : List (List ValueType)}
    (hspec : List.Forall₂ (fun T stack =>
      stack.getLast? = some T ∧ ∀ v, HasType ast T v → ∀ S ∈ stack, HasType ast S v)
      types hierarchyStacks) {T : ValueType}
    (hT : ∀ stack ∈ hierarchyStacks, stack ≠ [] →
      ∃ S ∈ stack, ∀ v, HasType ast S v → HasType ast T v) :
    ∀ U ∈ types, ∀ v, HasType ast U v → HasType ast T v := by
  induction hspec with
  | nil => simp
  | @cons U stack types hierarchyStacks hstack _ ih =>
      rw [List.forall_mem_cons] at hT ⊢
      refine ⟨fun v hv => ?_, ih hT.2⟩
      have hne : stack ≠ [] := by
        rintro rfl
        cases hstack.1
      obtain ⟨S, hS, hsound⟩ := hT.1 hne
      exact hsound v (hstack.2 v hv S hS)

/-- A collection of values of the element types has the inferred type. -/
theorem inferCollectionType_sound {node : Expression} {types : List ValueType} {T : ValueType}
    {d d' : List Diagnostic}
    (h : inferCollectionType ast node types d = some (.ok (some T), d'))
    {values : List Value} (hvalues : List.Forall₂ (HasType ast) types values) :
    HasType ast T (.collection values) := by
  obtain ⟨hierarchyStacks, _, hstacks, h⟩ := Exec.bind_eq_ok_iff.mp h
  simp only [Exec.ofExcept_apply, Option.some.injEq, Prod.mk.injEq] at hstacks
  have hspec := getValuetypeHierarchyStacks_spec hstacks.1
  match hierarchyStacks, hspec, h with
  | [], .nil, h =>
      cases hvalues
      cases h
      exact hasType_emptyCollection.mpr rfl
  | [stack], .cons hstack .nil, h =>
      simp only [hstack.1] at h
      cases h
      exact hasType_collection_of_forall (by simp) hvalues
  | first :: second :: hierarchyStacks, hspec, h =>
      obtain ⟨primitive, _, hprimitive, h⟩ := Exec.bind_eq_ok_iff.mp h
      simp only [Exec.ofExcept_apply, Option.some.injEq, Prod.mk.injEq] at hprimitive
      cases primitive with
      | none =>
          obtain ⟨_, _, _, h⟩ := Exec.bind_eq_ok_iff.mp h
          cases h
      | some commonPrimitive =>
          cases hatomic : pickCommonAtomicValueType (first :: second :: hierarchyStacks) with
          | none =>
              simp only [hatomic] at h
              cases h
              refine hasType_collection_of_forall (forall_hasType_of_mem_stack hspec ?_) hvalues
              intro stack hstack hne
              refine ⟨stack.head hne, List.head_mem hne, fun v hv => ?_⟩
              exact pickCommonPrimitiveValuetype_sound hprimitive.1
                (List.mem_filterMap.mpr ⟨stack, hstack, List.head?_eq_some_head hne⟩) hv
          | some commonAtomic =>
              simp only [hatomic] at h
              cases h
              refine hasType_collection_of_forall (forall_hasType_of_mem_stack hspec ?_) hvalues
              intro stack hstack _
              exact ⟨commonAtomic, pickCommonAtomicValueType_mem hatomic stack hstack,
                fun v hv => hv⟩

end Jayvee
