import Jayvee.Verification.Typing.Convertibility

/-! # The hierarchy of value types

A value type with a cycle above it counts as one without a supertype. So every chain of
supertypes ends, and questions that are passed on to supertypes are answered. -/

namespace Jayvee

open Foundation

namespace ValueType

variable {ast : Ast}

/-! ## Walking along the supertypes -/

theorem hasSupertypeCycle_eq_false_iff {fuel : Nat} {visited : List ValueType} {T : ValueType} :
    hasSupertypeCycle ast (fuel + 1) visited T = .ok false ↔
      T ∉ visited ∧ ∃ supertype, T.doGetSupertype ast = .ok supertype ∧
        ∀ S, supertype = some S → hasSupertypeCycle ast fuel (visited ++ [T]) S = .ok false := by
  have hvisited : (visited.any fun v => v.equals T) = true ↔ T ∈ visited := by simp
  rw [hasSupertypeCycle]
  by_cases hT : T ∈ visited
  · simp [hvisited.mpr hT, hT, pure, Except.pure]
  · simp only [mt hvisited.mp hT, hT, not_false_eq_true, true_and, if_false, Bool.false_eq_true]
    rw [except_bind_eq_ok_iff]
    apply exists_congr
    intro supertype
    cases supertype with
    | none => simp [pure, Except.pure]
    | some S => simp

/-- A walk that comes back to nothing does so too if less is visited, or with more fuel. -/
theorem hasSupertypeCycle_mono {fuel fuel' : Nat} {visited visited' : List ValueType}
    {T : ValueType} (hle : fuel ≤ fuel') (hsub : ∀ U ∈ visited', U ∈ visited)
    (h : hasSupertypeCycle ast fuel visited T = .ok false) :
    hasSupertypeCycle ast fuel' visited' T = .ok false := by
  induction fuel generalizing fuel' visited visited' T with
  | zero => cases h
  | succ fuel ih =>
      obtain ⟨fuel', rfl⟩ : ∃ k, fuel' = k + 1 := ⟨fuel' - 1, by omega⟩
      rw [hasSupertypeCycle_eq_false_iff] at h ⊢
      obtain ⟨hT, supertype, hsupertype, hrest⟩ := h
      refine ⟨fun hmem => hT (hsub T hmem), supertype, hsupertype, ?_⟩
      intro S hS
      apply ih (by omega) _ (hrest S hS)
      intro U hU
      simp only [List.mem_append, List.mem_singleton] at hU ⊢
      exact hU.imp_left (hsub U)

theorem getSupertype_eq_some_iff {T S : ValueType} :
    T.getSupertype ast = .ok (some S) ↔
      hasSupertypeCycle ast (hierarchyDepth ast) [] T = .ok false ∧
        T.doGetSupertype ast = .ok (some S) := by
  rw [getSupertype, except_bind_eq_ok_iff]
  constructor
  · rintro ⟨hasCycle, hcycle, h⟩
    cases hasCycle with
    | true => cases h
    | false => exact ⟨hcycle, h⟩
  · rintro ⟨hcycle, h⟩
    exact ⟨false, hcycle, h⟩

/-- The walk from a supertype is the rest of the walk from the type below. -/
theorem hasSupertypeCycle_of_getSupertype {fuel : Nat} {T S : ValueType}
    (hS : T.getSupertype ast = .ok (some S))
    (h : hasSupertypeCycle ast (fuel + 1) [] T = .ok false) :
    hasSupertypeCycle ast fuel [] S = .ok false := by
  obtain ⟨_, supertype, hsupertype, hrest⟩ := hasSupertypeCycle_eq_false_iff.mp h
  have hdo := (getSupertype_eq_some_iff.mp hS).2
  have hsome : supertype = some S := Except.ok.inj (hsupertype.symm.trans hdo)
  exact hasSupertypeCycle_mono (Nat.le_refl fuel) (by simp) (hrest S hsome)

variable (ast) in
/-- Along the hierarchy, every chain of supertypes ends. -/
theorem supertype_induction {motive : ValueType → Prop}
    (step : ∀ T, (∀ S, T.getSupertype ast = .ok (some S) → motive S) → motive T)
    (T : ValueType) : motive T := by
  have hends : ∀ fuel U, hasSupertypeCycle ast fuel [] U = .ok false → motive U := by
    intro fuel
    induction fuel with
    | zero =>
        intro U h
        cases h
    | succ fuel ih =>
        intro U h
        apply step
        intro S hS
        exact ih S (hasSupertypeCycle_of_getSupertype hS h)
  apply step
  intro S hS
  have hcycle := (getSupertype_eq_some_iff.mp hS).1
  exact hends _ S (hasSupertypeCycle_of_getSupertype hS hcycle)

/-! ## Questions to supertypes -/

section AskSupertypes

variable {α : Type} {own : ValueType → Option α} {noSupertype : Except JsError α}

/-- Fuel that lets the walk end lets every question be answered. -/
theorem askSupertypes_fuel {fuel fuel' : Nat} {T : ValueType} (hle : fuel ≤ fuel')
    (h : hasSupertypeCycle ast fuel [] T = .ok false) :
    askSupertypes ast own noSupertype fuel' T = askSupertypes ast own noSupertype fuel T := by
  induction fuel generalizing fuel' T with
  | zero => cases h
  | succ fuel ih =>
      obtain ⟨fuel', rfl⟩ : ∃ k, fuel' = k + 1 := ⟨fuel' - 1, by omega⟩
      rw [askSupertypes, askSupertypes]
      cases own T with
      | some a => rfl
      | none =>
          cases hsupertype : T.getSupertype ast with
          | error error => rfl
          | ok supertype =>
              cases supertype with
              | none => rfl
              | some S => exact ih (by omega) (hasSupertypeCycle_of_getSupertype hsupertype h)

/-- What a question to a type without an answer of its own is worth: the answer of the
supertype, however far above it is found. -/
theorem askSupertypes_supertype {T S : ValueType} (hown : own T = none)
    (hS : T.getSupertype ast = .ok (some S)) :
    askSupertypes ast own noSupertype (hierarchyDepth ast) T =
      askSupertypes ast own noSupertype (hierarchyDepth ast) S := by
  have hcycle := (getSupertype_eq_some_iff.mp hS).1
  have hrest := hasSupertypeCycle_of_getSupertype hS hcycle
  rw [hierarchyDepth, askSupertypes_of_supertype hown hS]
  exact (askSupertypes_fuel (Nat.le_succ _) hrest).symm

end AskSupertypes

/-! ## The order of roots -/

section Roots

variable {root other target : ValueType}

/-- No root is convertible to an atomic value type. -/
theorem getPrimitiveOwn_of_own (hroot : root.getPrimitiveOwn = some (some root))
    (h : isConvertibleToOwn target root = some true) :
    target.getPrimitiveOwn = some (some target) := by
  cases target with
  | atomic astNode =>
      cases root with
      | primitive kind => cases kind <;> cases h
      | emptyCollection => cases h
      | collection elementType => cases h
      | atomic astNode => cases hroot
  | _ => rfl

theorem own_self (hroot : root.getPrimitiveOwn = some (some root)) :
    isConvertibleToOwn root root = some true := by
  cases root with
  | primitive kind => cases kind <;> rfl
  | emptyCollection => rfl
  | collection elementType => simp [isConvertibleToOwn]
  | atomic astNode => cases hroot

theorem own_primitive_iff {kind : PrimitiveValueType} :
    isConvertibleToOwn target (primitive kind) = some true ↔
      target = primitive kind ∨ (kind = .integer ∧ target = Decimal) := by
  cases kind <;> simp [isConvertibleToOwn]

theorem own_emptyCollection_iff :
    isConvertibleToOwn target emptyCollection = some true ↔
      target = emptyCollection ∨ ∃ elementType, target = collection elementType := by
  cases target <;> simp [isConvertibleToOwn]

theorem own_collection_iff {elementType : ValueType} :
    isConvertibleToOwn target (collection elementType) = some true ↔
      target = collection elementType := by
  simp [isConvertibleToOwn]

theorem own_trans {last : ValueType} (hroot : root.getPrimitiveOwn = some (some root))
    (h : isConvertibleToOwn target root = some true)
    (h' : isConvertibleToOwn last target = some true) :
    isConvertibleToOwn last root = some true := by
  by_cases hself : target = root
  · exact hself ▸ h'
  -- integer and then decimal, or the empty collection and then one of a type
  cases root with
  | primitive kind =>
      obtain ⟨rfl, rfl⟩ := (own_primitive_iff.mp h).resolve_left hself
      have hlast : last = Decimal := by simpa [isConvertibleToOwn] using h'
      exact own_primitive_iff.mpr (.inr ⟨rfl, hlast⟩)
  | emptyCollection =>
      obtain ⟨elementType, rfl⟩ := (own_emptyCollection_iff.mp h).resolve_left hself
      exact own_emptyCollection_iff.mpr (.inr ⟨elementType, own_collection_iff.mp h'⟩)
  | collection elementType => exact (hself (own_collection_iff.mp h)).elim
  | atomic astNode => cases hroot

theorem own_antisymm (hroot : root.getPrimitiveOwn = some (some root))
    (h : isConvertibleToOwn other root = some true)
    (h' : isConvertibleToOwn root other = some true) : root = other := by
  by_cases hself : other = root
  · exact hself.symm
  cases root with
  | primitive kind =>
      obtain ⟨rfl, rfl⟩ := (own_primitive_iff.mp h).resolve_left hself
      cases h'
  | emptyCollection =>
      obtain ⟨elementType, rfl⟩ := (own_emptyCollection_iff.mp h).resolve_left hself
      cases h'
  | collection elementType => exact (hself (own_collection_iff.mp h)).elim
  | atomic astNode => cases hroot

/-- Roots that are convertible to the same type are convertible to each other, in one direction. -/
theorem own_comparable (hroot : root.getPrimitiveOwn = some (some root))
    (hother : other.getPrimitiveOwn = some (some other))
    (h : isConvertibleToOwn target root = some true)
    (h' : isConvertibleToOwn target other = some true) :
    isConvertibleToOwn other root = some true ∨ isConvertibleToOwn root other = some true := by
  by_cases hself : target = root
  · exact .inr (hself ▸ h')
  by_cases hother' : target = other
  · exact .inl (hother' ▸ h)
  -- both are integer, or both are the empty collection
  have hsame : root = other := by
    cases root with
    | primitive kind =>
        obtain ⟨rfl, rfl⟩ := (own_primitive_iff.mp h).resolve_left hself
        cases other with
        | primitive kind' =>
            obtain ⟨rfl, _⟩ := (own_primitive_iff.mp h').resolve_left hother'
            rfl
        | emptyCollection => cases h'
        | collection elementType => exact (hother' (own_collection_iff.mp h')).elim
        | atomic astNode => cases hother
    | emptyCollection =>
        obtain ⟨elementType, rfl⟩ := (own_emptyCollection_iff.mp h).resolve_left hself
        cases other with
        | primitive kind' => simp [own_primitive_iff] at h'
        | emptyCollection => rfl
        | collection elementType' => exact (hother' (own_collection_iff.mp h')).elim
        | atomic astNode => cases hother
    | collection elementType => exact (hself (own_collection_iff.mp h)).elim
    | atomic astNode => cases hroot
  exact .inl (hsame ▸ own_self hroot)

end Roots

/-! ## Convertibility -/

theorem isConvertibleTo_self (T : ValueType) : T.isConvertibleTo ast T = .ok true := by
  apply askSupertypes_of_own
  cases T with
  | primitive kind => cases kind <;> rfl
  | emptyCollection => rfl
  | collection elementType => simp [isConvertibleToOwn]
  | atomic astNode => simp [isConvertibleToOwn]

/-- A type that is no atomic one decides by itself what it is convertible to. -/
theorem isConvertibleTo_eq_own (ast : Ast) {T : ValueType} (target : ValueType)
    (hT : T.getPrimitiveOwn = some (some T)) :
    ∃ answer, isConvertibleToOwn target T = some answer ∧
      T.isConvertibleTo ast target = .ok answer := by
  have hown : ∃ answer, isConvertibleToOwn target T = some answer := by
    cases T with
    | primitive kind => cases kind <;> exact ⟨_, rfl⟩
    | emptyCollection => exact ⟨_, rfl⟩
    | collection elementType => exact ⟨_, rfl⟩
    | atomic astNode => cases hT
  obtain ⟨answer, hanswer⟩ := hown
  exact ⟨answer, hanswer, askSupertypes_of_own hanswer⟩

theorem isConvertibleTo_iff_own {T target : ValueType} (hT : T.getPrimitiveOwn = some (some T)) :
    T.isConvertibleTo ast target = .ok true ↔ isConvertibleToOwn target T = some true := by
  obtain ⟨answer, hanswer, hconvertible⟩ := isConvertibleTo_eq_own ast target hT
  simp [hconvertible, hanswer]

theorem isConvertibleTo_atomic_iff {astNode : ValuetypeId} {target : ValueType} :
    (atomic astNode).isConvertibleTo ast target = .ok true ↔
      target = atomic astNode ∨ ∃ S, (atomic astNode).getSupertype ast = .ok (some S) ∧
        S.isConvertibleTo ast target = .ok true := by
  by_cases htarget : target = atomic astNode
  · simp [htarget, isConvertibleTo_self]
  · have hown : isConvertibleToOwn target (atomic astNode) = none := by
      simp [isConvertibleToOwn, htarget]
    constructor
    · intro h
      obtain ⟨_, hfuel, hself | ⟨_, S, hS, _⟩⟩ := askSupertypes_eq_ok h (by simp)
      · rw [hown] at hself
        cases hself
      · refine .inr ⟨S, hS, ?_⟩
        rw [isConvertibleTo, ← askSupertypes_supertype hown hS]
        exact h
    · rintro (hself | ⟨S, hS, h⟩)
      · exact (htarget hself).elim
      · rw [isConvertibleTo, askSupertypes_supertype hown hS]
        exact h

/-- Induction along the supertypes of the first type. -/
theorem isConvertibleTo_trans {T target last : ValueType}
    (h : T.isConvertibleTo ast target = .ok true)
    (hlast : target.isConvertibleTo ast last = .ok true) :
    T.isConvertibleTo ast last = .ok true := by
  induction T using supertype_induction ast with
  | step T ih =>
      cases T with
      | atomic astNode =>
          rw [isConvertibleTo_atomic_iff] at h
          cases h with
          | inl hself => rwa [hself] at hlast
          | inr hsupertype =>
              obtain ⟨S, hS, h⟩ := hsupertype
              exact isConvertibleTo_atomic_iff.mpr (.inr ⟨S, hS, ih S hS h⟩)
      | _ =>
          rw [isConvertibleTo_iff_own rfl] at h ⊢
          have htarget := getPrimitiveOwn_of_own rfl h
          exact own_trans rfl h ((isConvertibleTo_iff_own htarget).mp hlast)

/-- Convertibility is a preorder, and every value of a type is one of the types that it is
convertible to. -/
theorem isConvertibleTo_preorder_sound (ast : Ast) :
    (∀ T : ValueType, T.isConvertibleTo ast T = .ok true) ∧
    (∀ T target last : ValueType, T.isConvertibleTo ast target = .ok true →
      target.isConvertibleTo ast last = .ok true → T.isConvertibleTo ast last = .ok true) ∧
    ∀ (T target : ValueType) (v : Value), T.isConvertibleTo ast target = .ok true →
      T.isInternalValueRepresentation ast v = .ok true →
      target.isInternalValueRepresentation ast v = .ok true := by
  refine ⟨isConvertibleTo_self, ?_, ?_⟩
  · exact fun T target last => isConvertibleTo_trans
  · exact fun T target v h hv => HasType.convert hv h

/-- `valuetype Points oftype integer; valuetype Grade oftype Points;` -/
def gradeAst : Ast where
  valuetypes := [⟨"integer", true, none, none, none⟩,
    ⟨"Points", false, some ⟨some 0, []⟩, none, none⟩,
    ⟨"Grade", false, some ⟨some 1, []⟩, none, none⟩]
  constraints := []
  transforms := []
  blocks := []
  blockTypes := []

theorem isConvertibleTo_preorder_sound_grade :
    (atomic 2).isConvertibleTo gradeAst Decimal = .ok true ∧
      Decimal.isInternalValueRepresentation gradeAst (.number 3) = .ok true := by
  obtain ⟨_, htrans, hsound⟩ := isConvertibleTo_preorder_sound gradeAst
  have hdecimal := htrans (atomic 2) (atomic 1) Decimal rfl rfl
  exact ⟨hdecimal, hsound (atomic 2) Decimal (.number 3) hdecimal rfl⟩

end ValueType

end Jayvee
