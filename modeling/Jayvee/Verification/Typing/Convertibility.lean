import Jayvee.Foundation.Exec
import Jayvee.Model.InternalValue

/-! # Convertibility of value types -/

namespace Jayvee

open Foundation

namespace ValueType

variable {ast : Ast}

@[simp] theorem equals_iff (T U : ValueType) : T.equals U = true ↔ T = U := by
  induction T generalizing U with
  | primitive kind => cases U <;> simp [equals]
  | emptyCollection => cases U <;> simp [equals]
  | collection elementType ih => cases U <;> simp [equals, ih]
  | atomic astNode => cases U <;> simp [equals]

/-! ## Delegation to supertypes -/

section AskSupertypes

variable {α : Type} {own : ValueType → Option α} {noSupertype : Except JsError α}

theorem askSupertypes_of_own {fuel : Nat} {T : ValueType} {a : α} (h : own T = some a) :
    askSupertypes ast own noSupertype (fuel + 1) T = .ok a := by
  rw [askSupertypes, h]

/-- A value type without an answer of its own passes on the answer of its supertype. -/
theorem askSupertypes_of_supertype {fuel : Nat} {T S : ValueType} (h : own T = none)
    (hS : T.getSupertype ast = .ok (some S)) :
    askSupertypes ast own noSupertype (fuel + 1) T =
      askSupertypes ast own noSupertype fuel S := by
  rw [askSupertypes, h]
  simp only [hS]
  rfl

/-- An answer other than that for a missing supertype is an own one, or the supertype's. -/
theorem askSupertypes_eq_ok {fuel : Nat} {T : ValueType} {a : α}
    (h : askSupertypes ast own noSupertype fuel T = .ok a) (hne : noSupertype ≠ .ok a) :
    ∃ fuel', fuel = fuel' + 1 ∧
      (own T = some a ∨ (own T = none ∧ ∃ S, T.getSupertype ast = .ok (some S) ∧
        askSupertypes ast own noSupertype fuel' S = .ok a)) := by
  cases fuel with
  | zero => cases h
  | succ fuel =>
      refine ⟨fuel, rfl, ?_⟩
      rw [askSupertypes] at h
      cases hown : own T with
      | some b =>
          simp only [hown, Except.ok.injEq] at h
          exact .inl (congrArg some h)
      | none =>
          simp only [hown] at h
          obtain ⟨supertype, hsupertype, h⟩ := except_bind_eq_ok_iff.mp h
          cases supertype with
          | none => exact (hne h).elim
          | some S => exact .inr ⟨rfl, S, hsupertype, h⟩

/-- An answer is unchanged by more fuel. -/
theorem askSupertypes_mono {fuel fuel' : Nat} {T : ValueType} {a : α} (hle : fuel ≤ fuel')
    (hne : noSupertype ≠ .ok a) (h : askSupertypes ast own noSupertype fuel T = .ok a) :
    askSupertypes ast own noSupertype fuel' T = .ok a := by
  induction fuel generalizing fuel' T with
  | zero => cases h
  | succ fuel ih =>
      obtain ⟨fuel', rfl⟩ : ∃ k, fuel' = k + 1 := ⟨fuel' - 1, by omega⟩
      obtain ⟨_, hfuel, hown | ⟨hown, S, hS, hask⟩⟩ := askSupertypes_eq_ok h hne
      · exact askSupertypes_of_own hown
      · cases hfuel
        rw [askSupertypes_of_supertype hown hS]
        exact ih (by omega) hask

end AskSupertypes

/-! ## The root of the hierarchy -/

/-- `root` is the value type without a supertype that is above `T`. -/
def HasRoot (ast : Ast) (fuel : Nat) (T root : ValueType) : Prop :=
  askSupertypes ast getPrimitiveOwn (.ok none) fuel T = .ok (some root)

theorem HasRoot.mono {fuel fuel' : Nat} {T root : ValueType} (hle : fuel ≤ fuel')
    (h : HasRoot ast fuel T root) : HasRoot ast fuel' T root :=
  askSupertypes_mono hle (by simp) h

theorem HasRoot.self {fuel : Nat} {T : ValueType} (hT : T.getPrimitiveOwn = some (some T)) :
    HasRoot ast (fuel + 1) T T :=
  askSupertypes_of_own hT

theorem HasRoot.eq_self {fuel : Nat} {T root : ValueType} (h : HasRoot ast fuel T root)
    (hT : T.getPrimitiveOwn = some (some T)) : root = T := by
  cases fuel with
  | zero => cases h
  | succ fuel =>
      have hself : HasRoot ast (fuel + 1) T T := HasRoot.self hT
      simpa using Except.ok.inj (h.symm.trans hself)

/-- A root is its own root. -/
theorem HasRoot.own {fuel : Nat} {T root : ValueType} (h : HasRoot ast fuel T root) :
    root.getPrimitiveOwn = some (some root) := by
  induction fuel generalizing T with
  | zero => cases h
  | succ fuel ih =>
      obtain ⟨_, hfuel, hown | ⟨_, S, _, hask⟩⟩ := askSupertypes_eq_ok h (by simp)
      · cases T with
        | atomic astNode => cases hown
        | primitive kind => cases hown; rfl
        | emptyCollection => cases hown; rfl
        | collection elementType => cases hown; rfl
      · cases hfuel
        exact ih hask

/-- A question that atomic value types leave to their supertypes is answered by the root. -/
theorem askSupertypes_of_root {α : Type} {own : ValueType → Option α}
    {noSupertype : Except JsError α} {fuel : Nat} {T root : ValueType} {a : α}
    (hown : ∀ astNode, own (atomic astNode) = none) (hroot : HasRoot ast fuel T root)
    (h : own root = some a) : askSupertypes ast own noSupertype fuel T = .ok a := by
  induction fuel generalizing T with
  | zero => cases hroot
  | succ fuel ih =>
      cases T with
      | atomic astNode =>
          obtain ⟨_, hfuel, hself | ⟨_, S, hS, hask⟩⟩ := askSupertypes_eq_ok hroot (by simp)
          · cases hself
          · cases hfuel
            rw [askSupertypes_of_supertype (hown astNode) hS]
            exact ih hask
      | _ =>
          obtain rfl := hroot.eq_self rfl
          exact askSupertypes_of_own h

/-! ## Values of a type -/

/-- `v` is an internal representation of `T`. -/
def HasType (ast : Ast) (T : ValueType) (v : Value) : Prop :=
  T.isInternalValueRepresentation ast v = .ok true

/-- The representation check of a value type depends on its root only. -/
theorem isInternalValueRepresentation_congr {T U : ValueType}
    (h : T.getPrimitive ast = U.getPrimitive ast) (v : Value) :
    T.isInternalValueRepresentation ast v = U.isInternalValueRepresentation ast v := by
  cases v <;> simp [isInternalValueRepresentation, h]

theorem HasType.root {T : ValueType} {v : Value} (h : HasType ast T v) :
    ∃ root, HasRoot ast (hierarchyDepth ast) T root ∧ HasType ast root v := by
  have hroot : ∃ root, T.getPrimitive ast = .ok (some root) := by
    cases hT : T.getPrimitive ast with
    | error e => cases v <;> simp [HasType, isInternalValueRepresentation, hT] at h <;> cases h
    | ok primitive =>
        cases primitive with
        | none => cases v <;> simp [HasType, isInternalValueRepresentation, hT] at h <;> cases h
        | some root => exact ⟨root, rfl⟩
  obtain ⟨root, hroot⟩ := hroot
  have hself : root.getPrimitive ast = .ok (some root) :=
    HasRoot.self (HasRoot.own hroot)
  refine ⟨root, hroot, ?_⟩
  rw [HasType, ← isInternalValueRepresentation_congr (hroot.trans hself.symm)]
  exact h

theorem HasType.of_root {T root : ValueType} {v : Value}
    (hroot : HasRoot ast (hierarchyDepth ast) T root) (h : HasType ast root v) :
    HasType ast T v := by
  have hself : root.getPrimitive ast = .ok (some root) := HasRoot.self hroot.own
  rw [HasType, isInternalValueRepresentation_congr (hroot.trans hself.symm)]
  exact h

theorem hasType_primitive {kind : PrimitiveValueType} {v : Value} :
    HasType ast (primitive kind) v ↔ kind.isInternalValueRepresentation v = true := by
  have hself : (primitive kind).getPrimitive ast = .ok (some (primitive kind)) := rfl
  cases v with
  | collection values =>
      have hnot : kind.isInternalValueRepresentation (.collection values) = false := by
        cases kind <;> rfl
      simp [HasType, isInternalValueRepresentation, hself, hnot, pure, Except.pure, bind,
        Except.bind]
  | _ =>
      simp [HasType, isInternalValueRepresentation, hself, pure, Except.pure, bind, Except.bind]

theorem hasType_emptyCollection {v : Value} :
    HasType ast emptyCollection v ↔ v = .collection [] := by
  have hself : emptyCollection.getPrimitive ast = .ok (some emptyCollection) := rfl
  cases v with
  | collection values =>
      simp [HasType, isInternalValueRepresentation, hself, pure, Except.pure, bind, Except.bind]
  | _ =>
      simp [HasType, isInternalValueRepresentation, hself, pure, Except.pure, bind, Except.bind]

private theorem everyIsInternalValueRepresentation_eq_ok {elementType : ValueType}
    {values : List Value} :
    everyIsInternalValueRepresentation ast elementType values = .ok true ↔
      ∀ value ∈ values, HasType ast elementType value := by
  induction values with
  | nil => simp [everyIsInternalValueRepresentation, pure, Except.pure]
  | cons value values ih =>
      rw [everyIsInternalValueRepresentation, except_bind_eq_ok_iff, List.forall_mem_cons, ← ih]
      constructor
      · rintro ⟨isValid, hvalue, hvalues⟩
        cases isValid with
        | true => exact ⟨hvalue, hvalues⟩
        | false => cases hvalues
      · rintro ⟨hvalue, hvalues⟩
        exact ⟨true, hvalue, hvalues⟩

theorem hasType_collection {elementType : ValueType} {v : Value} :
    HasType ast (collection elementType) v ↔
      ∃ values, v = .collection values ∧ ∀ value ∈ values, HasType ast elementType value := by
  have hself : (collection elementType).getPrimitive ast = .ok (some (collection elementType)) :=
    rfl
  cases v with
  | collection values =>
      rw [HasType, isInternalValueRepresentation, hself]
      simp only [bind, Except.bind, everyIsInternalValueRepresentation_eq_ok, Value.collection.injEq,
        exists_eq_left']
  | _ =>
      simp [HasType, isInternalValueRepresentation, hself, pure, Except.pure, bind, Except.bind]

/-! ## Convertibility is sound -/

private theorem hasType_of_isConvertibleToOwn {root target : ValueType} {v : Value}
    (hroot : root.getPrimitiveOwn = some (some root))
    (h : isConvertibleToOwn target root = some true) (hv : HasType ast root v) :
    HasType ast target v := by
  cases root with
  | atomic astNode => cases hroot
  | collection elementType =>
      simp only [isConvertibleToOwn, Option.some.injEq, equals_iff] at h
      exact h ▸ hv
  | emptyCollection =>
      obtain rfl := hasType_emptyCollection.mp hv
      simp only [isConvertibleToOwn, Option.some.injEq, Bool.or_eq_true, equals_iff] at h
      rcases h with rfl | h
      · exact hv
      · cases target with
        | collection elementType => exact hasType_collection.mpr ⟨[], rfl, by simp⟩
        | _ => cases h
  | primitive kind =>
      by_cases hkind : kind = .integer
      · subst hkind
        simp only [isConvertibleToOwn, Option.some.injEq, Bool.or_eq_true, equals_iff] at h
        rcases h with rfl | rfl
        · exact hv
        · rw [hasType_primitive] at hv ⊢
          cases v with
          | number value => exact JsNumber.isFinite_of_isInteger hv
          | _ => cases hv
      · have hown : target.equals (primitive kind) = true := by
          cases kind <;> simp_all [isConvertibleToOwn]
        rw [equals_iff] at hown
        exact hown ▸ hv

/-- Converting stops at a supertype, or at the root. -/
private theorem hasRoot_of_isConvertibleTo {fuel : Nat} {T target root : ValueType}
    (hroot : HasRoot ast fuel T root)
    (h : askSupertypes ast (isConvertibleToOwn target) (.ok false) fuel T = .ok true) :
    HasRoot ast fuel target root ∨ isConvertibleToOwn target root = some true := by
  induction fuel generalizing T with
  | zero => cases hroot
  | succ fuel ih =>
      obtain ⟨_, hfuel, hown | ⟨hown, S, hS, hask⟩⟩ := askSupertypes_eq_ok h (by simp)
      · by_cases htarget : target = T
        · exact .inl (htarget ▸ hroot)
        · cases T with
          | atomic astNode => simp [isConvertibleToOwn, htarget] at hown
          | _ =>
              obtain rfl := hroot.eq_self rfl
              exact .inr hown
      · cases hfuel
        have hT : getPrimitiveOwn T = none := by
          cases T with
          | atomic astNode => rfl
          | primitive kind => cases kind <;> simp [isConvertibleToOwn] at hown
          | _ => simp [isConvertibleToOwn] at hown
        rw [HasRoot, askSupertypes_of_supertype hT hS] at hroot
        rcases ih hroot hask with htarget | hconvertible
        · exact .inl (htarget.mono (Nat.le_succ fuel))
        · exact .inr hconvertible

/-- Every value of a type is a value of the types it is convertible to. -/
theorem HasType.convert {T target : ValueType} {v : Value} (hv : HasType ast T v)
    (h : T.isConvertibleTo ast target = .ok true) : HasType ast target v := by
  obtain ⟨root, hroot, hvalue⟩ := hv.root
  rcases hasRoot_of_isConvertibleTo hroot h with htarget | hconvertible
  · exact hvalue.of_root htarget
  · exact hasType_of_isConvertibleToOwn hroot.own hconvertible hvalue

end ValueType

end Jayvee
