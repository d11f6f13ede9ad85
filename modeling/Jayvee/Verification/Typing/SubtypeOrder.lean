import Jayvee.Verification.Execution.Validity
import Jayvee.Verification.Typing.SupertypeCycles

/-! # The order of subtypes

`isSubtypeOf` walks upwards from its argument instead of from the object that is asked, and
compares objects instead of value types. So it finds primitive value types only, below the
value types that they are above. -/

namespace Jayvee

open Foundation Relation

namespace ValueType

variable {ast : Ast}

/-! ## The loop -/

theorem isSameObject_iff {T U : ValueType} :
    T.isSameObject U = true ↔ ∃ kind, U = primitive kind ∧ T = U := by
  cases T <;> cases U <;> simp [isSameObject]

/-- A question that only has the answer `true` is answered if a value type above answers it. -/
theorem askSupertypes_eq_true_iff {own : ValueType → Option Bool} {T : ValueType}
    (hown : ∀ U, own U ≠ some false) :
    askSupertypes ast own (.ok false) (hierarchyDepth ast) T = .ok true ↔
      ∃ U, Above ast T U ∧ own U = some true := by
  induction T using supertype_induction ast with
  | step T ih =>
      cases hT : own T with
      | some answer =>
          obtain rfl : answer = true := by
            cases answer with
            | true => rfl
            | false => exact (hown T hT).elim
          rw [hierarchyDepth, askSupertypes_of_own hT]
          exact iff_of_true rfl ⟨T, .refl, hT⟩
      | none =>
          by_cases hstuck : ∃ S, Supertype ast T S
          · obtain ⟨S, hS⟩ := hstuck
            rw [askSupertypes_supertype hT hS, ih S hS]
            simp [above_iff_of_supertype hS, or_and_right, exists_or, hT]
          · apply iff_of_false
            · intro h
              obtain ⟨_, _, hself | ⟨_, S, hS, _⟩⟩ := askSupertypes_eq_ok h (by simp)
              · rw [hT] at hself
                cases hself
              · exact hstuck ⟨S, hS⟩
            · rintro ⟨U, habove, hU⟩
              rw [(reflTransGen_iff_of_stuck (not_exists.mp hstuck)).mp habove, hT] at hU
              cases hU

/-- What the code computes: the value type that is asked is a primitive one above the other. -/
theorem isSubtypeOf_eq_true_iff {T U : ValueType} :
    T.isSubtypeOf ast U = .ok true ↔
      (∃ kind, T = primitive kind) ∧ TransGen (Supertype ast) U T := by
  have hsame : ∀ S, (if S.isSameObject T then some true else none) = some true ↔
      ∃ kind, T = primitive kind ∧ S = T := by
    intro S
    simp [isSameObject_iff]
  rw [isSubtypeOf, except_bind_eq_ok_iff]
  constructor
  · rintro ⟨supertype, hsupertype, h⟩
    cases supertype with
    | none => cases h
    | some S =>
        rw [askSupertypes_eq_true_iff (by simp)] at h
        obtain ⟨V, habove, hV⟩ := h
        obtain ⟨kind, hkind, rfl⟩ := (hsame V).mp hV
        exact ⟨⟨kind, hkind⟩, TransGen.head' hsupertype habove⟩
  · rintro ⟨⟨kind, hkind⟩, h⟩
    obtain ⟨S, hS, habove⟩ := TransGen.head'_iff.mp h
    refine ⟨some S, hS, ?_⟩
    exact (askSupertypes_eq_true_iff (by simp)).mpr ⟨T, habove, (hsame T).mpr ⟨kind, hkind, rfl⟩⟩

/-! ## The order of the hierarchy -/

/-- `isSubtypeOf` says of `T` and `U` what the hierarchy says: it is the strict order of the
value types, in which no primitive one is below another, and goes along with conversions. -/
structure IsSubtypeOrder (ast : Ast) (T U : ValueType) : Prop where
  reached : T.isSubtypeOf ast U = .ok true ↔ TransGen (Supertype ast) T U
  irreflexive : T.isSubtypeOf ast T ≠ .ok true
  transitive : ∀ V, T.isSubtypeOf ast U = .ok true → U.isSubtypeOf ast V = .ok true →
    T.isSubtypeOf ast V = .ok true
  notPrimitive : (∃ kind, T = primitive kind) → T.isSubtypeOf ast U ≠ .ok true
  convertible : T.isSubtypeOf ast U = .ok true → T.isConvertibleTo ast U = .ok true

/-- The answers are right exactly where they are negative and have to be: the other value type
is not above the one that is asked, and this is no primitive one above the other. -/
theorem isSubtypeOf_right_iff (ast : Ast) (T U : ValueType) :
    IsSubtypeOrder ast T U ↔
      ¬ TransGen (Supertype ast) T U ∧
        ¬ ((∃ kind, T = primitive kind) ∧ TransGen (Supertype ast) U T) := by
  have hnoSupertype : ∀ V, (∃ kind, V = primitive kind) → ∀ W, ¬ TransGen (Supertype ast) V W := by
    rintro V ⟨kind, rfl⟩ W
    exact not_transGen_of_stuck fun S => not_supertype (by simp)
  constructor
  · intro h
    refine ⟨fun habove => ?_, fun hbelow => ?_⟩
    · have hprimitive := (isSubtypeOf_eq_true_iff.mp (h.reached.mpr habove)).1
      exact hnoSupertype T hprimitive U habove
    · exact h.notPrimitive hbelow.1 (isSubtypeOf_eq_true_iff.mpr hbelow)
  · rintro ⟨hnotAbove, hnotBelow⟩
    have hno : T.isSubtypeOf ast U ≠ .ok true := mt isSubtypeOf_eq_true_iff.mp hnotBelow
    refine ⟨iff_of_false hno hnotAbove, ?_, fun _ h => (hno h).elim, fun _ => hno,
      fun h => (hno h).elim⟩
    intro h
    obtain ⟨hprimitive, hself⟩ := isSubtypeOf_eq_true_iff.mp h
    exact hnoSupertype T hprimitive T hself

/-- `Points` is below `integer`, and the answers are the wrong way round. -/
theorem isSubtypeOf_grade :
    (∀ T, hasSupertypeCycle gradeAst (hierarchyDepth gradeAst) [] T = .ok false) ∧
      Supertype gradeAst (atomic 1) Integer ∧
      (atomic 1).isSubtypeOf gradeAst Integer = .ok false ∧
      Integer.isSubtypeOf gradeAst (atomic 1) = .ok true ∧
      ¬ IsSubtypeOrder gradeAst (atomic 1) Integer := by
  refine ⟨?_, rfl, rfl, rfl, ?_⟩
  · intro T
    cases T with
    | atomic astNode =>
        rcases astNode with _ | _ | _ | astNode
        · rfl
        · rfl
        · rfl
        · exact hasSupertypeCycle_of_stuck (by simp) (by rintro S ⟨⟩)
    | _ => rfl
  · intro h
    cases h.reached.mpr (.single rfl)

end ValueType

end Jayvee
