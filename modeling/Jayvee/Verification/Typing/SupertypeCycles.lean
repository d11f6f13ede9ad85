import Jayvee.Foundation.Digraph
import Jayvee.Verification.Typing.Hierarchy
import Jayvee.Verification.Typing.WrappableReferences

/-! # Cycles of supertypes

Documents are validated while their value types still form cycles. Every walk along the
supertypes ends on them as well, and the search for a cycle finds exactly the cycles. -/

namespace Jayvee

open Foundation Relation

namespace ValueType

variable {ast : Ast}

/-- The definition of `T` names `S` as its supertype. -/
def Extends (ast : Ast) (T S : ValueType) : Prop :=
  T.doGetSupertype ast = .ok (some S)

theorem extends_rightUnique (ast : Ast) : Relator.RightUnique (Extends ast) := by
  intro T S S' hS hS'
  exact Option.some.inj (Except.ok.inj (hS.symm.trans hS'))

theorem Extends.exists_definition {T S : ValueType} (h : Extends ast T S) :
    ∃ astNode, T = atomic astNode ∧ astNode < ast.valuetypes.length := by
  cases T with
  | atomic astNode =>
      refine ⟨astNode, rfl, ?_⟩
      by_contra hout
      rw [Extends, doGetSupertype, List.getElem?_eq_none (Nat.le_of_not_lt hout)] at h
      cases h
  | _ => cases h

/-- Value types without repetition that have a supertype are at most as many as definitions. -/
theorem length_le_of_extends {visited : List ValueType} (hnodup : visited.Nodup)
    (hvisited : ∀ U ∈ visited, ∃ S, Extends ast U S) :
    visited.length ≤ ast.valuetypes.length := by
  have hsubset : visited ⊆ (List.range ast.valuetypes.length).map atomic := by
    intro U hU
    obtain ⟨S, hS⟩ := hvisited U hU
    obtain ⟨astNode, rfl, hlt⟩ := hS.exists_definition
    exact List.mem_map_of_mem (List.mem_range.mpr hlt)
  simpa using (List.subperm_of_subset hnodup hsubset).length_le

/-! ## One step of the search -/

section Step

variable {fuel : Nat} {visited : List ValueType} {T : ValueType}

theorem hasSupertypeCycle_of_mem (hT : T ∈ visited) :
    hasSupertypeCycle ast (fuel + 1) visited T = .ok true := by
  have hdetected : (visited.any fun v => v.equals T) = true := by simpa using hT
  simp [hasSupertypeCycle, hdetected, pure, Except.pure]

theorem hasSupertypeCycle_of_not_mem (hT : T ∉ visited) :
    hasSupertypeCycle ast (fuel + 1) visited T =
      (T.doGetSupertype ast).bind fun supertype =>
        supertype.elim (.ok false) (hasSupertypeCycle ast fuel (visited ++ [T])) := by
  have hdetected : (visited.any fun v => v.equals T) = false := by
    simp only [List.any_eq_false, equals_iff]
    exact fun v hv heq => hT (heq ▸ hv)
  rw [hasSupertypeCycle]
  simp only [hdetected, Bool.false_eq_true, if_false]
  cases T.doGetSupertype ast with
  | error e => rfl
  | ok supertype => cases supertype <;> rfl

theorem hasSupertypeCycle_of_extends {S : ValueType} (hT : T ∉ visited) (hS : Extends ast T S) :
    hasSupertypeCycle ast (fuel + 1) visited T =
      hasSupertypeCycle ast fuel (visited ++ [T]) S := by
  rw [hasSupertypeCycle_of_not_mem hT, hS]
  rfl

/-- Without a supertype to go on with, there is no cycle. -/
theorem hasSupertypeCycle_of_stuck (hT : T ∉ visited) (hstuck : ∀ S, ¬ Extends ast T S) :
    hasSupertypeCycle ast (fuel + 1) visited T =
      (T.doGetSupertype ast).map fun _ => false := by
  rw [hasSupertypeCycle_of_not_mem hT]
  cases hdo : T.doGetSupertype ast with
  | error e => rfl
  | ok supertype =>
      cases supertype with
      | none => rfl
      | some S => exact (hstuck S hdo).elim

end Step

/-! ## The search ends -/

/-- The search throws only where a reference to a supertype cannot be wrapped: before the stack
is exhausted, a value type is visited twice. -/
theorem hasSupertypeCycle_eq_error {fuel : Nat} {visited : List ValueType} {T : ValueType}
    {e : JsError} (hnodup : visited.Nodup) (hvisited : ∀ U ∈ visited, ∃ S, Extends ast U S)
    (hfuel : ast.valuetypes.length < fuel + visited.length)
    (h : hasSupertypeCycle ast fuel visited T = .error e) :
    ∃ U, ReflTransGen (Extends ast) T U ∧ U.doGetSupertype ast = .error e := by
  induction fuel generalizing visited T with
  | zero =>
      have hle := length_le_of_extends hnodup hvisited
      omega
  | succ fuel ih =>
      by_cases hT : T ∈ visited
      · rw [hasSupertypeCycle_of_mem hT] at h
        cases h
      · by_cases hstuck : ∃ S, Extends ast T S
        · obtain ⟨S, hS⟩ := hstuck
          rw [hasSupertypeCycle_of_extends hT hS] at h
          have hnodup' : (visited ++ [T]).Nodup := by
            rw [← List.concat_eq_append]
            exact hnodup.concat hT
          have hvisited' : ∀ U ∈ visited ++ [T], ∃ S, Extends ast U S := by
            intro U hU
            rcases List.mem_append.mp hU with hU | hU
            · exact hvisited U hU
            · obtain rfl := List.mem_singleton.mp hU
              exact ⟨S, hS⟩
          have hfuel' : ast.valuetypes.length < fuel + (visited ++ [T]).length := by
            rw [List.length_append, List.length_singleton]
            omega
          obtain ⟨U, hreach, hU⟩ := ih hnodup' hvisited' hfuel' h
          exact ⟨U, hreach.head hS, hU⟩
        · rw [hasSupertypeCycle_of_stuck hT (not_exists.mp hstuck)] at h
          refine ⟨T, .refl, ?_⟩
          cases hdo : T.doGetSupertype ast with
          | error e' =>
              rw [hdo] at h
              cases h
              rfl
          | ok supertype =>
              rw [hdo] at h
              cases h

theorem hasSupertypeCycle_nil_eq_error {T : ValueType} {e : JsError}
    (h : hasSupertypeCycle ast (hierarchyDepth ast) [] T = .error e) :
    ∃ U, ReflTransGen (Extends ast) T U ∧ U.doGetSupertype ast = .error e := by
  apply hasSupertypeCycle_eq_error List.nodup_nil (by simp) _ h
  rw [hierarchyDepth, List.length_nil]
  omega

/-- A search that ends does so in the same way with more stack. -/
theorem hasSupertypeCycle_fuel {fuel fuel' : Nat} {visited : List ValueType} {T : ValueType}
    (hle : fuel ≤ fuel') (h : hasSupertypeCycle ast fuel visited T ≠ .error .callStackExceeded) :
    hasSupertypeCycle ast fuel' visited T = hasSupertypeCycle ast fuel visited T := by
  induction fuel generalizing fuel' visited T with
  | zero => exact (h rfl).elim
  | succ fuel ih =>
      obtain ⟨fuel', rfl⟩ : ∃ k, fuel' = k + 1 := ⟨fuel' - 1, by omega⟩
      by_cases hT : T ∈ visited
      · rw [hasSupertypeCycle_of_mem hT, hasSupertypeCycle_of_mem hT]
      · by_cases hstuck : ∃ S, Extends ast T S
        · obtain ⟨S, hS⟩ := hstuck
          rw [hasSupertypeCycle_of_extends hT hS] at h
          rw [hasSupertypeCycle_of_extends hT hS, hasSupertypeCycle_of_extends hT hS]
          exact ih (by omega) h
        · rw [hasSupertypeCycle_of_stuck hT (not_exists.mp hstuck),
            hasSupertypeCycle_of_stuck hT (not_exists.mp hstuck)]

/-! ## The search is exact -/

/-- The search answers that there is a cycle if the walk comes back to a visited value type, or
to one that it passes itself. -/
theorem hasSupertypeCycle_eq_true_iff {fuel : Nat} {visited : List ValueType} {T : ValueType}
    (hends : hasSupertypeCycle ast fuel visited T ≠ .error .callStackExceeded) :
    hasSupertypeCycle ast fuel visited T = .ok true ↔
      (∃ U ∈ visited, ReflTransGen (Extends ast) T U) ∨ LeadsToCycle (Extends ast) T := by
  induction fuel generalizing visited T with
  | zero => exact (hends rfl).elim
  | succ fuel ih =>
      by_cases hT : T ∈ visited
      · rw [hasSupertypeCycle_of_mem hT]
        exact iff_of_true rfl (.inl ⟨T, hT, .refl⟩)
      · by_cases hstuck : ∃ S, Extends ast T S
        · obtain ⟨S, hS⟩ := hstuck
          have hfun := extends_rightUnique ast
          rw [hasSupertypeCycle_of_extends hT hS] at hends ⊢
          rw [ih hends, leadsToCycle_iff_of_step hfun hS]
          -- coming back to `T` is now coming back to a visited value type
          have hback : (∃ U ∈ visited, ReflTransGen (Extends ast) T U) ↔
              ∃ U ∈ visited, ReflTransGen (Extends ast) S U := by
            refine exists_congr fun U => and_congr_right fun hU => ?_
            have hne : U ≠ T := fun heq => hT (heq ▸ hU)
            simp [reflTransGen_iff_of_step hfun hS, hne]
          rw [hback]
          simp only [List.mem_append, List.mem_singleton, or_and_right, exists_or, exists_eq_left,
            or_assoc]
        · have hstuck := not_exists.mp hstuck
          rw [hasSupertypeCycle_of_stuck hT hstuck]
          apply iff_of_false
          · cases T.doGetSupertype ast <;> simp [Except.map]
          · rintro (hback | hcycle)
            · obtain ⟨U, hU, hreach⟩ := hback
              exact hT ((reflTransGen_iff_of_stuck hstuck).mp hreach ▸ hU)
            · exact not_leadsToCycle_of_stuck hstuck hcycle

/-- Without a cycle, the search has wrapped all references to supertypes. -/
theorem doGetSupertype_of_no_cycle {fuel : Nat} {visited : List ValueType} {T U : ValueType}
    (h : hasSupertypeCycle ast fuel visited T = .ok false)
    (hreach : ReflTransGen (Extends ast) T U) : ∃ S, U.doGetSupertype ast = .ok S := by
  induction fuel generalizing visited T with
  | zero => cases h
  | succ fuel ih =>
      obtain ⟨_, supertype, hsupertype, hrest⟩ := hasSupertypeCycle_eq_false_iff.mp h
      cases hreach.cases_head with
      | inl heq => exact ⟨supertype, heq ▸ hsupertype⟩
      | inr hstep =>
          obtain ⟨S, hS, hreach⟩ := hstep
          have hsome : supertype = some S := Except.ok.inj (hsupertype.symm.trans hS)
          exact ih (hrest S hsome) hreach

/-- The search gives an answer if and only if all references to supertypes on its way can be
wrapped. -/
theorem hasSupertypeCycle_isOk_iff {T : ValueType} :
    (∃ hasCycle, hasSupertypeCycle ast (hierarchyDepth ast) [] T = .ok hasCycle) ↔
      ∀ U, ReflTransGen (Extends ast) T U → ∃ S, U.doGetSupertype ast = .ok S := by
  constructor
  · rintro ⟨hasCycle, h⟩ U hreach
    cases hasCycle with
    | false => exact doGetSupertype_of_no_cycle h hreach
    | true =>
        by_contra hnone
        have hstuck : ∀ S, ¬ Extends ast U S := fun S hS => hnone ⟨some S, hS⟩
        have hcycle := (hasSupertypeCycle_eq_true_iff (by simp [h])).mp h
        simp only [List.not_mem_nil, false_and, exists_false, false_or] at hcycle
        exact not_leadsToCycle_of_reaches_stuck (extends_rightUnique ast) hreach hstuck hcycle
  · intro hall
    cases h : hasSupertypeCycle ast (hierarchyDepth ast) [] T with
    | ok hasCycle => exact ⟨hasCycle, rfl⟩
    | error e =>
        obtain ⟨U, hreach, hU⟩ := hasSupertypeCycle_nil_eq_error h
        obtain ⟨S, hS⟩ := hall U hreach
        rw [hS] at hU
        cases hU

/-! ## Questions to supertypes end -/

theorem getSupertype_eq_error {T : ValueType} {e : JsError}
    (h : T.getSupertype ast = .error e) :
    ∃ U, ReflTransGen (Extends ast) T U ∧ U.doGetSupertype ast = .error e := by
  rw [getSupertype] at h
  cases hsearch : hasSupertypeCycle ast (hierarchyDepth ast) [] T with
  | error e' =>
      rw [hsearch] at h
      cases h
      exact hasSupertypeCycle_nil_eq_error hsearch
  | ok hasCycle =>
      rw [hsearch] at h
      cases hasCycle with
      | true => cases h
      | false => exact ⟨T, .refl, h⟩

/-- A question is left open only where a reference to a supertype cannot be wrapped. -/
theorem askSupertypes_eq_error {α : Type} {own : ValueType → Option α} {missing : α}
    {T : ValueType} {e : JsError}
    (h : askSupertypes ast own (.ok missing) (hierarchyDepth ast) T = .error e) :
    ∃ U, ReflTransGen (Extends ast) T U ∧ U.doGetSupertype ast = .error e := by
  induction T using supertype_induction ast with
  | step T ih =>
      cases hown : own T with
      | some answer =>
          rw [hierarchyDepth, askSupertypes_of_own hown] at h
          cases h
      | none =>
          cases hsupertype : T.getSupertype ast with
          | error e' =>
              rw [hierarchyDepth, askSupertypes, hown] at h
              simp only [hsupertype] at h
              cases h
              exact getSupertype_eq_error hsupertype
          | ok supertype =>
              cases supertype with
              | none =>
                  rw [hierarchyDepth, askSupertypes, hown] at h
                  simp only [hsupertype] at h
                  cases h
              | some S =>
                  rw [askSupertypes_supertype hown hsupertype] at h
                  obtain ⟨U, hreach, hU⟩ := ih S hsupertype h
                  exact ⟨U, hreach.head (getSupertype_eq_some_iff.mp hsupertype).2, hU⟩

mutual

/-- The recursion is into the value as well as along the supertypes. -/
theorem isInternalValueRepresentation_eq_error {e : JsError} :
    ∀ (v : Value) (T : ValueType), T.isInternalValueRepresentation ast v = .error e →
      ∃ S U, ReflTransGen (Extends ast) S U ∧ U.doGetSupertype ast = .error e
  | .collection values, T, h => by
      rw [isInternalValueRepresentation] at h
      cases hroot : T.getPrimitive ast with
      | error e' =>
          rw [hroot] at h
          cases h
          exact ⟨T, askSupertypes_eq_error hroot⟩
      | ok root =>
          rw [hroot] at h
          cases root with
          | none => cases h
          | some root =>
              cases root with
              | collection elementType =>
                  exact everyIsInternalValueRepresentation_eq_error values elementType h
              | _ => cases h
  | .boolean _, T, h | .number _, T, h | .string _, T, h | .regExp _, T, h | .cellRange _, T, h
  | .constraint _, T, h | .valuetypeAssignment _, T, h | .transform _, T, h => by
      rw [isInternalValueRepresentation] at h
      · cases hroot : T.getPrimitive ast with
        | error e' =>
            rw [hroot] at h
            cases h
            exact ⟨T, askSupertypes_eq_error hroot⟩
        | ok root =>
            rw [hroot] at h
            cases root with
            | none => cases h
            | some root => cases root <;> cases h
      · simp

theorem everyIsInternalValueRepresentation_eq_error {e : JsError} :
    ∀ (values : List Value) (T : ValueType),
      everyIsInternalValueRepresentation ast T values = .error e →
        ∃ S U, ReflTransGen (Extends ast) S U ∧ U.doGetSupertype ast = .error e
  | [], _, h => by cases h
  | value :: values, T, h => by
      rw [everyIsInternalValueRepresentation] at h
      cases hvalue : T.isInternalValueRepresentation ast value with
      | error e' =>
          rw [hvalue] at h
          cases h
          exact isInternalValueRepresentation_eq_error value T hvalue
      | ok isValid =>
          rw [hvalue] at h
          cases isValid with
          | true => exact everyIsInternalValueRepresentation_eq_error values T h
          | false => cases h

end

/-! ## Termination -/

theorem doGetSupertype_eq_error {T : ValueType} {e : JsError}
    (h : T.doGetSupertype ast = .error e) : e ≠ .callStackExceeded := by
  cases T with
  | atomic astNode =>
      obtain ⟨message, rfl⟩ := wrap_eq_error h
      simp
  | _ => cases h

/-- All definitions name a supertype that can be wrapped, or none that is resolved. -/
def WrappableSupertypes (ast : Ast) : Prop :=
  ∀ definition ∈ ast.valuetypes, ∀ reference, definition.type = some reference →
    IsWrappable ast reference

theorem WrappableSupertypes.doGetSupertype_ne_error (h : WrappableSupertypes ast) (e : JsError) :
    ¬ ∃ T : ValueType, T.doGetSupertype ast = .error e := by
  rintro ⟨T, hT⟩
  cases T with
  | atomic astNode =>
      rw [doGetSupertype] at hT
      cases htype : ast.valuetypes[astNode]?.bind ValuetypeDefinition.type with
      | none =>
          rw [htype] at hT
          cases hT
      | some reference =>
          obtain ⟨definition, hdefinition, hreference⟩ := Option.bind_eq_some_iff.mp htype
          obtain ⟨S, hS⟩ := wrap_of_wrappable
            (h definition (List.mem_of_getElem? hdefinition) reference hreference)
          rw [htype, hS] at hT
          cases hT
  | _ => cases hT

/-- The recursion behind an answer ends, also if it throws. -/
def Terminates {α : Type} (answer : Except JsError α) : Prop :=
  answer ≠ .error .callStackExceeded

theorem terminates_of_eq_error {α : Type} {answer : Except JsError α}
    (h : ∀ e, answer = .error e →
      ∃ T U, ReflTransGen (Extends ast) T U ∧ U.doGetSupertype ast = .error e) :
    Terminates answer := by
  intro herror
  obtain ⟨_, U, _, hU⟩ := h _ herror
  exact doGetSupertype_eq_error hU rfl

theorem WrappableSupertypes.exists_answer {α : Type} {answer : Except JsError α}
    (hwrappable : WrappableSupertypes ast)
    (h : ∀ e, answer = .error e →
      ∃ T U, ReflTransGen (Extends ast) T U ∧ U.doGetSupertype ast = .error e) :
    ∃ a, answer = .ok a := by
  cases answer with
  | ok a => exact ⟨a, rfl⟩
  | error e =>
      obtain ⟨_, U, _, hU⟩ := h e rfl
      exact (hwrappable.doGetSupertype_ne_error e ⟨U, hU⟩).elim

/-- On value types that refer to each other in any way, cyclic ones included, the search for a
cycle ends, as it would with more stack, and is exact, and all questions to supertypes end.
They are answered if all references to supertypes can be wrapped. -/
theorem supertypes_terminate (ast : Ast) (T : ValueType) :
    (Terminates (hasSupertypeCycle ast (hierarchyDepth ast) [] T) ∧
      (∀ fuel, hierarchyDepth ast ≤ fuel → hasSupertypeCycle ast fuel [] T =
        hasSupertypeCycle ast (hierarchyDepth ast) [] T) ∧
      (hasSupertypeCycle ast (hierarchyDepth ast) [] T = .ok true ↔
        LeadsToCycle (Extends ast) T)) ∧
    ((∀ target, Terminates (T.isConvertibleTo ast target)) ∧
      Terminates (T.isReferenceableByUser ast) ∧
      ∀ v, Terminates (T.isInternalValueRepresentation ast v)) ∧
    (WrappableSupertypes ast →
      (∃ hasCycle, hasSupertypeCycle ast (hierarchyDepth ast) [] T = .ok hasCycle) ∧
      (∀ target, ∃ isConvertible, T.isConvertibleTo ast target = .ok isConvertible) ∧
      (∃ isReferenceable, T.isReferenceableByUser ast = .ok isReferenceable) ∧
      ∀ v, ∃ isValid, T.isInternalValueRepresentation ast v = .ok isValid) := by
  have hsearch : Terminates (hasSupertypeCycle ast (hierarchyDepth ast) [] T) :=
    terminates_of_eq_error fun _ h => ⟨T, hasSupertypeCycle_nil_eq_error h⟩
  refine ⟨⟨hsearch, ?_, ?_⟩, ⟨?_, ?_, ?_⟩, ?_⟩
  · intro fuel hle
    exact hasSupertypeCycle_fuel hle hsearch
  · rw [hasSupertypeCycle_eq_true_iff hsearch]
    simp
  · intro target
    exact terminates_of_eq_error fun _ h => ⟨T, askSupertypes_eq_error h⟩
  · exact terminates_of_eq_error fun _ h => ⟨T, askSupertypes_eq_error h⟩
  · intro v
    exact terminates_of_eq_error fun _ => isInternalValueRepresentation_eq_error v T
  · intro hwrappable
    refine ⟨?_, ?_, ?_, ?_⟩
    · exact hwrappable.exists_answer fun _ h => ⟨T, hasSupertypeCycle_nil_eq_error h⟩
    · intro target
      exact hwrappable.exists_answer fun _ h => ⟨T, askSupertypes_eq_error h⟩
    · exact hwrappable.exists_answer fun _ h => ⟨T, askSupertypes_eq_error h⟩
    · intro v
      exact hwrappable.exists_answer fun _ => isInternalValueRepresentation_eq_error v T

/-- `valuetype A oftype B; valuetype B oftype A; valuetype C oftype A;` and a collection of
`C`s as the supertype of `D`. -/
def cyclicAst : Ast :=
  { emptyAst with
    valuetypes := [⟨"A", false, some ⟨some 1, []⟩, none, none⟩,
      ⟨"B", false, some ⟨some 0, []⟩, none, none⟩, ⟨"C", false, some ⟨some 0, []⟩, none, none⟩,
      ⟨"Collection", true, none, none, none⟩,
      ⟨"D", false, some ⟨some 3, [some 2]⟩, none, none⟩] }

example : hasSupertypeCycle cyclicAst (hierarchyDepth cyclicAst) [] (atomic 2) = .ok true := rfl

theorem wrappableSupertypes_cyclicAst : WrappableSupertypes cyclicAst := by
  have hatomic : ∀ astNode definition, cyclicAst.valuetypes[astNode]? = some definition →
      definition.name ≠ "Collection" → definition.isBuiltin = false →
      IsWrappable cyclicAst ⟨some astNode, []⟩ := by
    intro astNode definition hdefinition hname hcustom named hnamed
    cases hdefinition.symm.trans hnamed
    exact ⟨fun h => absurd h hname, fun _ h => by simp [hcustom] at h⟩
  have hcollection : IsWrappable cyclicAst ⟨some 3, [some 2]⟩ := by
    rintro _ ⟨⟩
    exact ⟨fun _ => ⟨2, _, rfl, rfl, by decide, by rintro ⟨⟩⟩, fun h => absurd rfl h⟩
  intro definition hdefinition reference hreference
  simp only [cyclicAst, List.mem_cons, List.not_mem_nil, or_false] at hdefinition
  obtain rfl | rfl | rfl | rfl | rfl := hdefinition <;> cases hreference
  · exact hatomic 1 _ rfl (by decide) rfl
  · exact hatomic 0 _ rfl (by decide) rfl
  · exact hatomic 0 _ rfl (by decide) rfl
  · exact hcollection

theorem supertypes_terminate_cyclicAst :
    (∃ hasCycle, hasSupertypeCycle cyclicAst (hierarchyDepth cyclicAst) [] (atomic 4) =
        .ok hasCycle) ∧
      (∀ target, ∃ isConvertible, (atomic 4).isConvertibleTo cyclicAst target =
        .ok isConvertible) ∧
      (∃ isReferenceable, (atomic 4).isReferenceableByUser cyclicAst = .ok isReferenceable) ∧
      ∀ v, ∃ isValid, (atomic 4).isInternalValueRepresentation cyclicAst v = .ok isValid :=
  (supertypes_terminate cyclicAst (atomic 4)).2.2 wrappableSupertypes_cyclicAst

end ValueType

end Jayvee
