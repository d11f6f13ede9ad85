import Mathlib.Init

/-! # Loops -/

namespace Jayvee.Foundation

variable {σ α β : Type}

/-! ## While loops -/

/-- Repeats `step` until it yields no successor. `none` means that `fuel` rounds were not
enough. -/
def whileLoop (step : σ → Option σ) : Nat → σ → Option σ
  | 0, _ => none
  | fuel + 1, s =>
      match step s with
      | none => some s
      | some t => whileLoop step fuel t

theorem whileLoop_of_none {step : σ → Option σ} {fuel : Nat} {s : σ} (h : step s = none) :
    whileLoop step (fuel + 1) s = some s := by
  rw [whileLoop, h]

theorem whileLoop_of_some {step : σ → Option σ} {fuel : Nat} {s t : σ} (h : step s = some t) :
    whileLoop step (fuel + 1) s = whileLoop step fuel t := by
  rw [whileLoop, h]

/-- A loop that ended is unchanged by more fuel. -/
theorem whileLoop_mono {step : σ → Option σ} {fuel fuel' : Nat} {s t : σ}
    (hle : fuel ≤ fuel') (h : whileLoop step fuel s = some t) :
    whileLoop step fuel' s = some t := by
  induction fuel generalizing fuel' s with
  | zero => cases h
  | succ fuel ih =>
      obtain ⟨fuel', rfl⟩ : ∃ k, fuel' = k + 1 := ⟨fuel' - 1, by omega⟩
      cases hs : step s with
      | none => rwa [whileLoop_of_none hs] at h ⊢
      | some u =>
          rw [whileLoop_of_some hs] at h ⊢
          exact ih (by omega) h

/-- What every round keeps holds where the loop ends, and no round is possible there. -/
theorem whileLoop_invariant {step : σ → Option σ} {I : σ → Prop}
    (hstep : ∀ s t, I s → step s = some t → I t) {fuel : Nat} {s t : σ} (hs : I s)
    (h : whileLoop step fuel s = some t) : I t ∧ step t = none := by
  induction fuel generalizing s with
  | zero => cases h
  | succ fuel ih =>
      cases hstep' : step s with
      | none =>
          rw [whileLoop_of_none hstep'] at h
          cases h
          exact ⟨hs, hstep'⟩
      | some u =>
          rw [whileLoop_of_some hstep'] at h
          exact ih (hstep s u hs hstep') h

/-- A loop whose rounds decrease a measure ends within that many rounds. -/
theorem whileLoop_terminates {step : σ → Option σ} {I : σ → Prop} {measure : σ → Nat}
    (hstep : ∀ s t, I s → step s = some t → I t ∧ measure t < measure s) {fuel : Nat} {s : σ}
    (hs : I s) (hfuel : measure s < fuel) : ∃ t, whileLoop step fuel s = some t := by
  induction fuel generalizing s with
  | zero => omega
  | succ fuel ih =>
      cases hstep' : step s with
      | none => exact ⟨s, whileLoop_of_none hstep'⟩
      | some u =>
          obtain ⟨hu, hlt⟩ := hstep s u hs hstep'
          rw [whileLoop_of_some hstep']
          exact ih hu (by omega)

/-! ## Loops that return early -/

/-- Visits the elements until a visit has a result. A visit may change its element. -/
def firstResult (visit : α → Option β × α) : List α → Option β × List α
  | [] => (none, [])
  | x :: xs =>
      match visit x with
      | (some result, x') => (some result, x' :: xs)
      | (none, x') => ((firstResult visit xs).1, x' :: (firstResult visit xs).2)

/-- Elements whose visit does nothing are passed over. -/
theorem firstResult_of_idle {visit : α → Option β × α} {xs : List α}
    (h : ∀ x ∈ xs, visit x = (none, x)) : firstResult visit xs = (none, xs) := by
  induction xs with
  | nil => rfl
  | cons x xs ih =>
      have hrest := ih fun y hy => h y (List.mem_cons_of_mem _ hy)
      rw [firstResult, h x List.mem_cons_self, hrest]

/-- Where only one visit does anything, the loop is that visit. -/
theorem firstResult_of_single {visit : α → Option β × α} {before after : List α} {x : α}
    (hbefore : ∀ y ∈ before, visit y = (none, y)) (hafter : ∀ y ∈ after, visit y = (none, y)) :
    firstResult visit (before ++ x :: after) =
      ((visit x).1, before ++ (visit x).2 :: after) := by
  induction before with
  | nil =>
      rw [List.nil_append, firstResult, firstResult_of_idle hafter]
      cases hvisit : visit x with
      | mk result x' => cases result <;> rfl
  | cons y before ih =>
      have hrest := ih fun z hz => hbefore z (List.mem_cons_of_mem _ hz)
      rw [List.cons_append, firstResult, hbefore y List.mem_cons_self, hrest]
      rfl

/-! ## Loops that are left early -/

/-- Collects what the elements yield. The loop is left at the first one that yields nothing. -/
def collectUntilNone (visit : α → Option (List β)) : List α → List β
  | [] => []
  | x :: xs =>
      match visit x with
      | none => []
      | some ys => ys ++ collectUntilNone visit xs

/-- What all elements yield. -/
def collectAll (visit : α → Option (List β)) (xs : List α) : List β :=
  xs.flatMap fun x => (visit x).getD []

/-- After an element at which the loop is left there is nothing to collect. -/
def NothingAfterNone (visit : α → Option (List β)) (xs : List α) : Prop :=
  ∀ before x after, xs = before ++ x :: after → visit x = none →
    ∀ y ∈ after, (visit y).getD [] = []

theorem nothingAfterNone_cons_of_some {visit : α → Option (List β)} {x : α} {ys : List β}
    (h : visit x = some ys) (xs : List α) :
    NothingAfterNone visit (x :: xs) ↔ NothingAfterNone visit xs := by
  constructor
  · intro hnothing before y after hsplit
    exact hnothing (x :: before) y after (by rw [hsplit, List.cons_append])
  · intro hnothing before y after hsplit hnone
    cases before with
    | nil =>
        cases hsplit
        cases h.symm.trans hnone
    | cons first before =>
        cases hsplit
        exact hnothing before y after rfl hnone

theorem nothingAfterNone_cons_of_none {visit : α → Option (List β)} {x : α} (h : visit x = none)
    (xs : List α) :
    NothingAfterNone visit (x :: xs) ↔ ∀ y ∈ xs, (visit y).getD [] = [] := by
  constructor
  · intro hnothing
    exact hnothing [] x xs rfl h
  · intro hempty before y after hsplit _ z hz
    cases before with
    | nil =>
        cases hsplit
        exact hempty z hz
    | cons first before =>
        cases hsplit
        exact hempty z (by simp [hz])

/-- What is not collected comes last. -/
theorem exists_skipped (visit : α → Option (List β)) (xs : List α) :
    ∃ skipped, collectAll visit xs = collectUntilNone visit xs ++ skipped ∧
      (skipped = [] ↔ NothingAfterNone visit xs) := by
  induction xs with
  | nil => exact ⟨[], rfl, iff_of_true rfl fun before x after hsplit => by simp at hsplit⟩
  | cons x xs ih =>
      have hall : collectAll visit (x :: xs) = (visit x).getD [] ++ collectAll visit xs :=
        List.flatMap_cons
      cases hvisit : visit x with
      | none =>
          refine ⟨collectAll visit xs, ?_, ?_⟩
          · rw [hall, hvisit, collectUntilNone, hvisit]
            rfl
          · rw [nothingAfterNone_cons_of_none hvisit, collectAll, List.flatMap_eq_nil_iff]
      | some ys =>
          obtain ⟨skipped, hskipped, hiff⟩ := ih
          refine ⟨skipped, ?_, ?_⟩
          · rw [hall, hvisit, hskipped, collectUntilNone, hvisit, List.append_assoc]
            rfl
          · rw [nothingAfterNone_cons_of_some hvisit, hiff]

/-- All is collected exactly if there is nothing to collect after the loop is left. -/
theorem collectUntilNone_eq_iff {visit : α → Option (List β)} {xs : List α} :
    collectUntilNone visit xs = collectAll visit xs ↔ NothingAfterNone visit xs := by
  obtain ⟨skipped, hskipped, hiff⟩ := exists_skipped visit xs
  rw [← hiff, hskipped, List.self_eq_append_right]

theorem length_collectUntilNone_eq_iff {visit : α → Option (List β)} {xs : List α} :
    (collectUntilNone visit xs).length = (collectAll visit xs).length ↔
      NothingAfterNone visit xs := by
  obtain ⟨skipped, hskipped, hiff⟩ := exists_skipped visit xs
  rw [← hiff, hskipped, List.length_append, ← List.length_eq_zero_iff]
  omega

/-- Elements that yield nothing can be left out. -/
theorem collectAll_filter_isSome (visit : α → Option (List β)) (xs : List α) :
    collectAll visit (xs.filter fun x => (visit x).isSome) = collectAll visit xs := by
  induction xs with
  | nil => rfl
  | cons x xs ih =>
      have hall : collectAll visit (x :: xs) = (visit x).getD [] ++ collectAll visit xs :=
        List.flatMap_cons
      rw [List.filter_cons, hall, ← ih]
      cases hvisit : visit x with
      | none => rfl
      | some ys =>
          rw [Option.isSome_some, if_pos rfl, collectAll, List.flatMap_cons, hvisit]
          rfl

/-! ## Loops over steps that may not end -/

section Fold

variable {xs : List α} {s t : σ}

theorem foldlM_cons_eq_some {f : σ → α → Option σ} {x : α} :
    (x :: xs).foldlM f s = some t ↔ ∃ u, f s x = some u ∧ xs.foldlM f u = some t := by
  rw [List.foldlM_cons]
  exact Option.bind_eq_some_iff

/-- What every step keeps holds where the loop ends. -/
theorem foldlM_invariant {f : σ → α → Option σ} {I : σ → Prop}
    (hstep : ∀ x ∈ xs, ∀ s t, I s → f s x = some t → I t) (hs : I s)
    (h : xs.foldlM f s = some t) : I t := by
  induction xs generalizing s with
  | nil =>
      cases h
      exact hs
  | cons x xs ih =>
      obtain ⟨u, hu, hrest⟩ := foldlM_cons_eq_some.mp h
      exact ih (fun y hy => hstep y (List.mem_cons_of_mem _ hy))
        (hstep x List.mem_cons_self s u hs hu) hrest

theorem foldlM_mono {f g : σ → α → Option σ}
    (hfg : ∀ x s t, f s x = some t → g s x = some t) (h : xs.foldlM f s = some t) :
    xs.foldlM g s = some t := by
  induction xs generalizing s with
  | nil => exact h
  | cons x xs ih =>
      obtain ⟨u, hu, hrest⟩ := foldlM_cons_eq_some.mp h
      exact foldlM_cons_eq_some.mpr ⟨u, hfg x s u hu, ih hrest⟩

/-- If every step ends with enough fuel, so does the loop. -/
theorem exists_foldlM {f : Nat → σ → α → Option σ} {I : σ → Prop}
    (hmono : ∀ fuel fuel' x s t, fuel ≤ fuel' → f fuel s x = some t → f fuel' s x = some t)
    (hkeeps : ∀ fuel x s t, I s → f fuel s x = some t → I t)
    (hends : ∀ x ∈ xs, ∀ s, I s → ∃ fuel t, f fuel s x = some t) (hs : I s) :
    ∃ fuel t, xs.foldlM (f fuel) s = some t := by
  induction xs generalizing s with
  | nil => exact ⟨0, s, rfl⟩
  | cons x xs ih =>
      obtain ⟨fuel, u, hu⟩ := hends x List.mem_cons_self s hs
      obtain ⟨fuel', t, hrest⟩ :=
        ih (fun y hy => hends y (List.mem_cons_of_mem _ hy)) (hkeeps fuel x s u hs hu)
      refine ⟨max fuel fuel', t, foldlM_cons_eq_some.mpr ⟨u, ?_, ?_⟩⟩
      · exact hmono _ _ _ _ _ (Nat.le_max_left fuel fuel') hu
      · exact foldlM_mono (fun x s t => hmono _ _ x s t (Nat.le_max_right fuel fuel')) hrest

end Fold

end Jayvee.Foundation
