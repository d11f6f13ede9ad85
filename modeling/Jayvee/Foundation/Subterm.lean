import Mathlib.Data.List.Basic
import Mathlib.Data.List.Nodup

/-! # Subterms

Terms of any kind, given the direct subterms of each. A path of numbers leads to a subterm and
tells it from an equal one at another place. -/

namespace Jayvee.Foundation

/-- A subterm, with the path to it. -/
structure Subterm (T : Type) where
  path : List Nat
  term : T

variable {T : Type}

/-- The subterm at the end of a path. -/
def subtermAt (children : T → List T) : T → (path : List Nat) → Option T
  | term, [] => some term
  | term, i :: path => (children term)[i]?.bind fun child => subtermAt children child path

section Subterms

variable {children : T → List T} {P : T → Prop} {term subterm : T} {path : List Nat}

theorem subtermAt_cons_eq_some {i : Nat} :
    subtermAt children term (i :: path) = some subterm ↔
      ∃ child, (children term)[i]? = some child ∧ subtermAt children child path = some subterm := by
  rw [subtermAt, Option.bind_eq_some_iff]

theorem subtermAt_append {path' : List Nat} :
    subtermAt children term (path ++ path') =
      (subtermAt children term path).bind fun inner => subtermAt children inner path' := by
  induction path generalizing term with
  | nil => rfl
  | cons i path ih =>
      rw [List.cons_append, subtermAt, subtermAt]
      cases (children term)[i]? with
      | none => rfl
      | some child => exact ih

/-! ## Properties of all subterms -/

/-- The term and all of its subterms have the property. -/
def Everywhere (children : T → List T) (P : T → Prop) (term : T) : Prop :=
  ∀ path subterm, subtermAt children term path = some subterm → P subterm

theorem Everywhere.self (h : Everywhere children P term) : P term :=
  h [] term rfl

theorem Everywhere.below (h : Everywhere children P term)
    (hsubterm : subtermAt children term path = some subterm) : Everywhere children P subterm := by
  intro path' inner hinner
  refine h (path ++ path') inner ?_
  rw [subtermAt_append, hsubterm]
  exact hinner

theorem everywhere_iff :
    Everywhere children P term ↔ P term ∧ ∀ child ∈ children term, Everywhere children P child := by
  constructor
  · intro h
    refine ⟨h.self, fun child hchild => ?_⟩
    obtain ⟨i, hi⟩ := List.mem_iff_getElem?.mp hchild
    have hchild : subtermAt children term [i] = some child :=
      subtermAt_cons_eq_some.mpr ⟨child, hi, rfl⟩
    exact h.below hchild
  · rintro ⟨hself, hchildren⟩ path inner hinner
    cases path with
    | nil =>
        cases hinner
        exact hself
    | cons i path =>
        obtain ⟨child, hi, hinner⟩ := subtermAt_cons_eq_some.mp hinner
        exact hchildren child (List.mem_of_getElem? hi) path inner hinner

/-! ## Terms around a subterm -/

/-- A term strictly around the end of the path has the property. -/
def IsBelow (children : T → List T) (P : T → Prop) (term : T) (path : List Nat) : Prop :=
  ∃ outer, outer <+: path ∧ outer ≠ path ∧
    ∃ inner, subtermAt children term outer = some inner ∧ P inner

theorem not_isBelow_nil : ¬ IsBelow children P term [] := by
  rintro ⟨outer, habove, hne, _⟩
  exact hne (List.prefix_nil.mp habove)

theorem isBelow_cons {i : Nat} :
    IsBelow children P term (i :: path) ↔
      P term ∨ ∃ child, (children term)[i]? = some child ∧ IsBelow children P child path := by
  constructor
  · rintro ⟨outer, habove, hne, inner, hinner, hholds⟩
    cases outer with
    | nil =>
        cases hinner
        exact .inl hholds
    | cons j outer =>
        obtain ⟨rfl, hinside⟩ := List.cons_prefix_cons.mp habove
        obtain ⟨child, hchild, hinner⟩ := subtermAt_cons_eq_some.mp hinner
        exact .inr ⟨child, hchild, outer, hinside, by simpa using hne, inner, hinner, hholds⟩
  · rintro (hholds | ⟨child, hchild, outer, hinside, hne, inner, hinner, hholds⟩)
    · exact ⟨[], List.nil_prefix, by simp, term, rfl, hholds⟩
    · refine ⟨i :: outer, (List.prefix_cons_inj i).mpr hinside, by simpa using hne, inner, ?_,
        hholds⟩
      exact subtermAt_cons_eq_some.mpr ⟨child, hchild, hinner⟩

theorem IsBelow.mono {path' : List Nat} (h : IsBelow children P term path)
    (habove : path <+: path') : IsBelow children P term path' := by
  obtain ⟨outer, hinside, hne, inner, hinner, hholds⟩ := h
  refine ⟨outer, hinside.trans habove, ?_, inner, hinner, hholds⟩
  rintro rfl
  exact hne (hinside.eq_of_length_le habove.length_le)

/-- The children, as if the terms with a property had none. -/
def pruned (stop : T → Bool) (children : T → List T) (term : T) : List T :=
  if stop term then [] else children term

/-- The paths that remain lead to the subterms that are below no term with the property. -/
theorem subtermAt_pruned_iff {stop : T → Bool} :
    subtermAt (pruned stop children) term path = some subterm ↔
      subtermAt children term path = some subterm ∧
        ¬ IsBelow children (fun t => stop t = true) term path := by
  induction path generalizing term with
  | nil => simp [subtermAt, not_isBelow_nil]
  | cons i path ih =>
      rw [isBelow_cons, subtermAt_cons_eq_some, subtermAt_cons_eq_some, pruned]
      by_cases hstop : stop term = true
      · simp [hstop]
      · rw [if_neg hstop]
        simp only [hstop, Bool.false_eq_true, false_or, not_exists, not_and]
        constructor
        · rintro ⟨child, hchild, hsubterm⟩
          obtain ⟨hsubterm, hnot⟩ := ih.mp hsubterm
          refine ⟨⟨child, hchild, hsubterm⟩, fun other hother => ?_⟩
          cases hchild.symm.trans hother
          exact hnot
        · rintro ⟨⟨child, hchild, hsubterm⟩, hnot⟩
          exact ⟨child, hchild, ih.mpr ⟨hsubterm, hnot child hchild⟩⟩

/-! ## Outermost subterms -/

/-- The subterm at the end of the path has the property, and no term around it has. -/
structure IsOutermostAt (children : T → List T) (P : T → Prop) (term : T) (path : List Nat)
    (subterm : T) : Prop where
  subterm_eq : subtermAt children term path = some subterm
  holds : P subterm
  not_isBelow : ¬ IsBelow children P term path

theorem isOutermostAt_of_holds (h : P term) :
    IsOutermostAt children P term path subterm ↔ path = [] ∧ subterm = term := by
  constructor
  · intro houtermost
    cases path with
    | nil =>
        cases houtermost.subterm_eq
        exact ⟨rfl, rfl⟩
    | cons i path => exact absurd (isBelow_cons.mpr (.inl h)) houtermost.not_isBelow
  · rintro ⟨rfl, rfl⟩
    exact ⟨rfl, h, not_isBelow_nil⟩

/-- Below a term without the property, the outermost subterms are those of the children. -/
theorem isOutermostAt_of_not (h : ¬ P term) :
    IsOutermostAt children P term path subterm ↔
      ∃ i rest child, path = i :: rest ∧ (children term)[i]? = some child ∧
        IsOutermostAt children P child rest subterm := by
  constructor
  · intro houtermost
    cases path with
    | nil =>
        cases houtermost.subterm_eq
        exact absurd houtermost.holds h
    | cons i rest =>
        obtain ⟨child, hi, hsubterm⟩ := subtermAt_cons_eq_some.mp houtermost.subterm_eq
        refine ⟨i, rest, child, rfl, hi, hsubterm, houtermost.holds, fun hbelow => ?_⟩
        exact houtermost.not_isBelow (isBelow_cons.mpr (.inr ⟨child, hi, hbelow⟩))
  · rintro ⟨i, rest, child, rfl, hi, hsubterm, hholds, hnot⟩
    refine ⟨subtermAt_cons_eq_some.mpr ⟨child, hi, hsubterm⟩, hholds, fun hbelow => ?_⟩
    rcases isBelow_cons.mp hbelow with hself | ⟨other, hother, hbelow⟩
    · exact h hself
    · cases hi.symm.trans hother
      exact hnot hbelow

/-- No outermost subterm is inside of another one. -/
theorem IsOutermostAt.eq_of_prefix {path' : List Nat} {subterm' : T}
    (h : IsOutermostAt children P term path subterm)
    (h' : IsOutermostAt children P term path' subterm') (habove : path <+: path') :
    path = path' := by
  by_contra hne
  exact h'.not_isBelow ⟨path, habove, hne, subterm, h.subterm_eq, h.holds⟩

/-- Around a subterm with the property, or at it, there is an outermost one. -/
theorem exists_isOutermostAt (hsubterm : subtermAt children term path = some subterm)
    (hholds : P subterm) :
    ∃ outer rest inner, path = outer ++ rest ∧ IsOutermostAt children P term outer inner ∧
      subtermAt children inner rest = some subterm := by
  induction path generalizing term with
  | nil =>
      cases hsubterm
      exact ⟨[], [], subterm, rfl, ⟨rfl, hholds, not_isBelow_nil⟩, rfl⟩
  | cons i path ih =>
      by_cases hself : P term
      · exact ⟨[], i :: path, term, rfl, ⟨rfl, hself, not_isBelow_nil⟩, hsubterm⟩
      · obtain ⟨child, hchild, hinside⟩ := subtermAt_cons_eq_some.mp hsubterm
        obtain ⟨outer, rest, inner, rfl, houtermost, hinner⟩ := ih hinside
        refine ⟨i :: outer, rest, inner, rfl, ?_, hinner⟩
        exact (isOutermostAt_of_not hself).mpr ⟨i, outer, child, rfl, hchild, houtermost⟩

end Subterms

/-! ## Replacement -/

section Replacement

variable (children : T → List T) (withChildren : T → List T → T)

/-- The term with the subterm at the end of the path replaced. -/
def replaceAt (replacement : T) : T → (path : List Nat) → T
  | _, [] => replacement
  | term, i :: path =>
      withChildren term
        ((children term).modify i fun child => replaceAt replacement child path)

/-- One replacement after the other. -/
def replaceAll (term : T) (replacements : List (Subterm T)) : T :=
  replacements.foldl (fun term node => replaceAt children withChildren node.term term node.path)
    term

variable {children withChildren}

/-- A relation that terms with related children are in. -/
def IsCongruence (children : T → List T) (withChildren : T → List T → T) (R : T → T → Prop) :
    Prop :=
  ∀ term others, List.Forall₂ R (children term) others → R term (withChildren term others)

theorem IsCongruence.replaceAt {R : T → T → Prop} (hrefl : ∀ term, R term term)
    (h : IsCongruence children withChildren R) {term inner replacement : T} {path : List Nat}
    (hinner : subtermAt children term path = some inner) (hreplacement : R inner replacement) :
    R term (replaceAt children withChildren replacement term path) := by
  induction path generalizing term with
  | nil =>
      cases hinner
      exact hreplacement
  | cons i path ih =>
      obtain ⟨child, hchild, hinner⟩ := subtermAt_cons_eq_some.mp hinner
      apply h
      rw [List.forall₂_iff_get]
      refine ⟨(List.length_modify _ _ _).symm, fun j hj hj' => ?_⟩
      simp only [List.get_eq_getElem, List.getElem_modify]
      split
      · rename_i hij
        subst hij
        rw [List.getElem?_eq_getElem hj] at hchild
        obtain rfl := Option.some.inj hchild
        exact ih hinner
      · exact hrefl _

/-- Terms keep what is at paths that do not lead into each other. -/
theorem subtermAt_replaceAt
    (hwith : ∀ term others, others.length = (children term).length →
      children (withChildren term others) = others) {term replacement : T} {path path' : List Nat}
    (hnot : ¬ path <+: path') (hnot' : ¬ path' <+: path) :
    subtermAt children (replaceAt children withChildren replacement term path) path' =
      subtermAt children term path' := by
  induction path generalizing term path' with
  | nil => exact (hnot List.nil_prefix).elim
  | cons i path ih =>
      cases path' with
      | nil => exact (hnot' List.nil_prefix).elim
      | cons j path' =>
          rw [subtermAt, subtermAt, replaceAt, hwith _ _ (List.length_modify _ _ _),
            List.getElem?_modify]
          cases hchild : (children term)[j]? with
          | none => rfl
          | some child =>
              simp only [Option.bind_some]
              split
              · rename_i hij
                subst hij
                rw [List.prefix_cons_inj] at hnot hnot'
                exact ih hnot hnot'
              · rfl

/-- Replacing subterms by related ones, one after the other, leads to a related term. -/
theorem IsCongruence.replaceAll {R : T → T → Prop} (hrefl : ∀ term, R term term)
    (htrans : ∀ {a b c}, R a b → R b c → R a c) (h : IsCongruence children withChildren R)
    (hwith : ∀ term others, others.length = (children term).length →
      children (withChildren term others) = others) {term : T}
    {replacements : List (Subterm T)}
    (hdisjoint : replacements.Pairwise fun a b => ¬ a.path <+: b.path ∧ ¬ b.path <+: a.path)
    (hrelated : ∀ node ∈ replacements, ∃ inner,
      subtermAt children term node.path = some inner ∧ R inner node.term) :
    R term (replaceAll children withChildren term replacements) := by
  induction replacements generalizing term with
  | nil => exact hrefl term
  | cons node replacements ih =>
      rw [List.pairwise_cons] at hdisjoint
      rw [List.forall_mem_cons] at hrelated
      obtain ⟨⟨inner, hinner, hfirst⟩, hrest⟩ := hrelated
      refine htrans (h.replaceAt hrefl hinner hfirst) (ih hdisjoint.2 fun other hother => ?_)
      obtain ⟨hnot, hnot'⟩ := hdisjoint.1 other hother
      obtain ⟨inner', hinner', hother'⟩ := hrest other hother
      exact ⟨inner', (subtermAt_replaceAt hwith hnot hnot').trans hinner', hother'⟩

end Replacement

/-! ## Lists of subterms -/

/-- The subterms that `Q` selects, each once, of a term that is itself at the path `base`. -/
structure Lists (Q : List Nat → T → Prop) (base : List Nat) (nodes : List (Subterm T)) :
    Prop where
  nodup : nodes.Nodup
  mem_iff : ∀ node, node ∈ nodes ↔ ∃ path, node.path = base ++ path ∧ Q path node.term

section Listing

variable {Q Q' : List Nat → T → Prop} {base : List Nat} {nodes : List (Subterm T)}

theorem Lists.congr (h : Lists Q base nodes) (hiff : ∀ path term, Q path term ↔ Q' path term) :
    Lists Q' base nodes :=
  ⟨h.nodup, fun node => by simp only [h.mem_iff, hiff]⟩

theorem lists_nil (h : ∀ path term, ¬ Q path term) : Lists Q base [] := by
  refine ⟨List.nodup_nil, fun node => ?_⟩
  simp [h]

theorem lists_singleton (term : T) :
    Lists (fun path inner => path = [] ∧ inner = term) base [⟨base, term⟩] := by
  refine ⟨List.nodup_singleton _, fun node => ?_⟩
  cases node
  simp

/-- What is selected below different children differs. -/
theorem Lists.disjoint {i j : Nat} {nodes' : List (Subterm T)} (h : Lists Q (base ++ [i]) nodes)
    (h' : Lists Q' (base ++ [j]) nodes') (hne : i ≠ j) : nodes.Disjoint nodes' := by
  intro node hnode hnode'
  obtain ⟨path, hpath, _⟩ := (h.mem_iff node).mp hnode
  obtain ⟨path', hpath', _⟩ := (h'.mem_iff node).mp hnode'
  have heq : base ++ i :: path = base ++ j :: path' := by simpa using hpath.symm.trans hpath'
  exact hne (List.cons.inj (List.append_cancel_left heq)).1

/-- The lists for the children, one after the other. -/
theorem lists_flatten {terms : List T} (select : T → List Nat → T → Prop)
    {results : List (List (Subterm T))} (hlength : results.length = terms.length)
    (h : ∀ i child result, terms[i]? = some child → results[i]? = some result →
      Lists (select child) (base ++ [i]) result) :
    Lists (fun path inner => ∃ i rest child, path = i :: rest ∧ terms[i]? = some child ∧
      select child rest inner) base results.flatten := by
  have hchild : ∀ i result, results[i]? = some result →
      ∃ child, terms[i]? = some child ∧ Lists (select child) (base ++ [i]) result := by
    intro i result hresult
    have hi := (List.getElem?_eq_some_iff.mp hresult).1
    have hchild : terms[i]? = some terms[i] := List.getElem?_eq_getElem (hlength ▸ hi)
    exact ⟨_, hchild, h i _ result hchild hresult⟩
  constructor
  · rw [List.nodup_flatten]
    constructor
    · intro result hmem
      obtain ⟨i, hi⟩ := List.mem_iff_getElem?.mp hmem
      obtain ⟨child, _, hlists⟩ := hchild i result hi
      exact hlists.nodup
    · rw [List.pairwise_iff_getElem]
      intro i j hi hj hlt
      obtain ⟨child, _, hlists⟩ := hchild i _ (List.getElem?_eq_getElem hi)
      obtain ⟨child', _, hlists'⟩ := hchild j _ (List.getElem?_eq_getElem hj)
      exact hlists.disjoint hlists' (Nat.ne_of_lt hlt)
  · intro node
    rw [List.mem_flatten]
    constructor
    · rintro ⟨result, hmem, hnode⟩
      obtain ⟨i, hi⟩ := List.mem_iff_getElem?.mp hmem
      obtain ⟨child, hterm, hlists⟩ := hchild i result hi
      obtain ⟨rest, hpath, hselect⟩ := (hlists.mem_iff node).mp hnode
      exact ⟨i :: rest, by simpa using hpath, i, rest, child, rfl, hterm, hselect⟩
    · rintro ⟨path, hpath, i, rest, child, rfl, hterm, hselect⟩
      have hi := (List.getElem?_eq_some_iff.mp hterm).1
      have hresult : results[i]? = some results[i] := List.getElem?_eq_getElem (hlength ▸ hi)
      refine ⟨results[i], List.mem_of_getElem? hresult, ?_⟩
      exact ((h i child _ hterm hresult).mem_iff node).mpr ⟨rest, by simpa using hpath, hselect⟩

/-- The subterms with a property are the term itself, if it has it, and those of the children. -/
theorem lists_subterms {children : T → List T} {P : T → Prop} {term : T}
    {self : List (Subterm T)} {results : List (List (Subterm T))}
    (hself : Lists (fun path inner => path = [] ∧ inner = term ∧ P term) base self)
    (hlength : results.length = (children term).length)
    (h : ∀ i child result, (children term)[i]? = some child → results[i]? = some result →
      Lists (fun path inner => subtermAt children child path = some inner ∧ P inner)
        (base ++ [i]) result) :
    Lists (fun path inner => subtermAt children term path = some inner ∧ P inner) base
      (self ++ results.flatten) := by
  have hbelow := lists_flatten (fun child path inner =>
    subtermAt children child path = some inner ∧ P inner) hlength h
  constructor
  · rw [List.nodup_append']
    refine ⟨hself.nodup, hbelow.nodup, fun node hnode hnode' => ?_⟩
    obtain ⟨path, hpath, rfl, _⟩ := (hself.mem_iff node).mp hnode
    obtain ⟨path', hpath', i, rest, child, rfl, _⟩ := (hbelow.mem_iff node).mp hnode'
    rw [hpath] at hpath'
    simp at hpath'
  · intro node
    rw [List.mem_append, hself.mem_iff, hbelow.mem_iff]
    constructor
    · rintro (⟨path, hpath, rfl, hterm, hholds⟩ | ⟨path, hpath, i, rest, child, rfl, hi, hselect⟩)
      · exact ⟨[], hpath, by rw [hterm]; rfl, by rwa [hterm]⟩
      · exact ⟨i :: rest, hpath, subtermAt_cons_eq_some.mpr ⟨child, hi, hselect.1⟩, hselect.2⟩
    · rintro ⟨path, hpath, hsubterm, hholds⟩
      cases path with
      | nil =>
          have hterm : node.term = term := (Option.some.inj hsubterm).symm
          exact .inl ⟨[], hpath, rfl, hterm, hterm ▸ hholds⟩
      | cons i rest =>
          obtain ⟨child, hi, hsubterm⟩ := subtermAt_cons_eq_some.mp hsubterm
          exact .inr ⟨i :: rest, hpath, i, rest, child, rfl, hi, hsubterm, hholds⟩

end Listing

end Jayvee.Foundation
