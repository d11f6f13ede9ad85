import Mathlib.Data.List.Forall2
import Mathlib.Order.Defs.Unbundled

/-! # Stateful programs that may throw or diverge -/

namespace Jayvee.Foundation

theorem except_bind_eq_ok_iff {ε α β : Type} {x : Except ε α} {f : α → Except ε β} {b : β} :
    (x >>= f) = .ok b ↔ ∃ a, x = .ok a ∧ f a = .ok b := by
  cases x with
  | error e =>
      constructor
      · rintro ⟨⟩
      · rintro ⟨a, ⟨⟩, _⟩
  | ok a =>
      constructor
      · intro h
        exact ⟨a, rfl, h⟩
      · rintro ⟨a, ⟨⟩, h⟩
        exact h

theorem except_ok_bind {ε α β : Type} (a : α) (f : α → Except ε β) :
    (Except.ok a >>= f) = f a :=
  rfl

/-- A program over a store `σ`. It returns a value, throws an `ε`, or does not finish
(`none`). The store keeps every write made before a throw. -/
def Exec (σ ε α : Type) : Type :=
  σ → Option (Except ε α × σ)

namespace Exec

variable {σ τ ε α β : Type}

/-! ## Operations -/

protected def pure (a : α) : Exec σ ε α :=
  fun s => some (.ok a, s)

protected def bind (m : Exec σ ε α) (f : α → Exec σ ε β) : Exec σ ε β :=
  fun s =>
    match m s with
    | none => none
    | some (.ok a, t) => f a t
    | some (.error e, t) => some (.error e, t)

instance : Monad (Exec σ ε) where
  pure := Exec.pure
  bind := Exec.bind

def throw (e : ε) : Exec σ ε α :=
  fun s => some (.error e, s)

/-- The handler runs in the store the throwing program left behind. -/
def tryCatch (m : Exec σ ε α) (handler : ε → Exec σ ε α) : Exec σ ε α :=
  fun s =>
    match m s with
    | none => none
    | some (.ok a, t) => some (.ok a, t)
    | some (.error e, t) => handler e t

def get : Exec σ ε σ :=
  fun s => some (.ok s, s)

def modify (f : σ → σ) : Exec σ ε Unit :=
  fun s => some (.ok (), f s)

def diverge : Exec σ ε α :=
  fun _ => none

def ofExcept (r : Except ε α) : Exec σ ε α :=
  fun s => some (r, s)

/-- Runs a program over a store of its own, which is dropped afterwards. -/
def isolate (t : τ) (m : Exec τ ε α) : Exec σ ε α :=
  fun s => (m t).map fun out => (out.1, s)

/-- Runs a program on the first part of a store. -/
def onFst (m : Exec σ ε α) : Exec (σ × τ) ε α :=
  fun s => (m s.1).map fun out => (out.1, (out.2, s.2))

/-- Runs a program on the second part of a store. -/
def onSnd (m : Exec τ ε α) : Exec (σ × τ) ε α :=
  fun s => (m s.2).map fun out => (out.1, (s.1, out.2))

/-- Runs `cleanup` after a program that returned or threw. A throw of `cleanup` goes first. -/
def tryFinally (m : Exec σ ε α) (cleanup : Exec σ ε Unit) : Exec σ ε α :=
  fun s =>
    match m s with
    | none => none
    | some (r, t) => (cleanup >>= fun _ => ofExcept r) t

/-- Runs `body` on every element in order. -/
def forEach (xs : List α) (body : α → Exec σ ε Unit) : Exec σ ε Unit :=
  match xs with
  | [] => pure ()
  | x :: xs => do
      body x
      forEach xs body

@[simp] theorem pure_apply (a : α) (s : σ) :
    (pure a : Exec σ ε α) s = some (.ok a, s) := rfl

theorem bind_apply (m : Exec σ ε α) (f : α → Exec σ ε β) (s : σ) :
    (m >>= f) s =
      match m s with
      | none => none
      | some (.ok a, t) => f a t
      | some (.error e, t) => some (.error e, t) := rfl

@[simp] theorem throw_apply (e : ε) (s : σ) :
    (throw e : Exec σ ε α) s = some (.error e, s) := rfl

@[simp] theorem get_apply (s : σ) : (get : Exec σ ε σ) s = some (.ok s, s) := rfl

@[simp] theorem modify_apply (f : σ → σ) (s : σ) :
    (modify f : Exec σ ε Unit) s = some (.ok (), f s) := rfl

@[simp] theorem ofExcept_apply (r : Except ε α) (s : σ) :
    (ofExcept r : Exec σ ε α) s = some (r, s) := rfl

@[simp] theorem forEach_nil (body : α → Exec σ ε Unit) :
    forEach [] body = pure () := rfl

@[simp] theorem forEach_cons (x : α) (xs : List α) (body : α → Exec σ ε Unit) :
    forEach (x :: xs) body = (body x >>= fun _ => forEach xs body) := rfl

/-- Every iteration of a loop that ends has ended. -/
theorem exists_of_mem_forEach {xs : List α} {body : α → Exec σ ε Unit} {s t : σ} {x : α}
    (h : forEach xs body s = some (.ok (), t)) (hx : x ∈ xs) :
    ∃ u v, body x u = some (.ok (), v) := by
  induction xs generalizing s with
  | nil => cases hx
  | cons y ys ih =>
      rw [forEach_cons, bind_apply] at h
      cases hbody : body y s with
      | none => simp [hbody] at h
      | some out =>
          obtain ⟨r, v⟩ := out
          cases r with
          | error e => simp [hbody] at h
          | ok u =>
              simp only [hbody] at h
              rcases List.mem_cons.mp hx with rfl | hx
              · exact ⟨s, v, hbody⟩
              · exact ih h hx

/-- A loop whose iterations each add something to a log. -/
theorem forEach_of_append {xs : List α} {body : α → Exec (List β) ε Unit} {log : α → List β}
    (h : ∀ x s, body x s = some (.ok (), s ++ log x)) (s : List β) :
    forEach xs body s = some (.ok (), s ++ xs.flatMap log) := by
  induction xs generalizing s with
  | nil => simp
  | cons x xs ih =>
      rw [forEach_cons, bind_apply, h x s]
      simpa using ih (s ++ log x)

theorem id_map (m : Exec σ ε α) : (fun a => a) <$> m = m := by
  funext s
  show (m >>= fun a => pure a) s = m s
  rw [bind_apply]
  split <;> simp_all

theorem bind_assoc {γ : Type} (m : Exec σ ε α) (f : α → Exec σ ε β) (g : β → Exec σ ε γ) :
    m >>= f >>= g = m >>= fun a => f a >>= g := by
  funext s
  simp only [bind_apply]
  cases m s with
  | none => rfl
  | some out =>
      obtain ⟨r, t⟩ := out
      cases r <;> rfl

instance : LawfulMonad (Exec σ ε) :=
  LawfulMonad.mk' (Exec σ ε) id_map (fun _ _ => rfl) bind_assoc

theorem bind_of_ok {m : Exec σ ε α} {f : α → Exec σ ε β} {s t : σ} {a : α}
    (h : m s = some (.ok a, t)) : (m >>= f) s = f a t := by
  rw [bind_apply, h]

/-- A sequence returns only if both of its parts do. -/
theorem bind_eq_ok_iff {m : Exec σ ε α} {f : α → Exec σ ε β} {s u : σ} {b : β} :
    (m >>= f) s = some (.ok b, u) ↔
      ∃ a t, m s = some (.ok a, t) ∧ f a t = some (.ok b, u) := by
  constructor
  · intro h
    rw [bind_apply] at h
    split at h
    · cases h
    · rename_i a t hm
      exact ⟨a, t, hm, h⟩
    · cases h
  · rintro ⟨a, t, hm, hf⟩
    rw [bind_of_ok hm, hf]

/-- A sequence ends with its second part, or with an error of its first part. -/
theorem bind_eq_some_iff {m : Exec σ ε α} {f : α → Exec σ ε β} {s u : σ} {r : Except ε β} :
    (m >>= f) s = some (r, u) ↔
      (∃ a t, m s = some (.ok a, t) ∧ f a t = some (r, u)) ∨
      (∃ e, m s = some (.error e, u) ∧ r = .error e) := by
  rw [bind_apply]
  constructor
  · intro h
    split at h
    · cases h
    · rename_i a t hm
      exact .inl ⟨a, t, hm, h⟩
    · rename_i e t hm
      cases h
      exact .inr ⟨e, hm, rfl⟩
  · rintro (⟨a, t, hm, hf⟩ | ⟨e, hm, rfl⟩)
    · rw [hm]
      exact hf
    · rw [hm]

theorem bind_of_error {m : Exec σ ε α} {f : α → Exec σ ε β} {s t : σ} {e : ε}
    (h : m s = some (.error e, t)) : (m >>= f) s = some (.error e, t) := by
  rw [bind_apply, h]

theorem bind_of_none {m : Exec σ ε α} {f : α → Exec σ ε β} {s : σ} (h : m s = none) :
    (m >>= f) s = none := by
  rw [bind_apply, h]

theorem tryCatch_of_none {m : Exec σ ε α} {handler : ε → Exec σ ε α} {s : σ}
    (h : m s = none) : tryCatch m handler s = none := by
  rw [tryCatch, h]

theorem tryCatch_of_ok {m : Exec σ ε α} {handler : ε → Exec σ ε α} {s t : σ} {a : α}
    (h : m s = some (.ok a, t)) : tryCatch m handler s = some (.ok a, t) := by
  rw [tryCatch, h]

theorem tryCatch_of_error {m : Exec σ ε α} {handler : ε → Exec σ ε α} {s t : σ} {e : ε}
    (h : m s = some (.error e, t)) : tryCatch m handler s = handler e t := by
  rw [tryCatch, h]

theorem tryFinally_of_ok {m : Exec σ ε α} {cleanup : Exec σ ε Unit} {s t u : σ} {r : Except ε α}
    (h : m s = some (r, t)) (hcleanup : cleanup t = some (.ok (), u)) :
    tryFinally m cleanup s = some (r, u) := by
  simp only [tryFinally, h]
  rw [bind_of_ok hcleanup]
  rfl

theorem onFst_of_some {m : Exec σ ε α} {s t : σ} {r : Except ε α} (h : m s = some (r, t)) (u : τ) :
    onFst m (s, u) = some (r, (t, u)) := by
  rw [onFst, h]
  rfl

theorem onSnd_of_some {m : Exec τ ε α} {u v : τ} {r : Except ε α} (h : m u = some (r, v)) (s : σ) :
    onSnd m (s, u) = some (r, (s, v)) := by
  rw [onSnd, h]
  rfl

/-! ## Programs that ignore the store -/

section Isolate

variable (t : Unit)

@[simp] theorem isolate_ofExcept (r : Except ε α) :
    (isolate t (ofExcept r) : Exec σ ε α) = ofExcept r := rfl

@[simp] theorem isolate_isolate (u : τ) (m : Exec τ ε α) :
    (isolate t (isolate u m) : Exec σ ε α) = isolate u m := by
  funext s
  simp only [isolate]
  cases m u <;> rfl

/-- Without a store to pass on, a sequence is isolated part by part. -/
@[simp] theorem isolate_bind (m : Exec Unit ε α) (f : α → Exec Unit ε β) :
    (isolate t (m >>= f) : Exec σ ε β) = isolate t m >>= fun a => isolate t (f a) := by
  funext s
  simp only [isolate, bind_apply]
  cases m t with
  | none => rfl
  | some out =>
      obtain ⟨r, u⟩ := out
      cases r <;> rfl

end Isolate

/-! ## Postconditions -/

/-- Every outcome of `m` from `s`, returned or thrown, satisfies `Q`. -/
def Post (m : Exec σ ε α) (s : σ) (Q : Except ε α → σ → Prop) : Prop :=
  ∀ r t, m s = some (r, t) → Q r t

theorem Post.mono {m : Exec σ ε α} {s : σ} {P Q : Except ε α → σ → Prop}
    (h : Post m s P) (hPQ : ∀ r t, P r t → Q r t) : Post m s Q :=
  fun r t hr => hPQ r t (h r t hr)

theorem Post.pure {a : α} {s : σ} {Q : Except ε α → σ → Prop}
    (h : Q (.ok a) s) : Post (pure a : Exec σ ε α) s Q := by
  intro r t hr
  cases hr
  exact h

theorem Post.throw {e : ε} {s : σ} {Q : Except ε α → σ → Prop}
    (h : Q (.error e) s) : Post (throw e : Exec σ ε α) s Q := by
  intro r t hr
  cases hr
  exact h

theorem Post.diverge {s : σ} {Q : Except ε α → σ → Prop} :
    Post (diverge : Exec σ ε α) s Q := by
  intro r t hr
  cases hr

theorem Post.modify {f : σ → σ} {s : σ} {Q : Except ε Unit → σ → Prop}
    (h : Q (.ok ()) (f s)) : Post (modify f : Exec σ ε Unit) s Q := by
  intro r t hr
  cases hr
  exact h

theorem Post.ofExcept {x : Except ε α} {s : σ} {Q : Except ε α → σ → Prop}
    (h : Q x s) : Post (ofExcept x : Exec σ ε α) s Q := by
  intro r t hr
  cases hr
  exact h

/-- The continuation starts where the first program returned; a throw skips it. -/
theorem Post.bind {m : Exec σ ε α} {f : α → Exec σ ε β} {s : σ}
    {P : Except ε α → σ → Prop} {Q : Except ε β → σ → Prop}
    (hm : Post m s P) (hok : ∀ a t, P (.ok a) t → Post (f a) t Q)
    (herr : ∀ e t, P (.error e) t → Q (.error e) t) :
    Post (m >>= f) s Q := by
  intro r t hr
  rw [bind_apply] at hr
  cases hms : m s with
  | none => simp [hms] at hr
  | some out =>
      obtain ⟨res, u⟩ := out
      cases res with
      | ok a =>
          simp only [hms] at hr
          exact hok a u (hm _ _ hms) r t hr
      | error e =>
          simp only [hms, Option.some.injEq, Prod.mk.injEq] at hr
          obtain ⟨rfl, rfl⟩ := hr
          exact herr e u (hm _ _ hms)

/-- A loop with an accumulator establishes what its iterations establish one by one. -/
theorem Post.foldlM {xs : List α} {f : β → α → Exec σ ε β} {b : β} {s : σ}
    {I : List α → β → σ → Prop} {E : ε → σ → Prop} (hs : I [] b s)
    (hstep : ∀ done x, x ∈ xs → ∀ b t, I done b t → Post (f b x) t fun r u =>
      match r with
      | .ok b' => I (done ++ [x]) b' u
      | .error e => E e u) :
    Post (xs.foldlM f b) s fun r t =>
      match r with
      | .ok b' => I xs b' t
      | .error e => E e t := by
  have hgeneral : ∀ (rest done : List α) (b : β) (t : σ), xs = done ++ rest → I done b t →
      Post (rest.foldlM f b) t fun r u =>
        match r with
        | .ok b' => I xs b' u
        | .error e => E e u := by
    intro rest
    induction rest with
    | nil =>
        intro done b t hxs ht
        rw [List.append_nil] at hxs
        exact Post.pure (hxs ▸ ht)
    | cons x rest ih =>
        intro done b t hxs ht
        rw [List.foldlM_cons]
        refine Post.bind (hstep done x (by simp [hxs]) b t ht) ?_ (fun _ _ he => he)
        intro b' u hu
        exact ih (done ++ [x]) b' u (by simp [hxs]) hu
  exact hgeneral xs [] b s rfl hs

/-! ## Movements of the store -/

/-- Every run of `m` that ends, returning or throwing, leads from a store to an `R`-related
one. -/
def Moves (R : σ → σ → Prop) (m : Exec σ ε α) : Prop :=
  ∀ s, Post m s fun _ t => R s t

theorem Moves.ite {R : σ → σ → Prop} {c : Prop} [Decidable c] {m m' : Exec σ ε α}
    (hm : Moves R m) (hm' : Moves R m') : Moves R (if c then m else m') := by
  split
  · exact hm
  · exact hm'

section Refl

variable {R : σ → σ → Prop} [Std.Refl R]

theorem Moves.pure (a : α) : Moves R (pure a : Exec σ ε α) :=
  fun s => Post.pure (refl s)

theorem Moves.throw (e : ε) : Moves R (throw e : Exec σ ε α) :=
  fun s => Post.throw (refl s)

theorem Moves.ofExcept (r : Except ε α) : Moves R (ofExcept r : Exec σ ε α) :=
  fun s => Post.ofExcept (refl s)

end Refl

theorem Moves.diverge {R : σ → σ → Prop} : Moves R (diverge : Exec σ ε α) :=
  fun _ => Post.diverge

theorem Moves.bind {R : σ → σ → Prop} [IsTrans σ R] {m : Exec σ ε α} {f : α → Exec σ ε β}
    (hm : Moves R m) (hf : ∀ a, Moves R (f a)) : Moves R (m >>= f) := by
  intro s
  refine Post.bind (hm s) ?_ fun _ _ h => h
  intro a t hst
  exact (hf a t).mono fun _ u htu => IsTrans.trans _ _ _ hst htu

section Preorder

variable {R : σ → σ → Prop} [Std.Refl R] [IsTrans σ R]

theorem Moves.forEach {xs : List α} {body : α → Exec σ ε Unit}
    (h : ∀ x, Moves R (body x)) : Moves R (forEach xs body) := by
  induction xs with
  | nil => exact Moves.pure ()
  | cons x xs ih => exact Moves.bind (h x) fun _ => ih

/-- What is related to a store in the middle of a loop leads to the store at its end. -/
theorem Moves.of_mem_forEach {xs : List α} {body : α → Exec σ ε Unit}
    (h : ∀ x, Moves R (body x)) {s u : σ} (hrun : Exec.forEach xs body s = some (.ok (), u)) {x : α}
    (hx : x ∈ xs) : ∃ t t', body x t = some (.ok (), t') ∧ R t' u := by
  induction xs generalizing s with
  | nil => cases hx
  | cons y xs ih =>
      rw [forEach_cons] at hrun
      obtain ⟨_, t, hy, hrest⟩ := bind_eq_ok_iff.mp hrun
      cases List.mem_cons.mp hx with
      | inl heq => exact ⟨s, t, heq ▸ hy, Moves.forEach h t _ _ hrest⟩
      | inr hmem => exact ih hrest hmem

theorem Moves.foldlM {f : β → α → Exec σ ε β} (h : ∀ b x, Moves R (f b x)) (xs : List α)
    (b : β) : Moves R (xs.foldlM f b) := by
  induction xs generalizing b with
  | nil => exact Moves.pure b
  | cons x xs ih =>
      rw [List.foldlM_cons]
      exact Moves.bind (h b x) ih

end Preorder

/-! ## Programs that end -/

/-- `m` returns or throws, whatever the store is. -/
def Ends (m : Exec σ ε α) : Prop :=
  ∀ s, ∃ out, m s = some out

theorem Ends.pure (a : α) : Ends (pure a : Exec σ ε α) :=
  fun _ => ⟨_, rfl⟩

theorem Ends.throw (e : ε) : Ends (throw e : Exec σ ε α) :=
  fun _ => ⟨_, rfl⟩

theorem Ends.get : Ends (get : Exec σ ε σ) :=
  fun _ => ⟨_, rfl⟩

theorem Ends.modify (f : σ → σ) : Ends (modify f : Exec σ ε Unit) :=
  fun _ => ⟨_, rfl⟩

theorem Ends.ofExcept (r : Except ε α) : Ends (ofExcept r : Exec σ ε α) :=
  fun _ => ⟨_, rfl⟩

theorem Ends.bind {m : Exec σ ε α} {f : α → Exec σ ε β} (hm : Ends m) (hf : ∀ a, Ends (f a)) :
    Ends (m >>= f) := by
  intro s
  obtain ⟨⟨r, t⟩, hms⟩ := hm s
  cases r with
  | ok a =>
      rw [bind_of_ok hms]
      exact hf a t
  | error e => exact ⟨_, bind_of_error hms⟩

theorem Ends.ite {c : Prop} [Decidable c] {m m' : Exec σ ε α} (hm : Ends m) (hm' : Ends m') :
    Ends (if c then m else m') := by
  split
  · exact hm
  · exact hm'

theorem Ends.forEach {xs : List α} {body : α → Exec σ ε Unit} (h : ∀ x, Ends (body x)) :
    Ends (forEach xs body) := by
  induction xs with
  | nil => exact Ends.pure ()
  | cons x xs ih => exact Ends.bind (h x) fun _ => ih

theorem Ends.ofExcept_bind {r : Except ε α} {f : α → Exec σ ε β}
    (hf : ∀ a, r = .ok a → Ends (f a)) : Ends (Exec.ofExcept r >>= f) := by
  intro s
  cases r with
  | ok a => exact hf a rfl s
  | error e => exact ⟨_, rfl⟩

theorem Ends.tryCatch {m : Exec σ ε α} {handler : ε → Exec σ ε α} (hm : Ends m)
    (hhandler : ∀ e, Ends (handler e)) : Ends (tryCatch m handler) := by
  intro s
  obtain ⟨⟨r, t⟩, hms⟩ := hm s
  cases r with
  | ok a => exact ⟨_, tryCatch_of_ok hms⟩
  | error e =>
      rw [tryCatch_of_error hms]
      exact hhandler e t

/-! ## Programs that only read -/

/-- `m` returns or throws, and leaves every store as it is. -/
def Reads (m : Exec σ ε α) : Prop :=
  ∀ s, ∃ r, m s = some (r, s)

theorem Reads.ends {m : Exec σ ε α} (h : Reads m) : Ends m := by
  intro s
  obtain ⟨r, hr⟩ := h s
  exact ⟨_, hr⟩

theorem Reads.same {m : Exec σ ε α} (h : Reads m) {s t : σ} {r : Except ε α}
    (hrun : m s = some (r, t)) : t = s := by
  obtain ⟨r', hr'⟩ := h s
  rw [hr'] at hrun
  cases hrun
  rfl

theorem Reads.moves {R : σ → σ → Prop} [Std.Refl R] {m : Exec σ ε α} (h : Reads m) :
    Moves R m := by
  intro s r t ht
  obtain ⟨r', hr'⟩ := h s
  rw [hr'] at ht
  cases ht
  exact refl s

theorem Reads.pure (a : α) : Reads (pure a : Exec σ ε α) :=
  fun _ => ⟨_, rfl⟩

theorem Reads.throw (e : ε) : Reads (throw e : Exec σ ε α) :=
  fun _ => ⟨_, rfl⟩

theorem Reads.get : Reads (get : Exec σ ε σ) :=
  fun _ => ⟨_, rfl⟩

theorem Reads.ofExcept (r : Except ε α) : Reads (ofExcept r : Exec σ ε α) :=
  fun _ => ⟨_, rfl⟩

theorem Reads.bind {m : Exec σ ε α} {f : α → Exec σ ε β} (hm : Reads m)
    (hf : ∀ a, Reads (f a)) : Reads (m >>= f) := by
  intro s
  obtain ⟨r, hms⟩ := hm s
  cases r with
  | ok a =>
      rw [bind_of_ok hms]
      exact hf a s
  | error e => exact ⟨_, bind_of_error hms⟩

theorem Reads.ite {c : Prop} [Decidable c] {m m' : Exec σ ε α} (hm : Reads m)
    (hm' : Reads m') : Reads (if c then m else m') := by
  split
  · exact hm
  · exact hm'

theorem Reads.tryCatch {m : Exec σ ε α} {handler : ε → Exec σ ε α} (hm : Reads m)
    (hhandler : ∀ e, Reads (handler e)) : Reads (tryCatch m handler) := by
  intro s
  obtain ⟨r, hms⟩ := hm s
  cases r with
  | ok a => exact ⟨_, tryCatch_of_ok hms⟩
  | error e =>
      rw [tryCatch_of_error hms]
      exact hhandler e s

theorem Reads.mapM {xs : List α} {f : α → Exec σ ε β} (h : ∀ x, Reads (f x)) :
    Reads (xs.mapM f) := by
  induction xs with
  | nil => exact Reads.pure []
  | cons x xs ih =>
      rw [List.mapM_cons]
      exact Reads.bind (h x) fun b => Reads.bind ih fun bs => Reads.pure (b :: bs)

/-! ## Programs with the same results -/

/-- Both programs return or throw the same, whatever the stores are. -/
def SameResult (m m' : Exec σ ε α) : Prop :=
  ∀ s s', (m s).map Prod.fst = (m' s').map Prod.fst

theorem SameResult.trans {m m' m'' : Exec σ ε α} (h : SameResult m m')
    (h' : SameResult m' m'') : SameResult m m'' :=
  fun s s'' => (h s s).trans (h' s s'')

theorem SameResult.pure (a : α) : SameResult (pure a : Exec σ ε α) (pure a) :=
  fun _ _ => rfl

theorem SameResult.throw (e : ε) : SameResult (throw e : Exec σ ε α) (throw e) :=
  fun _ _ => rfl

theorem SameResult.modify (f g : σ → σ) :
    SameResult (modify f : Exec σ ε Unit) (modify g) :=
  fun _ _ => rfl

theorem SameResult.ofExcept (r : Except ε α) :
    SameResult (ofExcept r : Exec σ ε α) (ofExcept r) :=
  fun _ _ => rfl

theorem SameResult.bind {m m' : Exec σ ε α} {f f' : α → Exec σ ε β} (hm : SameResult m m')
    (hf : ∀ a, SameResult (f a) (f' a)) : SameResult (m >>= f) (m' >>= f') := by
  intro s s'
  have hsame := hm s s'
  cases hms : m s with
  | none =>
      rw [hms] at hsame
      rw [bind_of_none hms, bind_of_none (Option.map_eq_none_iff.mp hsame.symm)]
  | some out =>
      rw [hms] at hsame
      obtain ⟨⟨r, t'⟩, hms', rfl⟩ := Option.map_eq_some_iff.mp hsame.symm
      obtain ⟨r, t⟩ := out
      cases r with
      | ok a =>
          rw [bind_of_ok hms, bind_of_ok hms']
          exact hf a t t'
      | error e =>
          rw [bind_of_error hms, bind_of_error hms']
          rfl

theorem SameResult.ite {c : Prop} [Decidable c] {m m' n n' : Exec σ ε α}
    (hm : SameResult m m') (hn : SameResult n n') :
    SameResult (if c then m else n) (if c then m' else n') := by
  split
  · exact hm
  · exact hn

/-! ## Programs that only write a log -/

section Log

variable {γ : Type}

/-- From every log, `m` ends with `r` after adding the same entries. -/
def Yields (m : Exec (List γ) ε α) (r : Except ε α) : Prop :=
  ∃ log, ∀ s, m s = some (r, s ++ log)

theorem Yields.pure (a : α) : Yields (pure a : Exec (List γ) ε α) (.ok a) :=
  ⟨[], by simp⟩

theorem Yields.throw (e : ε) : Yields (throw e : Exec (List γ) ε α) (.error e) :=
  ⟨[], by simp⟩

theorem Yields.ofExcept (r : Except ε α) : Yields (ofExcept r : Exec (List γ) ε α) r :=
  ⟨[], by simp⟩

theorem Yields.bind {m : Exec (List γ) ε α} {f : α → Exec (List γ) ε β} {a : α}
    {r : Except ε β} (hm : Yields m (.ok a)) (hf : Yields (f a) r) : Yields (m >>= f) r := by
  obtain ⟨log, hlog⟩ := hm
  obtain ⟨log', hlog'⟩ := hf
  refine ⟨log ++ log', ?_⟩
  intro s
  rw [bind_of_ok (hlog s), hlog', List.append_assoc]

theorem Yields.bind_error {m : Exec (List γ) ε α} {f : α → Exec (List γ) ε β} {e : ε}
    (hm : Yields m (.error e)) : Yields (m >>= f) (.error e) := by
  obtain ⟨log, hlog⟩ := hm
  exact ⟨log, fun s => bind_of_error (hlog s)⟩

theorem Yields.unique {m : Exec (List γ) ε α} {r r' : Except ε α} (h : Yields m r)
    (h' : Yields m r') : r = r' := by
  obtain ⟨log, hlog⟩ := h
  obtain ⟨log', hlog'⟩ := h'
  have heq := (hlog []).symm.trans (hlog' [])
  exact (Prod.mk.inj (Option.some.inj heq)).1

theorem Yields.forEach {xs : List β} {body : β → Exec (List γ) ε Unit}
    (h : ∀ x ∈ xs, Yields (body x) (.ok ())) : Yields (forEach xs body) (.ok ()) := by
  induction xs with
  | nil => exact Yields.pure ()
  | cons x xs ih =>
      rw [forEach_cons]
      exact (h x List.mem_cons_self).bind (ih fun y hy => h y (List.mem_cons_of_mem _ hy))

/-- From every log, `m` ends with `r` after adding `entries`. -/
def Logs (m : Exec (List γ) ε α) (r : Except ε α) (entries : List γ) : Prop :=
  ∀ s, m s = some (r, s ++ entries)

namespace Logs

theorem pure (a : α) : Logs (pure a : Exec (List γ) ε α) (.ok a) [] := by
  intro s
  simp

theorem throw (e : ε) : Logs (throw e : Exec (List γ) ε α) (.error e) [] := by
  intro s
  simp

theorem ofExcept (r : Except ε α) : Logs (ofExcept r : Exec (List γ) ε α) r [] := by
  intro s
  simp

variable {m : Exec (List γ) ε α} {entries entries' : List γ}

theorem yields {r : Except ε α} (h : Logs m r entries) : Yields m r :=
  ⟨entries, h⟩

/-- What is logged and how it ends are determined. -/
theorem unique {r r' : Except ε α} (h : Logs m r entries) (h' : Logs m r' entries') :
    r = r' ∧ entries = entries' := by
  have heq := (h []).symm.trans (h' [])
  simpa using heq

theorem bind {f : α → Exec (List γ) ε β} {a : α} {r : Except ε β}
    (hm : Logs m (.ok a) entries) (hf : Logs (f a) r entries') :
    Logs (m >>= f) r (entries ++ entries') := by
  intro s
  rw [bind_of_ok (hm s), hf, List.append_assoc]

/-- Nothing is logged before the rest. -/
theorem bind_eq {f : α → Exec (List γ) ε β} {a : α} (hm : Logs m (.ok a) []) :
    (m >>= f) = f a := by
  funext s
  rw [bind_of_ok (hm s), List.append_nil]

theorem ofExcept_bind {x : Except ε α} {f : α → Exec (List γ) ε β} {a : α} {r : Except ε β}
    (hx : x = .ok a) (hf : Logs (f a) r entries) :
    Logs (Exec.ofExcept x >>= f) r entries := by
  rw [hx]
  exact (Logs.ofExcept (.ok a)).bind hf

theorem bind_error {f : α → Exec (List γ) ε β} {e : ε} (hm : Logs m (.error e) entries) :
    Logs (m >>= f) (.error e) entries :=
  fun s => bind_of_error (hm s)

theorem forEach {xs : List β} {body : β → Exec (List γ) ε Unit} {log : β → List γ}
    (h : ∀ x ∈ xs, Logs (body x) (.ok ()) (log x)) :
    Logs (forEach xs body) (.ok ()) (xs.flatMap log) := by
  induction xs with
  | nil => exact Logs.pure ()
  | cons x xs ih =>
      rw [forEach_cons, List.flatMap_cons]
      exact (h x (by simp)).bind (ih fun y hy => h y (by simp [hy]))

end Logs

end Log

/-! ## Stores that a program does not tell apart -/

/-- `m` only reads, and ends in the same way from both stores. -/
def Agrees (m : Exec σ ε α) (s s' : σ) : Prop :=
  ∃ r, m s = some (r, s) ∧ m s' = some (r, s')

section Agrees

variable {s s' : σ}

theorem Agrees.reads {m : Exec σ ε α} (h : ∀ s, Agrees m s s) : Reads m := by
  intro s
  obtain ⟨r, hr, _⟩ := h s
  exact ⟨r, hr⟩

theorem Agrees.eq_some {m : Exec σ ε α} (h : Agrees m s s') {r : Except ε α} {t : σ}
    (hrun : m s = some (r, t)) : m s' = some (r, s') := by
  obtain ⟨r', hs, hs'⟩ := h
  cases hs.symm.trans hrun
  exact hs'

theorem Agrees.pure (a : α) : Agrees (pure a : Exec σ ε α) s s' :=
  ⟨_, rfl, rfl⟩

theorem Agrees.throw (e : ε) : Agrees (throw e : Exec σ ε α) s s' :=
  ⟨_, rfl, rfl⟩

theorem Agrees.ofExcept (r : Except ε α) : Agrees (ofExcept r : Exec σ ε α) s s' :=
  ⟨_, rfl, rfl⟩

/-- A program over a store of its own does not look at the outer one. -/
theorem Agrees.isolate {m : Exec τ ε α} (h : Ends m) (t₀ : τ) :
    Agrees (isolate t₀ m : Exec σ ε α) s s' := by
  obtain ⟨out, hout⟩ := h t₀
  exact ⟨out.1, by rw [Exec.isolate, hout]; rfl, by rw [Exec.isolate, hout]; rfl⟩

/-- The continuation only has to agree on what the first program returns. -/
theorem Agrees.bind {m : Exec σ ε α} {f : α → Exec σ ε β} (hm : Agrees m s s')
    (hf : ∀ a, m s = some (.ok a, s) → Agrees (f a) s s') : Agrees (m >>= f) s s' := by
  obtain ⟨r, hs, hs'⟩ := hm
  cases r with
  | ok a =>
      obtain ⟨r, hfs, hfs'⟩ := hf a hs
      exact ⟨r, by rw [bind_of_ok hs, hfs], by rw [bind_of_ok hs', hfs']⟩
  | error e => exact ⟨.error e, bind_of_error hs, bind_of_error hs'⟩

theorem Agrees.get_bind {f : σ → Exec σ ε β} (hf : f s = f s') (h : Agrees (f s) s s') :
    Agrees (get >>= f) s s' := by
  obtain ⟨r, hs, hs'⟩ := h
  exact ⟨r, hs, by rw [bind_of_ok (get_apply s'), ← hf, hs']⟩

theorem Agrees.ite {c : Prop} [Decidable c] {m m' : Exec σ ε α} (hm : Agrees m s s')
    (hm' : Agrees m' s s') : Agrees (if c then m else m') s s' := by
  split
  · exact hm
  · exact hm'

theorem Agrees.mapM {xs : List α} {f : α → Exec σ ε β} (h : ∀ x, Agrees (f x) s s') :
    Agrees (xs.mapM f) s s' := by
  induction xs with
  | nil => exact Agrees.pure []
  | cons x xs ih =>
      rw [List.mapM_cons]
      exact Agrees.bind (h x) fun b _ => Agrees.bind ih fun bs _ => Agrees.pure (b :: bs)

end Agrees

/-! ## Approximation by fuel -/

/-- `m` finishes with the same outcome as `m'` wherever `m` finishes at all. -/
def Approximates (m m' : Exec σ ε α) : Prop :=
  ∀ s out, m s = some out → m' s = some out

theorem Approximates.refl (m : Exec σ ε α) : Approximates m m :=
  fun _ _ h => h

theorem Approximates.diverge (m : Exec σ ε α) : Approximates diverge m := by
  intro s out h
  cases h

theorem Approximates.bind {m m' : Exec σ ε α} {f f' : α → Exec σ ε β}
    (hm : Approximates m m') (hf : ∀ a, Approximates (f a) (f' a)) :
    Approximates (m >>= f) (m' >>= f') := by
  intro s out h
  rw [bind_apply] at h ⊢
  cases hms : m s with
  | none => simp [hms] at h
  | some o =>
      rw [hm s o hms]
      obtain ⟨res, t⟩ := o
      cases res with
      | ok a => exact hf a t out (by simpa [hms] using h)
      | error e => simpa [hms] using h

theorem Approximates.tryCatch {m m' : Exec σ ε α} {handler : ε → Exec σ ε α}
    (hm : Approximates m m') :
    Approximates (tryCatch m handler) (tryCatch m' handler) := by
  intro s out h
  cases hms : m s with
  | none => simp [Exec.tryCatch, hms] at h
  | some o => simpa [Exec.tryCatch, hms, hm s o hms] using h

theorem Approximates.foldlM {f f' : β → α → Exec σ ε β}
    (h : ∀ b x, Approximates (f b x) (f' b x)) (xs : List α) (b : β) :
    Approximates (xs.foldlM f b) (xs.foldlM f' b) := by
  induction xs generalizing b with
  | nil => exact Approximates.refl _
  | cons x xs ih =>
      rw [List.foldlM_cons, List.foldlM_cons]
      exact Approximates.bind (h b x) ih

/-- If each of finitely many programs finishes with enough fuel, some fuel is enough for all
of them. -/
theorem exists_fuel_forall_mem {P : Nat → α → Prop} (hmono : ∀ m n x, m ≤ n → P m x → P n x)
    (xs : List α) (h : ∀ x ∈ xs, ∃ fuel, P fuel x) : ∃ fuel, ∀ x ∈ xs, P fuel x := by
  induction xs with
  | nil => exact ⟨0, by simp⟩
  | cons x xs ih =>
      rw [List.forall_mem_cons] at h
      obtain ⟨m, hm⟩ := h.1
      obtain ⟨n, hn⟩ := ih h.2
      refine ⟨max m n, List.forall_mem_cons.mpr ⟨hmono m _ x (Nat.le_max_left m n) hm, ?_⟩⟩
      intro y hy
      exact hmono n _ y (Nat.le_max_right m n) (hn y hy)

/-! ## Termination -/

/-- A loop returns from every state if every iteration does. -/
theorem foldlM_returns {f : β → α → Exec σ ε β} (xs : List α)
    (h : ∀ x ∈ xs, ∀ b s, ∃ b' t, f b x s = some (.ok b', t)) (b : β) (s : σ) :
    ∃ b' t, xs.foldlM f b s = some (.ok b', t) := by
  induction xs generalizing b s with
  | nil => exact ⟨b, s, rfl⟩
  | cons x xs ih =>
      rw [List.forall_mem_cons] at h
      obtain ⟨b', t, hx⟩ := h.1 b s
      rw [List.foldlM_cons, bind_of_ok hx]
      exact ih h.2 b' t

/-- The elements of a list that `mapM` returns come from the program for each element. -/
theorem forall₂_of_mapM {f : α → Exec σ ε β} {xs : List α} {ys : List β} {s t : σ}
    (h : xs.mapM f s = some (.ok ys, t)) :
    List.Forall₂ (fun x y => ∃ u v, f x u = some (.ok y, v)) xs ys := by
  induction xs generalizing ys s with
  | nil =>
      cases h
      exact .nil
  | cons x xs ih =>
      rw [List.mapM_cons] at h
      obtain ⟨y, u, hx, h⟩ := bind_eq_ok_iff.mp h
      obtain ⟨ys, v, hxs, h⟩ := bind_eq_ok_iff.mp h
      cases h
      exact .cons ⟨s, u, hx⟩ (ih hxs)

/-- Every iteration of a loop that returns has returned. -/
theorem returns_of_foldlM {f : β → α → Exec σ ε β} {xs : List α} {b b' : β} {s t : σ}
    (h : xs.foldlM f b s = some (.ok b', t)) :
    ∀ x ∈ xs, ∃ c u c' u', f c x u = some (.ok c', u') := by
  induction xs generalizing b s with
  | nil => simp
  | cons x xs ih =>
      rw [List.foldlM_cons] at h
      obtain ⟨c, u, hx, h⟩ := bind_eq_ok_iff.mp h
      rw [List.forall_mem_cons]
      exact ⟨⟨b, s, c, u, hx⟩, ih h⟩

end Exec

end Jayvee.Foundation
