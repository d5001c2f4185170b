/-
  ApiDocs.Proofs.Ensures

  What a computation with state and errors ensures. `Ensures x s Q E` says what holds after
  running `x` from `s`, with one condition for a result and one for an error; the rules below
  take a computation apart step by step. `Keeps R x` is the special case in which only the
  two states matter: `R` relates them however `x` ends, so for a preorder `R` it is enough to
  look at the single steps. `Sequential` says what that needs, for any property that carries over
  from the steps to the whole, and `Compositional` the same for one that errors have too.
-/

import Mathlib.Data.List.Forall2
import Mathlib.Order.Defs.Unbundled

namespace ApiDocs

variable {ε σ τ α β : Type}

/-- Run from `s`, the computation gives a result and a state with `Q`, or an error and a
state with `E`. Irreducible, so that no proof runs the computation by accident. -/
@[irreducible] def Ensures (x : EStateM ε σ α) (s : σ) (Q : α → σ → Prop) (E : ε → σ → Prop) : Prop :=
  match x s with
  | .ok a t => Q a t
  | .error e t => E e t

/-- However the computation ends, `R` relates the state before it to the state after it. -/
def Keeps (R : σ → σ → Prop) (x : EStateM ε σ α) : Prop :=
  ∀ s, Ensures x s (fun _ t => R s t) (fun _ t => R s t)

/-- The state that an outcome leaves. -/
def finalState : EStateM.Result ε σ α → σ
  | .ok _ s => s
  | .error _ s => s

@[simp] theorem finalState_ok (a : α) (s : σ) :
    finalState (.ok a s : EStateM.Result ε σ α) = s := rfl

@[simp] theorem finalState_error (e : ε) (s : σ) :
    finalState (.error e s : EStateM.Result ε σ α) = s := rfl

/-- The outcome is a result. -/
def isOk : EStateM.Result ε σ α → Bool
  | .ok _ _ => true
  | .error _ _ => false

theorem eq_ok_of_isOk {r : EStateM.Result ε σ α} (h : isOk r = true) : ∃ a, r = .ok a (finalState r) := by
  cases r with
  | ok a s => exact ⟨a, rfl⟩
  | error e s => cases h

/-- The result of an outcome, if it has one. -/
def result? : EStateM.Result ε σ α → Option α
  | .ok a _ => some a
  | .error _ _ => none

theorem eq_ok_of_result? {r : EStateM.Result ε σ α} {a : α} (h : result? r = some a) :
    r = .ok a (finalState r) := by
  cases r with
  | ok a' s =>
    cases h
    rfl
  | error e s => cases h

/-- An answer as the outcome of a computation that ends in `s`. -/
def outcome (answer : Except ε α) (s : σ) : EStateM.Result ε σ α :=
  match answer with
  | .ok a => .ok a s
  | .error e => .error e s

@[simp] theorem outcome_ok (a : α) (s : σ) :
    outcome (.ok a : Except ε α) s = .ok a s := rfl

@[simp] theorem outcome_error (e : ε) (s : σ) :
    outcome (.error e : Except ε α) s = .error e s := rfl

/-! ## Answers -/

theorem except_ok_bind (a : α) (f : α → Except ε β) : Except.ok a >>= f = f a := rfl

theorem except_bind_eq_ok_iff {x : Except ε α} {f : α → Except ε β} {b : β} :
    x >>= f = .ok b ↔ ∃ a, x = .ok a ∧ f a = .ok b := by
  cases x with
  | error e => simp [bind, Except.bind]
  | ok a => simp [bind, Except.bind]

theorem except_bind_pure_eq_error {x : Except ε α} {f : α → β} {e : ε}
    (h : (x >>= fun a => pure (f a)) = .error e) : x = .error e := by
  cases x with
  | error e' => exact congrArg Except.error (Except.error.inj h)
  | ok a => cases h

theorem mapM_eq_ok_iff {f : α → Except ε β} {l : List α} {r : List β} :
    l.mapM f = .ok r ↔ List.Forall₂ (fun a b => f a = .ok b) l r := by
  induction l generalizing r with
  | nil =>
    rw [List.mapM_nil, List.forall₂_nil_left_iff]
    exact ⟨fun h => (Except.ok.inj h).symm, fun h => h ▸ rfl⟩
  | cons a l ih =>
    rw [List.mapM_cons, List.forall₂_cons_left_iff]
    simp only [← ih]
    cases f a with
    | error e => simp [bind, Except.bind]
    | ok b =>
      cases l.mapM f with
      | error e => simp [bind, Except.bind]
      | ok bs =>
        simp only [bind, Except.bind, pure, Except.pure, Except.ok.injEq]
        exact ⟨fun h => ⟨b, bs, rfl, rfl, h.symm⟩, fun ⟨_, _, hb, hbs, h⟩ => by rw [hb, hbs, h]⟩

/-- Lists are gone through alike if their items are, up to how errors are named. -/
theorem mapM_mapError {ε' γ : Type} {e : ε → ε'} {R : α → γ → Prop} {f : α → Except ε' β}
    {g : γ → Except ε β} {l : List α} {l' : List γ} (h : List.Forall₂ R l l')
    (hfg : ∀ a c, R a c → f a = (g c).mapError e) : l.mapM f = (l'.mapM g).mapError e := by
  induction h with
  | nil => rfl
  | @cons a c l l' hac _ ih =>
    rw [List.mapM_cons, List.mapM_cons, hfg a c hac, ih]
    cases g c with
    | error e => rfl
    | ok b =>
      cases l'.mapM g with
      | error e => rfl
      | ok bs => rfl

theorem foldlM_mapError {ε' γ : Type} {e : ε → ε'} {R : α → γ → Prop} {f : β → α → Except ε' β}
    {g : β → γ → Except ε β} {l : List α} {l' : List γ} (h : List.Forall₂ R l l')
    (hfg : ∀ b a c, R a c → f b a = (g b c).mapError e) (b : β) :
    l.foldlM f b = (l'.foldlM g b).mapError e := by
  induction h generalizing b with
  | nil => rfl
  | @cons a c l l' hac _ ih =>
    rw [List.foldlM_cons, List.foldlM_cons, hfg b a c hac]
    cases g b c with
    | error e => rfl
    | ok b' => exact ih b'

theorem exists_of_mapM_eq_error {f : α → Except ε β} {l : List α} {e : ε} (h : l.mapM f = .error e) :
    ∃ a ∈ l, f a = .error e := by
  induction l with
  | nil => cases h
  | cons a l ih =>
    rw [List.mapM_cons] at h
    cases ha : f a with
    | error e' =>
      rw [ha] at h
      cases h
      exact ⟨a, List.mem_cons_self, ha⟩
    | ok b =>
      rw [ha, except_ok_bind] at h
      cases hl : l.mapM f with
      | error e' =>
        rw [hl] at h
        cases h
        obtain ⟨a', ha', hf⟩ := ih hl
        exact ⟨a', List.mem_cons_of_mem a ha', hf⟩
      | ok bs =>
        rw [hl] at h
        cases h

theorem exists_of_foldlM_eq_error {f : β → α → Except ε β} {l : List α} {b : β} {e : ε}
    (h : l.foldlM f b = .error e) : ∃ b' a, f b' a = .error e := by
  induction l generalizing b with
  | nil => cases h
  | cons a l ih =>
    rw [List.foldlM_cons] at h
    cases ha : f b a with
    | error e' =>
      rw [ha] at h
      cases h
      exact ⟨b, a, ha⟩
    | ok b' =>
      rw [ha, except_ok_bind] at h
      exact ih h

theorem exists_of_mem_forall₂ {R : α → β → Prop} {l : List α} {r : List β} (h : List.Forall₂ R l r)
    {b : β} (hb : b ∈ r) : ∃ a ∈ l, R a b := by
  induction h with
  | nil => cases hb
  | @cons a b' l r hR _ ih =>
    rcases List.mem_cons.1 hb with rfl | hb
    · exact ⟨a, List.mem_cons_self, hR⟩
    · obtain ⟨a', ha', hR'⟩ := ih hb
      exact ⟨a', List.mem_cons_of_mem a ha', hR'⟩

/-! ## Running single steps -/

theorem pure_apply (a : α) (s : σ) : (pure a : EStateM ε σ α) s = .ok a s := rfl

theorem throw_apply (e : ε) (s : σ) : (throw e : EStateM ε σ α) s = .error e s := rfl

theorem get_apply (s : σ) : (get : EStateM ε σ σ) s = .ok s s := rfl

theorem set_apply (s t : σ) : (set t : EStateM ε σ PUnit) s = .ok ⟨⟩ t := rfl

theorem modify_apply (f : σ → σ) (s : σ) : (modify f : EStateM ε σ PUnit) s = .ok ⟨⟩ (f s) := rfl

theorem bind_apply (x : EStateM ε σ α) (f : α → EStateM ε σ β) (s : σ) :
    (x >>= f) s =
      match x s with
      | .ok a t => f a t
      | .error e t => .error e t := rfl

theorem bind_eq_ok_iff {x : EStateM ε σ α} {f : α → EStateM ε σ β} {s u : σ} {b : β} :
    (x >>= f) s = .ok b u ↔ ∃ a t, x s = .ok a t ∧ f a t = .ok b u := by
  rw [bind_apply]
  cases x s with
  | ok a t =>
    refine ⟨fun h => ⟨a, t, rfl, h⟩, ?_⟩
    rintro ⟨a', t', hx, h⟩
    cases hx
    exact h
  | error e t =>
    refine ⟨fun h => (by cases h), ?_⟩
    rintro ⟨a', t', hx, -⟩
    cases hx

theorem tryCatch_apply (x : EStateM ε σ α) (handle : ε → EStateM ε σ α) (s : σ) :
    (tryCatch x handle) s =
      match x s with
      | .ok a t => .ok a t
      | .error e t => handle e t := by
  show EStateM.tryCatch x handle s = _
  delta EStateM.tryCatch
  cases x s <;> rfl

theorem map_apply (x : EStateM ε σ α) (f : α → β) (s : σ) :
    (f <$> x) s =
      match x s with
      | .ok a t => .ok (f a) t
      | .error e t => .error e t := rfl

/-! ## Rules for single steps -/

section Rules

variable {s : σ} {Q : α → σ → Prop} {E : ε → σ → Prop}

theorem ensures_of_eq_ok {x : EStateM ε σ α} {a : α} {t : σ} (hx : x s = .ok a t) (h : Q a t) :
    Ensures x s Q E := by
  rw [Ensures, hx]
  exact h

theorem ensures_of_eq_error {x : EStateM ε σ α} {e : ε} {t : σ} (hx : x s = .error e t)
    (h : E e t) : Ensures x s Q E := by
  rw [Ensures, hx]
  exact h

/-- What holds of either outcome is ensured. -/
theorem ensures_of_outcome {x : EStateM ε σ α} (hok : ∀ a t, x s = .ok a t → Q a t)
    (herror : ∀ e t, x s = .error e t → E e t) : Ensures x s Q E := by
  cases hx : x s with
  | ok a t => exact ensures_of_eq_ok hx (hok a t hx)
  | error e t => exact ensures_of_eq_error hx (herror e t hx)

theorem ensures_pure {a : α} (h : Q a s) : Ensures (pure a) s Q E :=
  ensures_of_eq_ok (pure_apply a s) h

theorem ensures_throw {e : ε} (h : E e s) : Ensures (throw e) s Q E :=
  ensures_of_eq_error (throw_apply e s) h

theorem ensures_get {Q : σ → σ → Prop} (h : Q s s) : Ensures get s Q E :=
  ensures_of_eq_ok (get_apply s) h

theorem ensures_modify {Q : PUnit → σ → Prop} {f : σ → σ} (h : Q ⟨⟩ (f s)) :
    Ensures (modify f) s Q E :=
  ensures_of_eq_ok (modify_apply f s) h

/-- A computation followed by another one. -/
theorem ensures_bind {x : EStateM ε σ α} {f : α → EStateM ε σ β} {Q : β → σ → Prop}
    (h : Ensures x s (fun a t => Ensures (f a) t Q E) E) : Ensures (x >>= f) s Q E := by
  rw [Ensures] at h ⊢
  rw [bind_apply]
  cases hx : x s with
  | ok a t =>
    rw [hx] at h
    simp only [Ensures] at h
    exact h
  | error e t => rw [hx] at h; exact h

theorem ensures_map {x : EStateM ε σ α} {f : α → β} {Q : β → σ → Prop}
    (h : Ensures x s (fun a t => Q (f a) t) E) : Ensures (f <$> x) s Q E := by
  rw [Ensures] at h ⊢
  rw [map_apply]
  cases hx : x s with
  | ok a t => rw [hx] at h; exact h
  | error e t => rw [hx] at h; exact h

theorem ensures_ofExcept {answer : Except ε α} (hok : ∀ a, answer = .ok a → Q a s)
    (herror : ∀ e, answer = .error e → E e s) :
    Ensures (ofExcept answer : EStateM ε σ α) s Q E := by
  cases answer with
  | ok a => exact ensures_pure (hok a rfl)
  | error e => exact ensures_throw (herror e rfl)

/-- What is ensured may be weakened. -/
theorem Ensures.mono {x : EStateM ε σ α} {Q' : α → σ → Prop} {E' : ε → σ → Prop}
    (h : Ensures x s Q E) (hQ : ∀ a t, Q a t → Q' a t) (hE : ∀ e t, E e t → E' e t) :
    Ensures x s Q' E' := by
  rw [Ensures] at h ⊢
  cases hx : x s with
  | ok a t => rw [hx] at h; exact hQ a t h
  | error e t => rw [hx] at h; exact hE e t h

/-- A handled error: the state is the one in which the error arose. -/
theorem ensures_tryCatch {x : EStateM ε σ α} {handle : ε → EStateM ε σ α}
    (h : Ensures x s Q (fun e t => Ensures (handle e) t Q E)) :
    Ensures (tryCatch x handle) s Q E := by
  rw [Ensures] at h ⊢
  rw [tryCatch_apply]
  cases hx : x s with
  | ok a t => rw [hx] at h; exact h
  | error e t =>
    rw [hx] at h
    simp only [Ensures] at h
    exact h

theorem Ensures.of_ok {x : EStateM ε σ α} {a : α} {t : σ} (h : Ensures x s Q E)
    (hx : x s = .ok a t) : Q a t := by
  rw [Ensures, hx] at h
  exact h

theorem Ensures.of_error {x : EStateM ε σ α} {e : ε} {t : σ} (h : Ensures x s Q E)
    (hx : x s = .error e t) : E e t := by
  rw [Ensures, hx] at h
  exact h

/-- A computation ensures both of what it ensures. -/
theorem Ensures.and {x : EStateM ε σ α} {Q' : α → σ → Prop} {E' : ε → σ → Prop}
    (h : Ensures x s Q E) (h' : Ensures x s Q' E') :
    Ensures x s (fun a t => Q a t ∧ Q' a t) (fun e t => E e t ∧ E' e t) := by
  rw [Ensures] at h h' ⊢
  cases hx : x s with
  | ok a t => rw [hx] at h h'; exact ⟨h, h'⟩
  | error e t => rw [hx] at h h'; exact ⟨h, h'⟩

/-- What follows a computation matters only where the computation can lead. -/
theorem bind_congr_of_ensures {x : EStateM ε σ α} {f g : α → EStateM ε σ β}
    (h : Ensures x s (fun a t => f a t = g a t) E) : (x >>= f) s = (x >>= g) s := by
  rw [Ensures] at h
  rw [bind_apply, bind_apply]
  cases hx : x s with
  | ok a t => rw [hx] at h; exact h
  | error e t => rfl

/-- A loop over a list that changes an accumulator keeps what each round keeps. -/
theorem ensures_foldlM {f : β → α → EStateM ε σ β} {I : β → σ → Prop} :
    ∀ (l : List α) (b : β) (s : σ), I b s →
      (∀ a ∈ l, ∀ b s, I b s → Ensures (f b a) s I E) → Ensures (l.foldlM f b) s I E
  | [], b, s, hI, _ => by
    rw [List.foldlM_nil]
    exact ensures_pure hI
  | a :: l, b, s, hI, hf => by
    rw [List.foldlM_cons]
    apply ensures_bind
    refine (hf a List.mem_cons_self b s hI).mono (fun b' t hI' => ?_) (fun _ _ h => h)
    exact ensures_foldlM l b' t hI' fun a' ha' => hf a' (List.mem_cons_of_mem a ha')

end Rules

/-! ## Properties that carry over -/

/-- A property of computations that carries over to what is put together from them. -/
structure Sequential (P : (α : Type) → EStateM ε σ α → Prop) : Prop where
  pure : ∀ {α : Type} (a : α), P α (pure a)
  bind : ∀ {α β : Type} {x : EStateM ε σ α} {f : α → EStateM ε σ β},
    P α x → (∀ a, P β (f a)) → P β (x >>= f)

/-- A property that carries over, and that every error has. -/
structure Compositional (P : (α : Type) → EStateM ε σ α → Prop) : Prop extends Sequential P where
  throw : ∀ {α : Type} (e : ε), P α (throw e)

section Properties

variable {P : (α : Type) → EStateM ε σ α → Prop}

theorem Sequential.foldlM (h : Sequential P) {f : β → α → EStateM ε σ β} (l : List α) (b : β)
    (hf : ∀ a b, P β (f b a)) : P β (l.foldlM f b) := by
  induction l generalizing b with
  | nil => exact h.pure b
  | cons a l ih =>
    rw [List.foldlM_cons]
    exact h.bind (hf a b) ih

theorem Sequential.forM (h : Sequential P) {f : α → EStateM ε σ PUnit} (l : List α)
    (hf : ∀ a, P PUnit (f a)) : P PUnit (l.forM f) := by
  induction l with
  | nil => exact h.pure _
  | cons a l ih => exact h.bind (hf a) fun _ => ih

theorem Compositional.ofExcept (h : Compositional P) (answer : Except ε α) :
    P α (ofExcept answer) := by
  cases answer with
  | ok a => exact h.pure a
  | error e => exact h.throw e

end Properties

/-! ## What a preorder on states keeps -/

section Keeps

variable {R : σ → σ → Prop}

theorem Keeps.finalState {x : EStateM ε σ α} (h : Keeps R x) (s : σ) :
    R s (finalState (x s)) := by
  have hs := h s
  rw [Ensures] at hs
  cases hx : x s with
  | ok a t => rw [hx] at hs; exact hs
  | error e t => rw [hx] at hs; exact hs

theorem Keeps.mono {R' : σ → σ → Prop} {x : EStateM ε σ α} (h : Keeps R x)
    (hR : ∀ s t, R s t → R' s t) : Keeps R' x :=
  fun s => (h s).mono (fun _ t => hR s t) (fun _ t => hR s t)

theorem Keeps.map {x : EStateM ε σ α} (f : α → β) (hx : Keeps R x) : Keeps R (f <$> x) :=
  fun s => ensures_map (hx s)

theorem Keeps.discard {x : EStateM ε σ α} (hx : Keeps R x) : Keeps R (discard x) :=
  hx.map _

variable [IsPreorder σ R]

theorem keeps_pure (a : α) : Keeps R (pure a : EStateM ε σ α) :=
  fun s => ensures_pure (refl_of R s)

theorem keeps_throw (e : ε) : Keeps R (throw e : EStateM ε σ α) :=
  fun s => ensures_throw (refl_of R s)

theorem keeps_get : Keeps R (get : EStateM ε σ σ) :=
  fun s => ensures_get (refl_of R s)

theorem Keeps.bind {x : EStateM ε σ α} {f : α → EStateM ε σ β} (hx : Keeps R x)
    (hf : ∀ a, Keeps R (f a)) : Keeps R (x >>= f) := by
  intro s
  apply ensures_bind
  refine (hx s).mono (fun a t hst => ?_) (fun _ _ h => h)
  exact (hf a t).mono (fun _ u htu => trans_of R hst htu) (fun _ u htu => trans_of R hst htu)

theorem Keeps.tryCatch {x : EStateM ε σ α} {handle : ε → EStateM ε σ α} (hx : Keeps R x)
    (hhandle : ∀ e, Keeps R (handle e)) : Keeps R (tryCatch x handle) := by
  intro s
  apply ensures_tryCatch
  refine (hx s).mono (fun _ _ h => h) (fun e t hst => ?_)
  exact (hhandle e t).mono (fun _ u htu => trans_of R hst htu) (fun _ u htu => trans_of R hst htu)

theorem compositional_keeps (R : σ → σ → Prop) [IsPreorder σ R] :
    Compositional fun (α : Type) (x : EStateM ε σ α) => Keeps R x :=
  ⟨⟨keeps_pure, Keeps.bind⟩, keeps_throw⟩

theorem keeps_ofExcept (answer : Except ε α) : Keeps R (ofExcept answer : EStateM ε σ α) :=
  (compositional_keeps R).ofExcept answer

theorem Keeps.foldlM {f : β → α → EStateM ε σ β} (l : List α) (b : β)
    (hf : ∀ a b, Keeps R (f b a)) : Keeps R (l.foldlM f b) :=
  (compositional_keeps R).foldlM l b hf

theorem Keeps.forM {f : α → EStateM ε σ PUnit} (l : List α) (hf : ∀ a, Keeps R (f a)) :
    Keeps R (l.forM f) :=
  (compositional_keeps R).forM l hf

end Keeps
end ApiDocs
