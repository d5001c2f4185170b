/-
  ApiDocs.Proofs.Alike

  Two runs of one computation. `Alike R x` says that from states which `R` relates, `x` gives
  the same answer, be it a result or an error, and leaves states which `R` relates. Like
  `Keeps R`, it carries over to whatever is put together from such computations
  (`compositional_alike`). A computation that has both properties is a plain function of where
  it starts, as long as only such steps are taken: `Gives I x given` says that from any state
  with `I`, `x` gives `given` and leaves a state with `I`.
-/

import ApiDocs.Proofs.Ensures

namespace ApiDocs

variable {ε σ α β : Type}

/-! ## The same answer twice -/

/-- What an outcome says, without the state that it leaves. -/
def answer : EStateM.Result ε σ α → Except ε α
  | .ok a _ => .ok a
  | .error e _ => .error e

@[simp] theorem answer_ok (a : α) (s : σ) :
    answer (.ok a s : EStateM.Result ε σ α) = .ok a := rfl

@[simp] theorem answer_error (e : ε) (s : σ) :
    answer (.error e s : EStateM.Result ε σ α) = .error e := rfl

@[simp] theorem answer_outcome (given : Except ε α) (s : σ) : answer (outcome given s) = given := by
  cases given <;> rfl

theorem eq_ok_of_answer {r : EStateM.Result ε σ α} {a : α} (h : answer r = .ok a) :
    r = .ok a (finalState r) := by
  cases r with
  | ok b s =>
    obtain rfl := Except.ok.inj h
    rfl
  | error e s => cases h

/-- From states that `R` relates, the computation gives the same answer and leaves states
that `R` relates. -/
def Alike (R : σ → σ → Prop) (x : EStateM ε σ α) : Prop :=
  ∀ s t, R s t → answer (x s) = answer (x t) ∧ R (finalState (x s)) (finalState (x t))

section Alike

variable {R : σ → σ → Prop}

/-- Two runs both give the same result or both fail with the same error. -/
theorem Alike.outcomes {x : EStateM ε σ α} (hx : Alike R x) {s t : σ} (hst : R s t) :
    (∃ a s' t', x s = .ok a s' ∧ x t = .ok a t' ∧ R s' t') ∨
    (∃ e s' t', x s = .error e s' ∧ x t = .error e t' ∧ R s' t') := by
  obtain ⟨hanswer, hfinal⟩ := hx s t hst
  cases hs : x s with
  | ok a s' =>
    cases ht : x t with
    | ok b t' =>
      rw [hs, ht] at hanswer hfinal
      obtain rfl := Except.ok.inj hanswer
      exact .inl ⟨a, s', t', rfl, rfl, hfinal⟩
    | error e t' =>
      rw [hs, ht] at hanswer
      cases hanswer
  | error e s' =>
    cases ht : x t with
    | ok b t' =>
      rw [hs, ht] at hanswer
      cases hanswer
    | error e' t' =>
      rw [hs, ht] at hanswer hfinal
      obtain rfl := Except.error.inj hanswer
      exact .inr ⟨e, s', t', rfl, rfl, hfinal⟩

theorem alike_pure (a : α) : Alike R (pure a : EStateM ε σ α) :=
  fun _ _ hst => ⟨rfl, hst⟩

theorem alike_throw (e : ε) : Alike R (throw e : EStateM ε σ α) :=
  fun _ _ hst => ⟨rfl, hst⟩

theorem alike_modify {f : σ → σ} (h : ∀ s t, R s t → R (f s) (f t)) :
    Alike R (modify f : EStateM ε σ PUnit) :=
  fun s t hst => ⟨rfl, h s t hst⟩

/-- Looking at the state, as far as related states look the same. -/
theorem alike_get_bind {f : σ → EStateM ε σ α} (heq : ∀ s t, R s t → f s = f t)
    (hf : ∀ s, Alike R (f s)) : Alike R (get >>= f) := by
  intro s t hst
  show answer (f s s) = answer (f t t) ∧ R (finalState (f s s)) (finalState (f t t))
  rw [← heq s t hst]
  exact hf s s t hst

theorem Alike.bind {x : EStateM ε σ α} {f : α → EStateM ε σ β} (hx : Alike R x)
    (hf : ∀ a, Alike R (f a)) : Alike R (x >>= f) := by
  intro s t hst
  rw [bind_apply, bind_apply]
  rcases hx.outcomes hst with ⟨a, s', t', hs, ht, hst'⟩ | ⟨e, s', t', hs, ht, hst'⟩
  · rw [hs, ht]
    exact hf a s' t' hst'
  · rw [hs, ht]
    exact ⟨rfl, hst'⟩

theorem Alike.tryCatch {x : EStateM ε σ α} {handle : ε → EStateM ε σ α} (hx : Alike R x)
    (hhandle : ∀ e, Alike R (handle e)) : Alike R (tryCatch x handle) := by
  intro s t hst
  rw [tryCatch_apply, tryCatch_apply]
  rcases hx.outcomes hst with ⟨a, s', t', hs, ht, hst'⟩ | ⟨e, s', t', hs, ht, hst'⟩
  · rw [hs, ht]
    exact ⟨rfl, hst'⟩
  · rw [hs, ht]
    exact hhandle e s' t' hst'

theorem compositional_alike (R : σ → σ → Prop) :
    Compositional fun (α : Type) (x : EStateM ε σ α) => Alike R x :=
  ⟨⟨alike_pure, Alike.bind⟩, alike_throw⟩

end Alike

/-! ## The same answer from many states -/

/-- From every state with `I`, the computation gives this answer and leaves a state with `I`. -/
def Gives (I : σ → Prop) (x : EStateM ε σ α) (given : Except ε α) : Prop :=
  ∀ s, I s → answer (x s) = given ∧ I (finalState (x s))

section Gives

variable {I : σ → Prop}

/-- What gives the same answer in related states and keeps states related. -/
theorem Alike.gives {R : σ → σ → Prop} [IsPreorder σ R] {x : EStateM ε σ α} (hx : Alike R x)
    (hkeeps : Keeps R x) (s : σ) : Gives (R s) x (answer (x s)) := by
  intro t hst
  exact ⟨(hx s t hst).1.symm, trans_of R hst (hkeeps.finalState t)⟩

theorem gives_pure (a : α) : Gives I (pure a : EStateM ε σ α) (.ok a) :=
  fun _ hs => ⟨rfl, hs⟩

theorem gives_modify {f : σ → σ} (h : ∀ s, I s → I (f s)) :
    Gives I (modify f : EStateM ε σ PUnit) (.ok ⟨⟩) :=
  fun s hs => ⟨rfl, h s hs⟩

/-- Looking at the state, as far as all states with `I` look the same. -/
theorem gives_get_bind {f : σ → EStateM ε σ α} {given : Except ε α}
    (hf : ∀ s, I s → Gives I (f s) given) : Gives I (get >>= f) given :=
  fun s hs => hf s hs s hs

theorem Gives.bind {x : EStateM ε σ α} {f : α → EStateM ε σ β} {given : Except ε α}
    {next : α → Except ε β} (hx : Gives I x given) (hf : ∀ a, Gives I (f a) (next a)) :
    Gives I (x >>= f) (given >>= next) := by
  intro s hs
  obtain ⟨hanswer, hfinal⟩ := hx s hs
  rw [bind_apply, ← hanswer]
  cases hxs : x s with
  | ok a t =>
    rw [hxs] at hfinal
    exact hf a t hfinal
  | error e t =>
    rw [hxs] at hfinal
    exact ⟨rfl, hfinal⟩

/-- Followed by something that succeeds. -/
theorem Gives.then {x : EStateM ε σ α} {y : EStateM ε σ PUnit} {given : Except ε α}
    (hx : Gives I x given) (hy : Gives I y (.ok ⟨⟩)) : Gives I (do let a ← x; y; return a) given := by
  have hrest : ∀ a : α, Gives I (do y; return a) (.ok a) := fun a => hy.bind fun _ => gives_pure a
  have hboth := hx.bind hrest
  rwa [show given >>= Except.ok = given from bind_pure given] at hboth

theorem Gives.mapM {f : α → EStateM ε σ β} {given : α → Except ε β} (l : List α)
    (hf : ∀ a, Gives I (f a) (given a)) : Gives I (l.mapM f) (l.mapM given) := by
  induction l with
  | nil => exact gives_pure []
  | cons a l ih =>
    rw [List.mapM_cons, List.mapM_cons]
    exact (hf a).bind fun b => ih.bind fun bs => gives_pure (b :: bs)

/-- A loop whose rounds all succeed. -/
theorem Gives.forM {f : α → EStateM ε σ PUnit} (l : List α) (hf : ∀ a, Gives I (f a) (.ok ⟨⟩)) :
    Gives I (l.forM f) (.ok ⟨⟩) := by
  induction l with
  | nil => exact gives_pure PUnit.unit
  | cons a l ih => exact (hf a).bind fun _ => ih

end Gives

/-- A loop that forgets what its rounds give. -/
theorem forM_eq_mapM {f : α → EStateM ε σ β} {g : α → EStateM ε σ PUnit} (l : List α)
    (h : ∀ a, g a = (do let _ ← f a)) : l.forM g = (do let _ ← l.mapM f) := by
  induction l with
  | nil => rfl
  | cons a l ih =>
    show (g a >>= fun _ => l.forM g) = _
    rw [List.mapM_cons, h, ih]
    simp only [bind_assoc, pure_bind]

end ApiDocs
