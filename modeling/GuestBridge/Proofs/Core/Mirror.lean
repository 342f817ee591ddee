import GuestBridge.Core.Action

/-!
# Attempts that mirror each other

`Attempt.Mirrors R A x x'` compares two attempts: begun in states that `R` relates, they end in such
states, with the same error or with answers that `A` relates. It goes through sequences, and so
carries a comparison of two runs from the steps to the whole (`Attempt.Mirrors.bind`).
-/

set_option autoImplicit false

namespace GuestBridge.Attempt

variable {ε σ α β : Type} {R : σ → σ → Prop} {A : α → α → Prop} {B : β → β → Prop}

/-- How two attempts end alike. -/
inductive Matches (A : α → α → Prop) : Except ε α → Except ε α → Prop
  | ok {a a' : α} (h : A a a') : Matches A (.ok a) (.ok a')
  | error (e : ε) : Matches A (.error e) (.error e)

def Mirrors (R : σ → σ → Prop) (A : α → α → Prop) (x x' : Attempt ε σ α) : Prop :=
  ∀ s s', R s s' → Matches A (x s).1 (x' s').1 ∧ R (x s).2 (x' s').2

theorem Matches.eq {r r' : Except ε α} (h : Matches Eq r r') : r' = r := by
  cases h with
  | ok h => rw [h]
  | error e => rfl

theorem matches_eq (r : Except ε α) : Matches Eq r r := by
  cases r with
  | ok a => exact .ok rfl
  | error e => exact .error e

theorem Matches.mono {A' : α → α → Prop} {r r' : Except ε α} (h : Matches A r r')
    (hA : ∀ a a', r = .ok a → A a a' → A' a a') : Matches A' r r' := by
  cases h with
  | ok h => exact .ok (hA _ _ rfl h)
  | error e => exact .error e

namespace Mirrors

variable {x x' : Attempt ε σ α} {f f' : α → Attempt ε σ β}

theorem bind (hx : Mirrors R A x x') (hf : ∀ a a', A a a' → Mirrors R B (f a) (f' a')) :
    Mirrors R B (x >>= f) (x' >>= f') := by
  intro s s' hs
  obtain ⟨ha, ht⟩ := hx s s' hs
  rw [bind_apply, bind_apply]
  generalize x s = p at ha ht
  generalize x' s' = p' at ha ht
  obtain ⟨r, t⟩ := p
  obtain ⟨r', t'⟩ := p'
  cases ha with
  | ok ha => exact hf _ _ ha t t' ht
  | error e => exact ⟨.error e, ht⟩

theorem bind_eq (hx : Mirrors R Eq x x') (hf : ∀ a, Mirrors R B (f a) (f' a)) :
    Mirrors R B (x >>= f) (x' >>= f') :=
  hx.bind fun a _ ha => ha ▸ hf a

/-- The same made of the same answer. -/
theorem answer (hx : Mirrors R Eq x x') (g : α → β) :
    Mirrors R Eq (x >>= fun a => pure (g a)) (x' >>= fun a => pure (g a)) :=
  hx.bind_eq fun _ _ _ hs => ⟨.ok rfl, hs⟩

theorem mono {A' : α → α → Prop} (hx : Mirrors R A x x')
    (hA : ∀ s a a', (x s).1 = .ok a → A a a' → A' a a') : Mirrors R A' x x' := fun s s' hs =>
  ⟨(hx s s' hs).1.mono fun a a' hr => hA s a a' hr, (hx s s' hs).2⟩

end Mirrors

theorem mirrors_pure {a a' : α} (h : A a a') :
    Mirrors R A (pure a : Attempt ε σ α) (pure a') :=
  fun _ _ hs => ⟨.ok h, hs⟩

theorem mirrors_fail (e : ε) : Mirrors R A (fail e) (fail e) := fun _ _ hs => ⟨.error e, hs⟩

theorem mirrors_lift (r : Except ε α) : Mirrors R Eq (lift r) (lift r) := fun _ _ hs =>
  ⟨matches_eq r, hs⟩

theorem mirrors_modify {g g' : σ → σ} (h : ∀ s s', R s s' → R (g s) (g' s')) :
    Mirrors R Eq (modify g : Attempt ε σ Unit) (modify g') :=
  fun s s' hs => ⟨.ok rfl, h s s' hs⟩

theorem mirrors_state {g g' : σ → α × σ}
    (h : ∀ s s', R s s' → A (g s).1 (g' s').1 ∧ R (g s).2 (g' s').2) :
    Mirrors R A (state g : Attempt ε σ α) (state g') :=
  fun s s' hs => ⟨.ok (h s s' hs).1, (h s s' hs).2⟩

theorem mirrors_outcome {x x' : Attempt ε σ α} (hx : Mirrors R Eq x x') :
    Mirrors R Eq x.outcome x'.outcome := fun s s' hs =>
  ⟨.ok (hx s s' hs).1.eq.symm, (hx s s' hs).2⟩

end GuestBridge.Attempt
