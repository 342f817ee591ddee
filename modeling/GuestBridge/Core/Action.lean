import GuestBridge.Core.State

/-!
# Actions

An attempt on a state answers a value or an error; an action is one whose errors are those of the
bridge. Unlike a computation that is undone when it fails, it keeps what it did before failing:
every attempt hands on a state. The simp lemmas say what the steps of an attempt do to a state.
-/

set_option autoImplicit false

namespace GuestBridge

/-- A computation on a state that may fail, and whose effects on the state stay when it does. -/
def Attempt (ε σ α : Type) : Type := σ → Except ε α × σ

abbrev Action (σ α : Type) : Type := Attempt BridgeError σ α

namespace Attempt

variable {ε σ α β : Type}

protected def pure (a : α) : Attempt ε σ α := fun s => (.ok a, s)

protected def bind (x : Attempt ε σ α) (f : α → Attempt ε σ β) : Attempt ε σ β := fun s =>
  match x s with
  | (.ok a, s) => f a s
  | (.error e, s) => (.error e, s)

instance : Monad (Attempt ε σ) where
  pure := Attempt.pure
  bind := Attempt.bind

/-- Stops with an error. -/
def fail (e : ε) : Attempt ε σ α := fun s => (.error e, s)

/-- The answer of a computation that does not touch the state. -/
def lift (x : Except ε α) : Attempt ε σ α := fun s => (x, s)

def get : Attempt ε σ σ := fun s => (.ok s, s)

def modify (f : σ → σ) : Attempt ε σ Unit := fun s => (.ok (), f s)

/-- An attempt that cannot fail. -/
def state (f : σ → α × σ) : Attempt ε σ α := fun s => let (a, s) := f s; (.ok a, s)

/-- Makes an attempt and answers how it went. -/
def outcome (x : Attempt ε σ α) : Attempt ε σ (Except ε α) := fun s =>
  let (r, s) := x s
  (.ok r, s)

/-- Tidies up after an attempt that fails. -/
def onError (x : Attempt ε σ α) (tidy : ε → σ → σ) : Attempt ε σ α := fun s =>
  match x s with
  | (.ok a, s) => (.ok a, s)
  | (.error e, s) => (.error e, tidy e s)

/-- Gives the errors of an attempt another type. -/
def mapError {δ : Type} (f : ε → δ) (x : Attempt ε σ α) : Attempt δ σ α := fun s =>
  let (r, s) := x s
  (r.mapError f, s)

@[simp] theorem pure_apply (a : α) (s : σ) : (pure a : Attempt ε σ α) s = (.ok a, s) := rfl

theorem bind_apply (x : Attempt ε σ α) (f : α → Attempt ε σ β) (s : σ) :
    (x >>= f) s =
      match x s with
      | (.ok a, s) => f a s
      | (.error e, s) => (.error e, s) := rfl

theorem bind_of_ok {x : Attempt ε σ α} {f : α → Attempt ε σ β} {s s' : σ} {a : α}
    (h : x s = (.ok a, s')) : (x >>= f) s = f a s' := by
  rw [bind_apply, h]

theorem bind_of_error {x : Attempt ε σ α} {f : α → Attempt ε σ β} {s s' : σ} {e : ε}
    (h : x s = (.error e, s')) : (x >>= f) s = (.error e, s') := by
  rw [bind_apply, h]

theorem bind_eq_ok_iff {x : Attempt ε σ α} {f : α → Attempt ε σ β} {s t : σ} {b : β} :
    (x >>= f) s = (.ok b, t) ↔ ∃ a u, x s = (.ok a, u) ∧ f a u = (.ok b, t) := by
  rw [bind_apply]
  rcases x s with ⟨e | a, u⟩
  · simp
  · constructor
    · exact fun h => ⟨a, u, rfl, h⟩
    · rintro ⟨_, _, ⟨⟩, h⟩
      exact h

@[simp] theorem fail_apply (e : ε) (s : σ) : (fail e : Attempt ε σ α) s = (.error e, s) := rfl

@[simp] theorem lift_apply (x : Except ε α) (s : σ) : lift x s = (x, s) := rfl

@[simp] theorem get_apply (s : σ) : (get : Attempt ε σ σ) s = (.ok s, s) := rfl

@[simp] theorem modify_apply (f : σ → σ) (s : σ) :
    (modify f : Attempt ε σ Unit) s = (.ok (), f s) := rfl

@[simp] theorem state_apply (f : σ → α × σ) (s : σ) :
    (state f : Attempt ε σ α) s = (.ok (f s).1, (f s).2) := rfl

@[simp] theorem outcome_apply (x : Attempt ε σ α) (s : σ) :
    outcome x s = (.ok (x s).1, (x s).2) := rfl

@[simp] theorem mapError_apply {δ : Type} (f : ε → δ) (x : Attempt ε σ α) (s : σ) :
    x.mapError f s = ((x s).1.mapError f, (x s).2) := rfl

instance : LawfulMonad (Attempt ε σ) :=
  LawfulMonad.mk' (Attempt ε σ)
    (fun x => by
      funext s
      show Attempt.bind x (fun a => Attempt.pure (id a)) s = x s
      unfold Attempt.bind Attempt.pure
      rcases x s with ⟨_ | _, _⟩ <;> rfl)
    (fun _ _ => rfl)
    (fun x f g => by
      funext s
      show Attempt.bind (Attempt.bind x f) g s =
        Attempt.bind x (fun a => Attempt.bind (f a) g) s
      unfold Attempt.bind
      rcases x s with ⟨_ | _, _⟩ <;> rfl)

end Attempt

namespace Action

variable {σ α : Type}

def liftMemory (x : Except MemoryError α) : Action σ α := .lift (x.mapError .memory)

def liftRegistry (x : Except RegistryError α) : Action σ α := .lift (x.mapError .registry)

end Action

end GuestBridge
