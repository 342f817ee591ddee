import GuestBridge.Core.Access

/-!
# Contracts of attempts

What an attempt promises of the states it leads to. `Attempt.Meets` is a contract with one
postcondition for each way to end, `Attempt.Keeps` the contract of an attempt that preserves a
property however it ends. Both go through sequences, `Attempt.Meets.bind` and
`Attempt.Keeps.bind`.
-/

set_option autoImplicit false

namespace GuestBridge

namespace Attempt

variable {ε σ α β : Type} {P : σ → Prop}

/-- Making something of the answer does not touch the state. -/
theorem bind_pure_apply (x : Attempt ε σ α) (f : α → β) (s : σ) :
    (x >>= fun a => pure (f a)) s = ((x s).1.map f, (x s).2) := by
  rw [bind_apply]
  rcases x s with ⟨e | a, t⟩ <;> rfl

theorem snd_bind_pure (x : Attempt ε σ α) (f : α → β) (s : σ) :
    ((x >>= fun a => pure (f a)) s).2 = (x s).2 := by
  rw [bind_pure_apply]

/-- From every state with `P`, the attempt either answers and leaves `Q`, or fails and leaves
`E`. -/
def Meets (P : σ → Prop) (x : Attempt ε σ α) (Q : α → σ → Prop) (E : ε → σ → Prop) : Prop :=
  ∀ s, P s →
    match x s with
    | (.ok a, t) => Q a t
    | (.error e, t) => E e t

/-- However the attempt ends, it preserves `P`. -/
def Keeps (P : σ → Prop) (x : Attempt ε σ α) : Prop := ∀ s, P s → P (x s).2

/-! ## Contracts -/

section

variable {Q : α → σ → Prop} {R : β → σ → Prop} {E : ε → σ → Prop}

theorem Meets.bind {x : Attempt ε σ α} {f : α → Attempt ε σ β} (hx : Meets P x Q E)
    (hf : ∀ a, Meets (Q a) (f a) R E) : Meets P (x >>= f) R E := by
  intro s hs
  have h := hx s hs
  rw [bind_apply]
  rcases hr : x s with ⟨e | a, t⟩
  · rw [hr] at h
    exact h
  · rw [hr] at h
    exact hf a t h

theorem meets_pure {a : α} (h : ∀ s, P s → Q a s) : Meets P (pure a : Attempt ε σ α) Q E :=
  fun s hs => h s hs

theorem meets_fail {e : ε} (h : ∀ s, P s → E e s) : Meets P (fail e : Attempt ε σ α) Q E :=
  fun s hs => h s hs

theorem meets_state {f : σ → α × σ} (h : ∀ s, P s → Q (f s).1 (f s).2) :
    Meets P (state f : Attempt ε σ α) Q E :=
  fun s hs => h s hs

/-- A postcondition that does not depend on how the attempt ends. -/
theorem meets_iff_snd {x : Attempt ε σ α} {P' : σ → Prop} :
    Meets P x (fun _ => P') (fun _ => P') ↔ ∀ s, P s → P' (x s).2 := by
  refine forall₂_congr fun s _ => ?_
  rcases x s with ⟨e | a, t⟩ <;> rfl

theorem Meets.keeps {x : Attempt ε σ α} (h : Meets P x (fun _ => P) (fun _ => P)) :
    Keeps P x :=
  meets_iff_snd.1 h

theorem Keeps.meets_of {x : Attempt ε σ α} (h : Keeps P x) (hE : ∀ e s, P s → E e s) :
    Meets P x (fun _ => P) E := by
  intro s hs
  have h := h s hs
  rcases hr : x s with ⟨e | a, t⟩
  · rw [hr] at h
    exact hE e t h
  · rw [hr] at h
    exact h

theorem Keeps.meets {x : Attempt ε σ α} (h : Keeps P x) :
    Meets P x (fun _ => P) (fun _ => P) :=
  h.meets_of fun _ _ hs => hs

end

/-! ## Preservation -/

theorem Keeps.bind {x : Attempt ε σ α} {f : α → Attempt ε σ β} (hx : Keeps P x)
    (hf : ∀ a, Keeps P (f a)) : Keeps P (x >>= f) :=
  (Meets.bind hx.meets fun a => (hf a).meets).keeps

/-- An attempt that leaves the state as it is preserves everything. -/
theorem keeps_of_snd_eq {x : Attempt ε σ α} (h : ∀ s, (x s).2 = s) : Keeps P x := by
  intro s hs
  rw [h s]
  exact hs

theorem keeps_pure (a : α) : Keeps P (pure a : Attempt ε σ α) := fun _ hs => hs

theorem keeps_get : Keeps P (.get : Attempt ε σ σ) := fun _ h => h

theorem keeps_fail (e : ε) : Keeps P (fail e : Attempt ε σ α) := fun _ hs => hs

theorem keeps_lift (x : Except ε α) : Keeps P (lift x : Attempt ε σ α) := fun _ hs => hs

theorem keeps_outcome {x : Attempt ε σ α} (h : Keeps P x) : Keeps P x.outcome :=
  fun s hs => h s hs

theorem keeps_modify {f : σ → σ} (h : ∀ s, P s → P (f s)) :
    Keeps P (modify f : Attempt ε σ Unit) :=
  fun s hs => h s hs

theorem keeps_state {f : σ → α × σ} (h : ∀ s, P s → P (f s).2) :
    Keeps P (state f : Attempt ε σ α) :=
  fun s hs => h s hs

end Attempt

namespace Action

variable {σ α : Type} {P : σ → Prop}

theorem keeps_liftMemory (x : Except MemoryError α) :
    Attempt.Keeps P (liftMemory x : Action σ α) :=
  Attempt.keeps_lift _

end Action

/-! ## Reading the core -/

namespace Core

open Attempt

variable {G : Type} {P : Core G → Prop}

theorem keeps_guestMemory : Keeps P (guestMemory : Action (Core G) Memory) := by
  refine keeps_of_snd_eq fun s => ?_
  unfold guestMemory
  split <;> rfl

theorem keeps_readString (ptr len : UInt32) :
    Keeps P (readString ptr len : Action (Core G) String) :=
  keeps_guestMemory.bind fun _ => Action.keeps_liftMemory _

theorem keeps_object (c : ObjectClass) (handle : UInt32) :
    Keeps P (object c handle : Action (Core G) (Native c)) :=
  fun _ hs => hs

theorem keeps_location (handle : UInt32) :
    Keeps P (location handle : Action (Core G) (Option Location)) :=
  fun _ hs => hs

/-- How an access to the guest's memory fails. -/
def memoryFault? {α : Type} (s : Core G) (access : Except MemoryError α) : Option BridgeError :=
  if s.bridge.attached then
    match access with
    | .ok _ => none
    | .error e => some (.memory e)
  else some .noGuest

/-- What is wrong with an array of `count` words at `ptr`: there is no guest, or the pointer is no
multiple of four, or the array does not lie in the guest's memory. -/
def arrayFault? (s : Core G) (ptr count : UInt32) : Option BridgeError :=
  if s.bridge.attached then
    if ptr.toNat % 4 ≠ 0 then some (.memory (.misaligned ptr .u32))
    else if s.memory.size < ptr.toNat + count.toNat * 4 then
      some (.memory (.outOfBounds ptr (count.toNat * 4) s.memory.size))
    else none
  else some .noGuest

theorem memoryFault?_check (s : Core G) (ptr count : UInt32) :
    s.memoryFault? (s.memory.check ⟨.u32, ptr, count⟩) = s.arrayFault? ptr count := by
  have hcheck : s.memory.check ⟨.u32, ptr, count⟩ =
      if ptr.toNat % 4 ≠ 0 then .error (.misaligned ptr .u32)
      else if s.memory.size < ptr.toNat + count.toNat * 4 then
        .error (.outOfBounds ptr (count.toNat * 4) s.memory.size)
      else .ok ⟨ptr.toNat, ptr.toNat + count.toNat * 4⟩ := rfl
  unfold memoryFault? arrayFault?
  rw [hcheck]
  by_cases hal : ptr.toNat % 4 ≠ 0
  · rw [if_pos hal, if_pos hal]
  · rw [if_neg hal, if_neg hal]
    by_cases hout : s.memory.size < ptr.toNat + count.toNat * 4
    · rw [if_pos hout, if_pos hout]
    · rw [if_neg hout, if_neg hout]

/-- Words are read from memory wherever there is an array of them. -/
theorem memoryFault?_readWords (s : Core G) (ptr count : UInt32) :
    s.memoryFault? (s.memory.readWords ptr count) = s.arrayFault? ptr count := by
  rw [← memoryFault?_check]
  unfold memoryFault? Memory.readWords Memory.readView
  cases s.memory.check ⟨.u32, ptr, count⟩ <;> rfl

section

variable {α β : Type} {access : Memory → Except MemoryError α} {s : Core G}

/-- An access to the guest's memory that succeeds. -/
theorem access_of_ok {a : α} (ha : s.bridge.attached = true) (h : access s.memory = .ok a)
    (f : α → Action (Core G) β) :
    (do
      let memory ← guestMemory
      f (← Action.liftMemory (access memory))) s = f a s := by
  have hm : guestMemory s = (.ok s.memory, s) := if_pos ha
  have hl : (Action.liftMemory (access s.memory) : Action (Core G) α) s = (.ok a, s) := by
    rw [h]
    rfl
  rw [bind_of_ok hm, bind_of_ok hl]

/-- An access to the guest's memory that fails. -/
theorem access_of_error {e : MemoryError} (ha : s.bridge.attached = true)
    (h : access s.memory = .error e) (f : α → Action (Core G) β) :
    (do
      let memory ← guestMemory
      f (← Action.liftMemory (access memory))) s = (.error (.memory e), s) := by
  have hm : guestMemory s = (.ok s.memory, s) := if_pos ha
  have hl : (Action.liftMemory (access s.memory) : Action (Core G) α) s =
      (.error (.memory e), s) := by
    rw [h]
    rfl
  rw [bind_of_ok hm, bind_of_error hl]

/-- What goes on with the guest's memory goes on if there is a guest and the access succeeds, and
leaves the core as it is if not. -/
theorem access_cases (access : Memory → Except MemoryError α) (f : α → Action (Core G) β)
    (s : Core G) :
    (∃ e, s.memoryFault? (access s.memory) = some e ∧
        (do
          let memory ← guestMemory
          f (← Action.liftMemory (access memory))) s = (.error e, s)) ∨
      ∃ a, s.bridge.attached = true ∧ access s.memory = .ok a ∧
        s.memoryFault? (access s.memory) = none ∧
        (do
          let memory ← guestMemory
          f (← Action.liftMemory (access memory))) s = f a s := by
  unfold memoryFault?
  by_cases ha : s.bridge.attached = true
  · rw [if_pos ha]
    rcases hr : access s.memory with e | a
    · exact .inl ⟨.memory e, rfl, access_of_error ha hr f⟩
    · exact .inr ⟨a, ha, rfl, rfl, access_of_ok ha hr f⟩
  · have hm : guestMemory s = (.error .noGuest, s) := if_neg ha
    rw [if_neg ha]
    exact .inl ⟨.noGuest, rfl, bind_of_error hm⟩

end

/-- A store of the core is a batch on the guest's memory. -/
theorem store_eq {c : Core G} (ha : c.bridge.attached = true)
    (stores : List Store) :
    store stores c =
      match c.memory.writeBatch stores with
      | .ok memory => (.ok (), { c with memory })
      | .error e => (.error (.memory e), c) := by
  have hm : guestMemory c = (.ok c.memory, c) := if_pos ha
  unfold store
  rw [Attempt.bind_of_ok hm, Attempt.bind_apply]
  cases c.memory.writeBatch stores <;> rfl

/-- A store is made, or it fails and leaves the core as it is. -/
theorem store_cases (stores : List Store) (c : Core G) :
    (∃ memory, store stores c = (.ok (), { c with memory })) ∨
      ∃ e, store stores c = (.error e, c) := by
  unfold store
  rcases access_cases (fun memory => memory.writeBatch stores)
    (fun memory => .modify fun c => { c with memory }) c with ⟨e, -, hr⟩ | ⟨memory, -, -, -, hr⟩
  · exact .inr ⟨e, hr⟩
  · exact .inl ⟨memory, hr⟩

theorem store_eq_ok {stores : List Store} {c c' : Core G} (h : store stores c = (.ok (), c')) :
    ∃ memory, c.memory.writeBatch stores = .ok memory ∧ c' = { c with memory } := by
  unfold store at h
  rcases access_cases (fun memory => memory.writeBatch stores)
    (fun memory => .modify fun c => { c with memory }) c with ⟨e, -, hr⟩ | ⟨memory, -, hw, -, hr⟩
  · cases hr.symm.trans h
  · cases hr.symm.trans h
    exact ⟨memory, hw, rfl⟩

end Core

end GuestBridge
