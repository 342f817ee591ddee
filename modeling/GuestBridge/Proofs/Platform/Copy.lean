import GuestBridge.Platform.Entry
import GuestBridge.Proofs.Core.Contract

/-!
# Copies on a platform

What a copy into the guest comes to, on any platform: nothing, if there are no bytes or no guest
(`Platform.copyToGuest_of_not`), and otherwise one question to the allocator and one store into the
memory that there is after it (`Platform.copyToGuest_eq`), which a copy that has been made goes back
to (`Platform.copyToGuest_of_copied`).
-/

set_option autoImplicit false

namespace GuestBridge.Platform

variable {σ G : Type} {p : Platform σ G} {s t : σ} {bytes : List UInt8}

theorem ofGuest_eq {α : Type} {x : σ → Except GuestError α × σ} {r : Except GuestError α}
    (h : x s = (r, t)) : ofGuest x s = (r.mapError .guest, t) := by
  unfold ofGuest
  rw [h]

theorem liftMemory_eq {α : Type} (x : Except MemoryError α) :
    (Action.liftMemory x : Action σ α) s = (x.mapError .memory, s) := rfl

theorem onCore_eq {α : Type} {x : Action (Core G) α} {r : Except BridgeError α} {core : Core G}
    (h : x (p.core s) = (r, core)) : p.onCore x s = (r, p.withCore core s) := by
  unfold onCore
  rw [h]

/-- A copy for which the allocator is asked. -/
theorem copyToGuest_eq {len : UInt32} (ha : (p.core s).bridge.attached = true)
    (he : bytes.isEmpty = false) (hl : Store.guestLen bytes = .ok len) :
    p.copyToGuest bytes s =
      match p.alloc len s with
      | (.error e, t) => (.error (.guest e), t)
      | (.ok ptr, t) =>
        match Core.store [.bytes ptr bytes] (p.core t) with
        | (.ok (), core) => (.ok (.copied ptr len), p.withCore core t)
        | (.error e, core) => (.error e, p.withCore core t) := by
  have hb : p.bridge s = (.ok (p.core s).bridge, s) := rfl
  have hlen : (Action.liftMemory (Store.guestLen bytes) : Action σ UInt32) s = (.ok len, s) := by
    rw [liftMemory_eq, hl]
    rfl
  unfold copyToGuest
  rw [Attempt.bind_of_ok hb, if_neg (by simp [ha]), if_neg (by simp [he]), Attempt.bind_of_ok hlen]
  rcases hal : p.alloc len s with ⟨e | ptr, t⟩
  · rw [Attempt.bind_of_error (ofGuest_eq hal)]
  · rw [Attempt.bind_of_ok (ofGuest_eq hal)]
    rcases hst : Core.store [.bytes ptr bytes] (p.core t) with ⟨e | ⟨⟩, core⟩
    · rw [Attempt.bind_of_error (onCore_eq hst)]
      simp only [hst]
    · rw [Attempt.bind_of_ok (onCore_eq hst)]
      simp only [hst]
      rfl

/-- A copy for which the allocator is not asked. -/
theorem copyToGuest_of_not (h : (p.core s).bridge.attached = false ∨ bytes.isEmpty = true ∨
      ∃ e, Store.guestLen bytes = .error e) :
    ∃ r, p.copyToGuest bytes s = (r, s) ∧ ∀ ptr len, r ≠ .ok (.copied ptr len) := by
  have hb : p.bridge s = (.ok (p.core s).bridge, s) := rfl
  unfold copyToGuest
  rw [Attempt.bind_of_ok hb]
  by_cases ha : (p.core s).bridge.attached = false
  · rw [if_pos (by simp [ha])]
    exact ⟨.error .noGuest, rfl, by simp⟩
  · rw [if_neg (by simpa using ha)]
    by_cases he : bytes.isEmpty = true
    · rw [if_pos he]
      exact ⟨.ok .empty, rfl, by simp⟩
    · rw [if_neg he]
      obtain ⟨e, hl⟩ : ∃ e, Store.guestLen bytes = .error e := by simpa [ha, he] using h
      have hlen : (Action.liftMemory (Store.guestLen bytes) : Action σ UInt32) s =
          (.error (.memory e), s) := by
        rw [liftMemory_eq, hl]
        rfl
      exact ⟨.error (.memory e), Attempt.bind_of_error hlen, by simp⟩

/-- What there is to a copy that has been made. -/
theorem copyToGuest_of_copied {ptr len : UInt32}
    (h : p.copyToGuest bytes s = (.ok (.copied ptr len), t)) :
    ∃ u memory, bytes.length < UInt32.size ∧ len = .ofNat bytes.length ∧
      p.alloc len s = (.ok ptr, u) ∧
      (p.core u).memory.writeBatch [.bytes ptr bytes] = .ok memory ∧
      t = p.withCore { p.core u with memory } u := by
  by_cases hnot : (p.core s).bridge.attached = false ∨ bytes.isEmpty = true ∨
      ∃ e, Store.guestLen bytes = .error e
  · obtain ⟨r, hr, hne⟩ := copyToGuest_of_not hnot
    exact absurd (congrArg Prod.fst (hr.symm.trans h)) (hne ptr len)
  · obtain ⟨ha, he, hl⟩ : (p.core s).bridge.attached = true ∧ bytes.isEmpty = false ∧
        ¬ ∃ e, Store.guestLen bytes = .error e := by simpa using hnot
    have hb : bytes.length < UInt32.size :=
      Decidable.byContradiction fun hlarge => hl ⟨_, if_neg hlarge⟩
    rw [copyToGuest_eq ha he (if_pos hb)] at h
    rcases hal : p.alloc (.ofNat bytes.length) s with ⟨e | ptr', u⟩ <;> rw [hal] at h
    · cases h
    · simp only at h
      rcases hst : Core.store [.bytes ptr' bytes] (p.core u) with ⟨e | ⟨⟩, core⟩ <;> rw [hst] at h
      · cases h
      · obtain ⟨memory, hw, rfl⟩ := Core.store_eq_ok hst
        cases h
        exact ⟨u, memory, hb, rfl, hal, hw, rfl⟩

end GuestBridge.Platform
