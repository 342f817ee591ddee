import GuestBridge.Bench.Setup
import GuestBridge.Proofs.Bench.Chronicle
import GuestBridge.Proofs.Memory.Regions
import GuestBridge.Proofs.Platform.Copy

/-!
# Copies that can be read back

The allocator belongs to the guest: it may fail, answer any pointer, and make the memory larger or
change it otherwise before it does. `Platform.copyToGuest_roundTrip` says what a copy comes to all
the same: the allocator is asked once, the bounds are those of the memory that it left, and the
bytes are there afterwards, or else no byte was written.
-/

set_option autoImplicit false

namespace GuestBridge

namespace Platform

variable {σ G : Type}

/-- A platform that holds one core, and whose guest is still there when its allocator returns. -/
structure Lawful (p : Platform σ G) : Prop where
  core_withCore (c : Core G) (s : σ) : p.core (p.withCore c s) = c
  withCore_core (s : σ) : p.withCore (p.core s) s = s
  attached_alloc (len : UInt32) (s : σ) (ha : (p.core s).bridge.attached = true) :
    (p.core (p.alloc len s).2).bridge.attached = true

/-- A platform together with what its allocator has been asked for, in order. -/
def tallied (p : Platform σ G) : Platform (σ × List UInt32) G where
  core s := p.core s.1
  withCore c s := (p.withCore c s.1, s.2)
  alloc len s := ((p.alloc len s.1).1, (p.alloc len s.1).2, s.2 ++ [len])
  call entry s := ((p.call entry s.1).1, (p.call entry s.1).2, s.2)
  spawn fetch s := (p.spawn fetch s.1, s.2)
  defer c s := (p.defer c s.1, s.2)

/-- What a copy of `bytes` comes to that begins in the state `s`. -/
structure RoundTrip (p : Platform σ G) (bytes : List UInt8) (s : σ) : Prop where
  /-- Without bytes nothing happens. -/
  empty : bytes = [] → p.copyToGuest bytes s = (.ok .empty, s)
  /-- The allocator is asked once, for as many bytes as there are, and not at all for none. -/
  asked : ∀ calls, p.tallied.copyToGuest bytes (s, calls) =
    ((p.copyToGuest bytes s).1, (p.copyToGuest bytes s).2,
      calls ++ if bytes = [] then [] else [.ofNat bytes.length])
  counted : (UInt32.ofNat bytes.length).toNat = bytes.length
  /-- A region that lies within the memory that the allocator left holds the bytes afterwards. No
  other byte changes, and nothing else does. -/
  copied : bytes ≠ [] → ∀ ptr t, p.alloc (.ofNat bytes.length) s = (.ok ptr, t) →
    ptr.toNat + bytes.length ≤ (p.core t).memory.size →
      ∃ memory, p.copyToGuest bytes s = (.ok (.copied ptr (.ofNat bytes.length)),
          p.withCore { p.core t with memory } t) ∧
        (p.core (p.copyToGuest bytes s).2).memory = memory ∧
        memory.readBytes ptr (.ofNat bytes.length) = .ok bytes ∧
        memory.size = (p.core t).memory.size ∧
        ∀ i, i < ptr.toNat ∨ ptr.toNat + bytes.length ≤ i →
          memory.bytes[i]? = (p.core t).memory.bytes[i]?
  /-- A region that does not is reported with the size that the memory has by now, and all is as
  the allocator left it. -/
  unfit : bytes ≠ [] → ∀ ptr t, p.alloc (.ofNat bytes.length) s = (.ok ptr, t) →
    (p.core t).memory.size < ptr.toNat + bytes.length →
      p.copyToGuest bytes s =
        (.error (.memory (.outOfBounds ptr bytes.length (p.core t).memory.size)), t)
  /-- So is all if the allocator fails, and its failure is that of the copy. -/
  failed : bytes ≠ [] → ∀ e t, p.alloc (.ofNat bytes.length) s = (.error e, t) →
    p.copyToGuest bytes s = (.error (.guest e), t)

section

variable {p : Platform σ G} {s t : σ} {bytes : List UInt8}

theorem copyToGuest_nil (ha : (p.core s).bridge.attached = true) :
    p.copyToGuest [] s = (.ok .empty, s) := by
  have hb : p.bridge s = (.ok (p.core s).bridge, s) := rfl
  unfold copyToGuest
  rw [Attempt.bind_of_ok hb, if_neg (by simp [ha])]
  rfl

/-- Noting what the allocator is asked for changes nothing else. -/
theorem tallied_copyToGuest (ha : (p.core s).bridge.attached = true)
    (hb : bytes.length < UInt32.size) (calls : List UInt32) :
    p.tallied.copyToGuest bytes (s, calls) =
      ((p.copyToGuest bytes s).1, (p.copyToGuest bytes s).2,
        calls ++ if bytes = [] then [] else [.ofNat bytes.length]) := by
  have ha' : (p.tallied.core (s, calls)).bridge.attached = true := ha
  by_cases he : bytes = []
  · subst he
    rw [copyToGuest_nil ha', copyToGuest_nil ha]
    simp
  · have hempty : bytes.isEmpty = false := by simpa using he
    have hlen : Store.guestLen bytes = .ok (.ofNat bytes.length) := if_pos hb
    rw [copyToGuest_eq ha' hempty hlen, copyToGuest_eq ha hempty hlen, if_neg he]
    have hal : p.tallied.alloc (.ofNat bytes.length) (s, calls) =
        ((p.alloc (.ofNat bytes.length) s).1, (p.alloc (.ofNat bytes.length) s).2,
          calls ++ [.ofNat bytes.length]) := rfl
    rw [hal]
    rcases p.alloc (.ofNat bytes.length) s with ⟨e | ptr, t⟩
    · rfl
    · have hcore : p.tallied.core (t, calls ++ [UInt32.ofNat bytes.length]) = p.core t := rfl
      simp only [hcore]
      rcases Core.store [.bytes ptr bytes] (p.core t) with ⟨e | ⟨⟩, core⟩ <;> rfl

namespace Lawful

variable (hp : p.Lawful) (ha : (p.core s).bridge.attached = true) (he : bytes ≠ [])
  (hb : bytes.length < UInt32.size) {ptr : UInt32}

include hp ha he hb

/-- What is left of a copy once the allocator has answered a pointer: one store. -/
theorem copyToGuest_of_alloc (hal : p.alloc (.ofNat bytes.length) s = (.ok ptr, t)) :
    p.copyToGuest bytes s =
      match (p.core t).memory.writeBatch [.bytes ptr bytes] with
      | .ok memory => (.ok (.copied ptr (.ofNat bytes.length)),
          p.withCore { p.core t with memory } t)
      | .error e => (.error (.memory e), t) := by
  have hat : (p.core t).bridge.attached = true := by
    have h := hp.attached_alloc (.ofNat bytes.length) s ha
    rwa [hal] at h
  rw [copyToGuest_eq ha (by simpa using he) (if_pos hb), hal]
  simp only [Core.store_eq hat]
  cases (p.core t).memory.writeBatch [.bytes ptr bytes] with
  | ok memory => rfl
  | error e => simp only [hp.withCore_core]

theorem copyToGuest_of_fits (hal : p.alloc (.ofNat bytes.length) s = (.ok ptr, t))
    (hfits : ptr.toNat + bytes.length ≤ (p.core t).memory.size) :
    p.copyToGuest bytes s = (.ok (.copied ptr (.ofNat bytes.length)),
      p.withCore { p.core t with memory := (p.core t).memory.write ptr.toNat bytes } t) := by
  rw [hp.copyToGuest_of_alloc ha he hb hal, Memory.writeBatch_bytes hb hfits]

theorem copyToGuest_of_unfit (hal : p.alloc (.ofNat bytes.length) s = (.ok ptr, t))
    (hunfit : (p.core t).memory.size < ptr.toNat + bytes.length) :
    p.copyToGuest bytes s =
      (.error (.memory (.outOfBounds ptr bytes.length (p.core t).memory.size)), t) := by
  rw [hp.copyToGuest_of_alloc ha he hb hal, Memory.writeBatch_bytes_of_unfit hb hunfit]

omit hp in
theorem copyToGuest_of_error {e : GuestError}
    (hal : p.alloc (.ofNat bytes.length) s = (.error e, t)) :
    p.copyToGuest bytes s = (.error (.guest e), t) := by
  rw [copyToGuest_eq ha (by simpa using he) (if_pos hb), hal]

end Lawful

end

end Platform

/-! ## The bench -/

namespace Bench

variable {G C : Type} [GraphicsContext G] [AdjustableContext G C]

/-- However deep the guest's steps go while it allocates, it stays attached. -/
theorem platform_lawful (depth : Nat) : (platform (performFor depth : Performer G C)).Lawful where
  core_withCore _ _ := rfl
  withCore_core _ := rfl
  attached_alloc len b ha := by
    have hleads : Leads (fun _ => True) (fun _ => True) [] b _ []
        (alloc (performFor depth) len b).2 :=
      alloc_leads (performFor_follows depth) len b trivial
    exact hleads.attached ha

end Bench

namespace Platform

variable {σ G : Type}

/-- Whatever the allocator does, a copy can be read back or has written nothing. -/
theorem copyToGuest_roundTrip {p : Platform σ G} (hp : p.Lawful) {s : σ}
    (ha : (p.core s).bridge.attached = true) {bytes : List UInt8}
    (hb : bytes.length < UInt32.size) : p.RoundTrip bytes s := by
  refine ⟨?_, tallied_copyToGuest ha hb, UInt32.toNat_ofNat_of_lt' hb, ?_, ?_, ?_⟩
  · rintro rfl
    exact copyToGuest_nil ha
  · intro he ptr t hal hfits
    have hcopy := hp.copyToGuest_of_fits ha he hb hal hfits
    have hsize : ((p.core t).memory.write ptr.toNat bytes).size = (p.core t).memory.size :=
      Memory.size_write hfits
    refine ⟨_, hcopy, ?_, ?_, hsize, ?_⟩
    · rw [hcopy, hp.core_withCore]
    · apply Memory.readBytes_of_read hb
      · rwa [hsize]
      · exact Memory.read_write (Nat.le_of_add_right_le hfits) bytes
    · intro i hi
      rw [Memory.getElem?_write hfits, if_neg (by omega)]
  · intro he ptr t hal hunfit
    exact hp.copyToGuest_of_unfit ha he hb hal hunfit
  · intro he e t hal
    exact Lawful.copyToGuest_of_error ha he hb hal

/-- The guest makes its memory larger while it allocates, and answers a pointer that lies beyond
the memory as it was. -/
theorem copyToGuest_roundTrip_of_growth :
    let b : Bench.ScriptedBench := { Bench.scripted 16 true with guest :=
      { allocations := [.ok 20], interludes := ⟨[(allocatorExport, [.growMemory 24])]⟩ } }
    let p := Bench.platform (Bench.performFor 2)
    p.Lawful ∧ (p.core b).bridge.attached = true ∧ [1, 2, 3].length < UInt32.size ∧
      p.RoundTrip [1, 2, 3] b ∧ (p.copyToGuest [1, 2, 3] b).1 = .ok (.copied 20 3) ∧
      (p.copyToGuest [1, 2, 3] b).2.core.memory.read 16 8 = [0, 0, 0, 0, 1, 2, 3, 0] :=
  ⟨Bench.platform_lawful 2, rfl, by decide,
    copyToGuest_roundTrip (Bench.platform_lawful 2) rfl (by decide), by decide +kernel,
    by decide +kernel⟩

end Platform

end GuestBridge
