import GuestBridge.Page.Import
import GuestBridge.Proofs.Capability.Failure
import GuestBridge.Proofs.Capability.Handles

/-!
# How a capability ends

Deleting many objects goes on past a handle that does not resolve, so that it can fail with the
registry changed; but then the handle is what it fails for (`Core.deleteEach_meets`). With that, no
capability does more than native calls before it fails, and none changes anything before a fatal
failure (`Capability.run_error`). What a capability hands back when it succeeds is a number or is
not, whatever it finds (`Capability.run_ok`).
-/

set_option autoImplicit false

namespace GuestBridge

namespace Core

open Attempt

variable {G α : Type} {s t : Core G}

theorem isFatal_of_memoryFault {access : Except MemoryError α} {e : BridgeError}
    (h : s.memoryFault? access = some e) : e.isFatal = true := by
  unfold memoryFault? at h
  split at h
  · cases access with
    | ok a => cases h
    | error e' =>
      cases h
      rfl
  · cases h
    rfl

/-- Nothing but the registry has changed, native calls and what they answer next apart. -/
def Purged (s t : Core G) : Prop := ∃ registry, Aside (s.withRegistry registry) t

theorem Aside.purged (h : Aside s t) : Purged s t := ⟨s.bridge.registry, h⟩

theorem Purged.withRegistry (h : Purged s t) (registry : Registry) :
    Purged s (t.withRegistry registry) := by
  obtain ⟨_, h⟩ := h
  exact ⟨registry, congrArg (fun b : Bridge => { b with registry }) h.bridge, h.memory, h.journal⟩

section

variable [GraphicsContext G]

theorem deleteObject_meets (c : ObjectClass) (handle : UInt32) :
    Meets (Purged s) (deleteObject c handle : Action (Core G) Unit) (fun _ => Purged s)
      (fun e t => Purged s t ∧ e.isFatal = false) := by
  refine Meets.bind (Q := fun _ => Purged s) (fun t ht => ?_) fun o => ?_
  · unfold release
    rcases hd : (t.bridge.registry.table c).delete handle with e | ⟨o, table⟩ <;> simp only [hd]
    · exact ⟨ht, rfl⟩
    · exact ht.withRegistry _
  · exact meets_state fun t ⟨registry, ht⟩ => ⟨registry, ht.native _⟩

theorem deleteEach_meets (c : ObjectClass) (handles : List UInt32) :
    Meets (Purged s) (deleteEach c handles : Action (Core G) (Option BridgeError))
      (fun first t => Purged s t ∧ ∀ e, first = some e → e.isFatal = false)
      (fun _ _ => False) := by
  induction handles with
  | nil => exact meets_pure fun t ht => ⟨ht, nofun⟩
  | cons handle rest ih =>
    refine Meets.bind (Q := fun first t => Purged s t ∧ ∀ e, first = .error e → e.isFatal = false)
      (fun t ht => ?_) fun first t ⟨ht, hf⟩ => ?_
    · have h := deleteObject_meets c handle t ht
      rw [outcome_apply]
      rcases hr : deleteObject c handle t with ⟨e | a, u⟩ <;> rw [hr] at h
      · exact ⟨h.1, fun e' he => by cases he; exact h.2⟩
      · exact ⟨h, nofun⟩
    · refine Meets.bind ih (fun later u ⟨hu, hl⟩ => ?_) t ht
      cases first with
      | ok a => exact ⟨hu, hl⟩
      | error e => exact ⟨hu, fun e' he => by cases he; exact hf e rfl⟩

end

end Core

namespace Capability

open GuestBridge.Core Attempt

variable {G : Type} [GraphicsContext G] {s t : Core G}

/-- To delete many objects is fatal exactly if their handles cannot be read, and then nothing has
been deleted. -/
theorem deleteMany_run (b : BulkClass) (count ptr : UInt32) (s : Core G) :
    match (deleteMany b count ptr).fault? s with
    | some e => e.isFatal = true ∧ (deleteMany b count ptr).run s = (.error e, s)
    | none => Purged s ((deleteMany b count ptr).run s).2 ∧
        ∀ e, ((deleteMany b count ptr).run s).1 = .error e → e.isFatal = false := by
  rcases deleteMany_cases b count ptr s with ⟨e, hf, -, hr⟩ | ⟨hf, hr⟩ <;> rw [hf]
  · have hfault : s.memoryFault? (s.memory.readWords ptr count) = some e := hf
    exact ⟨isFatal_of_memoryFault hfault, hr⟩
  · have heach := deleteEach_meets b.objectClass (s.words ptr count) s (Aside.refl s).purged
    rcases h : deleteEach b.objectClass (s.words ptr count) s with ⟨e | first, t⟩ <;>
      rw [h] at heach
    · exact heach.elim
    · rw [hr h]
      refine ⟨heach.1, fun e he => ?_⟩
      cases first with
      | none => cases he
      | some e' => exact heach.2 e (by cases he; rfl)

/-- What a capability that has failed leaves of the core. -/
theorem run_error {c : Capability} {e : BridgeError} (h : c.run s = (.error e, t)) :
    Purged s t ∧ (e.isFatal = true → Aside s t) := by
  by_cases hc : ∃ b n p, c = .deleteMany b n p
  · obtain ⟨b, n, p, rfl⟩ := hc
    have hrun := deleteMany_run b n p s
    rw [h] at hrun
    rcases hf : (deleteMany b n p).fault? s with _ | e' <;> rw [hf] at hrun
    · refine ⟨hrun.1, fun he => ?_⟩
      rw [hrun.2 e rfl] at he
      cases he
    · obtain rfl : t = s := (Prod.mk.inj hrun.2).2
      exact ⟨(Aside.refl t).purged, fun _ => .refl t⟩
  · have ha := aside_of_error (fun b n p hb => hc ⟨b, n, p, hb⟩) h
    exact ⟨ha.purged, fun _ => ha⟩

/-! ## Answers -/

/-- Whether a capability hands back a number. -/
def answersNumber : Capability → Bool
  | .randomSeed | .randomString _ _ | .initShader _ _ _ | .linkProgram _ _
  | .programParameter _ _ | .attribLocation _ _ _ | .uniformLocation _ _ _ | .create _
  | .getError => true
  | _ => false

/-- Whether a result is a number is a matter of the capability alone. -/
theorem run_ok {c : Capability} {result : Result} (h : c.run s = (.ok result, t)) :
    if c.answersNumber then ∃ n, result = .number n else result.pageValue = .undefined := by
  have hanswer : ∀ {α : Type} {x : Action (Core G) α} {f : α → Result},
      (do return f (← x) : Action (Core G) Result) s = (.ok result, t) → ∃ a, f a = result := by
    intro α x f hx
    rw [bind_pure_apply] at hx
    rcases hr : (x s).1 with e | a <;> rw [hr] at hx <;> cases hx
    exact ⟨a, rfl⟩
  cases c <;> obtain ⟨a, rfl⟩ := hanswer h <;> first
    | exact ⟨_, rfl⟩
    | exact rfl

end Capability

/-! ## Platforms -/

namespace Platform

variable {σ G : Type} [GraphicsContext G] (p : Platform σ G) (c : Capability) (s : σ)

/-- What a capability answers on a platform is what it answers on the core. -/
theorem fst_perform : (p.perform c s).1 = (c.run (p.core s)).1 := by
  have hr : p.onCore c.run s = ((c.run (p.core s)).1, p.withCore (c.run (p.core s)).2 s) := rfl
  unfold perform
  rcases hrun : (c.run (p.core s)).1 with e | result <;> rw [hrun] at hr
  · rw [Attempt.bind_of_error hr]
  · rw [Attempt.bind_of_ok hr]
    cases result <;> rfl

variable {p c s}

/-- A capability that fails leaves the platform to what has become of the core. -/
theorem perform_of_error {e : BridgeError} (h : (c.run (p.core s)).1 = .error e) :
    p.perform c s = (.error e, p.withCore (c.run (p.core s)).2 s) := by
  have hr : p.onCore c.run s = ((c.run (p.core s)).1, p.withCore (c.run (p.core s)).2 s) := rfl
  rw [h] at hr
  exact Attempt.bind_of_error hr

theorem perform_of_accepted {fetch : Accepted} {core : Core G}
    (h : c.run (p.core s) = (.ok (.accepted fetch), core)) :
    p.perform c s = (.ok (.accepted fetch), p.spawn fetch (p.withCore core s)) := by
  have hr : p.onCore c.run s = (.ok (.accepted fetch), p.withCore core s) := by
    unfold onCore
    rw [h]
  unfold perform
  rw [Attempt.bind_of_ok hr]
  rfl

/-- Only an accepted fetch needs more than the core. -/
theorem snd_perform (h : ∀ fetch, (c.run (p.core s)).1 ≠ .ok (.accepted fetch)) :
    (p.perform c s).2 = p.withCore (c.run (p.core s)).2 s := by
  have hr : p.onCore c.run s = ((c.run (p.core s)).1, p.withCore (c.run (p.core s)).2 s) := rfl
  rcases hrun : (c.run (p.core s)).1 with e | result <;> rw [hrun] at hr h
  · rw [perform_of_error hrun]
  · unfold perform
    rw [Attempt.bind_of_ok hr]
    cases result with
    | accepted fetch => exact (h fetch rfl).elim
    | nothing | number _ | document _ => rfl

end Platform

end GuestBridge
