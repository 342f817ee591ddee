import GuestBridge.Proofs.Bench.Chronicle
import GuestBridge.Proofs.Capability.Ownership

/-!
# Native objects on the bench

Between two capabilities nothing that happens on the bench creates or deletes a native object or
touches a handle table, so that every run on the bench is a run of capabilities (`run_core`), also
as far as the guest's own steps go.
-/

set_option autoImplicit false

namespace GuestBridge

/-- Whether an event neither creates nor deletes a native object. -/
def Event.IsIdle (e : Event) : Prop := ∀ d, e.created d = [] ∧ e.deleted d = []

theorem Event.isIdle_of_isQuiet {e : Event} (h : e.isQuiet) : e.IsIdle := fun _ =>
  ⟨Event.created_of_isQuiet h, Event.deleted_of_isQuiet h⟩

theorem Event.isIdle_of_isEntry {e : Event} (h : e.isEntry = true) : e.IsIdle := by
  intro d
  cases e <;> first | exact ⟨rfl, rfl⟩ | cases h

namespace Core

variable {G : Type} [GraphicsContext G] {s t : Core G}

theorem Run.of_journal (h : Run s) (hr : t.bridge.registry = s.bridge.registry)
    {events : List Event} (hj : t.journal.toList = s.journal.toList ++ events)
    (he : ∀ e ∈ events, e.IsIdle) : Run t := by
  refine h.meanwhile hr fun d => ⟨?_, ?_⟩
  · have hn : events.flatMap (Event.created d) = [] :=
      List.flatMap_eq_nil_iff.2 fun e hm => (he e hm d).1
    simp [everCreated, hj, hn]
  · have hn : events.flatMap (Event.deleted d) = [] :=
      List.flatMap_eq_nil_iff.2 fun e hm => (he e hm d).2
    simp [everDeleted, hj, hn]

theorem Run.note (h : Run s) {e : Event} (he : e.IsIdle) : Run (s.note e) :=
  h.of_journal rfl (Array.toList_push) (by simpa using he)

end Core

namespace Bench

variable {G C : Type} [GraphicsContext G] {m n : Moment G C} {h : Happening} {hs : List Happening}

theorem Quiet.core_run {b b' : Bench G C} (hq : Quiet b b') (hb : Core.Run b.core) :
    Core.Run b'.core := by
  obtain ⟨events, hj, he⟩ := hq.journal
  exact hb.of_journal (by rw [hq.bridge]) hj fun e hm => Event.isIdle_of_isQuiet (he e hm)

theorem Happens.core_run (hh : Happens m h n) (hm : Core.Run m.bench.core) :
    Core.Run n.bench.core := by
  have same : ∀ {core : Core G}, core.bridge.registry = m.bench.core.bridge.registry →
      core.journal = m.bench.core.journal → Core.Run core := fun hr hj =>
    hm.meanwhile hr fun d => by simp [Core.everCreated, Core.everDeleted, hj]
  have noted : ∀ {core : Core G} {e : Event},
      core.bridge.registry = m.bench.core.bridge.registry →
      core.journal = m.bench.core.journal.push e → e.IsIdle → Core.Run core := fun hr hj he =>
    hm.of_journal hr (by rw [hj, Array.toList_push]) (by simpa using he)
  cases hh with
  | performed c hc => exact .capability c hm
  | accepted c hr =>
    have hc := Core.Run.capability c hm
    rw [hr] at hc
    exact (hc.note (e := .load _) fun _ => ⟨rfl, rfl⟩).note (e := .spawn) fun _ => ⟨rfl, rfl⟩
  | shutDown =>
    obtain ⟨requests, he, -⟩ := Bridge.cancelPending_eq m.bench.core.bridge
    refine noted ?_ rfl (Event.isIdle_of_isQuiet rfl)
    show m.bench.core.bridge.cancelPending.registry = _
    rw [he]
  | frame | called | allocated | asked | told =>
    exact noted rfl rfl (Event.isIdle_of_isEntry rfl)
  | copied hc hg hs =>
    obtain ⟨guest, memory, rfl, -⟩ := of_grant hg
    obtain ⟨memory', -, hs'⟩ := Core.store_eq_ok hs
    subst hs'
    exact noted (e := .defer) rfl rfl fun _ => ⟨rfl, rfl⟩
  | failed hc hg hs =>
    obtain ⟨guest, memory, rfl, -⟩ := of_grant hg
    exact same rfl rfl
  | _ => exact same rfl rfl

theorem History.core_run (hh : History m hs n) (hm : Core.Run m.bench.core) :
    Core.Run n.bench.core :=
  hh.keeps (fun _ _ hq ht => hq.core_run ht) (fun _ _ _ now ht => now.core_run ht) hm

theorem Fresh.core_run {b : Bench G C} (hb : b.Fresh) : Core.Run b.core := by
  refine .start (by rw [hb.bridge]) fun d => ?_
  simp [Core.everCreated, Core.everDeleted, hb.journal]

variable [AdjustableContext G C]

/-- Every run on the bench is a run of capabilities. -/
theorem run_core {b : Bench G C} (hb : b.Fresh) (steps : List (Step C)) :
    Core.Run (run steps b).core := by
  obtain ⟨loads, hh, -⟩ := history_of_chronicle hb steps
  exact hh.core_run hb.core_run

end Bench

end GuestBridge
