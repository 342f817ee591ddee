import GuestBridge.Graphics.Scripted
import GuestBridge.Proofs.Capability.Work
import GuestBridge.Proofs.Core.Ledger

/-!
# Who owns the native objects

`Core.Run` is any run of capabilities on a core. At every moment of a run the ledger is balanced
(`Core.Run.balanced`), and if the native context only creates fresh objects, the live slots hold
exactly the objects that were created and not deleted (`Core.Run.owns_exactly`).
-/

set_option autoImplicit false

namespace GuestBridge

namespace Capability

variable {G : Type} [GraphicsContext G] {d : ObjectClass}

theorem balanced (c : Capability) {s : Core G} (h : s.Balanced d []) :
    (c.run s).2.Balanced d [] := by
  rcases c.run_cases s with ⟨request, text, -, hr⟩ | ⟨-, hw⟩
  · rw [hr]
    have hl : (s.log .debug Log.Target.fetch text).Balanced d [] := h.note rfl rfl
    exact hl.congr rfl rfl rfl
  · exact (hw d).balanced h

end Capability

/-! ## Runs -/

namespace Core

open Attempt

variable {G : Type} [GraphicsContext G]

/-- The states that capabilities lead to from a start without objects, in any order. What happens
between two of them is left open, as long as it makes no native call that creates or deletes and
does not touch the handle tables. -/
inductive Run : Core G → Prop
  | start {s : Core G} (registry : s.bridge.registry = {})
    (journal : ∀ d, s.everCreated d = [] ∧ s.everDeleted d = []) : Run s
  | capability {s : Core G} (c : Capability) (before : Run s) : Run (c.run s).2
  | meanwhile {s t : Core G} (before : Run s)
    (registry : t.bridge.registry = s.bridge.registry)
    (journal : ∀ d, t.everCreated d = s.everCreated d ∧ t.everDeleted d = s.everDeleted d) : Run t

theorem Run.balanced {s : Core G} (h : Run s) (d : ObjectClass) : s.Balanced d [] := by
  induction h with
  | start registry journal =>
    unfold Balanced
    rw [(journal d).1, (journal d).2]
    cases d <;> simp [held, registry, Registry.table, HandleTable.objects]
  | capability c before ih => exact c.balanced ih
  | meanwhile before registry journal ih =>
    refine ih.congr (journal d).1 (journal d).2 ?_
    unfold held
    rw [registry]

/-- As long as the native context creates only fresh objects, the live slots of a table hold
exactly the objects that were created and not deleted, each of them in one slot; and no object is
deleted twice, or without having been created. -/
theorem Run.owns_exactly {s : Core G} (h : Run s) (d : ObjectClass)
    (fresh : (s.everCreated d).Nodup) :
    (∀ o, (∃ i : Nat, (s.bridge.registry.table d).slots[i]? = some (some o)) ↔
      o ∈ s.everCreated d ∧ o ∉ s.everDeleted d) ∧
    (∀ o (i j : Nat), (s.bridge.registry.table d).slots[i]? = some (some o) →
      (s.bridge.registry.table d).slots[j]? = some (some o) → i = j) ∧
    (s.everDeleted d).Nodup ∧ ∀ o ∈ s.everDeleted d, o ∈ s.everCreated d := by
  have hp : (s.everCreated d).Perm (s.everDeleted d ++ s.held d) := by
    have := h.balanced d
    unfold Balanced at this
    rwa [List.append_nil] at this
  obtain ⟨hdel, hheld, hdis⟩ := List.nodup_append.1 (hp.nodup_iff.1 fresh)
  refine ⟨fun o => ?_, fun o i j hi hj => HandleTable.slot_unique hheld hi hj, hdel, fun o ho => ?_⟩
  · rw [← HandleTable.mem_objects_iff, hp.mem_iff, List.mem_append]
    constructor
    · intro ho
      exact ⟨.inr ho, fun hd => hdis o hd o ho rfl⟩
    · rintro ⟨hd | ho, hn⟩
      · exact absurd hd hn
      · exact ho
  · rw [hp.mem_iff, List.mem_append]
    exact .inl ho

/-- A context that runs out of objects in the middle of a series: the buffer created alone is the
only one held, and the one created in the series is deleted again. -/
theorem Run.owns_exactly_of_short_supply :
    let s : Core ScriptedContext :=
      { gl := { supply := { remaining := some 2 } }, memory := .zeros 64,
        bridge := { attached := true } }
    let t := (Capability.run (.generate .buffer 3 0) (Capability.run (.create .buffer) s).2).2
    t.everCreated .buffer = [⟨100⟩, ⟨101⟩] ∧ t.everDeleted .buffer = [⟨101⟩] ∧
      ∀ o, (∃ i : Nat, (t.bridge.registry.table .buffer).slots[i]? = some (some o)) ↔
        o ∈ t.everCreated .buffer ∧ o ∉ t.everDeleted .buffer := by
  intro s t
  have hc : t.everCreated .buffer = [⟨100⟩, ⟨101⟩] := by decide
  have hd : t.everDeleted .buffer = [⟨101⟩] := by decide
  have hs : Run s := .start rfl fun d => by cases d <;> exact ⟨rfl, rfl⟩
  have ht : Run t := .capability _ (.capability _ hs)
  exact ⟨hc, hd, (ht.owns_exactly .buffer (by rw [hc]; decide)).1⟩

end Core

end GuestBridge
