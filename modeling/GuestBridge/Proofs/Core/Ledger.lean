import GuestBridge.Proofs.Core.Work

/-!
# The ledger of native objects

The journal tells which native objects were created (`Core.everCreated`) and which were deleted
(`Core.everDeleted`); the handle tables tell which are held (`Core.held`). `Core.Balanced d loose`
says that the objects of class `d` ever created are, each counted as often as it was created, the
deleted ones, the held ones and the `loose` ones in hand. Whatever a capability does keeps the
ledger balanced (`Core.Worked.balanced`).
-/

set_option autoImplicit false

namespace GuestBridge

namespace Event

variable {d : ObjectClass}

/-- The object of class `d` whose creation an event tells of. -/
def created (d : ObjectClass) : Event → List (Native d)
  | .gl (.create _) answer => Native.ofClass d answer.toList
  | _ => []

def deleted (d : ObjectClass) : Event → List (Native d)
  | .gl (.delete _ o) _ => Native.ofClass d [o]
  | _ => []

theorem created_of_movesObject {call : GlCall} (h : call.movesObject = false) (a : call.Answer) :
    (gl call a).created d = [] := by
  cases call <;> first | rfl | cases h

theorem deleted_of_movesObject {call : GlCall} (h : call.movesObject = false) (a : call.Answer) :
    (gl call a).deleted d = [] := by
  cases call <;> first | rfl | cases h

theorem created_of_isQuiet {e : Event} (h : e.isQuiet) : e.created d = [] := by
  cases e <;> first | rfl | cases h

theorem deleted_of_isQuiet {e : Event} (h : e.isQuiet) : e.deleted d = [] := by
  cases e <;> first | rfl | cases h

end Event

namespace Core

variable {G : Type} {d : ObjectClass} {loose : List (Native d)}

/-- The objects of class `d` that were created so far, in order. -/
def everCreated (d : ObjectClass) (s : Core G) : List (Native d) :=
  s.journal.toList.flatMap (Event.created d)

/-- The objects of class `d` that were deleted so far, in order. -/
def everDeleted (d : ObjectClass) (s : Core G) : List (Native d) :=
  s.journal.toList.flatMap (Event.deleted d)

/-- The objects of class `d` in the live slots of their table. -/
def held (d : ObjectClass) (s : Core G) : List (Native d) :=
  (s.bridge.registry.table d).objects

/-- Every object of class `d` that was ever created is accounted for once: it was deleted, it is
held, or it is among the `loose` ones. -/
def Balanced (d : ObjectClass) (loose : List (Native d)) (s : Core G) : Prop :=
  (s.everCreated d).Perm (s.everDeleted d ++ s.held d ++ loose)

theorem balanced_iff_count {s : Core G} :
    s.Balanced d loose ↔ ∀ o, (s.everCreated d).count o =
      (s.everDeleted d).count o + (s.held d).count o + loose.count o := by
  unfold Balanced
  rw [List.perm_iff_count]
  simp only [List.count_append]

theorem Balanced.congr {s t : Core G} (h : s.Balanced d loose)
    (hc : t.everCreated d = s.everCreated d) (hd : t.everDeleted d = s.everDeleted d)
    (hh : t.held d = s.held d) : t.Balanced d loose := by
  unfold Balanced at h ⊢
  rw [hc, hd, hh]
  exact h

theorem everCreated_note (s : Core G) (e : Event) :
    (s.note e).everCreated d = s.everCreated d ++ e.created d := by
  simp [everCreated, note]

theorem everDeleted_note (s : Core G) (e : Event) :
    (s.note e).everDeleted d = s.everDeleted d ++ e.deleted d := by
  simp [everDeleted, note]

theorem Balanced.note {s : Core G} (h : s.Balanced d loose) {e : Event}
    (hc : e.created d = []) (hd : e.deleted d = []) : (s.note e).Balanced d loose := by
  refine h.congr ?_ ?_ rfl
  · rw [everCreated_note, hc, List.append_nil]
  · rw [everDeleted_note, hd, List.append_nil]

/-- A table may exchange the objects in hand for others if none is lost or made up. -/
theorem Balanced.withTable {s : Core G} {c : ObjectClass} {os ps : List (Native c)}
    {t : HandleTable (Native c)} (h : s.Balanced d (Native.ofClass d os))
    (hp : ((s.bridge.registry.table c).objects ++ os).Perm (t.objects ++ ps)) :
    (s.withRegistry (s.bridge.registry.withTable c t)).Balanced d (Native.ofClass d ps) := by
  rw [balanced_iff_count] at h ⊢
  intro o
  have h := h o
  show (s.everCreated d).count o = (s.everDeleted d).count o + _ + _
  by_cases hcd : c = d
  · subst hcd
    have hp := hp.count_eq o
    simp only [List.count_append] at hp
    simp only [held, withRegistry, Registry.table_withTable, Native.ofClass_self] at h ⊢
    omega
  · simp only [held, withRegistry, Native.ofClass_of_ne _ hcd,
      Registry.table_withTable_of_ne _ _ (Ne.symm hcd)] at h ⊢
    exact h

section

variable [GraphicsContext G]

theorem everCreated_perform (s : Core G) (call : GlCall) :
    (s.perform call).2.everCreated d =
      s.everCreated d ++ (Event.gl call (s.perform call).1).created d :=
  everCreated_note _ _

theorem everDeleted_perform (s : Core G) (call : GlCall) :
    (s.perform call).2.everDeleted d =
      s.everDeleted d ++ (Event.gl call (s.perform call).1).deleted d :=
  everDeleted_note _ _

theorem held_perform (s : Core G) (call : GlCall) : (s.perform call).2.held d = s.held d := rfl

theorem Balanced.create {s : Core G} (h : s.Balanced d loose) (what : Blueprint) :
    (s.perform (.create what)).2.Balanced d
      (loose ++ Native.ofClass d (s.perform (.create what)).1.toList) := by
  rw [balanced_iff_count] at h ⊢
  intro o
  have := h o
  rw [everCreated_perform, everDeleted_perform, held_perform]
  simp only [Event.created, Event.deleted, List.count_append, List.count_nil]
  omega

theorem Balanced.delete {s : Core G} {c : ObjectClass} {o : Native c}
    (h : s.Balanced d (Native.ofClass d [o] ++ loose)) :
    (s.perform (.delete c o)).2.Balanced d loose := by
  rw [balanced_iff_count] at h ⊢
  intro x
  have := h x
  rw [everCreated_perform, everDeleted_perform, held_perform]
  simp only [Event.created, Event.deleted, List.count_append, List.count_nil] at this ⊢
  omega

theorem Balanced.perform {s : Core G} (h : s.Balanced d loose) {call : GlCall}
    (hm : call.movesObject = false) : (s.perform call).2.Balanced d loose := by
  refine h.congr ?_ ?_ rfl
  · rw [everCreated_perform, Event.created_of_movesObject hm, List.append_nil]
  · rw [everDeleted_perform, Event.deleted_of_movesObject hm, List.append_nil]

/-- From a balanced state, whatever a capability does leaves the ledger balanced. -/
theorem Worked.balanced {s t : Core G} (h : Worked s d loose t) (hs : s.Balanced d []) :
    t.Balanced d loose := by
  induction h with
  | refl => exact hs
  | call call h before ih => exact ih.perform h
  | create what before ih => exact ih.create what
  | delete o before ih => exact ih.delete
  | table table ps before h ih => exact ih.withTable h
  | locations locations before ih =>
    refine ih.congr rfl rfl ?_
    cases d <;> rfl
  | memory memory before ih => exact ih.congr rfl rfl rfl
  | host host before ih => exact ih.congr rfl rfl rfl
  | note e h hw before ih => exact ih.note (Event.created_of_isQuiet h) (Event.deleted_of_isQuiet h)

end

end Core

end GuestBridge
