import GuestBridge.Proofs.Capability.Handles

/-!
# Handles over a run

`Core.Trace` is a run of capabilities together with what the guest has come to know of its handles.
At every moment of it, whatever capability comes next deals with its handles as `HandleContract`
says (`Core.Trace.handles`): what it passes to the native context is what its handles were issued
for, and no object is passed on that was deleted.
-/

set_option autoImplicit false

namespace GuestBridge

variable {G : Type} [GraphicsContext G] {s t : Core G} {ds : List Deed} {c : Capability}

/-- How a capability deals with its handles in a state, given what became of them before. -/
structure HandleContract (c : Capability) (s : Core G) (ds : List Deed) : Prop where
  /-- No handle was issued twice. -/
  once : (ds.filterMap Deed.issue?).Nodup
  /-- What is passed to the native context on behalf of the handles is what they were issued for:
  of each that resolves when its turn comes, in order; or nothing at all, and there is an error. -/
  passed : (s.since (c.run s).2).flatMap (Event.given c) =
      (c.turns ds (c.refs s)).filterMap Except.toOption ∨
    (s.since (c.run s).2).flatMap (Event.given c) = [] ∧ ∃ e, (c.run s).1 = .error e
  /-- If every creation is of a new object, then no object is passed on that was deleted before,
  be it by this capability. -/
  undeleted : ∀ d, ((c.run s).2.everCreated d).Nodup → ∀ before call a after,
    s.since (c.run s).2 = before ++ .gl call a :: after →
      ∀ o, .object d o ∈ c.given call →
        o ∉ s.everDeleted d ++ before.flatMap (Event.deleted d)
  /-- What comes before the handles is an error without consequences. -/
  fault : ∀ e, c.fault? s = some e → c.run s = (.error e, s)
  /-- The first handle that does not resolve is reported, with its class, as out of range if it was
  never issued and as deleted otherwise. Nothing was done then, unless many are deleted. -/
  refused : c.fault? s = none → ∀ before r after, c.refs s = before ++ r :: after →
    (∀ x ∈ c.turns ds before, x.isOk) →
    ∀ e, Deed.resolve r (ds ++ before.flatMap c.discards) = .error e →
      (c.run s).1 = .error (.registry e) ∧
      (e = .outOfRange r.kind r.handle ∧ r ∉ ds.filterMap Deed.issue? ∨
        e = .deleted r.kind r.handle ∧ r ∈ ds.filterMap Deed.issue?) ∧
      ((∀ b n p, c ≠ .deleteMany b n p) → (c.run s).2 = s)

namespace Core

/-- The states that capabilities lead to from a start without objects, as in `Core.Run`, each with
what the guest knows of its handles. -/
inductive Trace : Core G → List Deed → Prop
  | start {s : Core G} (registry : s.bridge.registry = {})
    (journal : ∀ d, s.everCreated d = [] ∧ s.everDeleted d = []) : Trace s []
  | capability {s : Core G} {ds : List Deed} (c : Capability) (before : Trace s ds) :
    Trace (c.run s).2 (ds ++ c.deeds s)
  | meanwhile {s t : Core G} {ds : List Deed} (before : Trace s ds)
    (registry : t.bridge.registry = s.bridge.registry)
    (journal : ∀ d, t.everCreated d = s.everCreated d ∧ t.everDeleted d = s.everDeleted d) :
    Trace t ds

theorem Trace.run (h : Trace s ds) : Run s := by
  induction h with
  | start registry journal => exact .start registry journal
  | capability c before ih => exact ih.capability c
  | meanwhile before registry journal ih => exact ih.meanwhile registry journal

/-- Every run of capabilities can be told with what the guest knows. -/
theorem Run.exists_trace (h : Run s) : ∃ ds, Trace s ds := by
  induction h with
  | start registry journal => exact ⟨[], .start registry journal⟩
  | capability c before ih =>
    obtain ⟨ds, ih⟩ := ih
    exact ⟨_, ih.capability c⟩
  | meanwhile before registry journal ih =>
    obtain ⟨ds, ih⟩ := ih
    exact ⟨ds, ih.meanwhile registry journal⟩

/-- The tables record what the guest knows of its handles. -/
theorem Trace.recorded (h : Trace s ds) (few : ∀ k, Deed.count k ds ≤ UInt32.size) :
    Registry.Recorded {} ds s.bridge.registry := by
  induction h with
  | start registry journal =>
    rw [registry]
    exact .nil
  | @capability s ds c before ih =>
    have few : ∀ k, Deed.count k ds ≤ UInt32.size := fun k =>
      Nat.le_trans (Deed.count_le_append k ds _) (few k)
    have hR := ih few
    exact hR.trans (c.handled (hR.tells few)).recorded
  | meanwhile before registry journal ih =>
    rw [registry]
    exact ih few

theorem Trace.tells (h : Trace s ds) (few : ∀ k, Deed.count k ds ≤ UInt32.size) :
    s.bridge.registry.Tells ds :=
  (h.recorded few).tells few

/-! ## Deleted objects -/

omit [GraphicsContext G] in
theorem mem_held_of_resolve (hs : s.bridge.registry.Tells ds) {r : Ref} {d : ObjectClass}
    {o : Native d} (h : Deed.resolve r ds = .ok (.object d o)) : o ∈ s.held d := by
  rw [← hs.find] at h
  cases r with
  | location l =>
    rw [Registry.find] at h
    rcases hg : s.bridge.registry.locations.get l with e | l <;> rw [hg] at h <;> cases h
  | object d' handle =>
    rw [Registry.find] at h
    rcases hg : (s.bridge.registry.table d').get handle with e | o' <;> rw [hg] at h <;> cases h
    exact HandleTable.mem_objects_iff.2 ⟨_, HandleTable.get_eq_ok_iff.1 hg⟩

/-- If every creation is of a new object, no object is deleted twice, and none that was deleted is
held. -/
theorem Run.nodup (h : Run s) {d : ObjectClass} (fresh : (s.everCreated d).Nodup) :
    (s.everDeleted d ++ s.held d).Nodup := by
  have hp := h.balanced d
  unfold Balanced at hp
  rw [List.append_nil] at hp
  exact hp.nodup_iff.1 fresh

end Core

namespace Capability.Handled

open GuestBridge.Core

theorem everDeleted_eq (h : c.Handled s ds) (d : ObjectClass) :
    (c.run s).2.everDeleted d =
      s.everDeleted d ++ (s.since (c.run s).2).flatMap (Event.deleted d) := by
  obtain ⟨events, hj⟩ := h.journal
  rw [since_eq hj, everDeleted, hj, List.flatMap_append]
  rfl

theorem fresh_of_fresh (h : c.Handled s ds) {d : ObjectClass}
    (fresh : ((c.run s).2.everCreated d).Nodup) : (s.everCreated d).Nodup := by
  obtain ⟨events, hj⟩ := h.journal
  rw [everCreated, hj, List.flatMap_append] at fresh
  exact (List.nodup_append.1 fresh).1

/-- Nothing is passed on that was deleted before. -/
theorem undeleted (h : c.Handled s ds) (hs : Run s) (tells : s.bridge.registry.Tells ds)
    {d : ObjectClass} (fresh : ((c.run s).2.everCreated d).Nodup) {before after : List Event}
    {call : GlCall} {a : call.Answer}
    (hsplit : s.since (c.run s).2 = before ++ .gl call a :: after) {o : Native d}
    (ho : .object d o ∈ c.given call) :
    o ∉ s.everDeleted d ++ before.flatMap (Event.deleted d) := by
  have hgiven : .object d o ∈ (s.since (c.run s).2).flatMap (Event.given c) := by
    rw [hsplit]
    exact List.mem_flatMap.2 ⟨_, List.mem_append_right _ List.mem_cons_self, ho⟩
  rcases h.order _ _ _ _ hsplit (List.ne_nil_of_mem ho) with hnone | ⟨d', o', rfl⟩
  · -- Nothing was deleted since `s`, where the object is held.
    have hb : before.flatMap (Event.deleted d) = [] :=
      List.flatMap_eq_nil_iff.2 fun e he => hnone e he d
    rw [hb, List.append_nil]
    suffices hheld : o ∈ s.held d from fun hd =>
      (List.nodup_append.1 (hs.nodup (h.fresh_of_fresh fresh))).2.2 o hd o hheld rfl
    rcases h.passed with hp | ⟨hp, -⟩ <;> rw [hp] at hgiven
    · obtain ⟨x, hx, hxo⟩ := List.mem_filterMap.1 hgiven
      cases x with
      | error e => cases hxo
      | ok x =>
        cases hxo
        obtain ⟨r, hr⟩ := resolve_of_mem_turns hx
        exact mem_held_of_resolve tells hr
    · cases hgiven
  · -- The call deletes the object, and none is deleted twice.
    cases List.mem_singleton.1 ((c.given_sublist (.delete d' o')).subset ho)
    have hn := (List.nodup_append.1 ((hs.capability c).nodup fresh)).1
    have ha : o ∈ (Event.gl (.delete d o) a).deleted d := by simp [Event.deleted]
    rw [h.everDeleted_eq, hsplit, List.flatMap_append, ← List.append_assoc] at hn
    exact fun hm => (List.nodup_append.1 hn).2.2 o hm o (List.mem_append_left _ ha) rfl

end Capability.Handled

theorem mapM_id_eq_error {found rest : List (Except RegistryError Resource)}
    (h : ∀ x ∈ found, x.isOk) (e : RegistryError) :
    (found ++ .error e :: rest).mapM id = .error e := by
  induction found with
  | nil => rfl
  | cons x found ih =>
    rw [List.cons_append, List.mapM_cons, ih fun x hx => h x (List.mem_cons_of_mem _ hx)]
    have hx := h x List.mem_cons_self
    cases x with
    | error e => cases hx
    | ok x => rfl

namespace Core

/-- At every moment of a run, whatever capability comes next keeps the contract of its handles, as
long as no class has had more than `2 ^ 32` of them. -/
theorem Trace.handles (h : Trace s ds) (few : ∀ k, Deed.count k ds ≤ UInt32.size)
    (c : Capability) : HandleContract c s ds := by
  have tells := h.tells few
  have hc := c.handled tells
  refine ⟨tells.once, hc.passed, fun d fresh before call a after hsplit o ho =>
    hc.undeleted h.run tells fresh hsplit ho, hc.fault, ?_⟩
  intro hf before r after hrefs hok e he
  have hturns : (c.turns ds (c.refs s)).mapM id = .error e := by
    rw [hrefs, Capability.turns_append, Capability.turns, he]
    exact mapM_id_eq_error hok e
  obtain ⟨herror, hsame⟩ := hc.refused hf e hturns
  refine ⟨herror, ?_, hsame⟩
  have hissues : (ds ++ before.flatMap c.discards).filterMap Deed.issue? =
      ds.filterMap Deed.issue? := by
    have hnone : (before.flatMap c.discards).filterMap Deed.issue? = [] := by
      refine List.filterMap_eq_nil_iff.2 fun x hx => ?_
      obtain ⟨r', -, hx⟩ := List.mem_flatMap.1 hx
      exact c.issue?_of_mem_discards hx
    rw [List.filterMap_append, hnone, List.append_nil]
  rw [← hissues, ← Deed.resolve_eq_outOfRange_iff]
  rcases Deed.resolve_eq_error he with rfl | rfl
  · exact .inl ⟨rfl, he⟩
  · refine .inr ⟨rfl, ?_⟩
    by_contra hn
    rw [← Deed.resolve_eq_outOfRange_iff, he] at hn
    cases hn

/-- A buffer is deleted and then bound: its handle is reported as deleted, and nothing happens. -/
theorem Trace.handles_of_deleted :
    let s : Core ScriptedContext :=
      { gl := {}, memory := .zeros 64, bridge := { attached := true } }
    let t := (Capability.run (.delete .buffer 0) (Capability.run (.create .buffer) s).2).2
    let ds : List Deed := [.issued 0 (.object .buffer ⟨100⟩), .discarded .buffer 0]
    t.Trace ds ∧ (∀ k, Deed.count k ds ≤ UInt32.size) ∧
      (Capability.run (.bindBuffer 0x8892 0) t).1 = .error (.registry (.deleted .buffer 0)) ∧
      (Capability.run (.bindBuffer 0x8892 0) t).2 = t := by
  intro s t ds
  have hs : s.Trace [] := .start rfl fun d => by cases d <;> exact ⟨rfl, rfl⟩
  have ht : t.Trace ds := .capability (.delete .buffer 0) (.capability (.create .buffer) hs)
  have few : ∀ k, Deed.count k ds ≤ UInt32.size := fun k => by cases k <;> decide
  obtain ⟨herror, -, hsame⟩ := (ht.handles few (.bindBuffer 0x8892 0)).refused rfl [] _ [] rfl
    (fun _ hx => absurd hx List.not_mem_nil) _ rfl
  exact ⟨ht, few, herror, hsame nofun⟩

/-- What is wrong with a name in memory is reported before the handle of the program is looked at,
and of two handles that were never issued only the first is reported. -/
theorem Trace.faults_before_handle :
    let s : Core ScriptedContext :=
      { gl := {}, memory := .zeros 64, bridge := { attached := true } }
    let attrib : Capability := .attribLocation 7 100 4
    let detach : Capability := .detachShader 7 9
    s.Trace [] ∧
      (attrib.refs s = [.object .program 7] ∧
        Deed.resolve (.object .program 7) [] = .error (.outOfRange .program 7) ∧
        (attrib.run s).1 = .error (.memory (.outOfBounds 100 4 64)) ∧
        (attrib.run s).1 ≠ .error (.registry (.outOfRange .program 7))) ∧
      detach.refs s = [.object .program 7, .object .shader 9] ∧
        Deed.resolve (.object .shader 9) [] = .error (.outOfRange .shader 9) ∧
        (detach.run s).1 = .error (.registry (.outOfRange .program 7)) ∧
        (detach.run s).1 ≠ .error (.registry (.outOfRange .shader 9)) := by
  intro s attrib detach
  have hs : s.Trace [] := .start rfl fun d => by cases d <;> exact ⟨rfl, rfl⟩
  have hattrib : (attrib.run s).1 = .error (.memory (.outOfBounds 100 4 64)) := rfl
  have hdetach : (detach.run s).1 = .error (.registry (.outOfRange .program 7)) := rfl
  refine ⟨hs, ⟨rfl, rfl, hattrib, fun h => ?_⟩, rfl, rfl, hdetach, fun h => ?_⟩
  · cases hattrib.symm.trans h
  · cases hdetach.symm.trans h

end Core

end GuestBridge
