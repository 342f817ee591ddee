import GuestBridge.Proofs.Capability.Failure
import GuestBridge.Proofs.Capability.Ownership
import GuestBridge.Proofs.Capability.Resolution
import GuestBridge.Proofs.Memory.Words

/-!
# How capabilities deal with their handles

`Capability.Handled` says it for one capability in a state whose tables tell what the history tells
(`Registry.Tells`). Most capabilities look their handles up one after another and stop at the first
that does not resolve (`Core.Obeys`). Deleting many objects goes on, and a handle given twice is
deleted by the second time (`Core.deleteEach_run`); creating many objects hands the handles out in
memory (`Core.generate_passed`).
-/

set_option autoImplicit false

namespace GuestBridge

namespace Core

open Attempt

variable {G : Type} [GraphicsContext G] {s t : Core G} {ds : List Deed}

/-! ## Creating many objects -/

/-- Creating many objects fails and has made native calls at most, or all of them are made, and the
handles that they were issued are in memory. -/
theorem generate_made (b : BulkClass) (count outPtr : UInt32) (s : Core G) :
    (∃ e t, Capability.run (.generate b count outPtr) s = (.error e, t) ∧ Aside s t) ∨
      ∃ os t events, Capability.run (.generate b count outPtr) s = (.ok .nothing, t) ∧
        os.length = count.toNat ∧ t.journal.toList = s.journal.toList ++ events ∧
        events.flatMap Event.made = os.map (.object b.objectClass) ∧
        t.words outPtr count =
          ((s.bridge.registry.table b.objectClass).createMany os).1 ∧
        t.bridge.registry = s.bridge.registry.withTable b.objectClass
          ((s.bridge.registry.table b.objectClass).createMany os).2 := by
  rcases generate_cases b count outPtr s with
    ⟨e, -, hr⟩ | ⟨-, ⟨range, os, t, ha, hm, hos, hlen, hr⟩ | ⟨os, t, hos, -, -, hr⟩⟩
  · exact .inl ⟨e, s, bind_of_error hr, .refl s⟩
  · have ht := hos.aside
    have hmade : (os.map fun o => Event.gl (.create b.blueprint) (some o)).flatMap Event.made =
        os.map (.object b.objectClass) := by
      rw [List.flatMap_map]
      exact List.flatMap_pure_eq_map ..
    refine .inr ⟨os, _, _, bind_of_ok hr, hlen, hos.journal, hmade, ?_, by rw [← ht.bridge]; rfl⟩
    rw [← ht.bridge]
    refine words_of_readWords ?_ (Memory.readWords_write (ht.memory ▸ hm) ?_)
    · exact (congrArg Bridge.attached ht.bridge).trans ha
    · rw [HandleTable.length_createMany, hlen]
  · exact .inl ⟨_, _, bind_of_error hr, hos.aside_deleteAll⟩

theorem generate_passed (b : BulkClass) (count outPtr : UInt32) :
    Passed (.generate b count outPtr) s [] (Capability.run (.generate b count outPtr) s) := by
  have given : ∀ events : List Event,
      events.flatMap (Event.given (.generate b count outPtr)) = [] :=
    fun events => List.flatMap_eq_nil_iff.2 fun e _ => by cases e <;> rfl
  rcases generate_made b count outPtr s with
    ⟨e, t, hr, ht⟩ | ⟨os, t, events, hr, -, hj, hmade, hwords, hR⟩ <;> rw [hr]
  · obtain ⟨events, hj, -⟩ := ht.journal
    have hn : Noted s events t := ⟨by rw [ht.bridge], hj⟩
    exact hn.passed [] events (.inl rfl) (by simp) (given events) (fun _ => rfl)
      (Capability.returned_error _ _ _)
  · refine ⟨⟨[], events, hj, .inl rfl, by simp, given events⟩, ?_⟩
    have hdeeds : Capability.deedsTo (.generate b count outPtr) s (.ok .nothing) t =
        List.zipWith .issued ((s.bridge.registry.table b.objectClass).createMany os).1
          (os.map (.object b.objectClass)) := by
      rw [Capability.deedsTo_of_discards _ fun _ => rfl, since_eq hj, hmade, ← hwords]
      rfl
    rw [hdeeds, hR]
    exact s.bridge.registry.recorded_createMany b.objectClass os

/-! ## Deleting -/

theorem deleteObject_eq (c : ObjectClass) (h : UInt32) (s : Core G) :
    deleteObject c h s =
      match (s.bridge.registry.table c).get h with
      | .ok o => (.ok (), ((s.withRegistry (s.bridge.registry.discard c h)).perform
          (.delete c o)).2)
      | .error e => (.error (.registry e), s) := by
  have hd := (s.bridge.registry.table c).delete_eq h
  unfold deleteObject
  rcases hg : (s.bridge.registry.table c).get h with e | o <;> rw [hg] at hd
  · have hr : release c h s = (.error (.registry e), s) := by
      unfold release
      simp only [hd, Except.map]
    exact bind_of_error hr
  · have hr : release c h s = (.ok o, s.withRegistry (s.bridge.registry.discard c h)) := by
      unfold release
      simp only [hd, Except.map]
      rfl
    exact bind_of_ok hr

/-- Deleting the object of a handle: it is passed to the native context if the handle resolves,
and the handle does not resolve from then on. -/
theorem deleteObject_run (hs : s.bridge.registry.Tells ds) (c : ObjectClass) (h : UInt32) :
    ∃ events t, deleteObject c h s =
        (((Deed.resolve (.object c h) ds).map fun _ => ()).mapError .registry, t) ∧
      t.journal.toList = s.journal.toList ++ events ∧
      events.flatMap Event.resources = (Deed.resolve (.object c h) ds).toOption.toList ∧
      (∀ e ∈ events, ∃ o : Native c, e = .gl (.delete c o) ()) ∧
      t.bridge.registry = s.bridge.registry.discard c h ∧
      ∀ e, Deed.resolve (.object c h) ds = .error e → t = s := by
  rw [← hs.find, Registry.find]
  have hr := deleteObject_eq c h s
  rcases hg : (s.bridge.registry.table c).get h with e | o <;> rw [hg] at hr
  · refine ⟨[], s, hr, by simp, rfl, by simp, ?_, fun _ _ => rfl⟩
    rw [Registry.discard, HandleTable.discard_eq_self hg, Registry.withTable_table]
  · have hn := noted_perform (s.withRegistry (s.bridge.registry.discard c h)) (.delete c o)
    refine ⟨[.gl (.delete c o) ()], _, hr, hn.journal, rfl,
      fun e he => ⟨o, List.mem_singleton.1 he⟩, hn.registry, fun e he => ?_⟩
    cases he

/-- The first failure among what handles resolve to. -/
def refusal? (found : List (Except RegistryError Resource)) : Option BridgeError :=
  match found.mapM id with
  | .ok _ => none
  | .error e => some (.registry e)

theorem refusal?_cons (x : Except RegistryError Resource)
    (found : List (Except RegistryError Resource)) :
    refusal? (x :: found) =
      match x with
      | .ok _ => refusal? found
      | .error e => some (.registry e) := by
  unfold refusal?
  rw [List.mapM_cons]
  cases x with
  | error e => rfl
  | ok x => cases found.mapM id <;> rfl

/-- Deleting the objects of many handles goes on past those that do not resolve. -/
theorem deleteEach_run (b : BulkClass) (count ptr : UInt32) (handles : List UInt32)
    (hs : s.bridge.registry.Tells ds) :
    ∃ events t, deleteEach b.objectClass handles s =
        (.ok (refusal? (Capability.turns (.deleteMany b count ptr) ds
          (handles.map (.object b.objectClass)))), t) ∧
      t.journal.toList = s.journal.toList ++ events ∧
      events.flatMap Event.resources =
        (Capability.turns (.deleteMany b count ptr) ds
          (handles.map (.object b.objectClass))).filterMap Except.toOption ∧
      (∀ e ∈ events, ∃ o : Native b.objectClass, e = .gl (.delete b.objectClass o) ()) ∧
      s.bridge.registry.Recorded (handles.map (.discarded b.objectClass)) t.bridge.registry := by
  induction handles generalizing s ds with
  | nil => exact ⟨[], s, rfl, by simp, rfl, by simp, .nil⟩
  | cons h handles ih =>
    obtain ⟨first, u, hrun, hj, hg, hdel, hR, -⟩ := deleteObject_run hs b.objectClass h
    obtain ⟨events, t, hrun', hj', hg', hdel', hrec⟩ := ih (hR ▸ hs.discard b.objectClass h)
    refine ⟨first ++ events, t, ?_, ?_, ?_, ?_, ?_⟩
    · have hfirst : (deleteObject b.objectClass h).outcome s =
          (.ok (((Deed.resolve (.object b.objectClass h) ds).map fun _ => ()).mapError
            .registry), u) := by
        rw [outcome_apply, hrun]
      rw [deleteEach, bind_of_ok hfirst, bind_of_ok hrun', List.map_cons, Capability.turns,
        refusal?_cons]
      cases Deed.resolve (.object b.objectClass h) ds <;> rfl
    · rw [hj', hj, List.append_assoc]
    · rw [List.flatMap_append, hg, hg', List.map_cons, Capability.turns, List.filterMap_cons]
      cases Deed.resolve (.object b.objectClass h) ds <;> rfl
    · intro e he
      exact (List.mem_append.1 he).elim (hdel e) (hdel' e)
    · rw [hR] at hrec
      exact (Registry.Recorded.discarded b.objectClass h .nil).trans hrec

end Core

/-! ## What a capability has done -/

namespace Capability

open GuestBridge.Core Attempt

variable {G : Type} [GraphicsContext G] {s : Core G} {ds : List Deed} {c : Capability}

/-- How a capability deals with its handles, as far as that can be told from the state it finds. -/
structure Handled (c : Capability) (s : Core G) (ds : List Deed) : Prop where
  journal : ∃ events, (c.run s).2.journal.toList = s.journal.toList ++ events
  passed : (s.since (c.run s).2).flatMap (Event.given c) =
      (c.turns ds (c.refs s)).filterMap Except.toOption ∨
    (s.since (c.run s).2).flatMap (Event.given c) = [] ∧ ∃ e, (c.run s).1 = .error e
  /-- Nothing is deleted before it is passed on, but in deleting many. -/
  order : ∀ before call a after, s.since (c.run s).2 = before ++ .gl call a :: after →
    c.given call ≠ [] →
      (∀ e ∈ before, ∀ d, e.deleted d = []) ∨ ∃ d, ∃ o : Native d, call = .delete d o
  fault : ∀ e, c.fault? s = some e → c.run s = (.error e, s)
  refused : c.fault? s = none → ∀ e, (c.turns ds (c.refs s)).mapM id = .error e →
    (c.run s).1 = .error (.registry e) ∧
      ((∀ b n p, c ≠ .deleteMany b n p) → (c.run s).2 = s)
  recorded : s.bridge.registry.Recorded (c.deeds s) (c.run s).2.bridge.registry

theorem filterMap_of_mapM {found : List (Except RegistryError Resource)} {xs : List Resource}
    (h : found.mapM id = .ok xs) : found.filterMap Except.toOption = xs := by
  induction found generalizing xs with
  | nil => cases h; rfl
  | cons x found ih =>
    rw [List.mapM_cons] at h
    cases x with
    | error e => cases h
    | ok x =>
      rcases hm : found.mapM id with e | ys <;> rw [hm] at h
      · cases h
      · cases h
        exact congrArg (x :: ·) (ih hm)

/-- A capability that fails before it has done anything. -/
theorem handled_of_unchanged {e : BridgeError} (h : c.run s = (.error e, s))
    (hd : (c.refs s).flatMap c.discards = [])
    (hfault : ∀ e', c.fault? s = some e' → e = e')
    (hrefused : c.fault? s = none → ∀ e', (c.turns ds (c.refs s)).mapM id = .error e' →
      e = .registry e') : c.Handled s ds := by
  have hnone : s.since (c.run s).2 = [] := since_eq (by rw [h, List.append_nil])
  refine ⟨⟨[], by rw [h, List.append_nil]⟩, ?_, ?_, ?_, ?_, ?_⟩
  · exact .inr ⟨by rw [hnone]; rfl, e, by rw [h]⟩
  · intro before call a after hs
    rw [hnone] at hs
    cases before <;> cases hs
  · intro e' he
    rw [h, hfault e' he]
  · intro hf e' he
    rw [h, hrefused hf e' he]
    exact ⟨rfl, fun _ => rfl⟩
  · rw [deeds, deedsTo, hd, h, returned_error]
    exact .nil

/-- A call that is given something is among the first events if the last ones are given nothing,
and so is all that comes before it. -/
theorem order_of_first {first last before after : List Event} {call : GlCall} {a : call.Answer}
    (hs : first ++ last = before ++ .gl call a :: after)
    (hdel : ∀ e ∈ first, ∀ d, e.deleted d = []) (hlast : last.flatMap (Event.given c) = [])
    (hcall : c.given call ≠ []) : ∀ e ∈ before, ∀ d, e.deleted d = [] := by
  rcases List.append_eq_append_iff.1 hs with ⟨mid, -, hl⟩ | ⟨mid, hb, -⟩
  · refine absurd (List.flatMap_eq_nil_iff.1 hlast (.gl call a) ?_) hcall
    rw [hl]
    exact List.mem_append_right _ List.mem_cons_self
  · intro e he
    refine hdel e ?_
    rw [hb]
    exact List.mem_append_left _ he

theorem handled_of_obeys (hc : ∀ r, c.discards r = [])
    (h : Obeys s (c.fault? s) ((c.refs s).map fun r => Deed.resolve r ds) c.run (Passed c s)) :
    c.Handled s ds := by
  have hd : (c.refs s).flatMap c.discards = [] := List.flatMap_eq_nil_iff.2 fun r _ => hc r
  have hturns : c.turns ds (c.refs s) = (c.refs s).map fun r => Deed.resolve r ds :=
    turns_of_discards hc
  unfold Obeys at h
  rw [← hturns] at h
  rcases hf : c.fault? s with _ | e <;> rw [hf] at h
  · rcases hm : (c.turns ds (c.refs s)).mapM id with e | xs <;> rw [hm] at h
    · refine handled_of_unchanged h hd (fun e' he => ?_) fun _ e' he => ?_
      · cases hf.symm.trans he
      · cases hm.symm.trans he
        rfl
    · obtain ⟨⟨first, last, hj, hg, hdel, hlast⟩, hrec⟩ := h
      have hsince := since_eq hj
      have hgiven : (s.since (c.run s).2).flatMap (Event.given c) =
          first.flatMap (Event.given c) := by
        rw [hsince, List.flatMap_append, hlast, List.append_nil]
      refine ⟨⟨_, hj⟩, ?_, ?_, ?_, ?_, hrec⟩
      · rw [hgiven, filterMap_of_mapM hm]
        exact hg
      · intro before call a after hs hcall
        exact .inl (order_of_first (hsince.symm.trans hs) hdel hlast hcall)
      · intro e he
        cases hf.symm.trans he
      · intro _ e he
        cases hm.symm.trans he
  · refine handled_of_unchanged h hd (fun e' he => ?_) fun hn => ?_
    · cases hf.symm.trans he
      rfl
    · cases hf.symm.trans hn

/-- A capability whose events are all deletions by a handle. -/
theorem given_eq_resources (h : ∀ call, c.given call = call.resources) :
    Event.given c = Event.resources := by
  funext e
  cases e with
  | gl call a => exact h call
  | _ => rfl

theorem order_of_deletes {d : ObjectClass} {events before after : List Event} {call : GlCall}
    {a : call.Answer} (h : ∀ e ∈ events, ∃ o : Native d, e = .gl (.delete d o) ())
    (hs : events = before ++ .gl call a :: after) : ∃ d, ∃ o : Native d, call = .delete d o := by
  obtain ⟨o, ho⟩ := h (.gl call a) (hs ▸ List.mem_append_right _ List.mem_cons_self)
  injection ho with ho
  exact ⟨d, o, ho⟩

theorem handled_delete (hs : s.bridge.registry.Tells ds) (d : ObjectClass) (handle : UInt32) :
    (delete d handle).Handled s ds := by
  obtain ⟨events, t, hrun, hj, hg, hdel, hR, hsame⟩ := deleteObject_run hs d handle
  have hsince := since_eq hj
  have hgiven := given_eq_resources (c := delete d handle) fun _ => rfl
  have hrun' : (delete d handle).run s =
      (((Deed.resolve (.object d handle) ds).mapError .registry).map fun _ => .nothing, t) := by
    refine (bind_pure_apply (Core.deleteObject d handle) _ s).trans ?_
    rw [hrun]
    cases Deed.resolve (.object d handle) ds <;> rfl
  have hturns : (delete d handle).turns ds ((delete d handle).refs s) =
      [Deed.resolve (.object d handle) ds] := rfl
  refine ⟨⟨events, ?_⟩, ?_, ?_, nofun, ?_, ?_⟩
  · rw [hrun', hj]
  · rw [hrun', hsince, hgiven, hg, hturns]
    left
    cases Deed.resolve (.object d handle) ds <;> rfl
  · intro before call a after hs _
    rw [hrun', hsince] at hs
    exact .inr (order_of_deletes hdel hs)
  · intro _ e he
    rw [hturns] at he
    rcases hr : Deed.resolve (.object d handle) ds with e' | x <;> rw [hr] at he <;> cases he
    rw [hrun', hr]
    exact ⟨rfl, fun _ => hsame e hr⟩
  · have hdeeds : (delete d handle).deeds s = [.discarded d handle] := rfl
    rw [hdeeds, hrun', hR]
    exact .discarded d handle .nil

/-- Reading the handles to delete from memory: it fails, and there are none, or they are read. -/
theorem deleteMany_cases (b : BulkClass) (count ptr : UInt32) (s : Core G) :
    (∃ e, (deleteMany b count ptr).fault? s = some e ∧ s.words ptr count = [] ∧
        (deleteMany b count ptr).run s = (.error e, s)) ∨
      (deleteMany b count ptr).fault? s = none ∧
        ∀ {first t}, deleteEach b.objectClass (s.words ptr count) s = (.ok first, t) →
          (deleteMany b count ptr).run s =
            (match first with
              | none => .ok .nothing
              | some e => .error e, t) := by
  rw [show (deleteMany b count ptr).run s = _ from
    bind_pure_apply (Core.deleteMany b count ptr) (fun _ => Result.nothing) s]
  unfold Core.deleteMany
  rcases access_cases (fun memory => memory.readWords ptr count) (fun _ => _) s with
    ⟨e, hf, hr⟩ | ⟨handles, ha, hread, hf, hr⟩ <;> rw [hr]
  · exact .inl ⟨e, hf, words_of_fault hf, rfl⟩
  · refine .inr ⟨hf, fun {first t} heach => ?_⟩
    rw [words_of_readWords ha hread] at heach
    rw [bind_of_ok heach]
    cases first <;> rfl

theorem handled_deleteMany (hs : s.bridge.registry.Tells ds) (b : BulkClass) (count ptr : UInt32) :
    (deleteMany b count ptr).Handled s ds := by
  rcases deleteMany_cases b count ptr s with ⟨e, hf, hw, hrun⟩ | ⟨hf, hrun⟩
  · have hrefs : (deleteMany b count ptr).refs s = [] := by
      rw [refs, hw, List.map_nil]
    refine handled_of_unchanged hrun (by rw [hrefs]; rfl) (fun e' he => ?_) fun hn => ?_
    · cases hf.symm.trans he
      rfl
    · cases hf.symm.trans hn
  · obtain ⟨events, t, heach, hj, hg, hdel, hrec⟩ :=
      deleteEach_run b count ptr (s.words ptr count) hs
    have hrun := hrun heach
    have hsince := since_eq hj
    have hgiven := given_eq_resources (c := deleteMany b count ptr) fun _ => rfl
    have hrefs : (deleteMany b count ptr).refs s =
        (s.words ptr count).map (.object b.objectClass) := rfl
    rw [← hrefs] at hrun hg
    refine ⟨⟨events, ?_⟩, ?_, ?_, ?_, ?_, ?_⟩
    · rw [hrun, hj]
    · rw [hrun, hsince, hgiven]
      exact .inl hg
    · intro before call a after hs _
      rw [hrun, hsince] at hs
      exact .inr (order_of_deletes hdel hs)
    · intro e he
      cases hf.symm.trans he
    · intro _ e he
      rw [hrun, refusal?, he]
      exact ⟨rfl, fun hn => absurd rfl (hn b count ptr)⟩
    · have hdeeds : (deleteMany b count ptr).deeds s =
          (s.words ptr count).map (.discarded b.objectClass) := by
        rw [List.map_eq_flatMap, deeds, deedsTo, hrefs, List.flatMap_map]
        exact List.append_nil _
      rw [hdeeds, hrun]
      exact hrec

theorem handled (hs : s.bridge.registry.Tells ds) (c : Capability) : c.Handled s ds := by
  cases c with
  | generate b count outPtr =>
    exact handled_of_obeys (fun _ => rfl) (obeys_done (generate_passed b count outPtr))
  | delete d handle => exact handled_delete hs d handle
  | deleteMany b count ptr => exact handled_deleteMany hs b count ptr
  | _ => exact handled_of_obeys (fun _ => rfl) (obeys hs _ (fun _ => rfl) nofun)

end Capability

end GuestBridge
