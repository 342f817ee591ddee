import GuestBridge.Proofs.Bench.Flight

/-!
# Passages of the loop

Most of what can be done on a bench leaves the loop alone: it neither enters the guest nor attaches
one, nor starts or lets go of the bridge (`Step.SparesLoop`). If the guest's own steps are of that
kind, all that the loop sees of an operation are the entries made by the operation itself:
`Passage b es b'` says that `es` are the entries on the way from `b` to `b'`, and that the bridge
runs, and has a guest, after it as before.
-/

set_option autoImplicit false

namespace GuestBridge.Bench

variable {G C : Type} [GraphicsContext G]

/-! ## Steps that leave the loop alone -/

/-- Whether a step leaves the loop alone. -/
def Step.SparesLoop : Step C → Prop
  | .bridge (.capability _) | .bridge .shutdown | .bridge .phase | .bridge .pendingFetches
  | .bridge .registry | .bridge (.readText _ _) => True
  | .request _ | .cancelRequest _ | .adjustContext _ | .queueAllocation _ | .failExport _ _
  | .restoreExport _ | .interlude _ _ | .growMemory _ | .poke _ _ | .peek _ _ | .setRandom _
  | .breaks | .setImage _ _ => True
  | _ => False

def Happening.SparesLoop : Happening → Prop
  | performed _ | accepted _ | cancelled _ | shutDown => True
  | _ => False

omit [GraphicsContext G] in
theorem Step.SparesLoop.of_causedBy {h : Happening} {step : Step C} (hs : step.SparesLoop)
    (hc : h.CausedBy step) : h.SparesLoop := by
  cases h with
  | performed c | accepted fetch | cancelled id | shutDown => trivial
  | called entry =>
    cases step with
    | bridge op => cases op <;> first | exact hc.elim | exact hs.elim
    | _ => exact hc.elim
  | allocated len =>
    cases step with
    | bridge op => cases op <;> first | exact hc.elim | exact hs.elim
    | _ => first | exact hc.elim | exact hs.elim
  | dropped | attached | frame timestamp =>
    subst hc
    exact hs
  | started =>
    obtain ⟨width, height, rfl⟩ := hc
    exact hs
  | lost fetch | ended fetch why | asked fetch image | copied fetch image ptr
  | failed fetch image =>
    rcases hc with rfl | rfl <;> exact hs
  | told c | omitted c why => rcases hc with rfl | rfl | rfl <;> exact hs

omit [GraphicsContext G] in
theorem Happening.sparesLoop {h : Happening} (hw : h.Within (Step.SparesLoop (C := C))) :
    h.SparesLoop := by
  obtain ⟨step, hs, hc⟩ := hw
  exact hs.of_causedBy hc

/-! ## Passages -/

/-- A bench on which the loop can be operated: it is owned, a guest is attached if it runs, and the
guest's own steps leave the loop alone. -/
structure Ready (b : Bench G C) : Prop where
  owned : b.owned = true
  sound : b.Sound
  guest : b.guest.All Step.SparesLoop

structure Passage (b : Bench G C) (es : List Event) (b' : Bench G C) : Prop where
  entries : b'.core.entries = b.core.entries ++ es
  phase : b'.core.bridge.phase = b.core.bridge.phase
  attached : b'.core.bridge.attached = b.core.bridge.attached
  owned : b'.owned = b.owned
  guest : b.guest.All Step.SparesLoop → b'.guest.All Step.SparesLoop

namespace Passage

variable {b b' b'' : Bench G C} {es es' : List Event}

omit [GraphicsContext G] in
theorem refl (b : Bench G C) : Passage b [] b := ⟨(List.append_nil _).symm, rfl, rfl, rfl, id⟩

omit [GraphicsContext G] in
theorem trans (h : Passage b es b') (h' : Passage b' es' b'') : Passage b (es ++ es') b'' where
  entries := by rw [h'.entries, h.entries, List.append_assoc]
  phase := h'.phase.trans h.phase
  attached := h'.attached.trans h.attached
  owned := h'.owned.trans h.owned
  guest hg := h'.guest (h.guest hg)

omit [GraphicsContext G] in
theorem ready (h : Passage b es b') (hb : b.Ready) : b'.Ready where
  owned := h.owned.trans hb.owned
  sound hp := h.attached.trans (hb.sound (h.phase.symm.trans hp))
  guest := h.guest hb.guest

omit [GraphicsContext G] in
/-- Nothing but the core's memory, context and host, and nothing of the guest's steps, changes. -/
theorem of_eq (he : b'.core.entries = b.core.entries) (hb : b'.core.bridge = b.core.bridge)
    (ho : b'.owned = b.owned) (hg : b'.guest.interludes = b.guest.interludes) :
    Passage b [] b' where
  entries := by rw [he, List.append_nil]
  phase := by rw [hb]
  attached := by rw [hb]
  owned := ho
  guest h := by
    unfold Guest.All at h ⊢
    rwa [hg]

omit [GraphicsContext G] in
theorem note (b : Bench G C) {e : Event} (he : e.isEntry = true) : Passage b [e] (b.note e) :=
  ⟨by rw [Bench.note, entries_note, if_pos he], rfl, rfl, rfl, id⟩

omit [GraphicsContext G] in
theorem log (inner : Performer G C) (level : Log.Level) (target text : String) (b : Bench G C) :
    Passage b [] ((platform inner).log level target text b) :=
  .of_eq ((entries_note b.core (.log ⟨level, target, text⟩)).trans (List.append_nil _)) rfl rfl rfl

end Passage

/-- What leaves the loop alone makes no entry, and does not change whether the bridge runs, has a
guest, or is owned. -/
theorem History.sparesLoop {m n : Moment G C} {hs : List Happening} (hh : History m hs n)
    (ha : ∀ h ∈ hs, h.SparesLoop) : n.bench.core.entries = m.bench.core.entries ∧
      n.bench.core.bridge.phase = m.bench.core.bridge.phase ∧
      n.bench.core.bridge.attached = m.bench.core.bridge.attached ∧
      n.bench.owned = m.bench.owned := by
  induction hh with
  | refl => exact ⟨rfl, rfl, rfl, rfl⟩
  | quiet before hq ih =>
    obtain ⟨he, hp, hg, ho⟩ := ih ha
    exact ⟨hq.entries_eq.trans he, hq.bridge ▸ hp, hq.bridge ▸ hg, hq.owned.trans ho⟩
  | snoc before now ih =>
    rename_i hs h t u
    obtain ⟨he, hp, hg, ho⟩ := ih fun h hm => ha h (List.mem_append_left _ hm)
    have hspares : h.SparesLoop := ha h (List.mem_append_right _ (.head _))
    have hentry : h.entry? = none := by
      cases h <;> first | rfl | exact hspares.elim
    have hbridge : (h.onBridge t.bench.core.bridge).phase = t.bench.core.bridge.phase ∧
        (h.onBridge t.bench.core.bridge).attached = t.bench.core.bridge.attached := by
      cases h with
      | shutDown =>
        obtain ⟨requests, he, -⟩ := Bridge.cancelPending_eq t.bench.core.bridge
        rw [Happening.onBridge, he]
        exact ⟨rfl, rfl⟩
      | performed c | accepted fetch | cancelled id => exact ⟨rfl, rfl⟩
      | _ => exact hspares.elim
    have howned : u.bench.owned = t.bench.owned := by
      have hiff := now.owned_iff
      have hne : Happening.dropped ≠ h := by
        rintro rfl
        exact hspares
      rw [or_iff_left hne] at hiff
      exact Bool.eq_iff_iff.2 (not_iff_not.1 (by simpa using hiff))
    obtain ⟨registry, hb⟩ := now.bridge_eq
    refine ⟨?_, ?_, ?_, howned.trans ho⟩
    · rw [now.entries_eq, hentry]
      exact (List.append_nil _).trans he
    · rw [hb]
      exact hbridge.1.trans hp
    · rw [hb]
      exact hbridge.2.trans hg

theorem Leads.passage {b b' : Bench G C} {hs : List Happening}
    (h : Leads Step.SparesLoop (Happening.Within (Step.SparesLoop (C := C))) [] b hs [] b')
    (hb : b.Ready) : Passage b [] b' := by
  obtain ⟨loads, hh, hc, -, hg⟩ := h [] b.tasks [] hb.guest hb.sound (by simp)
  obtain ⟨he, hp, ha, ho⟩ := hh.sparesLoop (hc.forall_of (fun _ hw => Happening.sparesLoop hw)
    fun _ hw => Happening.sparesLoop hw)
  exact ⟨by rw [List.append_nil]; exact he, hp, ha, ho, fun _ => hg⟩

/-! ## Entries -/

section

variable {inner : Performer G C} {tell : Teller G C} {b : Bench G C}

theorem interlude_passage (hi : Follows Step.SparesLoop inner tell) (hb : b.Ready) (name : String) :
    Passage b [] (interlude inner name b) :=
  (interlude_leads hi name b).passage hb

omit [GraphicsContext G] in
theorem grant_passage (len : UInt32) (b : Bench G C) : Passage b [] (grant len b).2 := by
  obtain ⟨guest, memory, hb, hg⟩ :=
    of_grant (show grant len b = ((grant len b).1, (grant len b).2) from rfl)
  rw [hb]
  exact .of_eq rfl rfl rfl hg

theorem alloc_passage (hi : Follows Step.SparesLoop inner tell) (hb : b.Ready) (len : UInt32) :
    Passage b [.alloc len] (alloc inner len b).2 := by
  have hnote : Passage b [.alloc len] (b.note (.alloc len)) := .note b rfl
  rw [alloc_eq]
  exact (hnote.trans (interlude_passage hi (hnote.ready hb) _)).trans (grant_passage _ _)

theorem call_passage (hi : Follows Step.SparesLoop inner tell) (hb : b.Ready) (entry : EntryPoint) :
    Passage b [.call entry] (call inner entry b).2 := by
  have hnote : Passage b [.call entry] (b.note (.call entry)) := .note b rfl
  rw [call_eq]
  exact hnote.trans (interlude_passage hi (hnote.ready hb) _)

/-- A call that the bridge admits enters the guest, whether or not the guest traps. -/
theorem callGuest_passage (hi : Follows Step.SparesLoop inner tell) (hb : b.Ready)
    {entry : EntryPoint} (hp : b.core.bridge.admits entry = true)
    (ha : b.core.bridge.attached = true) :
    ∃ r b', (platform inner).callGuest entry b = (Except.mapError .guest r, b') ∧
      Passage b [.call entry] b' := by
  refine ⟨(call inner entry b).1, _, ?_, call_passage hi hb entry⟩
  rw [callGuest_eq, if_neg (by simp [hp]), if_neg (by simp [ha])]

theorem callGuest_of_running (hi : Follows Step.SparesLoop inner tell) (hb : b.Ready)
    (hp : b.core.bridge.phase = .running) (entry : EntryPoint) :
    ∃ r b', (platform inner).callGuest entry b = (Except.mapError .guest r, b') ∧
      Passage b [.call entry] b' :=
  callGuest_passage hi hb (by simp [Bridge.admits, hp]) (hb.sound hp)

/-! ## Copies -/

omit [GraphicsContext G] in
/-- With a guest, only the memory can refuse a store. -/
theorem store_error {stores : List Store} {c c' : Core G} {e : BridgeError}
    (ha : c.bridge.attached = true) (h : Core.store stores c = (.error e, c')) :
    ∃ fault, e = .memory fault := by
  have hm : Core.guestMemory c = (.ok c.memory, c) := if_pos ha
  unfold Core.store at h
  rw [Attempt.bind_of_ok hm] at h
  rcases hw : c.memory.writeBatch stores with fault | memory
  · rw [hw] at h
    exact ⟨fault, (Except.error.inj (Prod.mk.inj h).1).symm⟩
  · rw [hw] at h
    cases (Prod.mk.inj h).1

/-- What comes of a copy into an attached guest: there is nothing to copy, or the bytes are too many
for the guest, or the allocator is asked exactly once, for as many bytes as there are. -/
theorem copyToGuest_cases (hi : Follows Step.SparesLoop inner tell) (hb : b.Ready)
    (ha : b.core.bridge.attached = true) (bytes : List UInt8) :
    (bytes = [] ∧ (platform inner).copyToGuest bytes b = (.ok .empty, b)) ∨
      (∃ fault, (platform inner).copyToGuest bytes b = (.error (.memory fault), b)) ∨
      bytes ≠ [] ∧ bytes.length < UInt32.size ∧ ∃ b',
        Passage b [.alloc (.ofNat bytes.length)] b' ∧
        ((∃ fault, (platform inner).copyToGuest bytes b = (.error (.guest fault), b')) ∨
          (∃ fault, (platform inner).copyToGuest bytes b = (.error (.memory fault), b')) ∨
          ∃ ptr, (platform inner).copyToGuest bytes b =
            (.ok (.copied ptr (.ofNat bytes.length)), b')) := by
  have hbridge : (platform inner).bridge b = (.ok b.core.bridge, b) := rfl
  by_cases hempty : bytes = []
  · refine .inl ⟨hempty, ?_⟩
    unfold Platform.copyToGuest
    rw [Attempt.bind_of_ok hbridge, if_neg (by simp [ha]), if_pos (by simp [hempty])]
    rfl
  · have he : bytes.isEmpty = false := by simpa using hempty
    by_cases hlen : bytes.length < UInt32.size
    · refine .inr (.inr ⟨hempty, hlen, ?_⟩)
      have halloc := alloc_passage hi hb (.ofNat bytes.length)
      rw [copyToGuest_eq inner ha he (if_pos hlen)]
      rcases hal : alloc inner (.ofNat bytes.length) b with ⟨fault | ptr, b'⟩
      · rw [hal] at halloc
        exact ⟨b', halloc, .inl ⟨fault, rfl⟩⟩
      · rw [hal] at halloc
        rcases Core.store_cases [.bytes ptr bytes] b'.core with ⟨memory, hs⟩ | ⟨e, hs⟩
        · have hmem : Passage b' [] { b' with core.memory := memory } := .of_eq rfl rfl rfl rfl
          simp only [hs]
          exact ⟨_, halloc.trans hmem, .inr (.inr ⟨ptr, rfl⟩)⟩
        · obtain ⟨fault, rfl⟩ := store_error (halloc.attached.trans ha) hs
          simp only [hs]
          exact ⟨b', halloc, .inr (.inl ⟨fault, rfl⟩)⟩
    · have hlift : (Action.liftMemory (Store.guestLen bytes) : Action (Bench G C) UInt32) b =
          (.error (.memory (.tooLarge bytes.length)), b) := by
        simp [Action.liftMemory, Store.guestLen, hlen, Except.mapError]
      refine .inr (.inl ⟨.tooLarge bytes.length, ?_⟩)
      unfold Platform.copyToGuest
      rw [Attempt.bind_of_ok hbridge, if_neg (by simp [ha]), if_neg (by simp [he]),
        Attempt.bind_of_error hlift]

end

end GuestBridge.Bench
