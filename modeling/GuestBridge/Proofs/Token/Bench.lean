import GuestBridge.Proofs.Bench.Entries
import GuestBridge.Proofs.Token.Capability

/-!
# The guest with other tokens

`Bench.Retokened f named b b'` relates the benches of two runs that differ in the tokens of their
fetches. Entering the guest, copying into it and performing capabilities keep it, if the steps that
the guest takes meanwhile do (`Bench.Mirrored`).
-/

set_option autoImplicit false

namespace GuestBridge.Bench

open Attempt

variable {G C : Type}

/-- The entry points that a step calls by name are among the given ones. -/
def Step.NamesIn (named : EntryPoint → Prop) (step : Step C) : Prop :=
  ∀ entry, step = .bridge (.callGuest entry) → named entry

/-- The bench `b'` comes with other tokens to where `b` has come. -/
structure Retokened (f : UInt32 → UInt32) (named : EntryPoint → Prop) (b b' : Bench G C) :
    Prop where
  core : b.core.Retokened f named b'.core
  owned : b'.owned = b.owned
  entered : b'.entered = b.entered
  guest : b'.guest = b.guest.retoken f
  images : b'.images = b.images
  tasks : b'.tasks = b.tasks.map (·.retoken f)
  deferred : b'.deferred = b.deferred.map (·.retoken f)
  named : b.guest.All (Step.NamesIn named)

/-- Taking a step with another token is taking it where the tokens differ. -/
def Mirrored (f : UInt32 → UInt32) (named : EntryPoint → Prop) (inner inner' : Performer G C) :
    Prop :=
  ∀ step b b', Step.NamesIn named step → Step.AllBelow (Step.NamesIn named) step →
    Retokened f named b b' →
      (inner' (step.retoken f) b').1 = (inner step b).1.retoken f ∧
        Retokened f named (inner step b).2 (inner' (step.retoken f) b').2

variable {f : UInt32 → UInt32} {named : EntryPoint → Prop} {inner inner' : Performer G C}
  {b b' : Bench G C}

namespace Retokened

/-- A change of the core that no other part of the bench notices. -/
theorem withCore (h : Retokened f named b b') {core core' : Core G}
    (hc : core.Retokened f named core') :
    Retokened f named { b with core } { b' with core := core' } :=
  ⟨hc, h.owned, h.entered, h.guest, h.images, h.tasks, h.deferred, h.named⟩

theorem note (h : Retokened f named b b') {e e' : Event} (he : e.Retokens f named e') :
    Retokened f named (b.note e) (b'.note e') :=
  h.withCore (h.core.note he)

theorem withBridge (h : Retokened f named b b') {g g' : Bridge → Bridge}
    (hg : g' (b.core.bridge.retoken f) = (g b.core.bridge).retoken f) :
    Retokened f named (b.withBridge g) (b'.withBridge g') :=
  h.withCore ⟨by rw [h.core.bridge]; exact hg, h.core.gl, h.core.memory, h.core.host,
    h.core.journal⟩

theorem isAlive (h : Retokened f named b b') : b'.isAlive = b.isAlive := by
  unfold Bench.isAlive
  rw [h.owned, h.entered]

theorem isCancelled (h : Retokened f named b b') (id : Nat) :
    b'.core.bridge.isCancelled id = b.core.bridge.isCancelled id := by
  rw [h.core.bridge, Bridge.isCancelled_retoken]

theorem spawn (h : Retokened f named b b') (fetch : Accepted) :
    Retokened f named (b.spawn fetch) (b'.spawn (fetch.retoken f)) := by
  have hn : Retokened f named ((b.note (.load fetch.request.url)).note .spawn)
      ((b'.note (.load fetch.request.url)).note .spawn) :=
    (h.note (e := .load fetch.request.url) (.same trivial)).note (e := .spawn) (.same trivial)
  refine ⟨hn.core, hn.owned, hn.entered, hn.guest, hn.images, ?_, hn.deferred, hn.named⟩
  show b'.tasks ++ [(⟨fetch.retoken f, (b'.images.lookup fetch.request.url).isSome⟩ : Task)] =
    (b.tasks ++ [(⟨fetch, (b.images.lookup fetch.request.url).isSome⟩ : Task)]).map (·.retoken f)
  rw [h.tasks, h.images, List.map_append]
  rfl

theorem defer (h : Retokened f named b b') (c : Completion) :
    Retokened f named (b.defer c) (b'.defer (c.retoken f)) := by
  have hn : Retokened f named (b.note .defer) (b'.note .defer) :=
    h.note (e := .defer) (.same trivial)
  refine ⟨hn.core, hn.owned, hn.entered, hn.guest, hn.images, hn.tasks, ?_, hn.named⟩
  show b'.deferred ++ [c.retoken f] = (b.deferred ++ [c]).map _
  rw [h.deferred, List.map_append]
  rfl

/-! ## Entering the guest -/

theorem takeSteps (hi : Mirrored f named inner inner') {steps : List (Step C)}
    (hs : Step.AllIn (Step.NamesIn named) steps) (h : Retokened f named b b') :
    Retokened f named (takeSteps inner steps b)
      (takeSteps inner' (Step.retokenAll f steps) b') := by
  induction steps generalizing b b' with
  | nil => exact h
  | cons step rest ih =>
    obtain ⟨hn, hb, hr⟩ := hs
    obtain ⟨hreply, ht⟩ := hi step b b' hn hb h
    refine ih hr (ht.note ?_)
    rw [hreply]
    exact .nested _

theorem interlude (hi : Mirrored f named inner inner') (name : String)
    (h : Retokened f named b b') :
    Retokened f named (interlude inner name b) (interlude inner' name b') := by
  obtain ⟨hsteps, hrest⟩ := h.named.take name
  have hguest : b'.guest.interludes.take name = _ := h.guest ▸ b.guest.take_retoken f name
  have henter : Retokened f named (b.enter name) (b'.enter name) := by
    refine ⟨h.core, h.owned, rfl, ?_, h.images, h.tasks, h.deferred, hrest⟩
    unfold enter
    rw [hguest, h.guest]
    rfl
  have ht := takeSteps hi hsteps henter
  rw [interlude_eq, interlude_eq, hguest]
  exact ⟨ht.core, ht.owned, h.entered, ht.guest, ht.images, ht.tasks, ht.deferred, ht.named⟩

theorem grant (h : Retokened f named b b') (len : UInt32) :
    (grant len b').1 = (grant len b).1 ∧ Retokened f named (grant len b).2 (grant len b').2 := by
  have hall : b'.guest.allocations = b.guest.allocations := by
    rw [h.guest]
    rfl
  have hguest {g : Guest C → Guest C} (hg : (g b.guest).retoken f = g (b.guest.retoken f))
      (hq : (g b.guest).interludes = b.guest.interludes) :
      Retokened f named { b with guest := g b.guest } { b' with guest := g b'.guest } := by
    refine ⟨h.core, h.owned, h.entered, ?_, h.images, h.tasks, h.deferred, ?_⟩
    · rw [h.guest, hg]
    · unfold Guest.All
      rw [hq]
      exact h.named
  unfold Bench.grant
  rw [hall]
  cases b.guest.allocations with
  | cons result rest => exact ⟨rfl, hguest (g := fun g => { g with allocations := rest }) rfl rfl⟩
  | nil =>
    have hptr : b'.guest.allocator = b.guest.allocator := by
      rw [h.guest]
      rfl
    unfold Bench.allocate
    rw [hptr, h.core.memory]
    refine ⟨rfl, ?_⟩
    have hg := hguest (g := fun g =>
      { g with allocator := (b.guest.allocator.allocate len b.core.memory).2.1 }) rfl rfl
    exact hg.withCore ⟨h.core.bridge, h.core.gl, rfl, h.core.host, h.core.journal⟩

theorem alloc (hi : Mirrored f named inner inner') (h : Retokened f named b b') (len : UInt32) :
    (alloc inner' len b').1 = (alloc inner len b).1 ∧
      Retokened f named (alloc inner len b).2 (alloc inner' len b').2 := by
  rw [alloc_eq, alloc_eq]
  exact (interlude hi allocatorExport (h.note (e := .alloc len) (.same trivial))).grant len

end Retokened

/-- The entry points through which the guest is entered in the one run and in the other. -/
def Answers (f : UInt32 → UInt32) (named : EntryPoint → Prop) (entry entry' : EntryPoint) : Prop :=
  entry' = entry.retoken f ∨ named entry ∧ entry' = entry

namespace Answers

variable {entry entry' : EntryPoint} (h : Answers f named entry entry')

include h

theorem event : (Event.call entry).Retokens f named (.call entry') := by
  rcases h with rfl | ⟨hn, rfl⟩
  · exact .called entry
  · exact .named hn

theorem exportName : entry'.exportName = entry.exportName := by
  rcases h with rfl | ⟨-, rfl⟩
  · exact entry.exportName_retoken f
  · rfl

theorem isInit : entry'.isInit = entry.isInit := by
  rcases h with rfl | ⟨-, rfl⟩
  · exact entry.isInit_retoken f
  · rfl

end Answers

theorem Retokened.call {entry entry' : EntryPoint} (hi : Mirrored f named inner inner')
    (h : Retokened f named b b') (he : Answers f named entry entry') :
    (Bench.call inner' entry' b').1 = (Bench.call inner entry b).1 ∧
      Retokened f named (Bench.call inner entry b).2 (Bench.call inner' entry' b').2 := by
  have ht := (h.note he.event).interlude hi entry.exportName
  rw [call_eq, call_eq, he.exportName]
  refine ⟨?_, ht⟩
  unfold Bench.call
  simp only [he.exportName]
  have hfault :
      (Bench.interlude inner' entry.exportName (b'.note (.call entry'))).guest.fault?
          entry.exportName =
        (Bench.interlude inner entry.exportName (b.note (.call entry))).guest.fault?
          entry.exportName := by
    rw [ht.guest]
    rfl
  rw [hfault]
  split <;> rfl

/-! ## Actions of the platform -/

section

variable {α : Type} {A : α → α → Prop}

theorem mirrors_bridge :
    Mirrors (Retokened f named) (fun r r' => r' = r.retoken f)
      ((platform inner).bridge : Action (Bench G C) Bridge) (platform inner').bridge :=
  fun _ _ h => ⟨.ok h.core.bridge, h⟩

theorem mirrors_onCore {x x' : Action (Core G) α}
    (hx : Mirrors (Core.Retokened f named) A x x') :
    Mirrors (Retokened f named) A ((platform inner).onCore x) ((platform inner').onCore x') :=
  fun _ _ h => ⟨(hx _ _ h.core).1, h.withCore (hx _ _ h.core).2⟩

theorem mirrors_ofGuest {x x' : Bench G C → Except GuestError α × Bench G C}
    (hx : ∀ b b', Retokened f named b b' →
      (x' b').1 = (x b).1 ∧ Retokened f named (x b).2 (x' b').2) :
    Mirrors (Retokened f named) Eq (Platform.ofGuest x) (Platform.ofGuest x') := by
  intro b b' h
  obtain ⟨hr, ht⟩ := hx b b' h
  unfold Platform.ofGuest
  simp only [hr]
  exact ⟨matches_eq _, ht⟩

theorem mirrors_onBridge {g : Bridge → Bridge} (hg : ∀ r, g (r.retoken f) = (g r).retoken f) :
    Mirrors (Retokened f named) Eq
      (.modify ((platform inner).onBridge g) : Action (Bench G C) Unit)
      (.modify ((platform inner').onBridge g)) :=
  mirrors_modify fun _ _ h => h.withBridge (hg _)

theorem Retokened.log (h : Retokened f named b b') {level : Log.Level} {target text : String}
    (hr : (Event.log ⟨level, target, text⟩).IsTokenless) :
    Retokened f named ((platform inner).log level target text b)
      ((platform inner').log level target text b') :=
  h.note (.same hr)

theorem mirrors_log {level : Log.Level} {target text : String}
    (hr : (Event.log ⟨level, target, text⟩).IsTokenless) :
    Mirrors (Retokened f named) Eq
      (.modify ((platform inner).log level target text) : Action (Bench G C) Unit)
      (.modify ((platform inner').log level target text)) :=
  mirrors_modify fun _ _ h => h.log hr

theorem mirrors_liftMemory (x : Except MemoryError α) :
    Mirrors (Retokened f named) Eq (Action.liftMemory x : Action (Bench G C) α)
      (Action.liftMemory x) :=
  mirrors_lift _

end

variable (hi : Mirrored f named inner inner')

include hi

theorem mirrors_callGuest {entry entry' : EntryPoint} (he : Answers f named entry entry') :
    Mirrors (Retokened f named) Eq ((platform inner).callGuest entry)
      ((platform inner').callGuest entry') := by
  refine mirrors_bridge.bind fun r r' hr => ?_
  subst hr
  have hadmits : (r.retoken f).admits entry' = r.admits entry := by
    unfold Bridge.admits
    rw [he.isInit]
    rfl
  rw [hadmits]
  split
  · exact mirrors_fail _
  · show Mirrors _ _ (if !r.attached then _ else _) (if !r.attached then _ else _)
    split
    · exact mirrors_fail _
    · exact mirrors_ofGuest fun b b' h => h.call hi he

theorem mirrors_callGuest_same {entry : EntryPoint} (he : entry.retoken f = entry) :
    Mirrors (Retokened f named) Eq ((platform inner).callGuest entry)
      ((platform inner').callGuest entry) :=
  mirrors_callGuest hi (.inl he.symm)

omit hi in
theorem mirrors_attachGuest :
    Mirrors (Retokened f named) Eq ((platform inner).attachGuest : Action (Bench G C) Unit)
      (platform inner').attachGuest := by
  refine mirrors_bridge.bind fun r r' hr => ?_
  subst hr
  show Mirrors _ _ (if r.attached then _ else _) (if r.attached then _ else _)
  split
  · exact mirrors_fail _
  · exact mirrors_onBridge fun _ => rfl

theorem mirrors_init (width height : UInt32) :
    Mirrors (Retokened f named) Eq ((platform inner).init width height)
      ((platform inner').init width height) := by
  refine mirrors_bridge.bind fun r r' hr => ?_
  subst hr
  show Mirrors _ _ (if r.phase = .running then _ else _) (if r.phase = .running then _ else _)
  split
  · exact mirrors_fail _
  · refine Mirrors.bind_eq (mirrors_callGuest_same hi rfl) fun _ => ?_
    refine Mirrors.bind_eq (mirrors_onBridge fun _ => rfl) fun _ => ?_
    exact mirrors_log (Event.isTokenless_of_target (by decide))

theorem mirrors_animationFrame (timestamp : Ieee.Double) :
    Mirrors (Retokened f named) Eq ((platform inner).animationFrame timestamp)
      ((platform inner').animationFrame timestamp) := by
  refine mirrors_bridge.bind fun r r' hr => ?_
  subst hr
  show Mirrors _ _ (if r.phase ≠ .running then _ else _) (if r.phase ≠ .running then _ else _)
  split
  · exact mirrors_fail _
  · have hstale : (r.retoken f).staleAfter? timestamp = r.staleAfter? timestamp := rfl
    rw [hstale]
    cases r.staleAfter? timestamp with
    | some last => exact Mirrors.answer (mirrors_log (Event.isTokenless_of_level (by decide))) _
    | none =>
      refine Mirrors.bind_eq (mirrors_onBridge fun _ => rfl) fun _ => ?_
      exact Mirrors.answer (mirrors_callGuest_same hi rfl) _

theorem mirrors_dispatchInput (event : InputEvent) :
    Mirrors (Retokened f named) Eq ((platform inner).dispatchInput event)
      ((platform inner').dispatchInput event) :=
  mirrors_callGuest_same hi (by cases event <;> rfl)

theorem mirrors_copyToGuest (bytes : List UInt8) :
    Mirrors (Retokened f named) Eq ((platform inner).copyToGuest bytes)
      ((platform inner').copyToGuest bytes) := by
  refine mirrors_bridge.bind fun r r' hr => ?_
  subst hr
  show Mirrors _ _ (if !r.attached then _ else _) (if !r.attached then _ else _)
  split
  · exact mirrors_fail _
  · split
    · exact mirrors_pure rfl
    · exact (mirrors_liftMemory _).bind_eq fun len =>
        (mirrors_ofGuest fun b b' h => h.alloc hi len).bind_eq fun ptr =>
          (mirrors_onCore (Core.tokenless_store _)).answer _

theorem mirrors_submitEquation (text : String) :
    Mirrors (Retokened f named) Eq ((platform inner).submitEquation text)
      ((platform inner').submitEquation text) := by
  refine mirrors_bridge.bind fun r r' hr => ?_
  subst hr
  show Mirrors _ _ (if r.phase ≠ .running then _ else _) (if r.phase ≠ .running then _ else _)
  split
  · exact mirrors_fail _
  · refine (mirrors_copyToGuest hi _).bind_eq fun copy => ?_
    cases copy with
    | copied ptr len => exact Mirrors.answer (mirrors_callGuest_same hi rfl) _
    | empty => exact Mirrors.answer (mirrors_log (Event.isTokenless_of_level (by decide))) _

omit hi in
theorem mirrors_perform [GraphicsContext G] (c : Capability) :
    Mirrors (Retokened f named) (fun r r' => r' = r.retoken f)
      ((platform inner).perform c : Action (Bench G C) Capability.Result)
      ((platform inner').perform (c.retoken f)) := by
  refine (mirrors_onCore c.mirrors).bind fun r r' hr => ?_
  subst hr
  cases r with
  | accepted fetch =>
    exact (mirrors_modify fun _ _ h => h.spawn fetch).bind_eq fun _ => mirrors_pure rfl
  | _ => exact mirrors_pure rfl

end GuestBridge.Bench
