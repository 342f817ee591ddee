import GuestBridge.Proofs.Bench.Deferral

/-!
# What the operations of a platform preserve

`Core.Still c d` says that a core's bridge has come no further, that it has the guest it had, and
that the journal has gone on without an entry into the guest. A property of platform states that
survives such changes of the core is preserved by every operation of the bridge, as long as the
guest's own doings preserve it: the allocator where bytes are copied, the entry point that is
called, and the queues that a task or a completion goes to.
-/

set_option autoImplicit false

namespace GuestBridge

/-! ## Changes of a core -/

/-- A journal goes on without an entry into the guest. -/
def Event.Silent (before after : Array Event) : Prop :=
  ∃ events, after.toList = before.toList ++ events ∧ ∀ e ∈ events, e.isEntry = false

namespace Event.Silent

variable {before between after : Array Event}

theorem refl (before : Array Event) : Silent before before := ⟨[], by simp, by simp⟩

theorem push {e : Event} (he : e.isEntry = false) (before : Array Event) :
    Silent before (before.push e) :=
  ⟨[e], Array.toList_push, by simpa using he⟩

theorem trans (h : Silent before between) (h' : Silent between after) : Silent before after := by
  obtain ⟨events, he, hs⟩ := h
  obtain ⟨events', he', hs'⟩ := h'
  exact ⟨events ++ events', by rw [he', he, List.append_assoc], fun e hm =>
    (List.mem_append.1 hm).elim (hs e) (hs' e)⟩

theorem isPrefix (h : Silent before after) : before.toList <+: after.toList := by
  obtain ⟨events, he, -⟩ := h
  exact he ▸ List.prefix_append _ _

end Event.Silent

structure Core.Still {G : Type} (c d : Core G) : Prop where
  attached : d.bridge.attached = c.bridge.attached
  phase : d.bridge.phase = c.bridge.phase
  journal : Event.Silent c.journal d.journal

namespace Core.Still

variable {G : Type} {c d : Core G}

theorem log (c : Core G) (level : Log.Level) (target text : String) :
    c.Still (c.log level target text) :=
  ⟨rfl, rfl, .push rfl _⟩

theorem shutdown (c : Core G) : c.Still c.shutdown := by
  obtain ⟨requests, he, -⟩ := c.bridge.cancelPending_eq
  have hb : c.shutdown.bridge = { c.bridge with requests, pending := [] } := he
  exact ⟨by rw [hb], by rw [hb], .push rfl _⟩

theorem store (stores : List Store) (c : Core G) : c.Still (Core.store stores c).2 := by
  rcases Core.store_cases stores c with ⟨memory, h⟩ | ⟨e, h⟩ <;> rw [h] <;>
    exact ⟨rfl, rfl, .refl _⟩

/-- A capability neither attaches a guest nor starts the bridge, and it enters no guest. -/
theorem run [GraphicsContext G] (cap : Capability) (c : Core G) : c.Still (cap.run c).2 := by
  rcases cap.run_cases c with ⟨request, text, -, hr⟩ | ⟨-, hw⟩
  · rw [hr]
    exact ⟨rfl, rfl, .push rfl _⟩
  · obtain ⟨registry, hb⟩ := (hw .buffer).bridge_eq
    obtain ⟨events, he, hq⟩ := (hw .buffer).journal_eq
    refine ⟨by rw [hb], by rw [hb], events, he, fun e hm => ?_⟩
    rcases (hq e hm).1 with ⟨call, a, rfl⟩ | hquiet
    · rfl
    · exact Bench.isEntry_of_isQuiet hquiet

end Core.Still

/-! ## Operations -/

namespace Platform

open Attempt

variable {σ G : Type} {pl : Platform σ G} {P : σ → Prop}

/-- What does not depend on more of a core than `Core.Still` keeps. -/
def Upholds (pl : Platform σ G) (P : σ → Prop) : Prop :=
  ∀ s c, P s → (pl.core s).Still c → P (pl.withCore c s)

/-- What is preserved by all that delivering a frame and copying bytes do to the core. -/
structure Bears (pl : Platform σ G) (P : σ → Prop) : Prop where
  log (s : σ) (level : Log.Level) (target text : String) (hs : P s) :
    P (pl.log level target text s)
  frame (s : σ) (timestamp : Ieee.Double) (hs : P s) :
    P (pl.onBridge (fun b => { b with lastFrame := some timestamp }) s)
  store (stores : List Store) : Keeps P (pl.onCore (Core.store stores))

/-! ### Entering the guest -/

theorem keeps_bridge : Keeps P pl.bridge := fun _ hs => hs

theorem meets_ofGuest {α : Type} {Q : σ → Prop} {x : σ → Except GuestError α × σ}
    (hx : ∀ s, P s → Q (x s).2) : Meets P (ofGuest x) (fun _ => Q) (fun _ => Q) :=
  meets_iff_snd.2 fun s hs => hx s hs

/-- What holds up to the call, `P`, and what holds after it, `Q`. -/
theorem meets_callGuest {Q : σ → Prop} {entry : EntryPoint} (hPQ : ∀ s, P s → Q s)
    (hc : ∀ s, P s → Q (pl.call entry s).2) :
    Meets P (pl.callGuest entry) (fun _ => Q) (fun _ => Q) := by
  refine (keeps_bridge.meets_of fun _ => hPQ).bind fun b => ?_
  split
  · exact meets_fail hPQ
  · split
    · exact meets_fail hPQ
    · exact meets_ofGuest hc

theorem keeps_callGuest {entry : EntryPoint} (hc : ∀ s, P s → P (pl.call entry s).2) :
    Keeps P (pl.callGuest entry) :=
  (meets_callGuest (fun _ hs => hs) hc).keeps

section

variable (hs : ∀ stores, Keeps P (pl.onCore (Core.store stores)))

include hs

/-- A copy asks the allocator and stores the bytes. -/
theorem keeps_copyToGuest_of_store (bytes : List UInt8)
    (ha : ∀ len s, P s → P (pl.alloc len s).2) : Keeps P (pl.copyToGuest bytes) := by
  refine keeps_bridge.bind fun b => ?_
  split
  · exact keeps_fail _
  · split
    · exact keeps_pure _
    · exact (Action.keeps_liftMemory _).bind fun len =>
        (meets_ofGuest (ha len)).keeps.bind fun ptr =>
          (hs _).bind fun _ => keeps_pure _

/-- A text is copied and the guest told of it, or an error is logged. -/
theorem keeps_submitEquation_of_store (text : String)
    (hl : ∀ text s, P s → P (pl.log .error Log.Target.bridge text s))
    (ha : ∀ len s, P s → P (pl.alloc len s).2)
    (hc : ∀ ptr len s, P s → P (pl.call (.equation ptr len) s).2) :
    Keeps P (pl.submitEquation text) := by
  refine keeps_bridge.bind fun b => ?_
  split
  · exact keeps_fail _
  · refine (keeps_copyToGuest_of_store hs _ ha).bind fun copy => ?_
    cases copy with
    | copied ptr len => exact (keeps_callGuest (hc ptr len)).bind fun _ => keeps_pure _
    | empty => exact (keeps_modify fun s hs => hl _ _ hs).bind fun _ => keeps_pure _

end

section

variable (h : pl.Bears P)

include h

theorem meets_animationFrame {Q : σ → Prop} (timestamp : Ieee.Double) (hPQ : ∀ s, P s → Q s)
    (hc : ∀ s, P s → Q (pl.call (.animationFrame timestamp) s).2) :
    Meets P (pl.animationFrame timestamp) (fun _ => Q) (fun _ => Q) := by
  refine (keeps_bridge.meets_of fun _ => hPQ).bind fun b => ?_
  split
  · exact meets_fail hPQ
  · split
    · exact ((keeps_modify fun s hs => h.log _ _ _ _ hs).meets_of fun _ => hPQ).bind fun _ =>
        meets_pure hPQ
    · exact ((keeps_modify fun s hs => h.frame s _ hs).meets_of fun _ => hPQ).bind fun _ =>
        (meets_callGuest hPQ hc).bind fun _ => meets_pure fun _ hs => hs

theorem keeps_copyToGuest (bytes : List UInt8) (ha : ∀ len s, P s → P (pl.alloc len s).2) :
    Keeps P (pl.copyToGuest bytes) :=
  keeps_copyToGuest_of_store h.store bytes ha

theorem keeps_submitEquation (text : String) (ha : ∀ len s, P s → P (pl.alloc len s).2)
    (hc : ∀ ptr len s, P s → P (pl.call (.equation ptr len) s).2) :
    Keeps P (pl.submitEquation text) :=
  keeps_submitEquation_of_store h.store text (fun text s hs => h.log s _ _ text hs) ha hc

end

section

variable (h : pl.Upholds P)

include h

theorem keeps_onCore {α : Type} {x : Action (Core G) α} (hx : ∀ c : Core G, c.Still (x c).2) :
    Keeps P (pl.onCore x) :=
  fun s hs => h s _ hs (hx _)

theorem log_keeps {s : σ} (level : Log.Level) (target text : String) (hs : P s) :
    P (pl.log level target text s) :=
  h s _ hs (.log _ _ _ _)

theorem onBridge_keeps {s : σ} {f : Bridge → Bridge} (hf : ∀ b, (f b).attached = b.attached)
    (hp : ∀ b, (f b).phase = b.phase) (hs : P s) : P (pl.onBridge f s) :=
  h s _ hs ⟨hf _, hp _, .refl _⟩

theorem Upholds.bears : pl.Bears P where
  log _ level target text hs := log_keeps h level target text hs
  frame _ _ hs := onBridge_keeps h (fun _ => rfl) (fun _ => rfl) hs
  store stores := keeps_onCore h fun c => .store stores c

/-! ### Capabilities and fetches -/

theorem keeps_perform [GraphicsContext G] (c : Capability)
    (hsp : ∀ fetch s, P s → P (pl.spawn fetch s)) : Keeps P (pl.perform c) := by
  refine (keeps_onCore h fun d => .run c d).bind fun result => ?_
  cases result with
  | accepted fetch => exact (keeps_modify (hsp fetch)).bind fun _ => keeps_pure _
  | nothing | number _ | document _ => exact keeps_pure _

theorem copyImage_keeps (fetch : Accepted) (image : DecodedImage) {s : σ}
    (ha : ∀ len s, P s → P (pl.alloc len s).2)
    (hd : ∀ c s, c.entry.exportName = "onFetch" → P s → P (pl.defer c s)) (hs : P s) :
    P (pl.copyImage fetch image s) := by
  have hcopy := keeps_copyToGuest h.bears image.pixels ha s hs
  unfold copyImage
  rcases hr : pl.copyToGuest image.pixels s with ⟨e | copy, t⟩ <;> rw [hr] at hcopy
  · exact log_keeps h _ _ _ hcopy
  · cases copy with
    | copied ptr len => exact hd _ _ rfl hcopy
    | empty => exact log_keeps h _ _ _ hcopy

theorem complete_keeps (fetch : Accepted) (result : Except FetchError DecodedImage) {s : σ}
    (ha : ∀ len s, P s → P (pl.alloc len s).2)
    (hd : ∀ c s, c.entry.exportName = "onFetch" → P s → P (pl.defer c s)) (hs : P s) :
    P (pl.complete fetch result s) := by
  have hsettled : P (pl.onBridge (·.settle fetch.id) s) :=
    onBridge_keeps h (fun _ => rfl) (fun _ => rfl) hs
  unfold complete
  simp only
  split
  · exact log_keeps h _ _ _ hsettled
  · cases result with
    | ok image => exact copyImage_keeps h fetch image ha hd hsettled
    | error e => exact log_keeps h _ _ _ hsettled

theorem deliver_keeps (c : Completion) {s : σ} (hc : ∀ s, P s → P (pl.call c.entry s).2)
    (hs : P s) : P (pl.deliver c s) := by
  have hcall := keeps_callGuest hc s hs
  unfold deliver
  simp only
  split
  · exact hs
  · rcases hr : pl.callGuest c.entry s with ⟨e | ⟨⟩, t⟩ <;> rw [hr] at hcall
    · exact log_keeps h _ _ _ hcall
    · exact hcall

end

end Platform

end GuestBridge
