import GuestBridge.Bench.Run
import GuestBridge.Proofs.Capability.Work
import GuestBridge.Proofs.Core.Bridge

/-!
# What can happen on the bench

`Happens m h m'` is one thing that happens to a bridge and its fetches: a capability is performed,
a fetch is accepted, a frame is delivered, a load comes back, and so on. A `Moment` is a state of
the bench together with what no field of it holds while tasks are polled: the loads whose task was
taken off the queue, and the images that are just being copied. All else that goes on between two
happenings is `Quiet`: it leaves the bridge and the completions alone and notes neither native
calls nor entries into the guest.

A `History` is a sequence of happenings. The entries into the guest that the journal records are
those of the history, in order (`History.entries_eq`).
-/

set_option autoImplicit false

namespace GuestBridge

theorem filterMap_concat {α β : Type} (f : α → Option β) (xs : List α) (x : α) :
    (xs ++ [x]).filterMap f = xs.filterMap f ++ (f x).toList := by
  rw [List.filterMap_append]
  cases hf : f x <;> simp [hf]

/-- Whether an event is an entry into the guest or its allocator. -/
def Event.isEntry : Event → Bool
  | .call _ | .alloc _ => true
  | _ => false

/-- The entries into the guest and its allocator so far, in order. -/
def Core.entries {G : Type} (c : Core G) : List Event := c.journal.toList.filter Event.isEntry

/-- What is read off entries only can be read off the journal. -/
theorem Core.filterMap_entries {G α : Type} (c : Core G) {f : Event → Option α}
    (hf : ∀ e, e.isEntry = false → f e = none) :
    c.entries.filterMap f = c.journal.toList.filterMap f := by
  unfold Core.entries
  rw [List.filterMap_filter]
  congr 1
  funext e
  cases he : e.isEntry with
  | true => rfl
  | false => exact (hf e he).symm

namespace Bench

open Ieee

variable {G C : Type}

/-- Changes the bridge and nothing else. -/
def withBridge (f : Bridge → Bridge) (b : Bench G C) : Bench G C :=
  { b with core.bridge := f b.core.bridge }

/-- What the allocator answers once the guest has taken the steps queued for the call. -/
def grant (len : UInt32) (b : Bench G C) : Except GuestError UInt32 × Bench G C :=
  match b.guest.allocations with
  | result :: rest => (result, { b with guest.allocations := rest })
  | [] =>
    let (ptr, b) := b.allocate len
    (.ok ptr, b)

theorem of_grant {len : UInt32} {b b' : Bench G C} {r : Except GuestError UInt32}
    (h : grant len b = (r, b')) :
    ∃ guest memory, b' = { b with guest, core.memory := memory } ∧
      guest.interludes = b.guest.interludes := by
  unfold grant at h
  split at h
  · cases h
    exact ⟨_, b.core.memory, rfl, rfl⟩
  · cases h
    exact ⟨_, _, rfl, rfl⟩

/-! ## Happenings -/

/-- Why a fetch whose load has come back is not copied. -/
inductive Ending
  | cancelled
  | loadFault (e : FetchError)
  | noGuest
  | noBytes
  | tooLarge (e : MemoryError)

/-- Why a completion is dropped. -/
inductive Omission
  /-- The bridge is gone. -/
  | gone
  | cancelled
  /-- The bridge does not run, or has no guest. -/
  | refused

inductive Happening
  /-- A capability is performed that accepts no fetch. -/
  | performed (c : Capability)
  | accepted (fetch : Accepted)
  /-- A fetch is cancelled on its own. -/
  | cancelled (id : Nat)
  | shutDown
  /-- The bridge is let go. -/
  | dropped
  | attached
  /-- The guest has returned from its init entry point. -/
  | started
  | frame (timestamp : Double)
  /-- The guest is called otherwise than with a frame or a completion in due course. -/
  | called (entry : EntryPoint)
  /-- The allocator is asked otherwise than for an image. -/
  | allocated (len : UInt32)
  /-- A load has come back after the bridge was gone. -/
  | lost (fetch : Accepted)
  /-- A load has come back and there is nothing to copy. -/
  | ended (fetch : Accepted) (why : Ending)
  /-- A load has come back and the allocator is asked for room for its image. -/
  | asked (fetch : Accepted) (image : DecodedImage)
  | copied (fetch : Accepted) (image : DecodedImage) (ptr : UInt32)
  | failed (fetch : Accepted) (image : DecodedImage)
  /-- The guest is told of an image. -/
  | told (c : Completion)
  | omitted (c : Completion) (why : Omission)

/-- The call that tells the guest of an image copied to `ptr`. -/
def completion (fetch : Accepted) (image : DecodedImage) (ptr : UInt32) : Completion where
  request := fetch.id
  entry := .fetch image.width image.height ptr (.ofNat image.pixels.length) fetch.request.token

namespace Happening

/-- The entry into the guest that goes with a happening. -/
def entry? : Happening → Option Event
  | frame timestamp => some (.call (.animationFrame timestamp))
  | called entry => some (.call entry)
  | allocated len => some (.alloc len)
  | asked _ image => some (.alloc (.ofNat image.pixels.length))
  | told c => some (.call c.entry)
  | _ => none

/-- What a happening does to the bridge, its registry apart. -/
def onBridge : Happening → Bridge → Bridge
  | accepted fetch, b => (b.accept fetch.request).2
  | cancelled id, b => b.cancel id
  | shutDown, b => b.cancelPending
  | attached, b => { b with attached := true }
  | started, b => { b with phase := .running }
  | frame timestamp, b => { b with lastFrame := some timestamp }
  | ended fetch _, b | asked fetch _, b => b.settle fetch.id
  | _, b => b

end Happening

/-- Why the image of a load is not copied, if it is not even attempted. -/
def ending? (b : Bridge) (id : Nat) (result : Except FetchError DecodedImage) : Option Ending :=
  if b.isCancelled id then some .cancelled
  else
    match result with
    | .error e => some (.loadFault e)
    | .ok image =>
      if b.attached = false then some .noGuest
      else if image.pixels.isEmpty then some .noBytes
      else
        match Store.guestLen image.pixels with
        | .error e => some (.tooLarge e)
        | .ok _ => none

/-- Why a completion is dropped, if it is. -/
def omission? (b : Bench G C) (c : Completion) : Option Omission :=
  if b.isAlive = false then some .gone
  else if b.core.bridge.isCancelled c.request then some .cancelled
  else if b.core.bridge.admits c.entry = false ∨ b.core.bridge.attached = false then some .refused
  else none

end Bench

/-! ## Moments -/

structure Moment (G C : Type) where
  bench : Bench G C
  /-- The loads whose task has not been resumed, in the order of their acceptance. -/
  loads : List Bench.Task := []
  /-- The images for which the allocator is being asked, the last one first. -/
  copying : List (Accepted × DecodedImage) := []

namespace Bench

variable {G C : Type}

/-- What neither concerns a fetch nor enters the guest. -/
structure Quiet (b b' : Bench G C) : Prop where
  deferred : b'.deferred = b.deferred
  owned : b'.owned = b.owned
  bridge : b'.core.bridge = b.core.bridge
  journal : ∃ events, b'.core.journal.toList = b.core.journal.toList ++ events ∧
    ∀ e ∈ events, e.isQuiet

variable [GraphicsContext G]

inductive Happens : Moment G C → Happening → Moment G C → Prop
  | performed {m : Moment G C} (c : Capability)
    (h : ∀ fetch, (c.run m.bench.core).1 ≠ .ok (.accepted fetch)) :
    Happens m (.performed c) { m with bench.core := (c.run m.bench.core).2 }
  | accepted {m : Moment G C} (c : Capability) {fetch : Accepted} {core : Core G}
    (h : c.run m.bench.core = (.ok (.accepted fetch), core)) :
    Happens m (.accepted fetch) { m with
      bench := spawn fetch { m.bench with core }
      loads := m.loads ++ [⟨fetch, (m.bench.images.lookup fetch.request.url).isSome⟩] }
  | cancelled {m : Moment G C} (id : Nat) :
    Happens m (.cancelled id) { m with bench := m.bench.withBridge (·.cancel id) }
  | shutDown {m : Moment G C} :
    Happens m .shutDown { m with bench.core := m.bench.core.shutdown }
  | dropped {m : Moment G C} : Happens m .dropped { m with bench.owned := false }
  | attached {m : Moment G C} :
    Happens m .attached
      { m with bench := m.bench.withBridge fun b => { b with attached := true } }
  | started {m : Moment G C} (ha : m.bench.core.bridge.attached) :
    Happens m .started { m with bench := m.bench.withBridge fun b => { b with phase := .running } }
  | frame {m : Moment G C} {timestamp : Ieee.Double} (hp : m.bench.core.bridge.phase = .running)
    (ha : m.bench.core.bridge.attached)
    (hs : m.bench.core.bridge.staleAfter? timestamp = none) :
    Happens m (.frame timestamp) { m with
      bench := (m.bench.withBridge fun b => { b with lastFrame := some timestamp }).note
        (.call (.animationFrame timestamp)) }
  | called {m : Moment G C} {entry : EntryPoint} (hp : m.bench.core.bridge.admits entry)
    (ha : m.bench.core.bridge.attached) :
    Happens m (.called entry) { m with bench := m.bench.note (.call entry) }
  | allocated {m : Moment G C} (len : UInt32) :
    Happens m (.allocated len) { m with bench := m.bench.note (.alloc len) }
  | lost {m : Moment G C} {t : Task} (ht : t ∈ m.loads) (hl : m.bench.isAlive = false) :
    Happens m (.lost t.fetch) { m with loads := m.loads.erase t }
  | ended {m : Moment G C} {t : Task} {r : Except FetchError DecodedImage} {why : Ending}
    (ht : t ∈ m.loads) (hl : m.bench.isAlive) (hr : m.bench.result? t = some r)
    (he : ending? m.bench.core.bridge t.fetch.id r = some why) :
    Happens m (.ended t.fetch why) { m with
      bench := m.bench.withBridge (·.settle t.fetch.id)
      loads := m.loads.erase t }
  | asked {m : Moment G C} {t : Task} {image : DecodedImage} (ht : t ∈ m.loads)
    (hl : m.bench.isAlive) (hr : m.bench.result? t = some (.ok image))
    (he : ending? m.bench.core.bridge t.fetch.id (.ok image) = none) :
    Happens m (.asked t.fetch image)
      ⟨(m.bench.withBridge (·.settle t.fetch.id)).note (.alloc (.ofNat image.pixels.length)),
        m.loads.erase t, (t.fetch, image) :: m.copying⟩
  | copied {m : Moment G C} {fetch : Accepted} {image : DecodedImage} {ptr : UInt32}
    {rest : List (Accepted × DecodedImage)} {b : Bench G C} {core : Core G}
    (hc : m.copying = (fetch, image) :: rest)
    (hg : grant (.ofNat image.pixels.length) m.bench = (.ok ptr, b))
    (hs : Core.store [.bytes ptr image.pixels] b.core = (.ok (), core)) :
    Happens m (.copied fetch image ptr)
      ⟨({ b with core } : Bench G C).defer (completion fetch image ptr), m.loads, rest⟩
  | failed {m : Moment G C} {fetch : Accepted} {image : DecodedImage}
    {rest : List (Accepted × DecodedImage)} {r : Except GuestError UInt32} {b : Bench G C}
    (hc : m.copying = (fetch, image) :: rest)
    (hg : grant (.ofNat image.pixels.length) m.bench = (r, b))
    (hs : ∀ ptr, r = .ok ptr →
      ∃ e, Core.store [.bytes ptr image.pixels] b.core = (.error e, b.core)) :
    Happens m (.failed fetch image) ⟨b, m.loads, rest⟩
  | told {m : Moment G C} {c : Completion} {rest : List Completion}
    (hd : m.bench.deferred = c :: rest) (ho : omission? m.bench c = none) :
    Happens m (.told c)
      { m with bench := ({ m.bench with deferred := rest } : Bench G C).note (.call c.entry) }
  | omitted {m : Moment G C} {c : Completion} {rest : List Completion} {why : Omission}
    (hd : m.bench.deferred = c :: rest) (ho : omission? m.bench c = some why) :
    Happens m (.omitted c why) { m with bench.deferred := rest }

/-- The happenings on the way from one moment to another, in order. -/
inductive History (m : Moment G C) : List Happening → Moment G C → Prop
  | refl : History m [] m
  | quiet {hs : List Happening} {t : Moment G C} {b : Bench G C} (before : History m hs t)
    (h : Quiet t.bench b) : History m hs { t with bench := b }
  | snoc {hs : List Happening} {h : Happening} {t u : Moment G C} (before : History m hs t)
    (now : Happens t h u) : History m (hs ++ [h]) u

namespace History

variable {m t u : Moment G C} {hs hs' : List Happening} {h : Happening}

theorem trans (h : History m hs t) (h' : History t hs' u) : History m (hs ++ hs') u := by
  induction h' with
  | refl => simpa using h
  | quiet before hq ih => exact .quiet ih hq
  | snoc before now ih =>
    rw [← List.append_assoc]
    exact .snoc ih now

theorem of_quiet {b : Bench G C} (h : Quiet m.bench b) : History m [] { m with bench := b } :=
  .quiet .refl h

theorem single (h' : Happens m h t) : History m [h] t := .snoc .refl h'

/-- What every happening keeps, and what is quiet as well, holds along a history. -/
theorem keeps {I : Moment G C → Prop} (hq : ∀ t b, Quiet t.bench b → I t → I { t with bench := b })
    (hn : ∀ t h u, Happens t h u → I t → I u) (hh : History m hs t) (hm : I m) : I t := by
  induction hh with
  | refl => exact hm
  | quiet before h ih => exact hq _ _ h ih
  | snoc before now ih => exact hn _ _ _ now ih

end History

/-! ## The bridge and the journal -/

theorem Happens.bridge_eq {m n : Moment G C} {h : Happening} (hh : Happens m h n) :
    ∃ registry, n.bench.core.bridge = { h.onBridge m.bench.core.bridge with registry } := by
  cases hh with
  | performed c hc =>
    rcases c.run_cases m.bench.core with ⟨request, text, -, hr⟩ | ⟨-, hw⟩
    · exact absurd (by rw [hr]) (hc _)
    · exact (hw .buffer).bridge_eq
  | accepted c hr =>
    rcases c.run_cases m.bench.core with ⟨request, text, -, hr'⟩ | ⟨hn, -⟩
    · rw [hr] at hr'
      simp only [Prod.mk.injEq, Except.ok.injEq, Capability.Result.accepted.injEq] at hr'
      obtain ⟨rfl, rfl⟩ := hr'
      exact ⟨m.bench.core.bridge.registry, rfl⟩
    · exact absurd (by rw [hr]) (hn _)
  | copied hc hg hs =>
    obtain ⟨guest, memory, rfl, -⟩ := of_grant hg
    obtain ⟨memory', -, hs'⟩ := Core.store_eq_ok hs
    subst hs'
    exact ⟨_, rfl⟩
  | failed hc hg hs =>
    obtain ⟨guest, memory, rfl, -⟩ := of_grant hg
    exact ⟨_, rfl⟩
  | _ => exact ⟨_, rfl⟩

theorem isEntry_of_isQuiet {e : Event} (h : e.isQuiet) : e.isEntry = false := by
  cases e <;> first | rfl | cases h

omit [GraphicsContext G] in
/-- Quiet events and native calls are no entries. -/
theorem entries_of_journal {c c' : Core G} {events : List Event}
    (h : c'.journal.toList = c.journal.toList ++ events)
    (hq : ∀ e ∈ events, (∃ call a, e = .gl call a) ∨ e.isQuiet) : c'.entries = c.entries := by
  have he : events.filter Event.isEntry = [] := by
    rw [List.filter_eq_nil_iff]
    intro e he
    rcases hq e he with ⟨call, a, rfl⟩ | hq
    · simp [Event.isEntry]
    · simp [isEntry_of_isQuiet hq]
  unfold Core.entries
  rw [h, List.filter_append, he, List.append_nil]

omit [GraphicsContext G] in
theorem Quiet.entries_eq {b b' : Bench G C} (h : Quiet b b') :
    b'.core.entries = b.core.entries := by
  obtain ⟨events, he, hq⟩ := h.journal
  exact entries_of_journal he fun e h => .inr (hq e h)

omit [GraphicsContext G] in
theorem entries_note (c : Core G) (e : Event) :
    (c.note e).entries = c.entries ++ if e.isEntry then [e] else [] := by
  unfold Core.entries Core.note
  rw [Array.toList_push, List.filter_append, List.filter_singleton]
  split <;> simp_all

theorem Happens.entries_eq {m n : Moment G C} {h : Happening} (hh : Happens m h n) :
    n.bench.core.entries = m.bench.core.entries ++ h.entry?.toList := by
  cases hh with
  | performed c hc =>
    rcases c.run_cases m.bench.core with ⟨request, text, -, hr⟩ | ⟨-, hw⟩
    · exact absurd (by rw [hr]) (hc _)
    · obtain ⟨events, he, hq⟩ := (hw .buffer).journal_eq
      simpa [Happening.entry?] using entries_of_journal he fun e hm => (hq e hm).1
  | accepted c hr =>
    rcases c.run_cases m.bench.core with ⟨request, text, -, hr'⟩ | ⟨hn, -⟩
    · rw [hr] at hr'
      simp only [Prod.mk.injEq, Except.ok.injEq, Capability.Result.accepted.injEq] at hr'
      obtain ⟨rfl, rfl⟩ := hr'
      show _ = _ ++ []
      rw [List.append_nil]
      refine entries_of_journal (c := m.bench.core)
        (?_ : _ = _ ++ [.log ⟨.debug, Log.Target.fetch, text⟩, .load request.url, .spawn]) ?_
      · simp [spawn, note, Core.note, Core.log, Bridge.accept]
      · simp [Event.isQuiet]
    · exact absurd (by rw [hr]) (hn _)
  | copied hc hg hs =>
    obtain ⟨guest, memory, rfl, -⟩ := of_grant hg
    obtain ⟨memory', -, hs'⟩ := Core.store_eq_ok hs
    subst hs'
    exact entries_note _ _
  | failed hc hg hs =>
    obtain ⟨guest, memory, rfl, -⟩ := of_grant hg
    exact (List.append_nil _).symm
  | shutDown => exact entries_note _ _
  | frame | called | allocated | asked | told => exact entries_note _ _
  | _ => exact (List.append_nil _).symm

/-- The journal records the entries of a history, in order, and no others. -/
theorem History.entries_eq {m n : Moment G C} {hs : List Happening} (h : History m hs n) :
    n.bench.core.entries = m.bench.core.entries ++ hs.filterMap Happening.entry? := by
  induction h with
  | refl => simp
  | quiet before hq ih => rw [hq.entries_eq, ih]
  | snoc before now ih =>
    rename_i h t u
    have hh : [h].filterMap Happening.entry? = h.entry?.toList := by
      cases he : h.entry? <;> simp [he]
    rw [now.entries_eq, ih, List.filterMap_append, hh, List.append_assoc]

/-! ## What does not change back -/

/-- A bridge that runs has a guest. -/
def Sound (b : Bench G C) : Prop :=
  b.core.bridge.phase = .running → b.core.bridge.attached = true

/-- A bridge with a guest keeps it. -/
theorem Happens.attached_of_attached {m n : Moment G C} {h : Happening} (hh : Happens m h n)
    (ha : m.bench.core.bridge.attached = true) : n.bench.core.bridge.attached = true := by
  obtain ⟨registry, hb⟩ := hh.bridge_eq
  rw [hb]
  cases h with
  | shutDown =>
    obtain ⟨requests, he, -⟩ := Bridge.cancelPending_eq m.bench.core.bridge
    simpa [Happening.onBridge, he] using ha
  | attached => rfl
  | _ => exact ha

theorem Happens.sound {m n : Moment G C} {h : Happening} (hh : Happens m h n)
    (hs : m.bench.Sound) : n.bench.Sound := by
  intro hp
  obtain ⟨registry, hb⟩ := hh.bridge_eq
  cases h with
  | started =>
    cases hh with
    | started ha => exact ha
  | shutDown =>
    obtain ⟨requests, he, -⟩ := Bridge.cancelPending_eq m.bench.core.bridge
    refine hh.attached_of_attached (hs ?_)
    simpa [hb, Happening.onBridge, he] using hp
  | _ =>
    rw [hb] at hp
    exact hh.attached_of_attached (hs hp)

theorem History.attached_of_attached {m n : Moment G C} {hs : List Happening} (h : History m hs n)
    (ha : m.bench.core.bridge.attached = true) : n.bench.core.bridge.attached = true := by
  refine h.keeps (fun t b hq ht => ?_) (fun _ _ _ now => now.attached_of_attached) ha
  show b.core.bridge.attached = true
  rw [hq.bridge]
  exact ht

theorem History.sound {m n : Moment G C} {hs : List Happening} (h : History m hs n)
    (hs : m.bench.Sound) : n.bench.Sound := by
  refine h.keeps (fun t b hq ht => ?_) (fun _ _ _ now => now.sound) hs
  unfold Sound at ht ⊢
  rw [hq.bridge]
  exact ht

/-! ## Completions -/

/-- A completion is added when an image has been copied, and only then. -/
theorem Happens.mem_deferred {m n : Moment G C} {h : Happening} (hh : Happens m h n)
    {c : Completion} (hc : c ∈ n.bench.deferred) : c ∈ m.bench.deferred ∨
      ∃ fetch image ptr, h = .copied fetch image ptr ∧ c = completion fetch image ptr := by
  cases hh with
  | copied hcopy hg hs =>
    obtain ⟨guest, memory, rfl, -⟩ := of_grant hg
    rcases List.mem_append.1 hc with hc | hc
    · exact .inl hc
    · exact .inr ⟨_, _, _, rfl, List.mem_singleton.1 hc⟩
  | failed hcopy hg hs =>
    obtain ⟨guest, memory, rfl, -⟩ := of_grant hg
    exact .inl hc
  | told hd ho | omitted hd ho =>
    rw [hd]
    exact .inl (.tail _ hc)
  | _ => exact .inl hc

/-- All completions tell the guest of an image. -/
def CompletionsFetch (b : Bench G C) : Prop :=
  ∀ c ∈ b.deferred, ∃ width height ptr len token, c.entry = .fetch width height ptr len token

theorem Happens.completionsFetch {m n : Moment G C} {h : Happening} (hh : Happens m h n)
    (hm : m.bench.CompletionsFetch) : n.bench.CompletionsFetch := by
  intro c hc
  rcases hh.mem_deferred hc with hc | ⟨fetch, image, ptr, -, rfl⟩
  · exact hm c hc
  · exact ⟨_, _, _, _, _, rfl⟩

end Bench

end GuestBridge
