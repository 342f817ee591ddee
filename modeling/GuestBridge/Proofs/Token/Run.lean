import GuestBridge.Proofs.Bench.Loop
import GuestBridge.Proofs.Bench.Rounds
import GuestBridge.Proofs.Token.Bench

/-!
# Runs with other tokens

A run in which every fetch is given another token goes the same way, step by step: the queues let
the same fetches end, be copied and be delivered (`Retokened.runAll`), every step is answered alike
(`performFor_mirrored`), and so is all that can be seen of a run (`observeAll_retoken`).
-/

set_option autoImplicit false

namespace GuestBridge

/-- What is seen of a step in the one run and in the other. -/
structure Observation.Retokens (f : UInt32 → UInt32) (named : EntryPoint → Prop)
    (o o' : Observation) : Prop where
  reply : o'.reply = o.reply.retoken f
  events : List.Forall₂ (Event.Retokens f named) o.events o'.events
  changes : o'.changes = o.changes
  newSize : o'.newSize = o.newSize

theorem Event.Retokens.call?_eq {f : UInt32 → UInt32} {named : EntryPoint → Prop} {e e' : Event}
    (he : e.Retokens f named e') (hn : ∀ entry, named entry → entry.retoken f = entry) :
    e'.call? = e.call?.map (·.retoken f) := by
  cases he with
  | same h =>
    cases e with
    | call entry => exact h.elim
    | _ => rfl
  | named h => exact congrArg some (hn _ h).symm
  | _ => rfl

namespace Bench

open Attempt

variable {G C : Type} {f : UInt32 → UInt32} {named : EntryPoint → Prop}
  {inner inner' : Performer G C} {b b' : Bench G C}

/-- The bench whose guest has other tokens in store. -/
def retoken (f : UInt32 → UInt32) (b : Bench G C) : Bench G C :=
  { b with guest := b.guest.retoken f }

namespace Retokened

/-! ## The queues -/

theorem withTasks (h : Retokened f named b b') (tasks : List Task) :
    Retokened f named { b with tasks } { b' with tasks := tasks.map (·.retoken f) } :=
  ⟨h.core, h.owned, h.entered, h.guest, h.images, rfl, h.deferred, h.named⟩

theorem withDeferred (h : Retokened f named b b') (deferred : List Completion) :
    Retokened f named { b with deferred } { b' with deferred := deferred.map (·.retoken f) } :=
  ⟨h.core, h.owned, h.entered, h.guest, h.images, h.tasks, rfl, h.named⟩

theorem result? (h : Retokened f named b b') (t : Task) :
    b'.result? (t.retoken f) = b.result? t := by
  unfold Bench.result?
  rw [h.images]
  rfl

theorem breaks (h : Retokened f named b b') : b'.breaks = b.breaks := by
  have hj := h.core.journal
  unfold Bench.breaks
  generalize b.core.journal.toList = events at hj
  generalize b'.core.journal.toList = events' at hj
  induction hj with
  | nil => rfl
  | cons he _ ih =>
    rw [List.countP_cons, List.countP_cons, ih]
    cases he <;> rfl

theorem work (h : Retokened f named b b') : b'.work = b.work := by
  unfold Bench.work
  rw [h.tasks, h.deferred, h.guest, List.length_map, List.length_map, Guest.weight_retoken]

variable (hi : Mirrored f named inner inner')

include hi

theorem copyImage (h : Retokened f named b b') (fetch : Accepted) (image : DecodedImage) :
    Retokened f named ((platform inner).copyImage fetch image b)
      ((platform inner').copyImage (fetch.retoken f) image b') := by
  obtain ⟨hr, ht⟩ := mirrors_copyToGuest hi image.pixels b b' h
  unfold Platform.copyImage
  generalize (platform inner).copyToGuest image.pixels b = p at hr ht
  generalize (platform inner').copyToGuest image.pixels b' = p' at hr ht
  obtain ⟨r, c⟩ := p
  obtain ⟨r', c'⟩ := p'
  cases hr with
  | ok hr =>
    subst hr
    rename_i copy
    cases copy with
    | copied ptr len => exact ht.defer _
    | empty => exact ht.log (Event.isTokenless_of_level (by decide))
  | error e => exact ht.log (Event.isTokenless_of_level (by decide))

theorem complete (h : Retokened f named b b') (fetch : Accepted)
    (result : Except FetchError DecodedImage) :
    Retokened f named ((platform inner).complete fetch result b)
      ((platform inner').complete (fetch.retoken f) result b') := by
  have hs : Retokened f named (b.withBridge (·.settle fetch.id))
      (b'.withBridge (·.settle fetch.id)) := h.withBridge rfl
  rw [complete_eq, complete_eq]
  show Retokened f named (if b.core.bridge.isCancelled fetch.id then _ else _)
    (if b'.core.bridge.isCancelled fetch.id then _ else _)
  rw [h.isCancelled]
  split
  · exact hs.log (Event.isTokenless_dropping _)
  · cases result with
    | ok image => exact hs.copyImage hi fetch image
    | error e => exact hs.log (Event.isTokenless_of_level (by decide))

theorem deliver (h : Retokened f named b b') (c : Completion) :
    Retokened f named ((platform inner).deliver c b)
      ((platform inner').deliver (c.retoken f) b') := by
  obtain ⟨hr, ht⟩ := mirrors_callGuest hi (.inl rfl : Answers f named c.entry _) b b' h
  have hurl : (b'.core.bridge.requests[c.request]?).map (·.url) =
      (b.core.bridge.requests[c.request]?).map (·.url) := by
    rw [h.core.bridge, Bridge.getElem?_requests_retoken, Option.map_map]
    rfl
  rw [deliver_eq, deliver_eq]
  show Retokened f named (if b.core.bridge.isCancelled c.request then _ else _)
    (if b'.core.bridge.isCancelled c.request then _ else _)
  rw [h.isCancelled]
  split
  · exact h
  · simp only [Completion.retoken, hurl]
    cases hr' : ((platform inner).callGuest c.entry b).1 with
    | ok _ =>
      rw [hr.eq, hr']
      exact ht
    | error e =>
      rw [hr.eq, hr']
      exact ht.log (Event.isTokenless_of_level (by decide))

theorem takeUp (h : Retokened f named b b') (t : Task)
    (result : Except FetchError DecodedImage) :
    Retokened f named (takeUp inner t result b) (takeUp inner' (t.retoken f) result b') := by
  show Retokened f named (if b.isAlive then _ else _) (if b'.isAlive then _ else _)
  rw [h.isAlive]
  split
  · exact h.complete hi t.fetch result
  · exact h

theorem pollEach (tasks : List Task) (h : Retokened f named b b') :
    (pollEach inner' (tasks.map (·.retoken f)) b').1 =
        (pollEach inner tasks b).1.map (·.retoken f) ∧
      (Bench.pollEach inner' (tasks.map (·.retoken f)) b').2.1 =
        (Bench.pollEach inner tasks b).2.1 ∧
      Retokened f named (Bench.pollEach inner tasks b).2.2
        (Bench.pollEach inner' (tasks.map (·.retoken f)) b').2.2 := by
  induction tasks generalizing b b' with
  | nil => exact ⟨rfl, rfl, h⟩
  | cons t rest ih =>
    have hresult := h.result? t
    rw [List.map_cons]
    cases hr : b.result? t with
    | none =>
      rw [hr] at hresult
      rw [pollEach_cons_of_none hr, pollEach_cons_of_none hresult]
      obtain ⟨hw, he, ht⟩ := ih h
      exact ⟨congrArg (t.retoken f :: ·) hw, he, ht⟩
    | some result =>
      rw [hr] at hresult
      rw [pollEach_cons_of_some hr, pollEach_cons_of_some hresult]
      obtain ⟨hw, -, ht⟩ := ih (h.takeUp hi t result)
      exact ⟨hw, rfl, ht⟩

theorem poll (h : Retokened f named b b') :
    (poll inner' b').1 = (poll inner b).1 ∧
      Retokened f named (Bench.poll inner b).2 (Bench.poll inner' b').2 := by
  obtain ⟨hw, he, ht⟩ := (h.withTasks []).pollEach hi b.tasks
  unfold Bench.poll
  rw [h.tasks]
  refine ⟨he, ht.core, ht.owned, ht.entered, ht.guest, ht.images, ?_, ht.deferred, ht.named⟩
  exact (congrArg₂ (· ++ ·) hw ht.tasks).trans List.map_append.symm

theorem runTasksFor (n : Nat) (h : Retokened f named b b') :
    Retokened f named (runTasksFor inner n b) (runTasksFor inner' n b') := by
  induction n generalizing b b' with
  | zero => exact h
  | succ n ih =>
    obtain ⟨he, ht⟩ := h.poll hi
    rw [runTasksFor_succ, runTasksFor_succ, he]
    split
    · exact ih ht
    · exact ht

theorem runTasks (h : Retokened f named b b') :
    Retokened f named (runTasks inner b) (runTasks inner' b') := by
  unfold Bench.runTasks
  rw [h.work]
  exact h.runTasksFor hi _

theorem handle (h : Retokened f named b b') (c : Completion) :
    Retokened f named (handle inner c b) (handle inner' (c.retoken f) b') := by
  show Retokened f named (if b.isAlive then _ else _) (if b'.isAlive then _ else _)
  rw [h.isAlive]
  split
  · exact h.deliver hi c
  · exact h

theorem runOneDeferred (h : Retokened f named b b') :
    (runOneDeferred inner' b').1 = (runOneDeferred inner b).1 ∧
      Retokened f named (Bench.runOneDeferred inner b).2 (Bench.runOneDeferred inner' b').2 := by
  have hdeferred := h.deferred
  cases hd : b.deferred with
  | nil =>
    rw [hd] at hdeferred
    rw [runOneDeferred_of_nil hd, runOneDeferred_of_nil hdeferred]
    exact ⟨rfl, h⟩
  | cons c rest =>
    rw [hd] at hdeferred
    rw [runOneDeferred_of_cons hd, runOneDeferred_of_cons hdeferred]
    exact ⟨rfl, (h.withDeferred rest).handle hi c⟩

theorem runDeferredFor (n : Nat) (h : Retokened f named b b') :
    Retokened f named (runDeferredFor inner n b) (runDeferredFor inner' n b') := by
  induction n generalizing b b' with
  | zero => exact h
  | succ n ih =>
    have hdeferred := h.deferred
    cases hd : b.deferred with
    | nil =>
      rw [hd] at hdeferred
      rw [runDeferredFor_succ_of_nil hd, runDeferredFor_succ_of_nil hdeferred]
      exact h
    | cons c rest =>
      rw [hd] at hdeferred
      rw [runDeferredFor_succ_of_cons hd, runDeferredFor_succ_of_cons hdeferred]
      exact ih ((h.withDeferred rest).handle hi c)

theorem runDeferred (h : Retokened f named b b') :
    Retokened f named (runDeferred inner b) (runDeferred inner' b') := by
  unfold Bench.runDeferred
  rw [h.work]
  exact h.runDeferredFor hi _

theorem runAllFor (n : Nat) (h : Retokened f named b b') :
    Retokened f named (runAllFor inner n b) (runAllFor inner' n b') := by
  induction n generalizing b b' with
  | zero => exact h
  | succ n ih =>
    have ht := h.runTasks hi
    have hempty : (Bench.runTasks inner' b').deferred.isEmpty =
        (Bench.runTasks inner b).deferred.isEmpty := by
      rw [ht.deferred, List.isEmpty_map]
    unfold Bench.runAllFor
    simp only [hempty]
    split
    · exact ht
    · exact ih (ht.runDeferred hi)

theorem runAll (h : Retokened f named b b') :
    Retokened f named (runAll inner b) (runAll inner' b') := by
  unfold Bench.runAll
  rw [h.work]
  exact h.runAllFor hi _

/-! ## Steps -/

omit hi in
theorem reply {α : Type} {A : α → α → Prop} {x x' : Action (Bench G C) α} (value : α → Value)
    (h : Retokened f named b b') (hx : Mirrors (Retokened f named) A x x')
    (hv : ∀ a a', A a a' → value a' = (value a).retoken f) :
    (Platform.reply value x' b').1 = (Platform.reply value x b).1.retoken f ∧
      Retokened f named (Platform.reply value x b).2 (Platform.reply value x' b').2 := by
  obtain ⟨hr, ht⟩ := hx b b' h
  refine ⟨?_, ht⟩
  unfold Platform.reply
  generalize x b = p at hr
  generalize x' b' = p' at hr
  obtain ⟨r, c⟩ := p
  obtain ⟨r', c'⟩ := p'
  cases hr with
  | ok hr => exact congrArg Reply.ok (hv _ _ hr)
  | error e => rfl

omit hi in
/-- The same for an answer that shows no token. -/
theorem reply_eq {α : Type} {x x' : Action (Bench G C) α} (value : α → Value)
    (h : Retokened f named b b') (hx : Mirrors (Retokened f named) Eq x x')
    (hv : ∀ a, (value a).retoken f = value a) :
    (Platform.reply value x' b').1 = (Platform.reply value x b).1.retoken f ∧
      Retokened f named (Platform.reply value x b).2 (Platform.reply value x' b').2 :=
  h.reply value hx fun a _ ha => ha ▸ (hv a).symm

variable [GraphicsContext G]

theorem operate (h : Retokened f named b b') {op : Operation}
    (hn : ∀ entry, op = .callGuest entry → named entry) :
    ((platform inner').operate (op.retoken f) b').1 =
        ((platform inner).operate op b).1.retoken f ∧
      Retokened f named ((platform inner).operate op b).2
        ((platform inner').operate (op.retoken f) b').2 := by
  cases op with
  | capability c =>
    refine h.reply Capability.Result.value (mirrors_perform c) fun r r' hr => ?_
    subst hr
    cases r <;> rfl
  | attachGuest => exact (h.reply_eq (fun _ => .nothing) mirrors_attachGuest fun _ => rfl :)
  | init width height =>
    exact (h.reply_eq (fun _ => .nothing) (mirrors_init hi width height) fun _ => rfl :)
  | animationFrame timestamp =>
    exact (h.reply_eq .bool (mirrors_animationFrame hi timestamp) fun _ => rfl :)
  | callGuest entry =>
    have hm := mirrors_callGuest hi (.inr ⟨hn entry rfl, rfl⟩ : Answers f named entry entry)
    exact (h.reply_eq (fun _ => .nothing) hm fun _ => rfl :)
  | dispatchInput event =>
    exact (h.reply_eq (fun _ => .nothing) (mirrors_dispatchInput hi event) fun _ => rfl :)
  | submitEquation text =>
    exact (h.reply_eq .copy (mirrors_submitEquation hi text) fun _ => rfl :)
  | copyToGuest bytes =>
    exact (h.reply_eq .copy (mirrors_copyToGuest hi bytes) fun _ => rfl :)
  | shutdown =>
    have hb : Retokened f named (b.withBridge Bridge.cancelPending)
        (b'.withBridge Bridge.cancelPending) :=
      h.withBridge (b.core.bridge.cancelPending_retoken f)
    have he : (Event.log ⟨.debug, Log.Target.bridge, "bridge shut down"⟩).IsTokenless :=
      Event.isTokenless_of_target (by decide)
    exact ⟨rfl, hb.note (.same he)⟩
  | phase =>
    refine ⟨?_, h⟩
    show Reply.ok (.phase b'.core.bridge.phase) = _
    rw [h.core.bridge]
    rfl
  | pendingFetches =>
    refine ⟨?_, h⟩
    show Reply.ok (.int b'.core.bridge.pending.length) = _
    rw [h.core.bridge]
    rfl
  | registry =>
    refine ⟨?_, h⟩
    show Reply.ok (.registry b'.core.bridge.registry) = _
    rw [h.core.bridge]
    rfl
  | readText ptr len =>
    exact (h.reply_eq .text (mirrors_onCore (Core.tokenless_readString ptr len)) fun _ => rfl :)

end Retokened

section

variable [GraphicsContext G] [AdjustableContext G C]

theorem performWith_mirrored (hi : Mirrored f named inner inner') :
    Mirrored f named (performWith inner) (performWith inner') := by
  intro step b b' hn hb h
  have howned {x x' : Bench G C → Reply × Bench G C}
      (hx : (x' b').1 = (x b).1.retoken f ∧ Retokened f named (x b).2 (x' b').2) :
      (b'.whileOwned x').1 = (b.whileOwned x).1.retoken f ∧
        Retokened f named (b.whileOwned x).2 (b'.whileOwned x').2 := by
    unfold whileOwned
    rw [h.owned]
    split
    · exact hx
    · exact ⟨rfl, h⟩
  have hguest {g : Guest C → Guest C} (hg : (g b.guest).retoken f = g (b.guest.retoken f))
      (hall : (g b.guest).All (Step.NamesIn named)) :
      Retokened f named { b with guest := g b.guest } { b' with guest := g b'.guest } :=
    ⟨h.core, h.owned, h.entered, by rw [h.guest, hg], h.images, h.tasks, h.deferred, hall⟩
  cases step with
  | bridge op => exact howned (h.operate hi fun entry ho => hn entry (ho ▸ rfl))
  | drop =>
    exact ⟨rfl, h.core, rfl, h.entered, h.guest, h.images, h.tasks, h.deferred, h.named⟩
  | request id =>
    refine ⟨?_, h⟩
    show Reply.ok ((b'.core.bridge.requests[id]?).elim .nothing .request) = _
    rw [h.core.bridge, Bridge.getElem?_requests_retoken]
    simp only [performWith]
    cases b.core.bridge.requests[id]? <;> rfl
  | cancelRequest id =>
    have hc : Retokened f named (b.withBridge (·.cancel id)) (b'.withBridge (·.cancel id)) :=
      h.withBridge (b.core.bridge.cancel_retoken f id)
    exact ⟨rfl, hc⟩
  | reserve len =>
    have hm := mirrors_ofGuest fun b b' (h : Retokened f named b b') => h.alloc hi len
    exact howned (h.reply_eq (fun ptr => .int ptr.toNat) hm fun _ => rfl :)
  | writeText text =>
    have hm := mirrors_copyToGuest hi (Text.utf8 text)
    exact howned (h.reply_eq (regionReply .region) hm fun copy => by cases copy <;> rfl :)
  | writeWords words =>
    have hm := mirrors_copyToGuest hi (words.flatMap wordBytes)
    exact howned
      (h.reply_eq (regionReply fun ptr _ => .int ptr.toNat) hm fun copy => by
        cases copy <;> rfl :)
  | adjustContext change =>
    exact ⟨rfl, h.withCore ⟨h.core.bridge, by rw [h.core.gl], h.core.memory, h.core.host,
      h.core.journal⟩⟩
  | queueAllocation result =>
    exact ⟨rfl, hguest (g := fun g => { g with allocations := g.allocations ++ [result] }) rfl
      h.named⟩
  | failExport name message =>
    exact ⟨rfl, hguest (g := fun g => g.failOn name message) rfl h.named⟩
  | restoreExport name => exact ⟨rfl, hguest (g := fun g => g.restore name) rfl h.named⟩
  | interlude name steps =>
    refine ⟨rfl, h.core, h.owned, h.entered, ?_, h.images, h.tasks, h.deferred, h.named.add hb name⟩
    show ({ b'.guest with
      interludes := b'.guest.interludes.add name (Step.retokenAll f steps) } : Guest C) = _
    rw [h.guest]
    simp only [performWith, Guest.retoken, Interludes.add, List.map_append, List.map_cons,
      List.map_nil]
  | growMemory size =>
    exact ⟨rfl, h.withCore ⟨h.core.bridge, h.core.gl, by rw [h.core.memory], h.core.host,
      h.core.journal⟩⟩
  | poke offset bytes =>
    exact ⟨rfl, h.withCore ⟨h.core.bridge, h.core.gl, by rw [h.core.memory], h.core.host,
      h.core.journal⟩⟩
  | peek offset len =>
    refine ⟨?_, h⟩
    show Reply.ok (.bytes (b'.core.memory.read offset len)) = _
    rw [h.core.memory]
    rfl
  | setRandom values =>
    exact ⟨rfl, h.withCore ⟨h.core.bridge, h.core.gl, h.core.memory,
      congrArg (fun host : Host => { host with random := ⟨values, 0⟩ }) h.core.host,
      h.core.journal⟩⟩
  | breaks =>
    refine ⟨?_, h⟩
    show Reply.ok (.int b'.breaks) = _
    rw [h.breaks]
    rfl
  | setImage url source =>
    exact ⟨rfl, h.core, h.owned, h.entered, h.guest, congrArg ((url, source) :: ·) h.images,
      h.tasks, h.deferred, h.named⟩
  | runTasks => exact ⟨rfl, h.runTasks hi⟩
  | runDeferred => exact ⟨rfl, h.runDeferred hi⟩
  | runOneDeferred =>
    obtain ⟨hran, ht⟩ := h.runOneDeferred hi
    exact ⟨congrArg (Reply.ok ∘ Value.bool) hran, ht⟩
  | runAll => exact ⟨rfl, h.runAll hi⟩

theorem performFor_mirrored (depth : Nat) :
    Mirrored f named (performFor depth : Performer G C) (performFor depth) := by
  induction depth with
  | zero => exact fun _ _ _ _ _ h => ⟨rfl, h⟩
  | succ depth ih => exact performWith_mirrored ih

theorem perform_mirrored : Mirrored f named (perform : Performer G C) perform := by
  intro step b b' hn hb h
  unfold perform
  rw [h.guest, Guest.weight_retoken, Step.weight_retoken]
  exact performFor_mirrored _ step b b' hn hb h

/-! ## Runs -/

omit [GraphicsContext G] [AdjustableContext G C] in
/-- What comes to related benches by related events is seen alike. -/
theorem Retokened.observation {c c' : Bench G C} (h : Retokened f named b b')
    (ht : Retokened f named c c') {reply reply' : Reply} (hr : reply' = reply.retoken f) :
    Observation.Retokens f named
      (.between reply b.core.journal c.core.journal b.core.memory c.core.memory)
      (.between reply' b'.core.journal c'.core.journal b'.core.memory c'.core.memory) := by
  have hsize : b'.core.journal.size = b.core.journal.size := by
    rw [← Array.length_toList, ← Array.length_toList, h.core.journal.length_eq]
  have hsize' : c'.core.journal.size = c.core.journal.size := by
    rw [← Array.length_toList, ← Array.length_toList, ht.core.journal.length_eq]
  have hmemory := h.core.memory
  have hmemory' := ht.core.memory
  refine ⟨hr, ?_, ?_, ?_⟩
  · simp only [Observation.between, Array.toList_extract, hsize, hsize']
    exact List.forall₂_take _ (List.forall₂_drop _ ht.core.journal)
  · simp only [Observation.between, hmemory, hmemory']
  · simp only [Observation.between, hmemory, hmemory']

theorem observe_retokened {step : Step C} (hn : Step.NamesIn named step)
    (hs : Step.AllBelow (Step.NamesIn named) step) (h : Retokened f named b b') :
    Observation.Retokens f named (observe step b).1 (observe (step.retoken f) b').1 ∧
      Retokened f named (observe step b).2 (observe (step.retoken f) b').2 := by
  obtain ⟨hr, ht⟩ := perform_mirrored step b b' hn hs h
  exact ⟨h.observation ht hr, ht⟩

theorem observeAll_retokened {steps : List (Step C)}
    (hs : Step.AllIn (Step.NamesIn named) steps) (h : Retokened f named b b') :
    List.Forall₂ (Observation.Retokens f named) (observeAll steps b)
        (observeAll (Step.retokenAll f steps) b') ∧
      Retokened f named (run steps b) (run (Step.retokenAll f steps) b') := by
  induction steps generalizing b b' with
  | nil => exact ⟨.nil, h⟩
  | cons step rest ih =>
    obtain ⟨hn, hb, hr⟩ := hs
    obtain ⟨ho, ht⟩ := observe_retokened hn hb h
    obtain ⟨hrest, hend⟩ := ih hr ht
    exact ⟨.cons ho hrest, hend⟩

omit [GraphicsContext G] [AdjustableContext G C] in
theorem Fresh.retokened (hb : b.Fresh) (hg : b.guest.All (Step.NamesIn named)) :
    Retokened f named b (b.retoken f) := by
  refine ⟨⟨?_, rfl, rfl, rfl, ?_⟩, rfl, rfl, rfl, rfl, ?_, ?_, hg⟩
  · show b.core.bridge = _
    rw [hb.bridge]
    rfl
  · show List.Forall₂ _ b.core.journal.toList b.core.journal.toList
    rw [hb.journal]
    exact .nil
  · show b.tasks = _
    rw [hb.tasks]
    rfl
  · show b.deferred = _
    rw [hb.deferred]
    rfl

omit [GraphicsContext G] [AdjustableContext G C] in
/-- If no fetch entry point is called by name, every call of the guest has the other token. -/
theorem Retokened.calls_eq (h : Retokened f named b b')
    (hn : ∀ entry, named entry → entry.retoken f = entry) :
    b'.core.calls = b.core.calls.map (·.retoken f) := by
  have hj := h.core.journal
  rw [Core.calls_eq_filterMap, Core.calls_eq_filterMap]
  generalize b.core.journal.toList = events at hj
  generalize b'.core.journal.toList = events' at hj
  induction hj with
  | nil => rfl
  | @cons e e' _ _ he _ ih =>
    rw [List.filterMap_cons, List.filterMap_cons, he.call?_eq hn, ih]
    cases e.call? <;> rfl

/-- A run in which every fetch has the token `f t` where it had `t` is answered, and goes, as the
run with the tokens `t` does: all that is seen of it differs in the tokens of requests, of the lines
that fetches are logged with and of the calls that tell the guest of an image. -/
theorem tokens_immaterial (f : UInt32 → UInt32) {named : EntryPoint → Prop} {b : Bench G C}
    (hb : b.Fresh) (hg : b.guest.All (Step.NamesIn named)) {steps : List (Step C)}
    (hs : Step.AllIn (Step.NamesIn named) steps) :
    let other := run (Step.retokenAll f steps) (b.retoken f)
    List.Forall₂ (Observation.Retokens f named) (observeAll steps b)
        (observeAll (Step.retokenAll f steps) (b.retoken f)) ∧
      Retokened f named (run steps b) other ∧
      ((∀ entry, named entry → entry.retoken f = entry) →
        other.core.calls = (run steps b).core.calls.map (·.retoken f)) := by
  obtain ⟨ho, ht⟩ := observeAll_retokened hs (hb.retokened (f := f) hg)
  exact ⟨ho, ht, ht.calls_eq⟩

/-- Two fetches of one image, told apart by their tokens. -/
def fetchTwice : List (Step ScriptedContext.Change) :=
  fetchLate ++ [.bridge (.capability (.fetchBytes 0 8 5)), .runAll]

/-- With one token for both, the guest is still told of each of them. -/
theorem tokens_immaterial_of_collision :
    (run fetchTwice (scripted 256 true)).core.calls =
        [.init 640 480, .fetch 2 2 8 16 4, .fetch 2 2 24 16 5] ∧
      (run (Step.retokenAll (fun _ => 7) fetchTwice) (scripted 256 true)).core.calls =
        [.init 640 480, .fetch 2 2 8 16 7, .fetch 2 2 24 16 7] := by
  have hcalls : (run fetchTwice (scripted 256 true)).core.calls =
      [.init 640 480, .fetch 2 2 8 16 4, .fetch 2 2 24 16 5] := by decide +kernel
  have hs : Step.AllIn (Step.NamesIn fun _ => False) fetchTwice :=
    ⟨nofun, trivial, nofun, trivial, nofun, trivial, nofun, trivial, nofun, trivial, nofun,
      trivial, trivial⟩
  obtain ⟨-, -, heq⟩ := tokens_immaterial (fun _ => 7) (b := scripted 256 true)
    ⟨rfl, rfl, rfl, rfl, rfl, rfl⟩ (fun _ => nofun) hs
  refine ⟨hcalls, ?_⟩
  have h := heq nofun
  rw [hcalls] at h
  exact h

end

end Bench

end GuestBridge
