import GuestBridge.Proofs.Page.Apart
import GuestBridge.Proofs.Page.Schedule

/-!
# The beats of frame loops

What becomes of frame loops is told in beats. A loop is started with its first request; the page
takes all requests at once, and then their callbacks are called one after another. The callback of a
loop that has not ended offers the frame to its bridge, in which the guest may be entered and
anything may happen, and asks for the next frame after that, or is refused it. At any time a loop
may be stopped.

`Page.Beats q due beat r due'` says what a beat does to a page, and to the errands that frames have
left to do, the innermost first: a frame may come while the guest is in the middle of another. All
else that happens is `Between` the beats: no loop and no request changes, nothing is asked for, and
no bridge is offered a frame. A `Rhythm` is a way from page to page with its beats.
-/

set_option autoImplicit false

namespace GuestBridge

open Ieee

/-- The time of the frame that a guest is told of. -/
def Event.frameCall? : Event → Option Double
  | .call (.animationFrame timestamp) => some timestamp
  | _ => none

theorem Event.frameCall?_of_not_entry {e : Event} (h : e.isEntry = false) :
    e.frameCall? = none := by
  cases e <;> first | rfl | cases h

namespace Platform

variable {σ G : Type} {pl : Platform σ G} {timestamp : Double}

theorem snd_callGuest (entry : EntryPoint) (s : σ) :
    (pl.callGuest entry s).2 =
      if (pl.core s).bridge.admits entry = false then s
      else if (pl.core s).bridge.attached = false then s
      else (pl.call entry s).2 := by
  have hb : pl.bridge s = (.ok (pl.core s).bridge, s) := rfl
  unfold callGuest
  rw [Attempt.bind_of_ok hb]
  simp only [Bool.not_eq_true']
  split
  · rfl
  · split <;> rfl

/-- Delivering a frame is to drop it, with a warning, or to remember it and tell the guest. -/
theorem snd_animationFrame (timestamp : Double) (s : σ) :
    (pl.animationFrame timestamp s).2 =
      if (pl.core s).bridge.phase ≠ .running then s
      else
        match (pl.core s).bridge.staleAfter? timestamp with
        | some last =>
          let now := timestamp.text .plain
          let before := last.text .plain
          pl.log .warn Log.Target.bridge s!"dropping frame at {now} (previous frame at {before})" s
        | none =>
          (pl.callGuest (.animationFrame timestamp)
            (pl.onBridge (fun b => { b with lastFrame := some timestamp }) s)).2 := by
  have hb : pl.bridge s = (.ok (pl.core s).bridge, s) := rfl
  unfold animationFrame
  rw [Attempt.bind_of_ok hb]
  split
  · rfl
  · rcases (pl.core s).bridge.staleAfter? timestamp with _ | last
    · have hm : (.modify (pl.onBridge fun b => { b with lastFrame := some timestamp }) :
          Action σ Unit) s =
            (.ok (), pl.onBridge (fun b => { b with lastFrame := some timestamp }) s) := rfl
      simp only
      rw [Attempt.bind_of_ok hm]
      exact Attempt.snd_bind_pure _ _ _
    · rfl

/-- Platforms that differ in their guests only deliver a frame in the same way up to the call. -/
theorem snd_animationFrame_of_call (pl pl' : Platform σ G) {P : σ → σ → Prop}
    (hcore : pl'.core = pl.core) (hwith : pl'.withCore = pl.withCore) (hP : ∀ s, P s s)
    (hc : ∀ s, P (pl.call (.animationFrame timestamp) s).2
      (pl'.call (.animationFrame timestamp) s).2) (s : σ) :
    P (pl.animationFrame timestamp s).2 (pl'.animationFrame timestamp s).2 := by
  have hcall : ∀ s, P (pl.callGuest (.animationFrame timestamp) s).2
      (pl'.callGuest (.animationFrame timestamp) s).2 := by
    intro s
    rw [snd_callGuest, snd_callGuest, hcore]
    split
    · exact hP s
    · split
      · exact hP s
      · exact hc s
  have hlog : pl'.log = pl.log := by
    funext level target text s
    simp only [log, hcore, hwith]
  have hbridge : pl'.onBridge = pl.onBridge := by
    funext f s
    simp only [onBridge, hcore, hwith]
  rw [snd_animationFrame, snd_animationFrame, hcore, hlog, hbridge]
  split
  · exact hP s
  · rcases (pl.core s).bridge.staleAfter? timestamp with _ | last
    · exact hcall _
    · exact hP _

end Platform

namespace Page

variable {p q r : Page} {inner : Performer} {owner : Nat} {timestamp : Double}

/-! ## Offers -/

theorem snd_call (inner : Performer) (owner : Nat) (entry : EntryPoint) (q : Page) :
    (call inner owner entry q).2 =
      if q.exports owner entry.exportName then
        (interlude inner owner entry.exportName (q.note (.call entry))).2
      else q := by
  unfold call
  by_cases he : q.exports owner entry.exportName = true
  · simp only [he, Bool.not_true, Bool.false_eq_true, if_false, if_true]
    split
    · rename_i thrown r hr
      rw [hr]
    · rename_i r hr
      rw [hr]
      split <;> rfl
  · simp [he]

/-- The platform of a bridge whose guest is called, but does not come to do anything. -/
def doorstep (owner : Nat) : Platform Page ScriptedContext :=
  { platform (fun _ p => told p) owner with
    call := fun entry p =>
      (.ok (), if p.exports owner entry.exportName then p.note (.call entry) else p) }

/-- Offers a frame to a bridge, up to where its guest is entered. -/
def offer (owner : Nat) (timestamp : Double) (p : Page) : Page :=
  ((doorstep owner).animationFrame timestamp p).2

/-- Delivering a frame is to offer it, and for the guest to take its steps if it is entered. -/
theorem animationFrame_cases (inner : Performer) (owner : Nat) (timestamp : Double) (q : Page) :
    ((platform inner owner).animationFrame timestamp q).2 = q.offer owner timestamp ∨
      ((platform inner owner).animationFrame timestamp q).2 =
        (interlude inner owner "onAnimationFrame" (q.offer owner timestamp)).2 := by
  refine Platform.snd_animationFrame_of_call (doorstep owner) (platform inner owner)
    (P := fun t u => u = t ∨ u = (interlude inner owner "onAnimationFrame" t).2) rfl rfl
    (fun _ => .inl rfl) (fun t => ?_) q
  have hstep : ((doorstep owner).call (.animationFrame timestamp) t).2 =
      if t.exports owner "onAnimationFrame" then t.note (.call (.animationFrame timestamp)) else t :=
    rfl
  have hcall : ((platform inner owner).call (.animationFrame timestamp) t).2 =
      if t.exports owner "onAnimationFrame" then
        (interlude inner owner "onAnimationFrame" (t.note (.call (.animationFrame timestamp)))).2
      else t := snd_call inner owner (.animationFrame timestamp) t
  rw [hstep, hcall]
  by_cases he : t.exports owner "onAnimationFrame" = true
  · rw [if_pos he, if_pos he]
    exact .inr rfl
  · rw [if_neg he, if_neg he]
    exact .inl rfl

/-! ## Between the beats -/

/-- The times of the frames that guests were told of, in order. -/
def frameCalls (p : Page) : List Double := p.journal.toList.filterMap Event.frameCall?

theorem frameCalls_of_silent (h : Event.Silent q.journal r.journal) :
    r.frameCalls = q.frameCalls := by
  obtain ⟨events, he, hs⟩ := h
  unfold frameCalls
  rw [he, List.filterMap_append, List.filterMap_eq_nil_iff.2 fun e hm =>
    Event.frameCall?_of_not_entry (hs e hm), List.append_nil]

theorem frameCalls_note (p : Page) (e : Event) :
    (p.note e).frameCalls = p.frameCalls ++ e.frameCall?.toList := by
  unfold frameCalls note
  rw [Array.toList_push, filterMap_concat]

/-- What neither concerns a loop nor offers a frame. -/
structure Between (q r : Page) : Prop where
  schedule : r.schedule = q.schedule
  lastFrame (owner : Nat) : r.lastFrame owner = q.lastFrame owner
  warnings : r.warnings = q.warnings
  frameCalls : r.frameCalls = q.frameCalls

namespace Between

theorem of_apart (h : Apart q r) : Between q r where
  schedule := by simp only [Page.schedule, h.loops, h.frames, h.nextFrame]
  lastFrame := h.lastFrame
  warnings := h.warnings
  frameCalls := frameCalls_of_silent h.silent

/-- The queues of tasks and timers do not matter. -/
theorem of_eq (hi : r.installations = q.installations) (hs : r.schedule = q.schedule)
    (hj : r.journal = q.journal) : Between q r where
  schedule := hs
  lastFrame o := by simp only [Page.lastFrame, core, hi]
  warnings := by simp only [Page.warnings, hj]
  frameCalls := by simp only [Page.frameCalls, hj]

theorem note {e : Event} (hw : e.isWarning = false) (hf : e.frameCall? = none) (q : Page) :
    Between q (q.note e) where
  schedule := rfl
  lastFrame _ := rfl
  warnings := filter_isWarning_push hw q.journal
  frameCalls := by simp [frameCalls_note, hf]

/-- To accept a fetch does not concern any frame. -/
theorem accept (owner : Nat) (fetch : Accepted) (text : String) (q : Page) :
    Between q (q.accept owner fetch text) where
  schedule := rfl
  lastFrame o := by
    show ((q.withCore owner _).core o).bridge.lastFrame = _
    rw [bridge_withCore]
    split
    · rename_i ho
      rw [ho.1]
      rfl
    · rfl
  warnings := (filter_isWarning_push rfl _).trans
    (filter_isWarning_push (Event.isWarning_of_level (by decide)) q.journal)
  frameCalls := frameCalls_of_silent (.trans (.push rfl _) (.push rfl _))

end Between

/-! ## What an offer does -/

section

variable (owner : Nat) (timestamp : Double) (q : Page)

theorem queues_offer : (q.offer owner timestamp).queues = q.queues := by
  have hbears : (doorstep owner).Bears (·.queues = q.queues) :=
    ⟨fun _ _ _ _ h => h, fun _ _ h => h, fun _ _ h => h⟩
  have hcall : ∀ t : Page, t.queues = q.queues →
      ((doorstep owner).call (.animationFrame timestamp) t).2.queues = q.queues := by
    intro t ht
    show (if _ then t.note _ else t).queues = _
    split <;> exact ht
  exact (Platform.meets_animationFrame hbears timestamp (fun _ h => h) hcall).keeps q rfl

theorem schedule_offer : (q.offer owner timestamp).schedule = q.schedule :=
  congrArg (fun x => Schedule.mk x.2.2.1 x.2.2.2.1 x.2.2.2.2) (queues_offer owner timestamp q)

theorem timers_offer : (q.offer owner timestamp).timers = q.timers :=
  congrArg (·.2.1) (queues_offer owner timestamp q)

/-- The guest is told of the frame once, if at all. -/
theorem frameCalls_offer :
    (q.offer owner timestamp).frameCalls.Sublist (q.frameCalls ++ [timestamp]) := by
  have hbears : (doorstep owner).Bears (·.frameCalls = q.frameCalls) := by
    refine ⟨fun t level target text h => ?_, fun _ _ h => h, fun stores t h => ?_⟩
    · exact (frameCalls_of_silent (q := t) (.push rfl _)).trans h
    · exact (frameCalls_of_silent (q := t)
        (r := t.withCore owner (Core.store stores (t.core owner)).2)
        (Core.Still.store stores (t.core owner)).journal).trans h
  have hcall : ∀ t : Page, t.frameCalls = q.frameCalls →
      ((doorstep owner).call (.animationFrame timestamp) t).2.frameCalls.Sublist
        (q.frameCalls ++ [timestamp]) := by
    intro t ht
    show (if _ then t.note (.call (.animationFrame timestamp)) else t).frameCalls.Sublist _
    split
    · rw [frameCalls_note, ht]
      exact List.Sublist.refl _
    · rw [ht]
      exact List.sublist_append_left _ _
  refine Attempt.meets_iff_snd.1 (Platform.meets_animationFrame
    (Q := (·.frameCalls.Sublist (q.frameCalls ++ [timestamp]))) hbears timestamp ?_ hcall) q rfl
  intro t ht
  rw [ht]
  exact List.sublist_append_left _ _

end

/-! ## Beats -/

inductive Beat
  /-- A loop is started with its first request. -/
  | started (owner loop id : Nat)
  /-- A frame comes, and the page takes all requests. -/
  | taken (timestamp : Double) (requests : List FrameRequest)
  /-- A callback offers the frame to the bridge of its loop. -/
  | offered (timestamp : Double) (request : FrameRequest)
  /-- A callback does nothing, or there is none any more. -/
  | skipped (timestamp : Double) (request : FrameRequest)
  /-- A loop asks for its next frame. -/
  | asked (loop id : Nat)
  /-- A loop is refused its next frame. -/
  | refused (loop : Nat)
  /-- A loop whose callback is gone asks for none. -/
  | gone (loop : Nat)
  /-- A loop is stopped. Unless that is clean, it has an outstanding request that the page refuses
  to take back. -/
  | stopped (loop : Nat) (clean : Bool)

namespace Beat

/-- The requests that the page takes, each with the time of the frame. -/
def takes : Beat → List (Double × FrameRequest)
  | taken timestamp requests => requests.map (timestamp, ·)
  | _ => []

/-- The request whose callback's turn it is, with the time of its frame. -/
def call? : Beat → Option (Double × FrameRequest)
  | offered timestamp request | skipped timestamp request => some (timestamp, request)
  | _ => none

/-- The time of a frame that is offered. -/
def offer? : Beat → Option Double
  | offered timestamp _ => some timestamp
  | _ => none

end Beat

/-- Whether a request of a loop is left standing where the loop is stopped. -/
def leavesRequest (loop : Nat) (p : Page) : Bool :=
  (p.script.refusal? "cancelAnimationFrame").isSome && p.frames.any (·.loop = loop)

inductive Beats : Page → List Errand → Beat → Page → List Errand → Prop
  | started {q r : Page} {due : List Errand} {owner loop : Nat}
    (h : startLoop owner q = (.ok loop, r)) : Beats q due (.started owner loop q.nextFrame) r due
  | taken {q : Page} {due : List Errand} (timestamp : Double) :
    Beats q due (.taken timestamp q.frames) { q with frames := [] }
      (q.frames.map (.call timestamp) ++ due)
  | offered {q : Page} {due : List Errand} {timestamp : Double} {x : FrameRequest} {l : FrameLoop}
    (hl : q.loops[x.loop]? = some l) (ha : l.alive = true) (hc : l.cancelled = false) :
    Beats q (.call timestamp x :: due) (.offered timestamp x) (q.offer l.owner timestamp)
      (.resume x.loop :: due)
  | skipped {q : Page} {due : List Errand} {timestamp : Double} {x : FrameRequest}
    (h : ∀ l, q.loops[x.loop]? = some l → l.alive = true → l.cancelled = true) :
    Beats q (.call timestamp x :: due) (.skipped timestamp x) q due
  | asked {q : Page} {due : List Errand} {loop : Nat} {l : FrameLoop}
    (hl : q.loops[loop]? = some l) (ha : l.alive = true)
    (hp : q.script.refusal? "requestAnimationFrame" = none) :
    Beats q (.resume loop :: due) (.asked loop q.nextFrame) (q.continueLoop loop) due
  | refused {q : Page} {due : List Errand} {loop : Nat} {l : FrameLoop}
    (hl : q.loops[loop]? = some l) (ha : l.alive = true)
    {thrown : PageValue} (hp : q.script.refusal? "requestAnimationFrame" = some thrown) :
    Beats q (.resume loop :: due) (.refused loop) (q.continueLoop loop) due
  | gone {q : Page} {due : List Errand} {loop : Nat}
    (h : ∀ l, q.loops[loop]? = some l → l.alive = false) :
    Beats q (.resume loop :: due) (.gone loop) q due
  | stopped {q : Page} {due : List Errand} {loop : Nat} (hl : loop < q.loops.length) :
    Beats q due (.stopped loop (!q.leavesRequest loop)) (q.stopLoop loop) due

/-- A way from a page, with its beats, to a page with errands left to do. -/
inductive Rhythm (p : Page) : List Beat → List Errand → Page → Prop
  | refl : Rhythm p [] [] p
  | between {beats : List Beat} {due : List Errand} {q r : Page} (before : Rhythm p beats due q)
    (now : Between q r) : Rhythm p beats due r
  | snoc {beats : List Beat} {beat : Beat} {due due' : List Errand} {q r : Page}
    (before : Rhythm p beats due q) (now : Beats q due beat r due') :
    Rhythm p (beats ++ [beat]) due' r

/-- A rhythm can be taken up again at any of its beats. -/
theorem Rhythm.exists_beats {beats before after : List Beat} {beat : Beat} {due : List Errand}
    (h : Rhythm p beats due q) (he : beats = before ++ beat :: after) :
    ∃ t u due' due'', Rhythm p before due' t ∧ Beats t due' beat u due'' := by
  induction h generalizing after with
  | refl => simp at he
  | between _ _ ih => exact ih he
  | snoc earlier now ih =>
    rcases List.eq_nil_or_concat after with rfl | ⟨after', last, rfl⟩
    · obtain ⟨rfl, hlast⟩ := List.append_inj' he rfl
      obtain rfl := List.singleton_inj.1 hlast
      exact ⟨_, _, _, _, earlier, now⟩
    · rw [List.concat_eq_append, ← List.cons_append, ← List.append_assoc] at he
      exact ih (List.append_inj' he rfl).1

end Page

end GuestBridge
