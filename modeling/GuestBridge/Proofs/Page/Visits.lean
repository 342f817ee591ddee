import GuestBridge.Page.Run
import GuestBridge.Proofs.Page.Standing
import GuestBridge.Proofs.Platform.Upkeep

/-!
# Visits to the guests of a page

`Page.Stays S p q` says that on the way from `p` to `q` only guests of bridges with `S` were
entered. `Reached S st again p q` puts this together with the invariant of standings and with what
a page does not take back. It holds of whatever happens on a page on which nothing but bridges with
`S` can be come by (`Ready`), if it holds of the steps that guests take (`Follows`). Each of these
steps is taken in the midst of a call, and the invariant of `Ready` holds there as it does between
the steps of a session; so guests are called for events and for frames while the page holds their
bridges (`Visit.InTime`), and at no other time.
-/

set_option autoImplicit false

namespace GuestBridge

/-! ## Calls in time -/

/-- The exports that are called for frames and for the events that are forwarded. -/
def IsEventExport (name : String) : Prop :=
  (∃ event : InputEvent, event.entryPoint.exportName = name) ∨
    ∃ timestamp, (EntryPoint.animationFrame timestamp).exportName = name

theorem not_isEventExport {name : String}
    (h : name ∈ ["onInit", "onEquation", "onFetch", allocatorExport]) : ¬ IsEventExport name := by
  rintro (⟨event, rfl⟩ | ⟨timestamp, rfl⟩)
  · cases event <;> simp [InputEvent.entryPoint, EntryPoint.exportName, allocatorExport] at h
  · simp [EntryPoint.exportName, allocatorExport] at h

/-- A guest is called for an event or a frame while the page holds its bridge. -/
def Visit.InTime (v : Visit) : Prop := IsEventExport v.name → v.held = true

namespace Page

/-- The entries into guests and their allocators so far, in order. -/
def entries (p : Page) : List Event := p.journal.toList.filter Event.isEntry

theorem standing_withCore {owner : Nat} {p : Page} {c : Core ScriptedContext}
    (h : (p.core owner).Still c) : (p.withCore owner c).standing = p.standing := by
  have hi : (p.withCore owner c).installations.map Installation.outline =
      p.installations.map Installation.outline := by
    refine List.ext_getElem? fun o => ?_
    simp only [withCore, List.getElem?_map, List.getElem?_modify]
    rcases hp : p.installations[o]? with _ | i
    · rfl
    · by_cases ho : owner = o
      · subst ho
        have hc : (p.core owner).bridge = i.bridge := by simp [core, hp]
        simp [Installation.outline, h.attached, h.phase, hc]
      · simp [ho]
  exact congrArg (fun installations => { p.standing with installations }) hi

/-- Nobody is entered on the way from one page to another, and no timer is set. -/
def Quiet (p q : Page) : Prop :=
  q.entered = p.entered ∧ q.visits = p.visits ∧ q.timers ⊆ p.timers ∧
    Event.Silent p.journal q.journal

namespace Quiet

variable {p q r : Page}

theorem of_silent (he : q.entered = p.entered) (hv : q.visits = p.visits) (ht : q.timers = p.timers)
    (hj : Event.Silent p.journal q.journal) : Quiet p q :=
  ⟨he, hv, fun _ hm => ht ▸ hm, hj⟩

theorem refl (p : Page) : Quiet p p := .of_silent rfl rfl rfl (.refl _)

theorem trans (h : Quiet p q) (h' : Quiet q r) : Quiet p r :=
  ⟨h'.1.trans h.1, h'.2.1.trans h.2.1, List.Subset.trans h'.2.2.1 h.2.2.1,
    h.2.2.2.trans h'.2.2.2⟩

theorem note {e : Event} (he : e.isEntry = false) (p : Page) : Quiet p (p.note e) :=
  .of_silent rfl rfl rfl (.push he _)

theorem did (e : PageEvent) (p : Page) : Quiet p (p.did e) := note rfl p

theorem withCore {owner : Nat} {c : Core ScriptedContext} (h : (p.core owner).Still c) :
    Quiet p (p.withCore owner c) :=
  .of_silent rfl rfl rfl h.journal

theorem silent (h : Quiet p q) : Event.Silent p.journal q.journal := h.2.2.2

theorem journal (h : Quiet p q) : p.journal.toList <+: q.journal.toList := h.silent.isPrefix

end Quiet

/-! ## Holding a bridge -/

/-- The page holds a bridge that has not been shut down. -/
def Holds (o : Nat) (p : Page) : Prop := ∃ loop, p.handle = some ⟨o, some loop⟩

theorem holds_iff {p : Page} {o : Nat} : p.holds o = true ↔ p.Holds o := by
  unfold holds Holds
  rcases p.handle with _ | ⟨owner, _ | loop⟩ <;> simp

/-- What a bridge logs when it is shut down. -/
def shutDownRecord : Event := .log ⟨.debug, Log.Target.bridge, "bridge shut down"⟩

/-- A bridge is shut down on the way from one page to another. -/
def ShutsDown (p q : Page) : Prop :=
  ∃ events, q.journal.toList = p.journal.toList ++ events ∧ shutDownRecord ∈ events

theorem ShutsDown.after {p q r : Page} (h : ShutsDown q r)
    (hj : p.journal.toList <+: q.journal.toList) : ShutsDown p r := by
  obtain ⟨events, he⟩ := hj
  obtain ⟨events', he', hm⟩ := h
  exact ⟨events ++ events', by rw [he', ← he, List.append_assoc],
    List.mem_append.2 (.inr hm)⟩

theorem ShutsDown.before {p q r : Page} (h : ShutsDown p q)
    (hj : q.journal.toList <+: r.journal.toList) : ShutsDown p r := by
  obtain ⟨events, he, hm⟩ := h
  obtain ⟨events', he'⟩ := hj
  exact ⟨events ++ events', by rw [← he', he, List.append_assoc],
    List.mem_append.2 (.inl hm)⟩

/-! ## Requests -/

/-- The page has refused to take a request back. -/
def Refused (p : Page) (id : Nat) : Prop :=
  ∃ text, [.page (.cancelAnimationFrame id), .log ⟨.warn, Log.Target.animation, text⟩] <:+:
    p.journal.toList

/-- The callback of a loop still exists. -/
def HasCallback (p : Page) (loop : Nat) : Prop := ∃ l, p.loops[loop]? = some l ∧ l.alive = true

/-- Every request is one of a loop with a callback, but for those that the page has refused to take
back. -/
def Prompt (p : Page) : Prop := ∀ r ∈ p.frames, p.HasCallback r.loop ∨ p.Refused r.id

theorem Refused.grown {p q : Page} {id : Nat} (h : p.Refused id)
    (hj : p.journal.toList <+: q.journal.toList) : q.Refused id := by
  obtain ⟨text, h⟩ := h
  exact ⟨text, h.trans hj.isInfix⟩

theorem Prompt.grown {p q : Page} (h : p.Prompt) (hf : ∀ r ∈ q.frames, r ∈ p.frames)
    (hl : q.loops = p.loops) (hj : p.journal.toList <+: q.journal.toList) : q.Prompt :=
  fun r hr => (h r (hf r hr)).imp (fun ⟨l, hloop, ha⟩ => ⟨l, hl ▸ hloop, ha⟩) (·.grown hj)

theorem Prompt.of_requests {p q : Page} (h : p.Prompt) (hf : q.frames = p.frames)
    (hl : q.loops = p.loops) (hq : Quiet p q) : q.Prompt :=
  h.grown (fun _ hr => hf ▸ hr) hl hq.journal

/-- A loop changes but for its callback, and requests are added for loops with one. -/
theorem Prompt.modifyLoop {p q : Page} (h : p.Prompt) {loop : Nat} {f : FrameLoop → FrameLoop}
    (ha : ∀ l, (f l).alive = l.alive) (hl : q.loops = p.loops.modify loop f)
    (hf : ∀ r ∈ q.frames, r ∈ p.frames ∨ p.HasCallback r.loop)
    (hj : p.journal.toList <+: q.journal.toList) : q.Prompt := by
  have halive : ∀ i, p.HasCallback i → q.HasCallback i := by
    rintro i ⟨l, hi, hla⟩
    refine ⟨if loop = i then f l else l, by simp [hl, List.getElem?_modify, hi], ?_⟩
    split
    · exact (ha l).trans hla
    · exact hla
  intro r hr
  rcases hf r hr with hr | hr
  · exact (h r hr).imp (halive _) (·.grown hj)
  · exact .inl (halive _ hr)

/-! ## Entering -/

/-- The page when the guest of a bridge has been entered for an event. -/
def enter (owner : Nat) (e : Event) (name : String) (p : Page) : Page :=
  { p.note e with
    guest.interludes := (p.guest.interludes.take name).2
    entered := owner :: p.entered
    visits := ⟨owner, name, p.holds owner⟩ :: p.visits }

theorem interlude_note (inner : Performer) (owner : Nat) (e : Event) (name : String) (p : Page) :
    interlude inner owner name (p.note e) =
      ((takeSteps inner (p.guest.interludes.take name).1 (p.enter owner e name)).1,
        { (takeSteps inner (p.guest.interludes.take name).1 (p.enter owner e name)).2 with
          entered := p.entered }) := rfl

/-- From one page to another only guests of bridges with `S` were entered, once for each entry that
was added to the journal. -/
structure Stays (S : Nat → Prop) (p q : Page) : Prop where
  grows : p.installations.length ≤ q.installations.length
  visits : ∃ visits events, q.visits = visits ++ p.visits ∧
    q.journal.toList = p.journal.toList ++ events ∧
    visits.length = (events.filter Event.isEntry).length ∧
    ∀ v ∈ visits, S v.owner ∧ v.owner < q.installations.length

namespace Stays

variable {S : Nat → Prop} {p q r : Page}

theorem still (hq : Quiet p q) (hl : p.installations.length ≤ q.installations.length) :
    Stays S p q := by
  obtain ⟨-, hv, -, events, he, hs⟩ := hq
  refine ⟨hl, [], events, hv, he, ?_, nofun⟩
  rw [List.filter_eq_nil_iff.2 fun e hm => by simp [hs e hm]]
  rfl

theorem trans (h : Stays S p q) (h' : Stays S q r) : Stays S p r := by
  obtain ⟨vs, es, hv, he, hn, ho⟩ := h.visits
  obtain ⟨vs', es', hv', he', hn', ho'⟩ := h'.visits
  refine ⟨Nat.le_trans h.grows h'.grows, vs' ++ vs, es ++ es', ?_, ?_, ?_, fun v hm => ?_⟩
  · rw [hv', hv, List.append_assoc]
  · rw [he', he, List.append_assoc]
  · rw [List.length_append, List.filter_append, List.length_append, hn, hn', Nat.add_comm]
  · rcases List.mem_append.1 hm with hm | hm
    · exact ho' v hm
    · exact (ho v hm).imp_right fun hlt => Nat.lt_of_lt_of_le hlt h'.grows

/-- The guest of a bridge is entered, and its steps enter others. -/
theorem visit {owner : Nat} {e : Event} {name : String} (he : e.isEntry = true) (hs : S owner)
    (ho : owner < p.installations.length) (inside : Stays S (p.enter owner e name) q) :
    Stays S p { q with entered := p.entered } := by
  have hentered : Stays S p (p.enter owner e name) :=
    ⟨Nat.le_refl _, [⟨owner, name, p.holds owner⟩], [e], rfl, Array.toList_push, by simp [he],
      fun v hm => by
      obtain rfl := List.mem_singleton.1 hm
      exact ⟨hs, ho⟩⟩
  obtain ⟨hgrows, hvisits⟩ := hentered.trans inside
  exact ⟨hgrows, hvisits⟩

theorem journal (h : Stays S p q) : p.journal.toList <+: q.journal.toList := by
  obtain ⟨_, events, -, he, -⟩ := h.visits
  exact he ▸ List.prefix_append _ _

/-- If only bridges can be entered that do not exist, none is. -/
theorem entries_eq (h : Stays S p q) (hS : ∀ o, S o → q.installations.length ≤ o) :
    q.entries = p.entries := by
  obtain ⟨vs, es, -, he, hn, ho⟩ := h.visits
  rcases vs with _ | ⟨v, vs⟩
  · unfold entries
    rw [he, List.filter_append, List.length_eq_zero_iff.1 hn.symm, List.append_nil]
  · obtain ⟨hs, hlt⟩ := ho v (.head _)
    exact absurd (hS v.owner hs) (Nat.not_le_of_lt hlt)

end Stays

/-! ## Ways -/

/-- A sound page on which only bridges with `S` can be come by: the one that is held, those being
brought up, those whose guests are entered, and new ones. -/
structure Ready (S : Nat → Prop) (st : List Nat) (p : Page) : Prop where
  sound : p.standing.Sound st
  handle : ∀ h, p.handle = some h → S h.owner
  starting : ∀ o ∈ st, S o
  entered : ∀ o ∈ p.entered, S o ∧ o < p.installations.length
  fresh : ∀ o, p.installations.length ≤ o → S o
  prompt : p.Prompt
  inTime : ∀ v ∈ p.visits, v.InTime
  /-- Nothing but an image that has come is put off. -/
  timers : ∀ t ∈ p.timers, t.completion.entry.exportName = "onFetch"

structure Reached (S : Nat → Prop) (st : List Nat) (again : Nat → Prop) (p q : Page) : Prop where
  ready : q.Ready S st
  later : p.standing.Later p.installations.length again q.standing
  stays : Stays S p q
  /-- The guests that are entered are those that were. -/
  entered : q.entered = p.entered
  held : ∀ o, p.Holds o → q.Holds o ∨ ShutsDown p q

/-- Whatever step a guest takes, it is taken on the terms of the page. -/
def Follows (S : Nat → Prop) (inner : Performer) : Prop :=
  ∀ st step p, Ready S st p → Reached S st (fun _ => False) p (inner step p).2

section

variable {S : Nat → Prop} {st : List Nat} {again : Nat → Prop} {p q r : Page}

theorem isOwned_iff {p : Page} {o : Nat} : p.isOwned o = true ↔ p.standing.IsOwned o := by
  unfold isOwned standing Standing.IsOwned
  rcases hi : p.installations[o]? with _ | i
  · simp [hi]
  · simp [hi, Installation.outline]

theorem length_standing (p : Page) : p.standing.installations.length = p.installations.length :=
  List.length_map _

/-- A bridge of a page that can be come by. -/
structure Serves (S : Nat → Prop) (p : Page) (owner : Nat) : Prop where
  allowed : S owner
  installed : owner < p.installations.length

theorem Ready.serves_of_handle (h : p.Ready S st) {x : PageHandle} (hx : p.handle = some x) :
    Serves S p x.owner :=
  ⟨h.handle x hx, length_standing p ▸ (h.sound.held x hx).1.lt⟩

theorem Ready.serves_of_isAlive (h : p.Ready S st) {o : Nat} (ha : p.isAlive o = true) :
    Serves S p o := by
  rcases Bool.or_eq_true_iff.1 ha with ho | he
  · have ho := isOwned_iff.1 ho
    refine ⟨?_, length_standing p ▸ ho.lt⟩
    rcases h.sound.owned o ho with hm | ⟨x, hx, rfl⟩
    · exact h.starting o hm
    · exact h.handle x hx
  · obtain ⟨hs, hl⟩ := h.entered o (by simpa using he)
    exact ⟨hs, hl⟩

theorem Ready.serves_of_holds (h : p.Ready S st) {o : Nat} (hp : p.Holds o) : Serves S p o := by
  obtain ⟨loop, hloop⟩ := hp
  exact h.serves_of_handle hloop

theorem Ready.holds_of_listener (h : p.Ready S st) {l : Listener} (hl : l ∈ p.listeners) :
    p.Holds l.owner := by
  obtain ⟨⟨owner, loop'⟩, loop, hx, hloop, ho⟩ := h.sound.owner_of_listener hl
  cases hloop
  exact ⟨loop, ho ▸ hx⟩

theorem Ready.holds_of_loop (h : p.Ready S st) {loop : Nat} {l : FrameLoop}
    (hl : p.loops[loop]? = some l) (ha : l.alive = true) : p.Holds l.owner := by
  obtain ⟨⟨owner, loop'⟩, hx, hloop⟩ := h.sound.alive loop l hl ha
  obtain ⟨m, hm, hmo, -⟩ := h.sound.looping _ loop hx hloop
  obtain rfl : l = m := Option.some.inj (hl.symm.trans hm)
  cases hloop
  exact ⟨loop, hmo ▸ hx⟩

namespace Reached

theorem refl (h : p.Ready S st) : Reached S st again p p :=
  ⟨h, .refl _, .still (.refl p) (Nat.le_refl _), rfl, fun _ => .inl⟩

theorem grows (h : Reached S st again p q) : p.installations.length ≤ q.installations.length :=
  h.stays.grows

theorem mono {again' : Nat → Prop} (h : Reached S st again p q)
    (ha : ∀ loop, again loop → again' loop) : Reached S st again' p q :=
  { h with later := h.later.mono (Nat.le_refl _) ha }

theorem trans (h : Reached S st again p q) (h' : Reached S st again q r) :
    Reached S st again p r where
  ready := h'.ready
  later := h.later.trans (h'.later.mono h.grows fun _ h => h)
  stays := h.stays.trans h'.stays
  entered := h'.entered.trans h.entered
  held o ho := by
    rcases h.held o ho with hq | hq
    · exact (h'.held o hq).imp_right (·.after h.stays.journal)
    · exact .inr (hq.before h'.stays.journal)

/-- What the guest's steps have led to. -/
theorem trans_inner (h : Reached S st again p q) (h' : Reached S st (fun _ => False) q r) :
    Reached S st again p r :=
  h.trans (h'.mono nofun)

/-- The page goes on with another standing, and nobody is entered. -/
theorem of_standing {st' : List Nat} (h : Reached S st again p q) (hs : r.standing.Sound st')
    (hl : q.standing.Later p.installations.length again r.standing)
    (hh : ∀ x, r.handle = some x → S x.owner) (hst : ∀ o ∈ st', S o)
    (hq : Quiet q r) (hp : r.Prompt) (hheld : ∀ o, q.Holds o → r.Holds o ∨ ShutsDown q r) :
    Reached S st' again p r := by
  have he : r.entered = q.entered := hq.1
  have hlen : q.installations.length ≤ r.installations.length := by
    rw [← length_standing, ← length_standing]
    exact hl.grows
  exact
  { ready := {
      sound := hs
      handle := hh
      starting := hst
      entered := fun o ho =>
        (h.ready.entered o (he ▸ ho)).imp_right fun hlt => Nat.lt_of_lt_of_le hlt hlen
      fresh := fun o ho => h.ready.fresh o (Nat.le_trans hlen ho)
      prompt := hp
      inTime := hq.2.1 ▸ h.ready.inTime
      timers := fun t ht => h.ready.timers t (hq.2.2.1 ht) }
    later := h.later.trans hl
    stays := h.stays.trans (.still hq hlen)
    entered := he.trans h.entered
    held := fun o ho => by
      rcases h.held o ho with hqo | hqo
      · exact (hheld o hqo).imp_right (·.after h.stays.journal)
      · exact .inr (hqo.before hq.journal) }

/-- The page goes on with the handle, the loops and the requests that it has. -/
theorem of_handle_eq {st' : List Nat} (h : Reached S st again p q) (hs : r.standing.Sound st')
    (hl : q.standing.Later p.installations.length again r.standing) (hst : ∀ o ∈ st', S o)
    (hh : r.handle = q.handle) (hloops : r.loops = q.loops) (hf : r.frames = q.frames)
    (hq : Quiet q r) : Reached S st' again p r :=
  h.of_standing hs hl (hh ▸ h.ready.handle) hst hq (h.ready.prompt.of_requests hf hloops hq)
    fun _ ⟨loop, hloop⟩ => .inl ⟨loop, hh.trans hloop⟩

/-- The page goes on with the same standing. -/
theorem of_eq (h : Reached S st again p q) (hs : r.standing = q.standing) (hq : Quiet q r) :
    Reached S st again p r :=
  h.of_handle_eq (hs ▸ h.ready.sound) (hs ▸ .refl _) h.ready.starting
    (congrArg Standing.handle hs) (congrArg Standing.loops hs) (congrArg Standing.frames hs) hq

theorem note (h : Reached S st again p q) {e : Event} (he : e.isEntry = false) :
    Reached S st again p (q.note e) :=
  h.of_eq rfl (.note he q)

theorem did (h : Reached S st again p q) (e : PageEvent) : Reached S st again p (q.did e) :=
  h.note rfl

theorem log (h : Reached S st again p q) (level : Log.Level) (target text : String) :
    Reached S st again p (q.log level target text) :=
  h.note rfl

/-! ### Guests -/

variable {inner : Performer} {owner : Nat}

theorem takeSteps (hi : Follows S inner) (steps : List PageStep) (h : Reached S st again p q) :
    Reached S st again p (Page.takeSteps inner steps q).2 := by
  induction steps generalizing q with
  | nil => exact h
  | cons step rest ih =>
    have hstep := (h.trans_inner (hi st step q h.ready)).note (e := .nested (inner step q).1) rfl
    unfold Page.takeSteps
    simp only
    split
    · exact hstep
    · exact ih hstep

theorem enter (h : p.Ready S st) (ho : Serves S p owner) (e : Event) {name : String}
    (ht : IsEventExport name → p.Holds owner) : (p.enter owner e name).Ready S st :=
  { h with
    entered := fun o hm => by
      rcases List.mem_cons.1 hm with rfl | hm
      · exact ⟨ho.allowed, ho.installed⟩
      · exact h.entered o hm
    prompt := h.prompt.grown (fun _ hr => hr) rfl
      (Array.toList_push ▸ List.prefix_append _ _)
    inTime := fun v hm => by
      rcases List.mem_cons.1 hm with rfl | hm
      · exact fun hname => holds_iff.2 (ht hname)
      · exact h.inTime v hm }

/-- Entering a guest that can be come by, whatever steps it takes. -/
theorem interlude (hi : Follows S inner) (h : Reached S st again p q) (ho : Serves S q owner)
    {e : Event} (he : e.isEntry = true) {name : String}
    (ht : IsEventExport name → q.Holds owner) :
    Reached S st again p (Page.interlude inner owner name (q.note e)).2 := by
  have hentered : Reached S st (fun _ => False) (q.enter owner e name) (q.enter owner e name) :=
    refl (enter h.ready ho e ht)
  have hin := hentered.takeSteps hi (q.guest.interludes.take name).1
  refine h.trans_inner ⟨?_, hin.later, .visit he ho.allowed ho.installed hin.stays, rfl,
    fun o ho => (hin.held o ho).imp_right (·.after (Array.toList_push ▸ List.prefix_append _ _))⟩
  exact
  { hin.ready with
    entered := fun o hm =>
      (h.ready.entered o hm).imp_right fun hl => Nat.lt_of_lt_of_le hl hin.grows }

theorem alloc (hi : Follows S inner) (h : Reached S st again p q) (ho : Serves S q owner)
    (len : UInt32) : Reached S st again p (Page.alloc inner owner len q).2 := by
  have hn : ¬ IsEventExport allocatorExport := not_isEventExport (by simp)
  have hin := h.interlude hi ho (e := .alloc len) rfl fun hname => absurd hname hn
  unfold Page.alloc
  split
  · rename_i thrown q' hr
    rwa [hr] at hin
  · rename_i q' hr
    rw [hr] at hin
    split
    · exact hin.of_eq rfl (.refl _)
    · exact hin.of_eq rfl (.refl _)

theorem call (hi : Follows S inner) (h : Reached S st again p q) (ho : Serves S q owner)
    {entry : EntryPoint} (ht : IsEventExport entry.exportName → q.Holds owner) :
    Reached S st again p (Page.call inner owner entry q).2 := by
  have hin := h.interlude hi ho (e := .call entry) rfl ht
  unfold Page.call
  simp only
  split
  · exact h
  · split
    · rename_i thrown q' hr
      rwa [hr] at hin
    · rename_i q' hr
      rw [hr] at hin
      split <;> exact hin

theorem spawn (h : Reached S st again p q) (owner : Nat) (fetch : Accepted) :
    Reached S st again p (Page.spawn owner fetch q) :=
  (h.note (e := .spawn) rfl).of_eq rfl (.refl _)

theorem defer (h : Reached S st again p q) (owner : Nat) {c : Completion}
    (hc : c.entry.exportName = "onFetch") : Reached S st again p (Page.defer owner c q) := by
  unfold Page.defer
  split
  · exact h.log _ _ _
  · have hnoted := h.note (e := .defer) rfl
    have hready : ({ q.note .defer with timers := q.timers ++ [⟨owner, c⟩] } : Page).Ready S st :=
      { hnoted.ready with
        timers := fun t ht => by
          rcases List.mem_append.1 ht with ht | ht
          · exact h.ready.timers t ht
          · obtain rfl := List.mem_singleton.1 ht
            exact hc }
    exact ⟨hready, hnoted.later, ⟨hnoted.grows, hnoted.stays.visits⟩, hnoted.entered, hnoted.held⟩

/-! ### The platform -/

theorem upholds (p : Page) (inner : Performer) (owner : Nat) :
    (platform inner owner).Upholds (Reached S st again p) := fun _ _ h hc =>
  h.of_eq (standing_withCore hc) (.withCore hc)

theorem perform (p : Page) (inner : Performer) (owner : Nat) (c : Capability) :
    Attempt.Keeps (Reached S st again p) ((platform inner owner).perform c) :=
  Platform.keeps_perform (upholds p inner owner) c fun fetch _ h => h.spawn owner fetch

theorem serves (ho : Serves S p owner) (h : Reached S st again p q) : Serves S q owner :=
  ⟨ho.allowed, Nat.lt_of_lt_of_le ho.installed h.grows⟩

variable (hi : Follows S inner) (ho : Serves S p owner)

include hi ho

theorem platform_alloc (len : UInt32) (q : Page) (h : Reached S st again p q) :
    Reached S st again p ((platform inner owner).alloc len q).2 :=
  h.alloc hi (serves ho h) len

/-- A call that is for no event. -/
theorem platform_call {entry : EntryPoint}
    (hn : entry.exportName ∈ ["onInit", "onEquation", "onFetch", allocatorExport]) (q : Page)
    (h : Reached S st again p q) : Reached S st again p ((platform inner owner).call entry q).2 :=
  h.call hi (serves ho h) fun hname => absurd hname (not_isEventExport hn)

theorem callGuest (entry : EntryPoint) :
    Attempt.Meets (fun q => Reached S st again p q ∧ q.Holds owner)
      ((platform inner owner).callGuest entry) (fun _ => Reached S st again p)
      (fun _ => Reached S st again p) :=
  Platform.meets_callGuest (fun _ h => h.1) fun _ h => h.1.call hi (serves ho h.1) fun _ => h.2

theorem animationFrame (timestamp : Ieee.Double) :
    Attempt.Meets (fun q => Reached S st again p q ∧ q.Holds owner)
      ((platform inner owner).animationFrame timestamp) (fun _ => Reached S st again p)
      (fun _ => Reached S st again p) :=
  Platform.meets_animationFrame
    (Platform.Upholds.bears fun q c h hc => ⟨upholds p inner owner q c h.1 hc, h.2⟩) timestamp
    (fun _ h => h.1) fun _ h => h.1.call hi (serves ho h.1) fun _ => h.2

theorem submitEquation (text : String) :
    Attempt.Keeps (Reached S st again p) ((platform inner owner).submitEquation text) :=
  Platform.keeps_submitEquation (upholds p inner owner).bears text
    (fun len q h => platform_alloc hi ho len q h) fun _ _ q h =>
      platform_call hi ho (by simp [EntryPoint.exportName]) q h

theorem complete (fetch : Accepted) (result : Except FetchError DecodedImage)
    (h : Reached S st again p q) :
    Reached S st again p ((platform inner owner).complete fetch result q) :=
  Platform.complete_keeps (upholds p inner owner) fetch result
    (fun len q h => platform_alloc hi ho len q h) (fun _ _ hc h => h.defer owner hc) h

theorem deliver {c : Completion} (hc : c.entry.exportName = "onFetch")
    (h : Reached S st again p q) : Reached S st again p ((platform inner owner).deliver c q) :=
  Platform.deliver_keeps (upholds p inner owner) c
    (fun q h => platform_call hi ho (by simp [hc]) q h) h

end Reached

end

end Page

end GuestBridge
