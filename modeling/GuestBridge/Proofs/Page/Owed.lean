import GuestBridge.Proofs.Page.Forwarding

/-!
# What a page owes its guest

The events that come to a page one after another, and the calls that they are to bring about
(`OwesAll`). A guest that takes no steps of its own is called for just these, each once and in the
order in which the events come, whether it traps or not; beside them it is called for frames
(`run_inputs`).
-/

set_option autoImplicit false

namespace GuestBridge

/-- The call that an entry makes, unless it is one for a frame. -/
def Event.input? : Event → Option EntryPoint
  | .call (.animationFrame _) => none
  | .call entry => some entry
  | _ => none

theorem Event.input?_of_not_entry {e : Event} (h : e.isEntry = false) : e.input? = none := by
  cases e <;> first | rfl | cases h

theorem Event.Silent.inputs_eq {before after : Array Event} (h : Event.Silent before after) :
    after.toList.filterMap Event.input? = before.toList.filterMap Event.input? := by
  obtain ⟨events, he, hs⟩ := h
  have hnone : events.filterMap Event.input? = [] :=
    List.filterMap_eq_nil_iff.2 fun e hm => input?_of_not_entry (hs e hm)
  rw [he, List.filterMap_append, hnone, List.append_nil]

theorem InputEvent.isInput (event : InputEvent) :
    (Event.call event.entryPoint).input? = some event.entryPoint := by
  cases event <;> rfl

namespace Page

variable {S : Nat → Prop} {st : List Nat} {inner : Performer} {p q r : Page} {o : Nat}
  {xs : List EntryPoint} {ls : List Listener}

/-- The calls of guests so far, but for those for frames, in order. -/
def inputs (p : Page) : List EntryPoint := p.journal.toList.filterMap Event.input?

theorem inputs_note (e : Event) (p : Page) : (p.note e).inputs = p.inputs ++ e.input?.toList := by
  unfold inputs note
  rw [Array.toList_push, filterMap_concat]

/-! ## Guests that take no steps -/

/-- So far so many inputs came to the guests, these listeners are installed, and no steps are queued
for any guest. -/
structure Settled (xs : List EntryPoint) (ls : List Listener) (q : Page) : Prop where
  inputs : q.inputs = xs
  listeners : q.listeners = ls
  idle : q.guest.interludes.queue = []

namespace Settled

theorem note (h : Settled xs ls q) (e : Event) : Settled (xs ++ e.input?.toList) ls (q.note e) :=
  ⟨h.inputs ▸ q.inputs_note e, h.listeners, h.idle⟩

theorem aside (h : Settled xs ls q) {e : Event} (he : e.input? = none) :
    Settled xs ls (q.note e) := by
  have hnote := h.note e
  rwa [he, Option.toList_none, List.append_nil] at hnote

theorem upholds (inner : Performer) (o : Nat) : (platform inner o).Upholds (Settled xs ls) :=
  fun _ _ h hc => ⟨hc.journal.inputs_eq.trans h.inputs, h.listeners, h.idle⟩

theorem interlude_eq (h : Settled xs ls q) (inner : Performer) (o : Nat) (name : String) :
    interlude inner o name q = (none, { q with visits := ⟨o, name, q.holds o⟩ :: q.visits }) := by
  have htake : q.guest.interludes.take name = ([], q.guest.interludes) := by
    unfold Interludes.take
    rw [h.idle]
    rfl
  unfold interlude
  rw [htake]
  rfl

theorem alloc (len : UInt32) (q : Page) (h : Settled xs ls q) :
    Settled xs ls (alloc inner o len q).2 := by
  have hnote : Settled xs ls (q.note (.alloc len)) := h.aside rfl
  unfold Page.alloc
  rw [hnote.interlude_eq]
  simp only
  split <;> exact ⟨hnote.inputs, hnote.listeners, hnote.idle⟩

theorem call (inner : Performer) (h : Settled xs ls q) {entry : EntryPoint}
    (hx : q.exports o entry.exportName = true) :
    Settled (xs ++ (Event.call entry).input?.toList) ls (call inner o entry q).2 := by
  have hnote := h.note (.call entry)
  unfold Page.call
  simp only [hx, Bool.not_true, Bool.false_eq_true, if_false]
  rw [hnote.interlude_eq]
  simp only
  split <;> exact ⟨hnote.inputs, hnote.listeners, hnote.idle⟩

/-- A call for a frame is no input. -/
theorem call_frame (timestamp : Ieee.Double) (q : Page) (h : Settled xs ls q) :
    Settled xs ls (Page.call inner o (.animationFrame timestamp) q).2 := by
  cases hx : q.exports o (EntryPoint.animationFrame timestamp).exportName with
  | false =>
    unfold Page.call
    simp only [hx, Bool.not_false, if_true]
    exact h
  | true => simpa [Event.input?] using h.call inner hx

theorem callGuest (inner : Performer) (h : Settled xs ls q) (hc : Callable o q) {entry : EntryPoint}
    (he : (Event.call entry).input? = some entry) :
    Settled (xs ++ [entry]) ls ((platform inner o).callGuest entry q).2 := by
  have hcall := h.call inner (hc.exports entry)
  rw [he] at hcall
  rw [Platform.callGuest_of_running entry hc.running hc.attached]
  exact hcall

theorem forward (h : Settled xs ls q) (hc : Callable o q) (event : InputEvent) :
    Settled (xs ++ [event.entryPoint]) ls (forward inner o event q) := by
  have hcall := h.callGuest inner hc event.isInput
  have hd : (platform inner o).dispatchInput event =
    (platform inner o).callGuest event.entryPoint := rfl
  unfold Page.forward
  rw [hd]
  rcases hr : (platform inner o).callGuest event.entryPoint q with ⟨e | ⟨⟩, r⟩ <;> rw [hr] at hcall
  · exact hcall.aside rfl
  · exact hcall

end Settled

/-- The call that tells the guest of a text, if the text can be copied. -/
def tells? (inner : Performer) (o : Nat) (text : String) (q : Page) : Option EntryPoint :=
  match ((platform inner o).copyToGuest (Text.utf8 text) q).1 with
  | .ok (.copied ptr len) => some (.equation ptr len)
  | _ => none

theorem Settled.submitInput (hi : Follows S inner) (hq : q.Ready S st) (ho : Serves S q o)
    (h : Settled xs ls q) (hc : Callable o q) (input : Nat) :
    Settled (xs ++ (tells? inner o (q.script.text input) q).toList) ls
      (submitInput inner o input q) := by
  have hreached : Reached S st (fun _ => False) q
      ((platform inner o).copyToGuest (Text.utf8 (q.script.text input)) q).2 :=
    Reached.copyToGuest hi ho _ q (.refl hq)
  have hcopy := Platform.keeps_copyToGuest (upholds inner o).bears (Text.utf8 (q.script.text input))
    alloc q h
  have hsubmit : ((platform inner o).submitEquation (q.script.text input) q).2 = _ :=
    Platform.snd_submitEquation (q.script.text input) hc.running
  have htold : Settled (xs ++ (tells? inner o (q.script.text input) q).toList) ls
      ((platform inner o).submitEquation (q.script.text input) q).2 := by
    rw [hsubmit]
    unfold tells?
    rcases hr : (platform inner o).copyToGuest (Text.utf8 (q.script.text input)) q with
      ⟨e | copy, r⟩ <;> rw [hr] at hcopy hreached
    · simpa using hcopy
    · cases copy with
      | copied ptr len => exact hcopy.callGuest inner (hc.of_reached hreached) rfl
      | empty => simpa using Platform.log_keeps (upholds inner o) _ _ _ hcopy
  unfold Page.submitInput
  rcases hr : (platform inner o).submitEquation (q.script.text input) q with ⟨e | copy, r⟩ <;>
    rw [hr] at htold
  · exact htold.aside rfl
  · exact htold

/-! ## Frames -/

theorem Settled.frame (h : Settled xs ls q) (timestamp : Ieee.Double) :
    Settled xs ls (frame inner timestamp q).2 :=
  keeps_frame (P := Settled xs ls) (fun _ _ he h => h.aside (Event.input?_of_not_entry he))
    (fun _ _ _ _ h => ⟨h.inputs, h.listeners, h.idle⟩)
    (fun o => (Platform.meets_animationFrame (upholds inner o).bears timestamp (fun _ h => h)
      (call_frame timestamp)).keeps) h

/-! ## Events in a row -/

/-- The calls that an event is to bring about on a page, beside those for frames. -/
inductive Owes (o : Nat) (input : Option (String × Nat)) (q : Page) :
    PageStep → List EntryPoint → Prop
  | document {kind : String} {payload : Payload} {entry : EntryPoint}
      (he : documentCall? kind payload = some entry) :
      Owes o input q (.event "document" kind payload) [entry]
  | resize (payload : Payload) :
      Owes o input q (.event "window" "resize" payload)
        [.resize q.script.innerSize.1 q.script.innerSize.2]
  | enter {id : String} {place : Nat} {payload : Payload} (hinput : input = some (id, place))
      (he : payload.isEnter = true) :
      Owes o input q (.event id "keyup" payload)
        (tells? (q.performer (.event id "keyup" payload)) o (q.script.text place) q).toList
  | frame (timestamp : Ieee.Double) : Owes o input q (.frame timestamp) []

/-- The calls that events are to bring about one after another. -/
inductive OwesAll (o : Nat) (input : Option (String × Nat)) :
    Page → List PageStep → List EntryPoint → Prop
  | nil (q : Page) : OwesAll o input q [] []
  | cons {q : Page} {step : PageStep} {rest : List PageStep} {xs ys : List EntryPoint}
      (first : Owes o input q step xs) (later : OwesAll o input (perform step q).2 rest ys) :
      OwesAll o input q (step :: rest) (xs ++ ys)

/-- A page attends to a bridge whose guest takes no steps of its own. -/
structure Attends (o : Nat) (canvas : String) (input : Option (String × Nat)) (q : Page) :
    Prop where
  rest : q.AtRest
  installed : o < q.installations.length
  callable : Callable o q
  canvas : q.standing.HasCanvas o canvas
  listeners : q.listeners = listenersOf o input
  idle : q.guest.interludes.queue = []

section

variable {canvas : String} {input : Option (String × Nat)}

theorem Attends.settled_perform (h : Attends o canvas input q)
    (hid : input.map Prod.fst ≠ some "document") {step : PageStep}
    (hs : Owes o input q step xs) :
    Settled (q.inputs ++ xs) (listenersOf o input) (perform step q).2 := by
  have hq : Settled q.inputs (listenersOf o input) q := ⟨rfl, h.listeners, h.idle⟩
  cases hs with
  | document he =>
    obtain ⟨event, rfl, hp⟩ := perform_document h.listeners he fun _ => hid
    rw [hp]
    exact hq.forward h.callable event
  | resize payload =>
    have hfitted : Reached (fun _ => True) [] (fun _ => False) q
        (q.resizeCanvas canvas q.script.innerSize.1 q.script.innerSize.2) :=
      ((Reached.refl h.rest.ready).did _).did _
    rw [perform_resize h.listeners h.canvas payload]
    exact ((hq.aside rfl).aside rfl).forward (h.callable.of_reached hfitted) (.resize _ _)
  | enter hinput he =>
    have hne : _ ≠ "document" := fun h => hid (hinput ▸ congrArg some h)
    rw [perform_enter h.listeners hinput hne he]
    exact hq.submitInput (performer_follows _ _ q) h.rest.ready ⟨trivial, h.installed⟩ h.callable _
  | frame timestamp =>
    rw [List.append_nil]
    exact hq.frame timestamp

theorem Attends.perform (h : Attends o canvas input q)
    (hid : input.map Prod.fst ≠ some "document") {step : PageStep}
    (hs : Owes o input q step xs) : Attends o canvas input (perform step q).2 := by
  have hsettled := h.settled_perform hid hs
  have hreached := perform_reached step h.rest.ready
  exact
  { rest := atRest_perform h.rest step
    installed := Nat.lt_of_lt_of_le h.installed hreached.grows
    callable := h.callable.of_reached hreached
    canvas := hreached.later.hasCanvas h.canvas h.installed
    listeners := hsettled.listeners
    idle := hsettled.idle }

/-- A guest that takes no steps of its own is called for each event once, in the order in which the
events come. -/
theorem run_inputs (h : Attends o canvas input q) (hid : input.map Prod.fst ≠ some "document")
    {steps : List PageStep} (hs : OwesAll o input q steps xs) :
    (run steps q).inputs = q.inputs ++ xs := by
  induction hs with
  | nil q => exact (List.append_nil _).symm
  | @cons q step rest xs ys first later ih =>
    calc (run (step :: rest) q).inputs
        = (run rest (perform step q).2).inputs := rfl
      _ = (Page.perform step q).2.inputs ++ ys := ih (h.perform hid first)
      _ = q.inputs ++ (xs ++ ys) := by
        rw [(h.settled_perform hid first).inputs, List.append_assoc]

end

end Page

end GuestBridge
