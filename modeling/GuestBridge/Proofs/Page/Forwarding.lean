import GuestBridge.Proofs.Page.Session

/-!
# Forwarding

While the listeners of a running bridge are installed, each of its events enters the guest once,
with the values of the event (`forwards_of_listeners`). What else is entered meanwhile is entered by
the guest's own steps, within that call. `Callable` is what a bridge has as soon as it runs with a
guest that has every export; the page never takes it back.
-/

set_option autoImplicit false

namespace GuestBridge

namespace Platform

variable {σ G : Type} {pl : Platform σ G} {s : σ}

theorem callGuest_of_running (entry : EntryPoint) (hp : (pl.core s).bridge.phase = .running)
    (ha : (pl.core s).bridge.attached = true) :
    pl.callGuest entry s = ((pl.call entry s).1.mapError .guest, (pl.call entry s).2) := by
  have hb : pl.bridge s = (.ok (pl.core s).bridge, s) := rfl
  have hadmits : (pl.core s).bridge.admits entry = true := by simp [Bridge.admits, hp]
  unfold callGuest
  rw [Attempt.bind_of_ok hb, if_neg (by simp [hadmits]), if_neg (by simp [ha])]
  rfl

/-- Handing over a text is copying it and then telling the guest of it. -/
theorem snd_submitEquation (text : String) (hp : (pl.core s).bridge.phase = .running) :
    (pl.submitEquation text s).2 =
      match pl.copyToGuest (Text.utf8 text) s with
      | (.ok (.copied ptr len), t) => (pl.callGuest (.equation ptr len) t).2
      | (.ok .empty, t) =>
        pl.log .error Log.Target.bridge "error copying equation to the guest: empty input" t
      | (.error _, t) => t := by
  have hb : pl.bridge s = (.ok (pl.core s).bridge, s) := rfl
  unfold submitEquation
  rw [Attempt.bind_of_ok hb, if_neg (by simp [hp])]
  rcases hr : pl.copyToGuest (Text.utf8 text) s with ⟨e | copy, t⟩
  · rw [Attempt.bind_of_error hr]
  · rw [Attempt.bind_of_ok hr]
    cases copy with
    | copied ptr len => exact Attempt.snd_bind_pure _ _ _
    | empty => rfl

end Platform

namespace Page

variable {S : Nat → Prop} {st : List Nat} {again : Nat → Prop} {inner : Performer} {p q r : Page}
  {o : Nat}

/-! ## Callable guests -/

/-- The bridge runs, and its guest has every export. -/
structure Callable (o : Nat) (q : Page) : Prop where
  attached : (q.core o).bridge.attached = true
  running : (q.core o).bridge.phase = .running
  exports : ∀ entry : EntryPoint, q.exports o entry.exportName = true

theorem exists_of_standing {P : Installation → Prop} (hP : ∀ i, P i.outline ↔ P i) :
    (∃ i, q.standing.installations[o]? = some i ∧ P i) ↔
      ∃ i, q.installations[o]? = some i ∧ P i := by
  simp only [standing, List.getElem?_map]
  rcases q.installations[o]? with _ | i
  · simp
  · simp [hP]

theorem canvasId_of_hasCanvas {canvas : String} (h : q.standing.HasCanvas o canvas) :
    q.canvasId o = canvas := by
  obtain ⟨i, hi, rfl⟩ := (exists_of_standing fun _ => Iff.rfl).1 h
  simp [canvasId, hi]

theorem callable_iff : Callable o q ↔ ∃ i, q.standing.installations[o]? = some i ∧
    i.bridge.attached = true ∧ i.bridge.phase = .running ∧
    ∀ entry : EntryPoint, i.hidden.contains entry.exportName = false := by
  rw [exists_of_standing fun _ => Iff.rfl]
  constructor
  · rintro ⟨ha, hr, he⟩
    unfold core at ha hr
    unfold exports at he
    rcases hi : q.installations[o]? with _ | i <;> simp only [hi] at ha hr he
    · cases ha
    · exact ⟨i, rfl, ha, hr, fun entry => by simpa using he entry⟩
  · rintro ⟨i, hi, ha, hr, he⟩
    have hb : (q.core o).bridge = i.bridge := by simp [core, hi]
    refine ⟨hb ▸ ha, hb ▸ hr, fun entry => ?_⟩
    unfold exports
    rw [hi]
    simp only [he entry, Bool.not_false]

theorem Callable.of_reached (hc : Callable o q) (h : Reached S st again q r) : Callable o r := by
  obtain ⟨i, hi, ha, hr, he⟩ := callable_iff.1 hc
  have hlt := (List.getElem?_eq_some_iff.1 hi).1
  obtain ⟨j, hj, hij⟩ := h.later.kept o (length_standing q ▸ hlt) i hi
  exact callable_iff.2 ⟨j, hj, hij.attached ha, hij.running hr, hij.hidden ▸ he⟩

/-! ## Entering once -/

/-- The page once a guest has been called and has taken its steps. -/
def called (inner : Performer) (o : Nat) (entry : EntryPoint) (q : Page) : Page :=
  { (takeSteps inner (q.guest.interludes.take entry.exportName).1
      (q.enter o (.call entry) entry.exportName)).2 with entered := q.entered }

/-- The guest of a bridge is entered by a call of an entry point. Whatever else is entered on the
way is entered by the steps that the guest takes in that call. -/
structure EntersOnce (inner : Performer) (o : Nat) (entry : EntryPoint) (q r : Page) : Prop where
  first : q.journal.toList ++ [.call entry] <+: r.journal.toList
  only : Quiet (called inner o entry q) r

theorem EntersOnce.quiet {entry : EntryPoint} (h : EntersOnce inner o entry q r) (ht : Quiet r p) :
    EntersOnce inner o entry q p :=
  ⟨h.first.trans ht.journal, h.only.trans ht⟩

theorem called_first (hi : Follows S inner) (hq : q.Ready S st) (ho : Serves S q o)
    {entry : EntryPoint} (ht : IsEventExport entry.exportName → q.Holds o) :
    q.journal.toList ++ [.call entry] <+: (called inner o entry q).journal.toList := by
  have hentered : Reached S st (fun _ => False) (q.enter o (.call entry) entry.exportName)
      (q.enter o (.call entry) entry.exportName) := .refl (Reached.enter hq ho _ ht)
  have hin := hentered.takeSteps hi (q.guest.interludes.take entry.exportName).1
  exact Array.toList_push ▸ hin.stays.journal

theorem callGuest_enters (hi : Follows S inner) (hq : q.Ready S st) (ho : Serves S q o)
    (hc : Callable o q) {entry : EntryPoint} (ht : IsEventExport entry.exportName → q.Holds o) :
    EntersOnce inner o entry q ((platform inner o).callGuest entry q).2 := by
  have hexports : q.exports o entry.exportName = true := hc.exports entry
  have honly : Quiet (called inner o entry q) (call inner o entry q).2 := by
    unfold call
    simp only [hexports, Bool.not_true, Bool.false_eq_true, if_false]
    rw [interlude_note]
    unfold called
    rcases (takeSteps inner _ _).1 with _ | thrown
    · simp only
      split <;> exact .refl _
    · exact .refl _
  rw [Platform.callGuest_of_running entry hc.running hc.attached]
  exact ⟨(called_first hi hq ho ht).trans honly.journal, honly⟩

theorem forward_enters (hi : Follows S inner) (hq : q.Ready S st) (ho : q.Holds o)
    (hc : Callable o q) (event : InputEvent) :
    EntersOnce inner o event.entryPoint q (forward inner o event q) := by
  have h : EntersOnce inner o event.entryPoint q
      ((platform inner o).callGuest event.entryPoint q).2 :=
    callGuest_enters hi hq (hq.serves_of_holds ho) hc fun _ => ho
  have hd : (platform inner o).dispatchInput event =
    (platform inner o).callGuest event.entryPoint := rfl
  unfold forward
  rw [hd]
  rcases hr : (platform inner o).callGuest event.entryPoint q with ⟨e | ⟨⟩, r⟩ <;> rw [hr] at h
  · exact h.quiet (.note rfl r)
  · exact h

/-! ## Texts -/

theorem Reached.copyToGuest (hi : Follows S inner) (ho : Serves S p o) (bytes : List UInt8) :
    Attempt.Keeps (Reached S st again p) ((platform inner o).copyToGuest bytes) :=
  Platform.keeps_copyToGuest (upholds p inner o).bears bytes
    fun len q h => platform_alloc hi ho len q h

/-- A text is handed over from one page to another: if it can be copied into the guest, the guest is
told of the copy, and if not, that is all. -/
def HandsOver (inner : Performer) (o : Nat) (text : String) (q r : Page) : Prop :=
  match (platform inner o).copyToGuest (Text.utf8 text) q with
  | (.ok (.copied ptr len), copied) => EntersOnce inner o (.equation ptr len) copied r
  | (_, tried) => Quiet tried r

theorem submitInput_handsOver (hi : Follows S inner) (hq : q.Ready S st) (ho : Serves S q o)
    (hc : Callable o q) (input : Nat) :
    HandsOver inner o (q.script.text input) q (submitInput inner o input q) := by
  have hcopy : Reached S st (fun _ => False) q
      ((platform inner o).copyToGuest (Text.utf8 (q.script.text input)) q).2 :=
    Reached.copyToGuest hi ho _ q (.refl hq)
  have hquiet : Quiet ((platform inner o).submitEquation (q.script.text input) q).2
      (submitInput inner o input q) := by
    unfold submitInput
    rcases (platform inner o).submitEquation (q.script.text input) q with ⟨e | copy, r⟩
    · exact .note rfl r
    · exact .refl r
  have hsubmit : ((platform inner o).submitEquation (q.script.text input) q).2 = _ :=
    Platform.snd_submitEquation (q.script.text input) hc.running
  rw [hsubmit] at hquiet
  unfold HandsOver
  rcases hr : (platform inner o).copyToGuest (Text.utf8 (q.script.text input)) q with
    ⟨e | copy, r⟩ <;> rw [hr] at hcopy hquiet
  · exact hquiet
  · cases copy with
    | copied ptr len =>
      have hn : ¬ IsEventExport (EntryPoint.equation ptr len).exportName :=
        not_isEventExport (by simp [EntryPoint.exportName])
      exact (callGuest_enters hi hcopy.ready (Reached.serves ho hcopy) (hc.of_reached hcopy)
        fun hname => absurd hname hn).quiet hquiet
    | empty => exact .trans (.withCore (.log _ _ _ _)) hquiet

/-! ## Events -/

/-- An event with one listener. -/
theorem dispatch_of_single {target kind : String} {l : Listener}
    (hl : (q.listeners.filter fun l => l.target = target && l.kind = kind) = [l])
    (payload : Payload) :
    (dispatch inner target kind payload q).2 = react inner payload l q := by
  have hm : l ∈ q.listeners := (List.mem_filter.1 (hl ▸ List.mem_singleton_self l)).1
  unfold dispatch
  rw [hl]
  simp [reactAll, hm]

/-- Each event of the document and the window has one listener of a bridge, unless it is the release
of a key on an input of that name. -/
theorem due_listeners {input : Option (String × Nat)} {l : Listener} (hl : l ∈ listenersOf o none)
    (hid : l.kind = "keyup" → input.map Prod.fst ≠ some l.target) :
    ((listenersOf o input).filter fun m => m.target = l.target && m.kind = l.kind) = [l] := by
  simp only [listenersOf, Option.toList, List.map_nil, List.append_nil, List.mem_cons,
    List.not_mem_nil, or_false] at hl
  rcases input with _ | ⟨id, place⟩
  · rcases hl with rfl | rfl | rfl | rfl | rfl | rfl <;> rfl
  · rcases hl with rfl | rfl | rfl | rfl | rfl | rfl <;>
      simp_all [listenersOf]

theorem due_input {id : String} {place : Nat} (hid : id ≠ "document") :
    ((listenersOf o (some (id, place))).filter fun m => m.target = id && m.kind = "keyup") =
      [⟨o, id, "keyup", .submit place⟩] := by
  simp [listenersOf, Ne.symm hid]

/-- The release of a key on an input that is called like the document. -/
theorem due_shared (o place : Nat) :
    ((listenersOf o (some ("document", place))).filter fun m =>
      m.target = "document" && m.kind = "keyup") =
      [⟨o, "document", "keyup", .keyUp⟩, ⟨o, "document", "keyup", .submit place⟩] := by
  simp [listenersOf]

/-- The call that an event of the document brings about, if it is one of the keyboard or the
mouse. -/
def documentCall? : String → Payload → Option EntryPoint
  | "keydown", .key code repeated _ => some (.keyDown code true repeated)
  | "keyup", .key code _ _ => some (.keyUp code false)
  | "mousedown", .mouse button x y => some (.mouseDown (Payload.pageButton button) x y)
  | "mouseup", .mouse button x y => some (.mouseUp (Payload.pageButton button) x y)
  | "mousemove", .mouse _ x y => some (.mouseMove x y)
  | _, _ => none

/-- How the steps that guests take during a step are performed. -/
def performer (step : PageStep) (q : Page) : Performer :=
  performFor (q.guest.interludes.weight PageStep.totalWeight + step.weight)

theorem performer_follows (S : Nat → Prop) (step : PageStep) (q : Page) :
    Follows S (q.performer step) :=
  performFor_follows S _

section

variable {input : Option (String × Nat)} (hl : q.listeners = listenersOf o input)

include hl

theorem perform_listener {l : Listener} (hm : l ∈ listenersOf o none)
    (hid : l.kind = "keyup" → input.map Prod.fst ≠ some l.target) (payload : Payload) :
    (perform (.event l.target l.kind payload) q).2 =
      react (q.performer (.event l.target l.kind payload)) payload l q :=
  dispatch_of_single (hl ▸ due_listeners hm hid) payload

theorem perform_document {kind : String} {payload : Payload} {entry : EntryPoint}
    (he : documentCall? kind payload = some entry)
    (hid : kind = "keyup" → input.map Prod.fst ≠ some "document") :
    ∃ event : InputEvent, event.entryPoint = entry ∧
      (perform (.event "document" kind payload) q).2 =
        forward (q.performer (.event "document" kind payload)) o event q := by
  have hone : ∀ reaction, ⟨o, "document", kind, reaction⟩ ∈ listenersOf o none →
      (perform (.event "document" kind payload) q).2 =
        react (q.performer (.event "document" kind payload)) payload
          ⟨o, "document", kind, reaction⟩ q := fun _ hm => perform_listener hl hm hid payload
  unfold documentCall? at he
  split at he
  · cases he
    exact ⟨.keyDown _ _, rfl, hone .keyDown (by simp [listenersOf])⟩
  · cases he
    exact ⟨.keyUp _, rfl, hone .keyUp (by simp [listenersOf])⟩
  · cases he
    exact ⟨.mouseDown _ _ _, rfl, hone .mouseDown (by simp [listenersOf])⟩
  · cases he
    exact ⟨.mouseUp _ _ _, rfl, hone .mouseUp (by simp [listenersOf])⟩
  · cases he
    exact ⟨.mouseMove _ _, rfl, hone .mouseMove (by simp [listenersOf])⟩
  · cases he

theorem perform_resize {canvas : String} (hc : q.standing.HasCanvas o canvas) (payload : Payload) :
    (perform (.event "window" "resize" payload) q).2 =
      forward (q.performer (.event "window" "resize" payload)) o
        (.resize q.script.innerSize.1 q.script.innerSize.2)
        (q.resizeCanvas canvas q.script.innerSize.1 q.script.innerSize.2) := by
  have hm : (⟨o, "window", "resize", .resize⟩ : Listener) ∈ listenersOf o none := by
    simp [listenersOf]
  rw [perform_listener hl hm (by simp) payload, ← canvasId_of_hasCanvas hc]
  rfl

theorem perform_enter {id : String} {place : Nat} {payload : Payload}
    (hinput : input = some (id, place)) (hid : id ≠ "document") (he : payload.isEnter = true) :
    (perform (.event id "keyup" payload) q).2 =
      submitInput (q.performer (.event id "keyup" payload)) o place q := by
  subst hinput
  have hsingle : (perform (.event id "keyup" payload) q).2 =
      react (q.performer (.event id "keyup" payload)) payload ⟨o, id, "keyup", .submit place⟩ q :=
    dispatch_of_single (hl ▸ due_input hid) payload
  rw [hsingle]
  unfold react
  simp only [he, if_true]

theorem perform_shared {place : Nat} (hinput : input = some ("document", place)) (code : UInt32)
    (repeated : Bool) (key : String) :
    (perform (.event "document" "keyup" (.key code repeated key)) q).2 =
      reactAll (q.performer (.event "document" "keyup" (.key code repeated key)))
        (.key code repeated key) [⟨o, "document", "keyup", .submit place⟩]
        (forward (q.performer (.event "document" "keyup" (.key code repeated key))) o
          (.keyUp code) q) := by
  subst hinput
  have hm : q.listeners.contains ⟨o, "document", "keyup", .keyUp⟩ = true := by
    simp [hl, listenersOf]
  show (dispatch _ "document" "keyup" _ q).2 = _
  unfold dispatch
  rw [hl, due_shared]
  show reactAll _ _
    [⟨o, "document", "keyup", .keyUp⟩, ⟨o, "document", "keyup", .submit place⟩] q = _
  rw [reactAll]
  simp only [hm, if_true]
  rfl

end

/-- The page forwards its events to the guest of a bridge: those of the keyboard and the mouse, the
window's resizing, for which the canvas has just been fitted to the window, and the texts that are
entered in the input. -/
structure Forwards (o : Nat) (canvas : String) (input : Option (String × Nat)) (q : Page) :
    Prop where
  document : ∀ kind payload entry, documentCall? kind payload = some entry →
    (kind = "keyup" → input.map Prod.fst ≠ some "document") →
    EntersOnce (q.performer (.event "document" kind payload)) o entry q
      (perform (.event "document" kind payload) q).2
  resize : ∀ payload,
    EntersOnce (q.performer (.event "window" "resize" payload)) o
      (.resize q.script.innerSize.1 q.script.innerSize.2)
      (q.resizeCanvas canvas q.script.innerSize.1 q.script.innerSize.2)
      (perform (.event "window" "resize" payload) q).2
  enter : ∀ id place payload, input = some (id, place) → id ≠ "document" →
    payload.isEnter = true →
    HandsOver (q.performer (.event id "keyup" payload)) o (q.script.text place) q
      (perform (.event id "keyup" payload) q).2
  /-- Where the input is called like the document, the release of a key comes to both. -/
  shared : ∀ place code repeated key, input = some ("document", place) →
    ∃ r, EntersOnce (q.performer (.event "document" "keyup" (.key code repeated key))) o
        (.keyUp code false) q r ∧
      if key = "Enter" ∧ ⟨o, "document", "keyup", .submit place⟩ ∈ r.listeners then
        HandsOver (q.performer (.event "document" "keyup" (.key code repeated key))) o
          (r.script.text place) r (perform (.event "document" "keyup" (.key code repeated key)) q).2
      else (perform (.event "document" "keyup" (.key code repeated key)) q).2 = r

theorem forwards_of_listeners (hq : q.Ready S st) (ho : q.Holds o) (hc : Callable o q)
    {canvas : String} (hcanvas : q.standing.HasCanvas o canvas) {input : Option (String × Nat)}
    (hl : q.listeners = listenersOf o input) : Forwards o canvas input q where
  document kind payload entry he hid := by
    obtain ⟨event, rfl, hp⟩ := perform_document hl he hid
    rw [hp]
    exact forward_enters (performer_follows S _ q) hq ho hc event
  resize payload := by
    have hfitted : Reached S st (fun _ => False) q
        (q.resizeCanvas canvas q.script.innerSize.1 q.script.innerSize.2) :=
      ((Reached.refl hq).did _).did _
    rw [perform_resize hl hcanvas payload]
    exact forward_enters (performer_follows S _ q) hfitted.ready ho (hc.of_reached hfitted)
      (.resize _ _)
  enter id place payload hinput hid he := by
    rw [perform_enter hl hinput hid he]
    exact submitInput_handsOver (performer_follows S _ q) hq (hq.serves_of_holds ho) hc place
  shared place code repeated key hinput := by
    have hi := performer_follows S (.event "document" "keyup" (.key code repeated key)) q
    have hserves := hq.serves_of_holds ho
    have hforward : Reached S st (fun _ => False) q _ :=
      Reached.forward hi hserves ho (.keyUp code) (.refl hq)
    refine ⟨_, forward_enters hi hq ho hc (.keyUp code), ?_⟩
    rw [perform_shared hl hinput code repeated key]
    generalize forward _ o (.keyUp code) q = r at hforward ⊢
    unfold reactAll
    split
    · rename_i hdue
      have hlistens : r.listeners.contains ⟨o, "document", "keyup", .submit place⟩ = true := by
        simpa using hdue.2
      simp only [hlistens, if_true]
      unfold react
      simp only [Payload.isEnter, hdue.1, decide_true, if_true]
      exact submitInput_handsOver hi hforward.ready (Reached.serves hserves hforward)
        (hc.of_reached hforward) place
    · rename_i hdue
      split
      · rename_i hlistens
        have hkey : key ≠ "Enter" := fun he => hdue ⟨he, by simpa using hlistens⟩
        unfold react
        simp [Payload.isEnter, hkey, reactAll]
      · rfl

end Page

end GuestBridge
