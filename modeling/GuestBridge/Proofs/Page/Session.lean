import GuestBridge.Proofs.Page.Up

/-!
# Sessions on a page

Every step of a page is a way of the page, whatever steps the guests take in it
(`performFor_follows`), and so is a whole session, `Page.run`. From the fresh page on, the page is
therefore sound between any two steps (`atRest_run`), and a start either brings its bridge up or
leaves nothing of it (`perform_start`).
-/

set_option autoImplicit false

namespace GuestBridge

def Reply.isOk : Reply → Bool
  | ok _ => true
  | _ => false

namespace Page

variable {S : Nat → Prop} {st : List Nat} {again : Nat → Prop} {inner : Performer} {p q : Page}

/-! ## Steps -/

theorem Reached.start (hi : Follows S inner) (o : BridgeOptions) (h : Reached S st again p q) :
    Reached S st again p (start inner o q).2 := by
  have hstart := start_meets hi o h q rfl
  rcases hr : Page.start inner o q with ⟨_ | _, r⟩ <;> rw [hr] at hstart <;> exact hstart.1

theorem Reached.submit (hi : Follows S inner) (text : String) {x : PageHandle}
    (hx : q.handle = some x) (h : Reached S st again p q) :
    Reached S st again p (submit inner text x q).2 := by
  have hsubmit := h.trans (submitEquation hi (h.ready.serves_of_handle hx) text q (refl h.ready))
  unfold Page.submit
  split
  · rename_i copy r hr
    rwa [hr] at hsubmit
  · rename_i e r hr
    rwa [hr] at hsubmit

theorem snd_withHandle {P : Page → Prop} {f : PageHandle → Page → Reply × Page} (h : P q)
    (hf : ∀ x, q.handle = some x → P (f x q).2) : P (q.withHandle f).2 := by
  unfold withHandle
  split
  · rename_i x hx
    exact hf x hx
  · exact h

/-- With which options a step starts a bridge, if it does. -/
def startOptions? (p : Page) : PageStep → Option BridgeOptions
  | .start => some p.script.options
  | .startDefault => some {}
  | _ => none

theorem performWith_start {step : PageStep} {o : BridgeOptions} (inner : Performer)
    (h : p.startOptions? step = some o) :
    (performWith inner step p).2 = (Page.start inner o p).2 ∧
      (performWith inner step p).1.isOk = (Page.start inner o p).1.isOk := by
  cases step with
  | start | startDefault =>
    cases h
    simp only [performWith]
    split <;> rename_i hr <;> rw [hr] <;> exact ⟨rfl, rfl⟩
  | _ => cases h

theorem performWith_reached (hi : Follows S inner) (step : PageStep) (hp : p.Ready S st) :
    Reached S st (fun _ => False) p (performWith inner step p).2 := by
  have h : Reached S st (fun _ => False) p p := .refl hp
  cases step with
  | start =>
    have ho : p.startOptions? .start = some p.script.options := rfl
    rw [(performWith_start inner ho).1]
    exact h.start hi p.script.options
  | startDefault =>
    have ho : p.startOptions? .startDefault = some {} := rfl
    rw [(performWith_start inner ho).1]
    exact h.start hi {}
  | running => exact snd_withHandle h fun _ _ => h
  | submit text => exact snd_withHandle h fun x hx => h.submit hi text hx
  | shutdown => exact snd_withHandle h fun x hx => h.shutdown hx
  | drop => exact h.dropHandle.1
  | frame timestamp => exact h.frame hi timestamp
  | event target kind payload => exact h.dispatch hi target kind payload
  | settleImages => exact h.settleImages
  | runTasks => exact h.runTasks hi
  | runTimer => exact h.runTimer hi
  | runAll => exact h.runAll hi
  | importCall name args => exact h.callImport name args
  -- The other steps only tell the page how to behave.
  | _ => exact h.of_eq rfl (.refl p)

theorem performFor_follows (S : Nat → Prop) (depth : Nat) : Follows S (performFor depth) := by
  induction depth with
  | zero => exact fun st _ p hp => .refl hp
  | succ depth ih => exact fun st step p hp => performWith_reached ih step hp

/-- A step is performed down to a depth, whatever this is. -/
theorem exists_performer (step : PageStep) (p : Page) :
    ∃ depth, perform step p = performWith (performFor depth) step p :=
  ⟨_, rfl⟩

theorem perform_reached (step : PageStep) (hp : p.Ready S st) :
    Reached S st (fun _ => False) p (perform step p).2 :=
  performFor_follows S _ st step p hp

/-! ## Sessions -/

/-- Performs steps one after another. -/
def run (steps : List PageStep) (p : Page) : Page :=
  steps.foldl (fun p step => (perform step p).2) p

theorem run_append (steps more : List PageStep) (p : Page) :
    run (steps ++ more) p = run more (run steps p) :=
  List.foldl_append

theorem run_reached (steps : List PageStep) (hp : p.Ready S st) :
    Reached S st (fun _ => False) p (run steps p) := by
  have hrun : ∀ q, Reached S st (fun _ => False) p q →
      Reached S st (fun _ => False) p (run steps q) := by
    induction steps with
    | nil => exact fun _ h => h
    | cons step rest ih => exact fun q h => ih _ (h.trans (perform_reached step h.ready))
  exact hrun p (.refl hp)

theorem fresh_ready (memory : Nat) : (fresh memory).Ready (fun _ => True) [] where
  sound := {
    owned := by rintro o ⟨i, hi, -⟩; cases hi
    starting := nofun
    held := nofun
    looping := nofun
    listening := nofun
    silent := fun _ => rfl
    alive := by rintro loop l hl; cases hl
    requested := nofun
    once := .nil
    installed := nofun
    importer := nofun }
  handle := nofun
  starting := nofun
  entered := nofun
  fresh := fun _ _ => trivial
  prompt := nofun
  inTime := nofun
  timers := nofun

/-- A page between the steps of a session: no bridge is being brought up, and no guest is
entered. -/
structure AtRest (p : Page) : Prop where
  ready : p.Ready (fun _ => True) []
  entered : p.entered = []

/-- What can be come by between two steps is the bridge that is held, and new ones. -/
theorem AtRest.ready_of (h : p.AtRest) (hs : ∀ x, p.handle = some x → S x.owner)
    (hf : ∀ o, p.installations.length ≤ o → S o) : p.Ready S [] :=
  { h.ready with
    handle := hs
    starting := nofun
    entered := fun o ho => by
      rw [h.entered] at ho
      cases ho
    fresh := hf }

theorem atRest_run (h : p.AtRest) (steps : List PageStep) : (run steps p).AtRest := by
  have hrun := run_reached steps h.ready
  exact ⟨hrun.ready, hrun.entered.trans h.entered⟩

theorem atRest_perform (h : p.AtRest) (step : PageStep) : (perform step p).2.AtRest :=
  atRest_run h [step]

theorem atRest_fresh (memory : Nat) : (fresh memory).AtRest :=
  ⟨fresh_ready memory, rfl⟩

/-- A start that succeeds brings its bridge up, and one that fails leaves nothing of it. -/
theorem perform_start (h : p.AtRest) {step : PageStep} {options : BridgeOptions}
    (hstep : p.startOptions? step = some options) :
    ((perform step p).1.isOk = true → Started options p.installations.length (perform step p).2) ∧
      ((perform step p).1.isOk = false →
        Absent p.installations.length (perform step p).2.standing) := by
  obtain ⟨depth, he⟩ := exists_performer step p
  obtain ⟨hpage, hok⟩ := performWith_start (performFor depth) hstep
  have hp : Reached (fun _ => True) [] (fun _ => False) p p := .refl h.ready
  have hstart := start_meets (performFor_follows _ depth) options hp p rfl
  rw [he, hpage, hok]
  rcases hr : Page.start (performFor depth) options p with ⟨e | ⟨⟩, q⟩ <;> rw [hr] at hstart
  · exact ⟨nofun, fun _ => hstart.2⟩
  · exact ⟨fun _ => hstart.2, nofun⟩

end Page

end GuestBridge
