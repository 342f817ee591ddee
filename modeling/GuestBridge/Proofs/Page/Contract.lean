import GuestBridge.Proofs.Page.Owed
import GuestBridge.Proofs.Page.Teardown

/-!
# What a session promises

Once a bridge has been started, the page forwards its events to the guest until the bridge is shut
down, and from then on none of them and no frame comes to it (`started_keeps_contract`). Guests may
take steps of any sort while they are called, bring bridges up and down among them, and whatever is
called may trap. A text that is being copied when the guest's allocator brings its own bridge down
still comes to the guest, though (`told_while_copying`).
-/

set_option autoImplicit false

namespace GuestBridge.Page

variable {p : Page} {st : List Nat} {o : Nat}

theorem callable_of_handle (hs : p.standing.Sound st) {h : PageHandle} (hh : p.handle = some h)
    (he : ∀ entry : EntryPoint, p.exports h.owner entry.exportName = true) :
    Callable h.owner p := by
  obtain ⟨-, hattached, hrunning⟩ := hs.held h hh
  obtain ⟨i, hi, ha⟩ := (exists_of_standing fun _ => Iff.rfl).1 hattached
  obtain ⟨j, hj, hr⟩ := (exists_of_standing fun _ => Iff.rfl).1 hrunning
  obtain rfl : i = j := Option.some.inj (hi.symm.trans hj)
  have hb : (p.core h.owner).bridge = i.bridge := by simp [core, hi]
  exact ⟨hb ▸ ha, hb ▸ hr, he⟩

/-- What a page promises that has come to hold the bridge `o`, with its canvas and its input. -/
structure Contract (o : Nat) (canvas : String) (input : Option (String × Nat)) (p : Page) :
    Prop where
  /-- The page holds the bridge until a shutdown. -/
  holds : ∀ more, (run more p).Holds o ∨ ShutsDown p (run more p)
  /-- As long as it does, it forwards its events. -/
  forwards : ∀ more, (run more p).Holds o → Forwards o canvas input (run more p)
  /-- A guest that takes no steps of its own is called for events one after another. -/
  inOrder : input.map Prod.fst ≠ some "document" → ∀ more, (run more p).Holds o →
    (run more p).guest.interludes.queue = [] → ∀ steps xs, OwesAll o input (run more p) steps xs →
      (run (more ++ steps) p).inputs = (run more p).inputs ++ xs
  /-- Within a step as well, guests are called for events and for frames only while the page holds
  their bridges. -/
  inTime : ∀ more, ∀ v ∈ (run more p).visits, v.InTime
  /-- Shutting down and letting go bring the bridge down. -/
  comesDown : ∀ more step, step = .shutdown ∨ step = .drop → ¬ (run (more ++ [step]) p).Holds o
  /-- They do so at once, whatever else is under way. -/
  atOnce : ∀ st q inner step, q.Ready (fun _ => True) st → step = .shutdown ∨ step = .drop →
    (∀ x, ¬ (performWith inner step q).2.Holds x) ∧ Gone o (performWith inner step q).2
  /-- When it has come down, it stays so, whatever the page does. -/
  staysDown : ∀ more, ¬ (run more p).Holds o → ∀ further, TornDown o (run (more ++ further) p)

theorem atOnce_of_ready {q : Page} (hq : q.Ready (fun _ => True) st) (inner : Performer) (o : Nat)
    {step : PageStep} (hs : step = .shutdown ∨ step = .drop) :
    (∀ x, ¬ (performWith inner step q).2.Holds x) ∧ Gone o (performWith inner step q).2 := by
  have hready : (performWith inner step q).2.Ready (fun _ => True) st := by
    -- Neither step is one that a guest takes part in.
    have hany : performWith inner step q = performWith (performFor 0) step q := by
      rcases hs with rfl | rfl <;> rfl
    rw [hany]
    exact (performWith_reached (performFor_follows _ 0) step hq).ready
  have hdown : ∀ x, ¬ (performWith inner step q).2.Holds x := by
    rcases hs with rfl | rfl
    · exact fun x => not_holds_shutdown inner x q
    · exact fun x => not_holds_drop inner x q
  exact ⟨hdown, gone_of_not_holds hready (hdown o)⟩

theorem contract_of_listeners {canvas : String} {input : Option (String × Nat)} (hp : p.AtRest)
    (hholds : p.Holds o) (he : ∀ entry : EntryPoint, p.exports o entry.exportName = true)
    (hcanvas : p.standing.HasCanvas o canvas) (hl : p.listeners = listenersOf o input) :
    Contract o canvas input p := by
  obtain ⟨loop, hh⟩ := hholds
  have hinstalled : o < p.installations.length := (hp.ready.serves_of_handle hh).installed
  have hcallable : Callable o p := callable_of_handle hp.ready.sound hh he
  have hrun : ∀ more, Reached (fun _ => True) [] (fun _ => False) p (run more p) := fun more =>
    run_reached more hp.ready
  have hattends : ∀ more, (run more p).Holds o → o < (run more p).installations.length ∧
      Callable o (run more p) ∧ (run more p).standing.HasCanvas o canvas ∧
      (run more p).listeners = listenersOf o input := fun more hq =>
    ⟨Nat.lt_of_lt_of_le hinstalled (hrun more).grows, hcallable.of_reached (hrun more),
      (hrun more).later.hasCanvas hcanvas hinstalled,
      ((hrun more).holds_of_holds hinstalled hq).2.trans hl⟩
  refine ⟨fun more => (hrun more).held o ⟨loop, hh⟩, fun more hq => ?_,
    fun hid more hq hidle steps xs hs => ?_, fun more => (hrun more).ready.inTime,
    fun more step hs => ?_, fun st q inner step hq hs => atOnce_of_ready hq inner o hs,
    fun more hn further => ?_⟩
  · obtain ⟨hi, hc, hcanvas, hl⟩ := hattends more hq
    exact forwards_of_listeners (hrun more).ready hq hc hcanvas hl
  · obtain ⟨hi, hc, hcanvas, hl⟩ := hattends more hq
    rw [run_append]
    exact run_inputs ⟨atRest_run hp more, hi, hc, hcanvas, hl, hidle⟩ hid hs
  · rw [run_append]
    exact (atOnce_of_ready (hrun more).ready ((run more p).performer step) o hs).1 o
  · have hrest := atRest_run hp more
    have hlater := run_reached further hrest.ready
    have hi : o < (run more p).installations.length :=
      Nat.lt_of_lt_of_le hinstalled (hrun more).grows
    rw [run_append]
    exact tornDown_of_not_holds (atRest_run hrest further) (Nat.lt_of_lt_of_le hi hlater.grows)
      fun hq => hn (hlater.holds_of_holds hi hq).1

/-- When a bridge has been started whose guest has every export, the page keeps its contract: until
the bridge comes down, each event of the keyboard, the mouse and the window, and each text entered
in the input that can be copied, calls the guest once; from then on no event and no frame does, but
for a text whose copy was under way, and no listener, no callback and no request of the bridge is
left. -/
theorem started_keeps_contract (memory : Nat) (steps : List PageStep) {step : PageStep}
    {options : BridgeOptions}
    (hstep : (run steps (fresh memory)).startOptions? step = some options)
    (hok : (perform step (run steps (fresh memory))).1.isOk = true)
    (he : ∀ entry : EntryPoint, (perform step (run steps (fresh memory))).2.exports
      (run steps (fresh memory)).installations.length entry.exportName = true) :
    ∃ input, input.map Prod.fst = options.equationInputId ∧
      Contract (run steps (fresh memory)).installations.length options.canvasId input
        (perform step (run steps (fresh memory))).2 := by
  have hrest := atRest_run (atRest_fresh memory) steps
  obtain ⟨hholds, ⟨input, hl, hinput⟩, hcanvas⟩ := (perform_start hrest hstep).1 hok
  exact ⟨input, hinput,
    contract_of_listeners (atRest_perform hrest step) hholds he hcanvas hl⟩

/-- A page whose guest traps on every key that is pressed. -/
def trapping : Page := run [.throwFrom "onKeyDown" (.text "unreachable")] (fresh 64)

theorem started_keeps_contract_of_trap :
    (perform .start trapping).1.isOk = true ∧
      (∀ entry : EntryPoint, (perform .start trapping).2.exports 0 entry.exportName = true) ∧
      ∃ input, input.map Prod.fst = some "equation-input" ∧
        Contract 0 "webgl" input (perform .start trapping).2 := by
  have hok : (perform .start trapping).1.isOk = true := by decide +kernel
  have hexports : (perform .start trapping).2.installations.map (·.hidden) = [[]] := by
    decide +kernel
  have he : ∀ entry : EntryPoint,
      (perform .start trapping).2.exports 0 entry.exportName = true := by
    intro entry
    unfold exports
    rcases hi : (perform .start trapping).2.installations with _ | ⟨i, rest⟩ <;>
      rw [hi] at hexports
    · cases hexports
    · obtain ⟨hhidden, -⟩ := List.cons.inj hexports
      simp only [List.getElem?_cons_zero]
      rw [show i.hidden = [] from hhidden]
      rfl
  have hstep : trapping.startOptions? .start = some {} := by decide +kernel
  exact ⟨hok, he, started_keeps_contract 64 _ hstep hok he⟩

/-! ## Coming down within an event -/

/-- What a bridge logs, what a step of a guest has come to if that is nothing, and which export is
called. -/
def mark? : Event → Option String
  | .log r => if r.target = Log.Target.bridge then some r.text else none
  | .nested (.ok .nothing) => some "nothing"
  | .call entry => some entry.exportName
  | _ => none

/-- While the text of an Enter is copied, the guest's allocator shuts the bridge down. The shutdown
has come back when the guest is told of the copy. -/
theorem told_while_copying :
    let p := run [.start, .setText "equation-input" "x", .interlude "_wasm_alloc" [.shutdown]]
      (fresh 64)
    let q := (perform (.event "equation-input" "keyup" (.key 13 false "Enter")) p).2
    p.handle = some ⟨0, some 0⟩ ∧ q.handle = some ⟨0, none⟩ ∧
      q.visits.head? = some ⟨0, "onEquation", false⟩ ∧
      q.journal.toList.filterMap mark? = ["onInit", "guest initialized at 640x480",
        "bridge shut down", "nothing", "onEquation"] := by
  decide +kernel

end GuestBridge.Page
