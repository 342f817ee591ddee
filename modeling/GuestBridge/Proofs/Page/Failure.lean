import GuestBridge.Proofs.Page.Session

/-!
# Starts that fail

A start can fail before its bridge has a place, before it has a guest, while the guest sets itself
up, or while its listeners and its frame loop are installed. Wherever it fails, nothing is left by
which the guest could be entered (`start_fails_clean`).
-/

set_option autoImplicit false

namespace GuestBridge.Page

variable {p : Page} {o : Nat}

/-- What a start that has failed leaves on the page `p`, where `o` is the place that its bridge was
to have: no listener and no frame request of that bridge. Its guest is not entered as the page goes
on, while bridges that others have brought up may be; if there are none, nobody is entered at all
before the next bridge is brought up. -/
structure LeftClean (o : Nat) (p : Page) : Prop where
  listeners : ∀ l ∈ p.listeners, l.owner ≠ o
  frames : ∀ r ∈ p.frames, ∃ l, p.loops[r.loop]? = some l ∧ l.owner ≠ o
  silent : o < p.installations.length → ∀ steps, Stays (· ≠ o) p (run steps p)
  idle : p.handle = none → ∀ steps,
    (run steps p).installations.length = p.installations.length →
      (run steps p).entries = p.entries

theorem leftClean_of_absent (h : p.AtRest) (ho : Absent o p.standing) : LeftClean o p where
  listeners l hl := by
    obtain ⟨x, _, hx, -, he⟩ := h.ready.sound.owner_of_listener hl
    exact he ▸ ho.handle x hx
  frames r hr := by
    obtain ⟨l, hl, -⟩ := h.ready.sound.requested r hr
    exact ⟨l, hl, ho.loops l (List.mem_of_getElem? hl)⟩
  silent hlt steps := by
    have hready : p.Ready (· ≠ o) [] :=
      h.ready_of (fun x => ho.handle x) fun _ hle => Nat.ne_of_gt (Nat.lt_of_lt_of_le hlt hle)
    exact (run_reached steps hready).stays
  idle hnone steps hlen := by
    have hready : p.Ready (p.installations.length ≤ ·) [] :=
      h.ready_of (fun x hx => by cases hnone.symm.trans hx) fun _ hle => hle
    exact (run_reached steps hready).stays.entries_eq fun _ hle => hlen ▸ hle

/-- After a start has failed, wherever it did, its bridge has no listener and no frame request on
the page, and its guest is not entered again, whatever the page does. -/
theorem start_fails_clean (memory : Nat) (steps : List PageStep) {step : PageStep}
    {options : BridgeOptions}
    (hstep : (run steps (fresh memory)).startOptions? step = some options)
    (hf : (perform step (run steps (fresh memory))).1.isOk = false) :
    LeftClean (run steps (fresh memory)).installations.length
      (perform step (run steps (fresh memory))).2 := by
  have hrest := atRest_run (atRest_fresh memory) steps
  exact leftClean_of_absent (atRest_perform hrest step) ((perform_start hrest hstep).2 hf)

/-- A page whose guest asks for an image while it sets itself up, and which then refuses a
listener. -/
def refusing : Page := run [
  .poke 0 (Text.utf8 "a.png"),
  .setImage "a.png" ⟨1, 1, [0, 0, 0, 0]⟩,
  .interlude "onInit" [.importCall "fetchBytes" [.number .zero, .number (.ofInt 5), .null]],
  .refuse "addEventListener mousemove" (.text "no more listeners")] (fresh 64)

/-- The guest has set itself up and waits for its image, but it will not be told of that. -/
theorem start_fails_clean_of_refusal :
    (perform .start refusing).2.entries.length = 1 ∧
      (perform .start refusing).2.loads.length = 1 ∧
      (perform .start refusing).2.handle = none ∧
      LeftClean 0 (perform .start refusing).2 := by
  have hstep : refusing.startOptions? .start = some {} := by decide +kernel
  exact ⟨by decide +kernel, by decide +kernel, by decide +kernel,
    start_fails_clean 64 _ hstep (by decide +kernel)⟩

end GuestBridge.Page
