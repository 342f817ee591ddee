import GuestBridge.Proofs.Page.Session

/-!
# Teardown

A page holds a bridge from the end of its start until it is shut down, let go or replaced, and never
again after that, whoever takes the steps (`Reached.holds_of_holds`). A bridge that is not held has
no listener, no callback and no request (`Gone`), and neither events nor frames enter its guest
(`TornDown`).
-/

set_option autoImplicit false

namespace GuestBridge

/-- Whether a step lets something come to the listeners or to the frame loops of a page. -/
def PageStep.isEvent : PageStep → Bool
  | event .. | frame _ => true
  | _ => false

namespace Page

variable {S : Nat → Prop} {st : List Nat} {again : Nat → Prop} {inner : Performer} {p q : Page}
  {o : Nat}

/-! ## Holding a bridge -/

theorem not_holds_shutdown (inner : Performer) (o : Nat) (q : Page) :
    ¬ (performWith inner .shutdown q).2.Holds o := by
  rintro ⟨loop, h⟩
  simp only [performWith, withHandle] at h
  split at h
  · cases h
  · rename_i hnone
    rw [hnone] at h
    cases h

theorem not_holds_drop (inner : Performer) (o : Nat) (q : Page) :
    ¬ (performWith inner .drop q).2.Holds o := by
  rintro ⟨loop, h⟩
  have hnone : q.dropHandle.handle = none := by
    unfold dropHandle
    split
    · rename_i x _
      obtain ⟨_, -, hs⟩ := (stop_stopped x { q with handle := none }).standing
      exact congrArg Standing.handle hs
    · assumption
  cases hnone.symm.trans h

/-- A page does not come to hold a bridge that it did not hold, and as long as it does, the
listeners stay. -/
theorem Reached.holds_of_holds (h : Reached S st again p q) (ho : o < p.installations.length)
    (hq : q.Holds o) : p.Holds o ∧ q.listeners = p.listeners := by
  obtain ⟨loop, hloop⟩ := hq
  rcases h.later.handle _ hloop with hnew | ⟨x, hp, hown, hkept⟩
  · exact absurd ho (Nat.not_lt_of_le hnew)
  · rcases hkept with hnone | ⟨hx, hl⟩
    · cases hnone
    · have hx : x = ⟨o, some loop⟩ := by
        cases x
        cases hown
        cases hx
        rfl
      exact ⟨⟨loop, hx ▸ hp⟩, hl⟩

/-! ## Nothing goes on -/

/-- Callbacks that no longer exist. -/
theorem runFrames_dead (timestamp : Ieee.Double) (rs : List FrameRequest)
    (hq : ∀ loop, ¬ q.HasCallback loop) :
    ∃ journal, runFrames inner timestamp rs q = { q with journal } ∧
      Event.Silent q.journal journal := by
  induction rs generalizing q with
  | nil => exact ⟨q.journal, rfl, .refl _⟩
  | cons r rest ih =>
    have hdead : (q.loops[r.loop]?).filter (·.alive) = none := by
      rcases hl : q.loops[r.loop]? with _ | l
      · rfl
      · refine Option.filter_eq_none_iff.2 fun m hm ha => hq r.loop ⟨l, hl, ?_⟩
        cases hm
        exact ha
    have hfirst : runFrame inner timestamp r q = q.did .uncaught := by
      unfold runFrame
      rw [hdead]
    obtain ⟨journal, he, hj⟩ := ih (q := q.did .uncaught) hq
    refine ⟨journal, ?_, .trans (.push rfl _) hj⟩
    unfold runFrames
    rw [hfirst, he]
    rfl

/-- On a page that holds no bridge, or one that is shut down, events have no listeners, and frames
find no callback. -/
theorem performWith_of_not_holds (inner : Performer) (hq : q.Ready S st) (hn : ∀ o, ¬ q.Holds o)
    {step : PageStep} (he : step.isEvent = true) :
    ∃ frames journal, (performWith inner step q).2 = { q with frames, journal } ∧
      Event.Silent q.journal journal := by
  cases step with
  | event target kind payload =>
    have hnone : q.listeners = [] :=
      List.eq_nil_iff_forall_not_mem.2 fun l hl => hn l.owner (hq.holds_of_listener hl)
    refine ⟨q.frames, q.journal, ?_, .refl _⟩
    show (dispatch inner target kind payload q).2 = q
    unfold dispatch
    rw [hnone]
    rfl
  | frame timestamp =>
    have hdead : ∀ loop, ¬ ({ q with frames := [] } : Page).HasCallback loop :=
      fun loop ⟨l, hl, ha⟩ => hn l.owner (hq.holds_of_loop hl ha)
    obtain ⟨journal, hrun, hj⟩ := runFrames_dead timestamp q.frames hdead
    exact ⟨[], journal, hrun, hj⟩
  | _ => cases he

theorem run_of_not_holds (hq : q.Ready S []) (hn : ∀ o, ¬ q.Holds o) {steps : List PageStep}
    (he : ∀ step ∈ steps, step.isEvent = true) : Quiet q (run steps q) := by
  induction steps generalizing q with
  | nil => exact .refl q
  | cons step rest ih =>
    obtain ⟨depth, hdepth⟩ := exists_performer step q
    obtain ⟨frames, journal, hp, hj⟩ :=
      performWith_of_not_holds (performFor depth) hq hn (he step (.head _))
    have hstep : (perform step q).2 = { q with frames, journal } := by rw [hdepth, hp]
    have hnext : ∀ o, ¬ (perform step q).2.Holds o := by
      rw [hstep]
      exact hn
    have hquiet : Quiet q (perform step q).2 := by
      rw [hstep]
      exact .of_silent rfl rfl rfl hj
    exact hquiet.trans
      (ih (perform_reached step hq).ready hnext fun step hm => he step (.tail _ hm))

/-! ## Torn down -/

/-- A bridge that came down has left nothing on the page: no listener, no callback of a frame loop,
and no request that the page has not refused to take back. As long as no other bridge is held,
events and frames come to nobody, also while guests are called. -/
structure Gone (o : Nat) (q : Page) : Prop where
  listeners : ∀ l ∈ q.listeners, l.owner ≠ o
  callbacks : ∀ l ∈ q.loops, l.owner = o → l.alive = false
  requests : ∀ r ∈ q.frames, (∃ l, q.loops[r.loop]? = some l ∧ l.owner ≠ o) ∨ q.Refused r.id
  silent : (∀ o, ¬ q.Holds o) → ∀ inner step, step.isEvent = true →
    Quiet q (performWith inner step q).2

theorem gone_of_not_holds (hq : q.Ready S st) (hn : ¬ q.Holds o) : Gone o q where
  listeners := fun l hl ho => hn (ho ▸ hq.holds_of_listener hl)
  callbacks l hl ho := by
    obtain ⟨loop, hloop⟩ := List.getElem?_of_mem hl
    rcases ha : l.alive with _ | _
    · rfl
    · exact absurd (ho ▸ hq.holds_of_loop hloop ha) hn
  requests r hr := (hq.prompt r hr).imp_left fun ⟨l, hl, ha⟩ =>
    ⟨l, hl, fun ho => hn (ho ▸ hq.holds_of_loop hl ha)⟩
  silent hnone inner step he := by
    obtain ⟨frames, journal, hp, hj⟩ := performWith_of_not_holds inner hq hnone he
    rw [hp]
    exact .of_silent rfl rfl rfl hj

/-- Between the steps of a session, neither events nor frames enter the guest of a bridge that came
down, whatever bridges came after it. -/
structure TornDown (o : Nat) (q : Page) : Prop extends Gone o q where
  stays : ∀ steps : List PageStep, (∀ step ∈ steps, step.isEvent = true) →
    Stays (· ≠ o) q (run steps q)

theorem tornDown_of_not_holds (hq : q.AtRest) (ho : o < q.installations.length)
    (hn : ¬ q.Holds o) : TornDown o q := by
  refine ⟨gone_of_not_holds hq.ready hn, fun steps he => ?_⟩
  by_cases hr : ∃ other, q.Holds other
  -- Another bridge is held, and only that one and new ones can be come by.
  · obtain ⟨other, loop, hh⟩ := hr
    have hother : ∀ x, q.handle = some x → x.owner ≠ o := by
      rintro x hx rfl
      cases hx.symm.trans hh
      exact hn ⟨loop, hh⟩
    have hready : q.Ready (· ≠ o) [] :=
      hq.ready_of hother fun _ hle => Nat.ne_of_gt (Nat.lt_of_lt_of_le ho hle)
    exact (run_reached steps hready).stays
  · have hgrows : q.installations.length ≤ (run steps q).installations.length :=
      (run_reached steps hq.ready).grows
    exact .still (run_of_not_holds hq.ready (not_exists.1 hr) he) hgrows

end Page

end GuestBridge
