import GuestBridge.Proofs.Page.Visits

/-!
# Bringing a bridge down

Stopping a handle stops its frame loop, takes the loop's request back, unless the page refuses that,
and removes its listeners (`Stopped`). Shutting down and letting go are sound and enter no guest.
-/

set_option autoImplicit false

namespace GuestBridge.Page

variable {p q : Page} {h : PageHandle}

/-! ## Parts -/

theorem foldl_did {α : Type} (e : α → PageEvent) (xs : List α) (p : Page) :
    ∃ journal, xs.foldl (fun p x => p.did (e x)) p = { p with journal } ∧
      Event.Silent p.journal journal := by
  induction xs generalizing p with
  | nil => exact ⟨p.journal, rfl, .refl _⟩
  | cons x xs ih =>
    obtain ⟨journal, he, hj⟩ := ih (p.did (e x))
    exact ⟨journal, he, .trans (.push rfl _) hj⟩

theorem removeListeners_eq (owner : Nat) (p : Page) :
    ∃ journal, p.removeListeners owner =
        { p with journal, listeners := p.listeners.filter (·.owner ≠ owner) } ∧
      Event.Silent p.journal journal := by
  obtain ⟨journal, he, hj⟩ := foldl_did (fun l : Listener => .removeEventListener l.target l.kind)
    (p.listeners.filter (·.owner = owner)) p
  refine ⟨journal, ?_, hj⟩
  unfold removeListeners
  simp only [List.partition_eq_filter_filter, he]
  congr 1
  exact List.filter_congr fun l _ => by simp

/-- A request that is taken back is gone, or the page has refused that. -/
theorem cancelFrame_eq (request : Nat) (p : Page) :
    ∃ journal frames, p.cancelFrame request = { p with journal, frames } ∧
      Event.Silent p.journal journal ∧ frames.Sublist p.frames ∧
      ((∀ r ∈ frames, r.id ≠ request) ∨ ({ p with journal } : Page).Refused request) := by
  have hdid : Event.Silent p.journal (p.did (.cancelAnimationFrame request)).journal := .push rfl _
  have hscript : (p.did (.cancelAnimationFrame request)).script = p.script := rfl
  unfold cancelFrame
  simp only [hscript]
  rcases p.script.refusal? "cancelAnimationFrame" with _ | thrown
  · exact ⟨_, _, rfl, hdid, List.filter_sublist, .inl fun r hr => by
      simpa using (List.mem_filter.1 hr).2⟩
  · refine ⟨_, p.frames, rfl, hdid.trans (.push rfl _), .refl _, .inr ?_⟩
    refine ⟨"could not cancel animation frame: " ++ thrown.shown, List.IsSuffix.isInfix ?_⟩
    simp [did, note, List.suffix_append]

theorem stopLoop_eq (loop : Nat) (p : Page) :
    ∃ journal frames, p.stopLoop loop =
        { p with
          journal, frames
          loops := p.loops.modify loop fun l => { l with cancelled := true, alive := false } } ∧
      Event.Silent p.journal journal ∧ frames.Sublist p.frames ∧
      ∀ l, p.loops[loop]? = some l → l.cancelled = false →
        (∀ r ∈ frames, r.id ≠ l.request) ∨ ({ p with journal } : Page).Refused l.request := by
  unfold stopLoop
  rcases hl : p.loops[loop]? with _ | l
  · refine ⟨p.journal, p.frames, ?_, .refl _, .refl _, nofun⟩
    rw [List.modify_eq_self (List.getElem?_eq_none_iff.1 hl)]
  · cases hc : l.cancelled with
    | true =>
      refine ⟨p.journal, p.frames, by simp [hc]; rfl, .refl _, .refl _, fun m hm hmc => ?_⟩
      cases hm
      rw [hc] at hmc
      cases hmc
    | false =>
      obtain ⟨journal, frames, he, hj, hf, hr⟩ := p.cancelFrame_eq l.request
      refine ⟨journal, frames, by simp [hc, he]; rfl, hj, hf, fun m hm _ => ?_⟩
      cases hm
      exact hr

/-! ## Stopping -/

/-- Stopping a handle cancels its loop first, which may take a frame back, and shuts its bridge
down after that. -/
theorem stop_eq (h : PageHandle) (p : Page) : ∃ journal frames,
    let u : Page := { p with journal, frames, loops := (p.standing.stop h).loops }
    p.stop h = (u.removeListeners h.owner).withCore h.owner
        ((u.removeListeners h.owner).core h.owner).shutdown ∧
      Event.Silent p.journal journal ∧ frames.Sublist p.frames ∧
      ∀ (loop : Nat) l, h.loop = some loop → p.loops[loop]? = some l → l.cancelled = false →
        (∀ r ∈ frames, r.id ≠ l.request) ∨ ({ p with journal } : Page).Refused l.request := by
  unfold Page.stop Standing.stop
  rcases h.loop with _ | loop
  · exact ⟨p.journal, p.frames, rfl, .refl _, .refl _, fun _ _ hn => by cases hn⟩
  · obtain ⟨journal, frames, he, hj, hf, hr⟩ := p.stopLoop_eq loop
    refine ⟨journal, frames, ?_, hj, hf, fun i l hi hl => ?_⟩
    · simp only [he]
      rfl
    · cases hi
      exact hr l hl

/-- What stopping a handle comes to. -/
structure Stopped (h : PageHandle) (p q : Page) : Prop where
  standing : ∃ frames, frames.Sublist p.frames ∧ q.standing = { p.standing.stop h with frames }
  /-- The request of the loop is gone, or the page has refused to take it back. -/
  request : ∀ (loop : Nat) l, h.loop = some loop → p.loops[loop]? = some l → l.cancelled = false →
    (∀ r ∈ q.frames, r.id ≠ l.request) ∨ q.Refused l.request
  quiet : Quiet p q
  record : ShutsDown p q

theorem stop_stopped (h : PageHandle) (p : Page) : Stopped h p (p.stop h) := by
  obtain ⟨journal, frames, hstop, hj, hf, hr⟩ := p.stop_eq h
  let u : Page := { p with journal, frames, loops := (p.standing.stop h).loops }
  obtain ⟨journal', hu, hj'⟩ := removeListeners_eq h.owner u
  have hstill := Core.Still.shutdown ((u.removeListeners h.owner).core h.owner)
  have hstanding : (p.stop h).standing = { p.standing.stop h with frames } := by
    rw [hstop, standing_withCore hstill, hu]
    rfl
  have hremoved : Quiet p (u.removeListeners h.owner) := by
    rw [hu]
    exact .of_silent rfl rfl rfl (hj.trans hj')
  have hrecord : ShutsDown (u.removeListeners h.owner) (p.stop h) := by
    rw [hstop]
    exact ⟨[shutDownRecord], Array.toList_push, .head _⟩
  have hpu : Quiet p u := .of_silent rfl rfl rfl hj
  have hquiet : Quiet u (p.stop h) := by
    rw [hstop]
    refine Quiet.trans ?_ (.withCore hstill)
    rw [hu]
    exact .of_silent rfl rfl rfl hj'
  have hframes : (p.stop h).frames = frames := congrArg Standing.frames hstanding
  refine ⟨⟨frames, hf, hstanding⟩, fun loop l hl hloop hc => ?_, hpu.trans hquiet,
    hrecord.after hremoved.journal⟩
  rw [hframes]
  exact (hr loop l hl hloop hc).imp_right (·.grown hquiet.journal)

/-- If every request was the latest of its loop, and none of a loop that was cancelled, stopping a
handle leaves none behind that the page has not refused to take back. -/
theorem Stopped.prompt (hs : Stopped h p q) (hp : p.Prompt)
    (hreq : ∀ r ∈ p.frames, ∃ l, p.loops[r.loop]? = some l ∧ l.request = r.id ∧
      (l.alive = true → l.cancelled = false)) : q.Prompt := by
  obtain ⟨frames, hf, hstanding⟩ := hs.standing
  have hframes : q.frames = frames := congrArg Standing.frames hstanding
  have hloops : q.loops = (p.standing.stop h).loops := congrArg Standing.loops hstanding
  intro r hr
  have hm : r ∈ p.frames := hf.subset (hframes ▸ hr)
  obtain ⟨l, hl, hid, hc⟩ := hreq r hm
  rcases hp r hm with ⟨m, hlm, ha⟩ | hrefused
  · obtain rfl : l = m := Option.some.inj (hl.symm.trans hlm)
    by_cases hown : h.loop = some r.loop
    · rcases hs.request r.loop l hown hl (hc ha) with hgone | hrefused
      · exact absurd hid.symm (hgone r hr)
      · exact .inr (hid ▸ hrefused)
    · refine .inl ⟨l, ?_, ha⟩
      rw [hloops]
      unfold Standing.stop
      rcases hloop : h.loop with _ | loop
      · exact hl
      · have hne : loop ≠ r.loop := fun he => hown (he ▸ hloop)
        exact (List.getElem?_modify_ne _ _ hne).trans hl
  · exact .inr (hrefused.grown hs.quiet.journal)

/-! ## Ways down -/

theorem standing_release (o : Nat) (p : Page) : (p.release o).standing = p.standing.release o := by
  refine congrArg (fun installations => { p.standing with installations }) ?_
  refine List.ext_getElem? fun i => ?_
  simp only [List.getElem?_map, List.getElem?_modify, standing, release]
  rcases p.installations[i]? with _ | j
  · rfl
  · by_cases ho : o = i
    · simp [ho, Installation.outline]
    · simp [ho]

namespace Reached

variable {S : Nat → Prop} {st : List Nat} {again : Nat → Prop}

theorem shutdown (hp : Reached S st again p q) (hh : q.handle = some h) :
    Reached S st again p (q.shutdown h) := by
  have hstopped := q.stop_stopped h
  obtain ⟨frames, hf, hs⟩ := hstopped.standing
  have hstanding : (q.shutdown h).standing =
      { { q.standing.stop h with handle := some { h with loop := none } } with frames } := by
    unfold Page.shutdown
    exact congrArg (fun s : Standing => { s with handle := some { h with loop := none } }) hs
  refine hp.of_standing ?_ ?_ (fun x hx => ?_) hp.ready.starting hstopped.quiet
    (hstopped.prompt hp.ready.prompt hp.ready.sound.requested) fun _ _ => .inr hstopped.record
  · rw [hstanding]
    exact (hp.ready.sound.shutdown hh).of_frames_sublist hf
  · rw [hstanding]
    refine (Standing.later_stop h q.standing fun x hx => ?_).trans
      (.of_eq rfl rfl rfl (fun r hr => hf.subset hr) rfl)
    cases hx
    exact ⟨h, hh, rfl, rfl⟩
  · cases hx
    exact hp.ready.handle h hh

theorem dropHandle (hp : Reached S st again p q) :
    Reached S st again p q.dropHandle ∧ q.dropHandle.handle = none ∧
      q.dropHandle.installations.length = q.installations.length := by
  unfold Page.dropHandle
  rcases hh : q.handle with _ | h
  · exact ⟨hp, hh, rfl⟩
  · have hstopped := stop_stopped h { q with handle := none }
    obtain ⟨frames, hf, hs⟩ := hstopped.standing
    have hstanding : (discard h { q with handle := none }).standing =
        { { (q.standing.stop h).release h.owner with handle := none } with frames } := by
      unfold discard
      rw [standing_release, hs]
      rfl
    have hlater : Standing.Later p.installations.length again q.standing
        (discard h { q with handle := none }).standing := by
      have hlater : Standing.Later p.installations.length again q.standing
          { q.standing.stop h with handle := none } :=
        Standing.later_stop h q.standing fun _ hx => nomatch hx
      rw [hstanding]
      exact (hlater.trans (Standing.later_release h.owner _)).trans
        (.of_eq rfl rfl rfl (fun r hr => hf.subset hr) rfl)
    have hreached : Reached S st again p (discard h { q with handle := none }) := by
      refine hp.of_standing ?_ hlater (fun x hx => ?_) hp.ready.starting hstopped.quiet
        (hstopped.prompt hp.ready.prompt hp.ready.sound.requested) fun _ _ => .inr hstopped.record
      · rw [hstanding]
        exact (hp.ready.sound.drop hh).of_frames_sublist hf
      · have hnone : (discard h { q with handle := none }).handle = none :=
          congrArg Standing.handle hstanding
        rw [hnone] at hx
        cases hx
    refine ⟨hreached, congrArg Standing.handle hstanding, ?_⟩
    have hlen := congrArg (fun s : Standing => s.installations.length) hstanding
    simpa [Standing.release, Standing.stop, length_standing] using hlen

end Reached

end GuestBridge.Page
