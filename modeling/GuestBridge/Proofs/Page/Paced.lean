import GuestBridge.Proofs.Page.Beats

/-!
# Frame loops keep the pace

From a page without loops on, the schedule of frame loops is poised after every beat, and it says of
each loop what the beats say (`Recorded`): a loop is cancelled once it was stopped or refused a
frame, and its callback is gone once it was stopped. Hence every loop that goes on has exactly one
outstanding request between frames, a loop that has ended has none unless the page has refused to
take it back, and a callback offers its frame if and only if its loop has not ended by then
(`Rhythm.paced`).
-/

set_option autoImplicit false

namespace GuestBridge

open Ieee Schedule

namespace Page

variable {p q r : Page} {beats before after : List Beat} {beat : Beat} {due due' : List Errand}
  {loop owner : Nat}

/-! ## What beats say of a loop -/

def HasStopped (beats : List Beat) (loop : Nat) : Prop := ∃ clean, .stopped loop clean ∈ beats

/-- A loop has ended once it was stopped or refused a frame. -/
def HasEnded (beats : List Beat) (loop : Nat) : Prop :=
  HasStopped beats loop ∨ .refused loop ∈ beats

theorem hasStopped_concat : HasStopped (beats ++ [beat]) loop ↔
    HasStopped beats loop ∨ ∃ clean, beat = .stopped loop clean := by
  simp only [HasStopped, List.mem_append, List.mem_singleton, exists_or, eq_comm]

theorem hasEnded_concat : HasEnded (beats ++ [beat]) loop ↔
    HasEnded beats loop ∨ (∃ clean, beat = .stopped loop clean) ∨ beat = .refused loop := by
  simp only [HasEnded, hasStopped_concat, List.mem_append, List.mem_singleton]
  constructor
  · rintro ((h | h) | h | rfl)
    · exact .inl (.inl h)
    · exact .inr (.inl h)
    · exact .inl (.inr h)
    · exact .inr (.inr rfl)
  · rintro ((h | h) | h | rfl)
    · exact .inl (.inl h)
    · exact .inr (.inl h)
    · exact .inl (.inr h)
    · exact .inr (.inr rfl)

/-- What the loops of a schedule remember is what the beats have told. -/
structure Recorded (beats : List Beat) (s : Schedule) : Prop where
  started : ∀ owner loop, (∃ id, .started owner loop id ∈ beats) ↔
    ∃ l, s.loops[loop]? = some l ∧ l.owner = owner
  ended : ∀ loop, HasEnded beats loop ↔ ∃ l, s.loops[loop]? = some l ∧ l.cancelled = true
  stopped : ∀ loop, HasStopped beats loop ↔ ∃ l, s.loops[loop]? = some l ∧ l.alive = false
  left : ∀ r ∈ s.frames, HasEnded beats r.loop → .stopped r.loop false ∈ beats

namespace Recorded

variable {s t : Schedule}

theorem fresh (size : Nat) : Recorded [] (fresh size).schedule where
  started owner loop := by simp [Page.schedule, Page.fresh]
  ended loop := by simp [HasEnded, HasStopped, Page.schedule, Page.fresh]
  stopped loop := by simp [HasStopped, Page.schedule, Page.fresh]
  left := nofun

/-- A beat that neither starts a loop nor ends one. -/
theorem pass (h : Recorded beats s) (hs : ∀ owner loop id, beat ≠ .started owner loop id)
    (he : ∀ loop clean, beat ≠ .stopped loop clean) (hg : ∀ loop, beat ≠ .refused loop)
    (hl : ∀ (P : FrameLoop → Prop), (∀ l request, P { l with request } ↔ P l) → ∀ i : Nat,
      (∃ m, t.loops[i]? = some m ∧ P m) ↔ ∃ l, s.loops[i]? = some l ∧ P l)
    (hf : ∀ r ∈ t.frames, r ∈ s.frames ∨ ¬ HasEnded beats r.loop) :
    Recorded (beats ++ [beat]) t := by
  have hstopped : ∀ loop, HasStopped (beats ++ [beat]) loop ↔ HasStopped beats loop := fun loop =>
    hasStopped_concat.trans (or_iff_left fun ⟨clean, hb⟩ => he loop clean hb)
  have hended : ∀ loop, HasEnded (beats ++ [beat]) loop ↔ HasEnded beats loop := fun loop =>
    hasEnded_concat.trans (or_iff_left
      (not_or.2 ⟨fun ⟨clean, hb⟩ => he loop clean hb, hg loop⟩))
  refine ⟨fun owner loop => ?_, fun loop => ?_, fun loop => ?_, fun r hr hend => ?_⟩
  · rw [hl (·.owner = owner) (fun _ _ => Iff.rfl), ← h.started]
    simp only [List.mem_append, List.mem_singleton, (hs owner loop _).symm, or_false]
  · rw [hended, h.ended, hl (·.cancelled = true) (fun _ _ => Iff.rfl)]
  · rw [hstopped, h.stopped, hl (·.alive = false) (fun _ _ => Iff.rfl)]
  · rw [hended] at hend
    exact List.mem_append_left _ (h.left r ((hf r hr).resolve_right fun hn => hn hend) hend)

theorem start (h : Recorded beats s) (owner id : Nat) :
    Recorded (beats ++ [.started owner s.loops.length id]) (s.start owner) := by
  have hended : ∀ loop, HasEnded (beats ++ [.started owner s.loops.length id]) loop ↔
      HasEnded beats loop := fun loop => by simp [hasEnded_concat]
  refine ⟨fun o loop => ?_, fun loop => ?_, fun loop => ?_, fun r hr hend => ?_⟩
  · rw [exists_start owner, ← h.started]
    simp only [List.mem_append, List.mem_singleton, exists_or, Beat.started.injEq]
    refine or_congr_right ⟨?_, ?_⟩
    · rintro ⟨_, rfl, rfl, -⟩
      exact ⟨rfl, rfl⟩
    · rintro ⟨rfl, rfl⟩
      exact ⟨id, rfl, rfl, rfl⟩
  · rw [hended, h.ended, exists_start owner]
    simp
  · rw [hasStopped_concat, h.stopped, exists_start owner]
    simp
  · rw [hended] at hend
    rcases List.mem_append.1 hr with hr | hr
    · exact List.mem_append_left _ (h.left r hr hend)
    · obtain rfl := List.mem_singleton.1 hr
      obtain ⟨l, hl, -⟩ := (h.ended _).1 hend
      exact absurd (List.getElem?_eq_some_iff.1 hl).1 (Nat.lt_irrefl _)

theorem giveUp (h : Recorded beats s) {l : FrameLoop} (hl : s.loops[loop]? = some l)
    (hf : ∀ r ∈ s.frames, r.loop ≠ loop) :
    Recorded (beats ++ [.refused loop]) (s.giveUp loop) := by
  have hended : ∀ i, HasEnded (beats ++ [.refused loop]) i ↔ HasEnded beats i ∨ i = loop :=
    fun i => by simp [hasEnded_concat, eq_comm]
  constructor
  · intro o i
    refine Iff.trans ?_ (exists_modify_of_iff (f := fun l => { l with cancelled := true })
      (P := (·.owner = o)) (fun _ => Iff.rfl) i).symm
    rw [← h.started]
    simp
  · intro i
    rw [hended, h.ended]
    exact (exists_modify_of_forall (f := fun l => { l with cancelled := true })
      (P := (·.cancelled = true)) (fun _ => rfl) hl i).symm
  · intro i
    refine Iff.trans ?_ (exists_modify_of_iff (f := fun l => { l with cancelled := true })
      (P := (·.alive = false)) (fun _ => Iff.rfl) i).symm
    rw [hasStopped_concat, h.stopped]
    simp
  · intro r hr hend
    have hend := ((hended r.loop).1 hend).resolve_right (hf r hr)
    exact List.mem_append_left _ (h.left r hr hend)

theorem stop (h : Recorded beats s) {l : FrameLoop} (hl : s.loops[loop]? = some l)
    {frames : List FrameRequest} (hs : frames.Sublist s.frames) {clean : Bool}
    (hc : ∀ r ∈ frames, r.loop = loop → l.cancelled = true ∨ clean = false) :
    Recorded (beats ++ [.stopped loop clean]) (s.stop loop frames) := by
  have hnew : ∀ i, (∃ c, Beat.stopped loop clean = .stopped i c) ↔ i = loop := fun i =>
    ⟨fun ⟨_, he⟩ => by cases he; rfl, fun he => ⟨clean, by rw [he]⟩⟩
  have hended : ∀ i, HasEnded (beats ++ [.stopped loop clean]) i ↔ HasEnded beats i ∨ i = loop :=
    fun i => by simp only [hasEnded_concat, hnew, reduceCtorEq, or_false]
  constructor
  · intro o i
    refine Iff.trans ?_ (exists_modify_of_iff
      (f := fun l => { l with cancelled := true, alive := false })
      (P := (·.owner = o)) (fun _ => Iff.rfl) i).symm
    rw [← h.started]
    simp
  · intro i
    rw [hended, h.ended]
    exact (exists_modify_of_forall (f := fun l => { l with cancelled := true, alive := false })
      (P := (·.cancelled = true)) (fun _ => rfl) hl i).symm
  · intro i
    rw [hasStopped_concat, h.stopped, hnew]
    exact (exists_modify_of_forall (f := fun l => { l with cancelled := true, alive := false })
      (P := (·.alive = false)) (fun _ => rfl) hl i).symm
  · intro r hr hend
    by_cases hi : r.loop = loop
    · rcases hc r hr hi with hlc | rfl
      · have hbefore : HasEnded beats r.loop := (h.ended _).2 ⟨l, hi ▸ hl, hlc⟩
        exact List.mem_append_left _ (h.left r (hs.subset hr) hbefore)
      · exact List.mem_append_right _ (List.mem_singleton.2 (by rw [hi]))
    · exact List.mem_append_left _
        (h.left r (hs.subset hr) (((hended r.loop).1 hend).resolve_right hi))

end Recorded

/-! ## A beat -/

namespace Beats

theorem timers (h : Beats q due beat r due') : r.timers = q.timers := by
  cases h with
  | started h => exact (startLoop_eq_ok h).2.2.1
  | taken => rfl
  | offered => exact timers_offer _ _ q
  | skipped => rfl
  | asked hl ha hp => exact (continueLoop_of_permitted hl ha hp).2.1
  | refused hl ha hp => exact (continueLoop_of_refused hl ha hp).2.1
  | gone => rfl
  | stopped => exact timers_stopLoop _ q

theorem poised (h : Beats q due beat r due') (hp : Poised due q.schedule) :
    Poised due' r.schedule := by
  cases h with
  | started h =>
    rw [(startLoop_eq_ok h).2.1]
    exact hp.start _
  | taken timestamp => exact hp.take timestamp
  | offered hl ha hc =>
    rw [schedule_offer]
    exact hp.of_loops rfl
  | skipped h =>
    refine hp.pop fun l hl => ?_
    cases ha : l.alive with
    | true => exact h l hl ha
    | false => exact hp.halted _ l hl ha
  | asked hl ha hperm =>
    rw [(continueLoop_of_permitted hl ha hperm).1]
    exact hp.ask
  | refused hl ha hperm =>
    rw [(continueLoop_of_refused hl ha hperm).1]
    exact hp.giveUp
  | gone h => exact hp.pop fun l hl => hp.halted _ l hl (h l hl)
  | stopped hlt =>
    have hl := List.getElem?_eq_getElem hlt
    obtain ⟨frames, he, hs, ho, -⟩ := stopLoop_schedule hl
    rw [he]
    refine hp.stop hs fun x hx hne => ho x hx fun hid => hne ?_
    obtain ⟨m, hm, hmid⟩ := hp.requested x hx
    exact hp.distinct _ _ m _ hm hl (hmid.trans hid)

theorem recorded (h : Beats q due beat r due') (hp : Poised due q.schedule)
    (hr : Recorded beats q.schedule) : Recorded (beats ++ [beat]) r.schedule := by
  cases h with
  | started h =>
    obtain ⟨rfl, hs, -⟩ := startLoop_eq_ok h
    rw [hs]
    exact hr.start _ _
  | taken timestamp => exact hr.pass nofun nofun nofun (fun _ _ _ => Iff.rfl) nofun
  | offered hl ha hc =>
    rw [schedule_offer]
    exact hr.pass nofun nofun nofun (fun _ _ _ => Iff.rfl) fun _ => .inl
  | skipped => exact hr.pass nofun nofun nofun (fun _ _ _ => Iff.rfl) fun _ => .inl
  | asked hl ha hperm =>
    rename_i loop l
    rw [(continueLoop_of_permitted hl ha hperm).1]
    refine hr.pass nofun nofun nofun (fun P hP i => exists_modify_of_iff (fun l => hP l _) i)
      fun x hx => (List.mem_append.1 hx).imp_right fun hx hend => ?_
    obtain rfl := List.mem_singleton.1 hx
    obtain ⟨m, hm, hmc⟩ := (hr.ended loop).1 hend
    obtain rfl := Option.some.inj (hl.symm.trans hm)
    obtain ⟨n, hn, hnc⟩ := hp.head
    obtain rfl := Option.some.inj (hl.symm.trans hn)
    rw [hnc ha] at hmc
    cases hmc
  | refused hl ha hperm =>
    rw [(continueLoop_of_refused hl ha hperm).1]
    exact hr.giveUp hl fun x hx => hp.loop_ne_of_head hx
  | gone => exact hr.pass nofun nofun nofun (fun _ _ _ => Iff.rfl) fun _ => .inl
  | stopped hlt =>
    have hl := List.getElem?_eq_getElem hlt
    obtain ⟨frames, he, hs, -, hleft⟩ := stopLoop_schedule hl
    rw [he]
    refine hr.stop hl hs fun x hx hxl => ?_
    obtain ⟨m, hm, hmid⟩ := hp.requested x (hs.subset hx)
    rw [hxl] at hm
    obtain rfl := Option.some.inj (hl.symm.trans hm)
    refine (hleft x hx hmid.symm).imp_right fun hrefused => ?_
    have hany : q.frames.any (·.loop = _) = true :=
      List.any_eq_true.2 ⟨x, hs.subset hx, by simpa using hxl⟩
    simp [leavesRequest, hrefused, hany]

/-- The callbacks that are to be called are those of the requests that were taken, but for those
whose turn it was. -/
theorem calls (h : Beats q due beat r due') :
    (beat.takes ++ due.filterMap Errand.call?).Perm
      (beat.call?.toList ++ due'.filterMap Errand.call?) := by
  cases h with
  | taken timestamp =>
    have hcalls : (q.frames.map (Errand.call timestamp)).filterMap Errand.call? =
        q.frames.map (timestamp, ·) := by
      rw [List.filterMap_map, ← List.filterMap_eq_map]
      rfl
    rw [List.filterMap_append, hcalls]
    exact .refl _
  | _ => exact .refl _

/-- A guest is told only of a frame that is offered. -/
theorem frameCalls (h : Beats q due beat r due') :
    r.frameCalls.Sublist (q.frameCalls ++ beat.offer?.toList) := by
  cases h with
  | started h =>
    rw [frameCalls_of_silent (startLoop_eq_ok h).2.2.2]
    exact List.sublist_append_left _ _
  | taken | skipped | gone => exact List.sublist_append_left _ _
  | offered => exact frameCalls_offer _ _ q
  | asked hl ha hp =>
    rw [frameCalls_of_silent (continueLoop_of_permitted hl ha hp).2.2]
    exact List.sublist_append_left _ _
  | refused hl ha hp =>
    rw [frameCalls_of_silent (continueLoop_of_refused hl ha hp).2.2]
    exact List.sublist_append_left _ _
  | stopped =>
    rename_i loop hlt
    obtain ⟨journal, frames, he, hj, -⟩ := q.stopLoop_eq loop
    rw [he, frameCalls_of_silent (q := q) hj]
    exact List.sublist_append_left _ _

end Beats

/-! ## Rhythms -/

/-- What the beats of the frame loops of a page come to. -/
structure Paced (beats : List Beat) (due : List Errand) (q : Page) : Prop where
  /-- A loop is running if it was started and has not ended. -/
  running (h : PageHandle) (loop : Nat) (hl : h.loop = some loop) : q.isRunning h = true ↔
    (∃ owner id, .started owner loop id ∈ beats) ∧ ¬ HasEnded beats loop
  /-- When nothing is left to do, a loop that has not ended has one outstanding request, with the id
  that it remembers and no other loop's request has. -/
  outstanding (hd : due = []) (owner loop id : Nat) (hs : .started owner loop id ∈ beats)
    (he : ¬ HasEnded beats loop) : ∃ l, q.loops[loop]? = some l ∧
      q.frames.filter (·.loop = loop) = [⟨l.request, loop⟩] ∧
      ∀ r ∈ q.frames, r.id = l.request → r.loop = loop
  /-- A loop that has ended has none, unless the page has refused to take it back. -/
  cleared (loop : Nat) (he : HasEnded beats loop) (hc : .stopped loop false ∉ beats) :
    ∀ r ∈ q.frames, r.loop ≠ loop
  /-- No loop offers a frame that has ended before. -/
  offered (before after : List Beat) (timestamp : Double) (r : FrameRequest)
    (hb : beats = before ++ .offered timestamp r :: after) : ¬ HasEnded before r.loop
  /-- Only the callback of a loop that has ended offers none. -/
  skipped (before after : List Beat) (timestamp : Double) (r : FrameRequest)
    (hb : beats = before ++ .skipped timestamp r :: after) : HasEnded before r.loop
  /-- Each request that the page takes has its callback's turn once. -/
  turns : (beats.flatMap Beat.takes).Perm
    (beats.filterMap Beat.call? ++ due.filterMap Errand.call?)
  /-- The guests are told of frames only as these are offered, of each once at most. -/
  told : q.frameCalls.Sublist (beats.filterMap Beat.offer?)

namespace Rhythm

variable {size : Nat}

theorem poised (h : Rhythm (fresh size) beats due q) : q.schedule.Poised due := by
  induction h with
  | refl => exact .empty 1
  | between _ now ih => exact now.schedule ▸ ih
  | snoc _ now ih => exact now.poised ih

theorem recorded (h : Rhythm (fresh size) beats due q) : Recorded beats q.schedule := by
  induction h with
  | refl => exact .fresh size
  | between _ now ih => exact now.schedule ▸ ih
  | snoc before now ih => exact now.recorded before.poised ih

theorem turns (h : Rhythm p beats due q) : (beats.flatMap Beat.takes).Perm
    (beats.filterMap Beat.call? ++ due.filterMap Errand.call?) := by
  induction h with
  | refl => exact .refl _
  | between _ _ ih => exact ih
  | @snoc beats beat due due' q r before now ih =>
    have hswap : (beats.filterMap Beat.call? ++ due.filterMap Errand.call? ++ beat.takes).Perm
        (beats.filterMap Beat.call? ++ (beat.takes ++ due.filterMap Errand.call?)) := by
      rw [List.append_assoc]
      exact List.perm_append_comm.append_left _
    rw [List.flatMap_append, List.flatMap_singleton, filterMap_concat, List.append_assoc]
    exact (ih.append_right _).trans (hswap.trans (now.calls.append_left _))

theorem told (h : Rhythm (fresh size) beats due q) :
    q.frameCalls.Sublist (beats.filterMap Beat.offer?) := by
  induction h with
  | refl => exact .refl _
  | between _ now ih => exact now.frameCalls ▸ ih
  | @snoc beats beat due due' q r before now ih =>
    rw [filterMap_concat]
    exact now.frameCalls.trans (ih.append (.refl _))

/-- The only request of a loop, picked out of the requests. -/
theorem filter_eq_singleton {frames : List FrameRequest} (hf : (frames.map (·.loop)).Nodup)
    {r : FrameRequest} (hr : r ∈ frames) : frames.filter (·.loop = r.loop) = [r] := by
  have hsame : frames.filter (·.loop = r.loop) = frames.filter (· = r) :=
    List.filter_congr fun x hx => decide_eq_decide.2
      ⟨fun he => List.inj_on_of_nodup_map hf hx hr he, fun he => by rw [he]⟩
  rw [hsame, List.filter_eq, List.count_eq_one_of_mem hf.of_map hr]
  rfl

theorem paced (h : Rhythm (fresh size) beats due q) : Paced beats due q where
  running x loop hx := by
    have hstarted : (∃ owner id, .started owner loop id ∈ beats) ↔
        ∃ l, q.loops[loop]? = some l := by
      constructor
      · rintro ⟨owner, hid⟩
        obtain ⟨l, hl, -⟩ := (h.recorded.started owner loop).1 hid
        exact ⟨l, hl⟩
      · rintro ⟨l, hl⟩
        exact ⟨l.owner, (h.recorded.started l.owner loop).2 ⟨l, hl, rfl⟩⟩
    rw [hstarted, h.recorded.ended]
    unfold isRunning
    rw [hx]
    simp only [Option.bind_some, schedule]
    rcases q.loops[loop]? with _ | l <;> simp
  outstanding hd owner loop id hs he := by
    obtain ⟨l, hl, -⟩ := (h.recorded.started owner loop).1 ⟨id, hs⟩
    have hlc : l.cancelled = false := by
      rw [← Bool.not_eq_true]
      exact fun hc => he ((h.recorded.ended loop).2 ⟨l, hl, hc⟩)
    subst hd
    have hactive : q.schedule.active [] = q.frames.map (·.loop) := List.append_nil _
    have hone : (q.frames.map (·.loop)).Nodup := hactive ▸ h.poised.once
    obtain ⟨r, hr, rfl⟩ := List.mem_map.1 (hactive ▸ h.poised.going loop l hl hlc)
    have hrequest : ∀ x ∈ q.frames, x.loop = r.loop ↔ x.id = l.request := by
      intro x hx
      obtain ⟨m, hm, hmx⟩ := h.poised.requested x hx
      constructor
      · intro hxr
        rw [← hmx, Option.some.inj (hl.symm.trans (hxr ▸ hm))]
      · exact fun hid => h.poised.distinct _ _ m l hm hl (hmx.trans hid)
    have hr' : (⟨l.request, r.loop⟩ : FrameRequest) = r := by
      rw [← (hrequest r hr).1 rfl]
    refine ⟨l, hl, ?_, fun x hx => (hrequest x hx).2⟩
    rw [hr']
    exact filter_eq_singleton hone hr
  cleared loop he hc r hr hrl := hc (hrl ▸ h.recorded.left r hr (hrl ▸ he))
  offered before after timestamp r hb := by
    obtain ⟨t, u, _, _, earlier, now⟩ := h.exists_beats hb
    cases now with
    | offered hl _ hlc =>
      intro he
      obtain ⟨m, hm, hmc⟩ := (earlier.recorded.ended r.loop).1 he
      obtain rfl := Option.some.inj (hl.symm.trans hm)
      rw [hlc] at hmc
      cases hmc
  skipped before after timestamp r hb := by
    obtain ⟨t, u, _, _, earlier, now⟩ := h.exists_beats hb
    cases now with
    | skipped hs =>
      obtain ⟨l, hl, -⟩ := earlier.poised.head
      refine (earlier.recorded.ended r.loop).2 ⟨l, hl, ?_⟩
      cases ha : l.alive with
      | true => exact hs l hl ha
      | false => exact earlier.poised.halted _ l hl ha
  turns := h.turns
  told := h.told

end Rhythm

end Page

end GuestBridge
