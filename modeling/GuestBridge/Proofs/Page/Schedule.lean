import GuestBridge.Proofs.Page.Session

/-!
# The schedule of frame loops

`Page.schedule` is what of a page its frame loops consist of: the loops, the outstanding requests,
and the id of the next one. What frames have left to do are errands: to call the callback of a
request that the page has taken, and to let a loop ask again that has offered its frame. A loop
is active while it has an outstanding request or an errand. `Schedule.Poised` is the invariant: no
loop is active twice, every loop that has not been cancelled is active, and an outstanding request
is the one that its loop remembers. It is kept by all that becomes of a schedule.
-/

set_option autoImplicit false

namespace GuestBridge

open Ieee

/-- Something that is still to be done for a frame. -/
inductive Errand
  /-- The callback of a request is to be called. -/
  | call (timestamp : Double) (request : FrameRequest)
  /-- A loop has offered its frame, and is to ask for the next one. -/
  | resume (loop : Nat)

namespace Errand

def loop : Errand → Nat
  | call _ request => request.loop
  | resume loop => loop

/-- The callback that is to be called, with the time of the frame. -/
def call? : Errand → Option (Double × FrameRequest)
  | call timestamp request => some (timestamp, request)
  | resume _ => none

end Errand

structure Schedule where
  loops : List FrameLoop
  frames : List FrameRequest
  nextFrame : Nat

def Page.schedule (p : Page) : Schedule := ⟨p.loops, p.frames, p.nextFrame⟩

namespace Schedule

variable {s : Schedule} {due : List Errand} {e : Errand} {loop owner : Nat}

/-! ## What becomes of a schedule -/

/-- Starts a loop. -/
def start (owner : Nat) (s : Schedule) : Schedule where
  loops := s.loops ++ [{ owner, request := s.nextFrame }]
  frames := s.frames ++ [⟨s.nextFrame, s.loops.length⟩]
  nextFrame := s.nextFrame + 1

/-- Takes all requests. -/
def take (s : Schedule) : Schedule := { s with frames := [] }

/-- A loop asks for its next frame. -/
def ask (loop : Nat) (s : Schedule) : Schedule where
  loops := s.loops.modify loop fun l => { l with request := s.nextFrame }
  frames := s.frames ++ [⟨s.nextFrame, loop⟩]
  nextFrame := s.nextFrame + 1

/-- A loop is refused its next frame. -/
def giveUp (loop : Nat) (s : Schedule) : Schedule :=
  { s with loops := s.loops.modify loop fun l => { l with cancelled := true } }

/-- Stops a loop; these requests are left standing. -/
def stop (loop : Nat) (frames : List FrameRequest) (s : Schedule) : Schedule :=
  { s with
    loops := s.loops.modify loop fun l => { l with cancelled := true, alive := false }
    frames }

/-- The loops that have a request or an errand, once for each. -/
def active (due : List Errand) (s : Schedule) : List Nat :=
  s.frames.map (·.loop) ++ due.map (·.loop)

theorem active_take (timestamp : Double) (due : List Errand) (s : Schedule) :
    s.take.active (s.frames.map (.call timestamp) ++ due) = s.active due := by
  simp [active, take, Errand.loop]

theorem active_ask (loop : Nat) (due : List Errand) (s : Schedule) :
    (s.ask loop).active due = s.active (.resume loop :: due) := by
  simp [active, ask, Errand.loop]

theorem active_cons (e : Errand) (due : List Errand) (s : Schedule) :
    (s.active (e :: due)).Perm (e.loop :: s.active due) := List.perm_middle

/-! ## Loops that change -/

section

variable {f : FrameLoop → FrameLoop} {i : Nat} {l m : FrameLoop}

theorem getElem?_modify_ne (h : i ≠ loop) : (s.loops.modify loop f)[i]? = s.loops[i]? := by
  simp [Ne.symm h]

theorem getElem?_modify_self (h : s.loops[loop]? = some l) :
    (s.loops.modify loop f)[loop]? = some (f l) := by
  simp [h]

theorem exists_of_modify (h : (s.loops.modify loop f)[i]? = some m) :
    ∃ l, s.loops[i]? = some l ∧ m = if i = loop then f l else l := by
  rw [List.getElem?_modify] at h
  obtain ⟨l, hl, rfl⟩ := Option.map_eq_some_iff.1 h
  exact ⟨l, hl, by simp only [eq_comm]⟩

/-- What does not depend on the change is true of the same loops. -/
theorem exists_modify_of_iff {P : FrameLoop → Prop} (hP : ∀ l, P (f l) ↔ P l) (i : Nat) :
    (∃ m, (s.loops.modify loop f)[i]? = some m ∧ P m) ↔ ∃ l, s.loops[i]? = some l ∧ P l := by
  by_cases hi : i = loop
  · subst hi
    rcases hl : s.loops[i]? with _ | l
    · simp [hl]
    · simp [hl, hP]
  · rw [getElem?_modify_ne hi]

/-- What the change makes true is true of the loop that changes. -/
theorem exists_modify_of_forall {P : FrameLoop → Prop} (hP : ∀ l, P (f l))
    (hl : s.loops[loop]? = some l) (i : Nat) :
    (∃ m, (s.loops.modify loop f)[i]? = some m ∧ P m) ↔
      (∃ l, s.loops[i]? = some l ∧ P l) ∨ i = loop := by
  by_cases hi : i = loop
  · subst hi
    exact ⟨fun _ => .inr rfl, fun _ => ⟨f l, getElem?_modify_self hl, hP l⟩⟩
  · rw [getElem?_modify_ne hi, or_iff_left hi]

end

/-! ## The invariant -/

/-- An outstanding request is the one that its loop remembers, no two loops remember the same, and a
loop without a callback is cancelled. -/
structure Coherent (s : Schedule) : Prop where
  requested : ∀ r ∈ s.frames, ∃ l, s.loops[r.loop]? = some l ∧ l.request = r.id
  distinct : ∀ (i j : Nat) l m, s.loops[i]? = some l → s.loops[j]? = some m →
    l.request = m.request → i = j
  past : ∀ (i : Nat) l, s.loops[i]? = some l → l.request < s.nextFrame
  halted : ∀ (i : Nat) l, s.loops[i]? = some l → l.alive = false → l.cancelled = true

/-- No loop is active twice, and all loops are active that go on. -/
structure Poised (due : List Errand) (s : Schedule) : Prop extends s.Coherent where
  once : (s.active due).Nodup
  going : ∀ (i : Nat) l, s.loops[i]? = some l → l.cancelled = false → i ∈ s.active due
  waiting : ∀ i ∈ s.active due, ∃ l, s.loops[i]? = some l ∧ (l.alive = true → l.cancelled = false)

theorem Poised.empty (nextFrame : Nat) : Poised [] ⟨[], [], nextFrame⟩ where
  requested := nofun
  distinct := nofun
  past := nofun
  halted := nofun
  once := .nil
  going := nofun
  waiting := nofun

/-! ### Starting -/

section

variable (owner : Nat) {i : Nat} {l : FrameLoop}

theorem exists_of_start (h : (s.start owner).loops[i]? = some l) :
    s.loops[i]? = some l ∨ i = s.loops.length ∧ l = { owner, request := s.nextFrame } := by
  rcases Nat.lt_trichotomy i s.loops.length with hi | rfl | hi
  · exact .inl (List.getElem?_append_left hi ▸ h)
  · exact .inr ⟨rfl, by simpa [start, eq_comm] using h⟩
  · rw [List.getElem?_eq_none (by simp [start]; omega)] at h
    cases h

theorem getElem?_start (h : s.loops[i]? = some l) : (s.start owner).loops[i]? = some l :=
  (List.getElem?_append_left (List.getElem?_eq_some_iff.1 h).1).trans h

theorem getElem?_start_self : (s.start owner).loops[s.loops.length]? =
    some { owner, request := s.nextFrame } :=
  List.getElem?_concat_length

theorem exists_start {P : FrameLoop → Prop} (i : Nat) :
    (∃ m, (s.start owner).loops[i]? = some m ∧ P m) ↔ (∃ l, s.loops[i]? = some l ∧ P l) ∨
      i = s.loops.length ∧ P { owner, request := s.nextFrame } := by
  constructor
  · rintro ⟨m, hm, hp⟩
    rcases exists_of_start owner hm with hl | ⟨rfl, rfl⟩
    · exact .inl ⟨m, hl, hp⟩
    · exact .inr ⟨rfl, hp⟩
  · rintro (⟨l, hl, hp⟩ | ⟨rfl, hp⟩)
    · exact ⟨l, getElem?_start owner hl, hp⟩
    · exact ⟨_, getElem?_start_self owner, hp⟩

theorem Coherent.start (h : s.Coherent) : (s.start owner).Coherent where
  requested r hr := by
    rcases List.mem_append.1 hr with hr | hr
    · obtain ⟨l, hl, he⟩ := h.requested r hr
      exact ⟨l, getElem?_start owner hl, he⟩
    · obtain rfl := List.mem_singleton.1 hr
      exact ⟨_, getElem?_start_self owner, rfl⟩
  distinct i j l m hl hm he := by
    rcases exists_of_start owner hl with hl | ⟨rfl, rfl⟩ <;>
      rcases exists_of_start owner hm with hm | ⟨rfl, rfl⟩
    · exact h.distinct i j l m hl hm he
    · exact absurd (h.past i l hl) (he ▸ Nat.lt_irrefl _)
    · exact absurd (h.past j m hm) (he ▸ Nat.lt_irrefl _)
    · rfl
  past i l hl := by
    rcases exists_of_start owner hl with hl | ⟨-, rfl⟩
    · exact Nat.lt_succ_of_lt (h.past i l hl)
    · exact Nat.lt_succ_self _
  halted i l hl ha := by
    rcases exists_of_start owner hl with hl | ⟨-, rfl⟩
    · exact h.halted i l hl ha
    · cases ha

theorem active_start (due : List Errand) (s : Schedule) :
    ((s.start owner).active due).Perm (s.loops.length :: s.active due) := by
  simp only [active, start, List.map_append, List.map_cons, List.map_nil, List.append_assoc,
    List.singleton_append]
  exact List.perm_middle

theorem Poised.start (h : Poised due s) : Poised due (s.start owner) where
  toCoherent := h.toCoherent.start owner
  once := by
    refine (active_start owner due s).nodup_iff.2 (List.nodup_cons.2 ⟨fun hm => ?_, h.once⟩)
    obtain ⟨l, hl, -⟩ := h.waiting _ hm
    exact absurd (List.getElem?_eq_some_iff.1 hl).1 (Nat.lt_irrefl _)
  going i l hl hlc := by
    refine (active_start owner due s).mem_iff.2 (List.mem_cons.2 ?_)
    rcases exists_of_start owner hl with hl | ⟨rfl, -⟩
    · exact .inr (h.going i l hl hlc)
    · exact .inl rfl
  waiting i hi := by
    rcases List.mem_cons.1 ((active_start owner due s).mem_iff.1 hi) with rfl | hi
    · exact ⟨_, getElem?_start_self owner, fun _ => rfl⟩
    · obtain ⟨l, hl, hlc⟩ := h.waiting i hi
      exact ⟨l, getElem?_start owner hl, hlc⟩

end

/-! ### Errands -/

namespace Poised

/-- Of errands, only their loops matter. -/
theorem of_loops {due' : List Errand} (h : Poised due s)
    (hd : due'.map (·.loop) = due.map (·.loop)) : Poised due' s := by
  have hactive : s.active due' = s.active due := by simp only [active, hd]
  exact ⟨h.toCoherent, hactive ▸ h.once, hactive ▸ h.going, hactive ▸ h.waiting⟩

theorem take (h : Poised due s) (timestamp : Double) :
    Poised (s.frames.map (.call timestamp) ++ due) s.take where
  requested := nofun
  distinct := h.distinct
  past := h.past
  halted := h.halted
  once := active_take timestamp due s ▸ h.once
  going i l hl hlc := active_take timestamp due s ▸ h.going i l hl hlc
  waiting i hi := h.waiting i (active_take timestamp due s ▸ hi)

/-- The loop of the innermost errand is there, and has not been refused a frame. -/
theorem head (h : Poised (e :: due) s) :
    ∃ l, s.loops[e.loop]? = some l ∧ (l.alive = true → l.cancelled = false) :=
  h.waiting _ (List.mem_append_right _ (.head _))

/-- The loop of the innermost errand is active by nothing else. -/
theorem not_mem_of_head (h : Poised (e :: due) s) : e.loop ∉ s.active due :=
  (List.nodup_cons.1 ((active_cons e due s).nodup_iff.1 h.once)).1

theorem loop_ne_of_head (h : Poised (e :: due) s) {r : FrameRequest} (hr : r ∈ s.frames) :
    r.loop ≠ e.loop :=
  fun he => h.not_mem_of_head (he ▸ List.mem_append_left _ (List.mem_map_of_mem hr))

/-- An errand is done with when its loop has ended. -/
theorem pop (h : Poised (e :: due) s)
    (hc : ∀ l, s.loops[e.loop]? = some l → l.cancelled = true) : Poised due s where
  toCoherent := h.toCoherent
  once := (List.nodup_cons.1 ((active_cons e due s).nodup_iff.1 h.once)).2
  going i l hl hlc := by
    rcases List.mem_cons.1 ((active_cons e due s).mem_iff.1 (h.going i l hl hlc)) with rfl | hi
    · rw [hc l hl] at hlc
      cases hlc
    · exact hi
  waiting i hi := h.waiting i ((active_cons e due s).mem_iff.2 (.tail _ hi))

end Poised

/-! ### Asking -/

/-- A loop without an outstanding request asks for one, and remembers it. -/
theorem Coherent.ask (h : s.Coherent) {l : FrameLoop} (hl : s.loops[loop]? = some l)
    (hf : ∀ r ∈ s.frames, r.loop ≠ loop) : (s.ask loop).Coherent where
  requested r hr := by
    rcases List.mem_append.1 hr with hr | hr
    · obtain ⟨m, hm, he⟩ := h.requested r hr
      exact ⟨m, (getElem?_modify_ne (hf r hr)).trans hm, he⟩
    · obtain rfl := List.mem_singleton.1 hr
      exact ⟨_, getElem?_modify_self hl, rfl⟩
  distinct i j m n hm hn he := by
    obtain ⟨m', hm', rfl⟩ := exists_of_modify hm
    obtain ⟨n', hn', rfl⟩ := exists_of_modify hn
    by_cases hi : i = loop <;> by_cases hj : j = loop <;> simp only [hi, hj, if_true, if_false] at he
    · rw [hi, hj]
    · exact absurd (h.past j n' hn') (he ▸ Nat.lt_irrefl _)
    · exact absurd (h.past i m' hm') (he ▸ Nat.lt_irrefl _)
    · exact h.distinct i j m' n' hm' hn' he
  past i m hm := by
    obtain ⟨m', hm', rfl⟩ := exists_of_modify hm
    split
    · exact Nat.lt_succ_self _
    · exact Nat.lt_succ_of_lt (h.past i m' hm')
  halted i m hm := by
    obtain ⟨m', hm', rfl⟩ := exists_of_modify hm
    split <;> exact h.halted i m' hm'

theorem Poised.ask (h : Poised (.resume loop :: due) s) : Poised due (s.ask loop) where
  toCoherent := by
    obtain ⟨l, hl, -⟩ := h.head
    exact h.toCoherent.ask hl fun _ hr => h.loop_ne_of_head hr
  once := active_ask loop due s ▸ h.once
  going i m hm hmc := by
    obtain ⟨m', hm', rfl⟩ := exists_of_modify hm
    refine active_ask loop due s ▸ h.going i m' hm' ?_
    split at hmc <;> exact hmc
  waiting i hi := by
    obtain ⟨m, hm, hmc⟩ := h.waiting i (active_ask loop due s ▸ hi)
    by_cases he : i = loop
    · subst he
      exact ⟨_, getElem?_modify_self hm, hmc⟩
    · exact ⟨m, (getElem?_modify_ne he).trans hm, hmc⟩

/-! ### Ending -/

/-- Loops keep their requests, some of which may not be outstanding any more. -/
theorem Coherent.modify (h : s.Coherent) {f : FrameLoop → FrameLoop}
    (hr : ∀ l, (f l).request = l.request)
    (hh : ∀ l, (l.alive = false → l.cancelled = true) → (f l).alive = false → (f l).cancelled = true)
    {frames : List FrameRequest} (hs : frames ⊆ s.frames) :
    Coherent { s with loops := s.loops.modify loop f, frames } where
  requested r hm := by
    obtain ⟨l, hl, he⟩ := h.requested r (hs hm)
    by_cases hi : r.loop = loop
    · subst hi
      exact ⟨f l, getElem?_modify_self hl, (hr l).trans he⟩
    · exact ⟨l, (getElem?_modify_ne hi).trans hl, he⟩
  distinct i j l m hl hm he := by
    obtain ⟨l', hl', rfl⟩ := exists_of_modify hl
    obtain ⟨m', hm', rfl⟩ := exists_of_modify hm
    refine h.distinct i j l' m' hl' hm' ?_
    split at he <;> split at he <;> simpa only [hr] using he
  past i l hl := by
    obtain ⟨l', hl', rfl⟩ := exists_of_modify hl
    have hpast := h.past i l' hl'
    split
    · rwa [hr]
    · exact hpast
  halted i l hl := by
    obtain ⟨l', hl', rfl⟩ := exists_of_modify hl
    have hhalted := h.halted i l' hl'
    split
    · exact hh l' hhalted
    · exact hhalted

namespace Poised

/-- A loop that is refused its next frame is not active any more. -/
theorem giveUp (h : Poised (.resume loop :: due) s) : Poised due (s.giveUp loop) where
  toCoherent := h.toCoherent.modify (f := fun l => { l with cancelled := true }) (fun _ => rfl)
    (fun _ _ _ => rfl) (List.Subset.refl _)
  once := (List.nodup_cons.1 ((active_cons _ due s).nodup_iff.1 h.once)).2
  going i l hl hlc := by
    obtain ⟨l', hl', rfl⟩ := exists_of_modify hl
    split at hlc
    · cases hlc
    · rename_i hne
      have hi := (active_cons _ due s).mem_iff.1 (h.going i l' hl' hlc)
      exact (List.mem_cons.1 hi).resolve_left hne
  waiting i hi := by
    obtain ⟨l, hl, hlc⟩ := h.waiting i ((active_cons _ due s).mem_iff.2 (.tail _ hi))
    have hne : i ≠ loop := fun he => h.not_mem_of_head (he ▸ hi)
    exact ⟨l, (getElem?_modify_ne hne).trans hl, hlc⟩

/-- A loop may be stopped at any time; the requests of other loops are left standing. -/
theorem stop (h : Poised due s) {frames : List FrameRequest} (hs : frames.Sublist s.frames)
    (ho : ∀ r ∈ s.frames, r.loop ≠ loop → r ∈ frames) : Poised due (s.stop loop frames) where
  toCoherent := h.toCoherent.modify (f := fun l => { l with cancelled := true, alive := false })
    (fun _ => rfl) (fun _ _ _ => rfl) hs.subset
  once := h.once.sublist ((hs.map _).append (.refl _))
  going i l hl hlc := by
    obtain ⟨l', hl', rfl⟩ := exists_of_modify hl
    split at hlc
    · cases hlc
    · rename_i hne
      refine List.mem_append.2 ((List.mem_append.1 (h.going i l' hl' hlc)).imp_left fun hi => ?_)
      obtain ⟨r, hr, rfl⟩ := List.mem_map.1 hi
      exact List.mem_map_of_mem (ho r hr hne)
  waiting i hi := by
    obtain ⟨l, hl, hlc⟩ := h.waiting i (((hs.map _).append (.refl _)).subset hi)
    by_cases he : i = loop
    · subst he
      exact ⟨_, getElem?_modify_self hl, nofun⟩
    · exact ⟨l, (getElem?_modify_ne he).trans hl, hlc⟩

end Poised

end Schedule

/-! ## The schedule of a page -/

namespace Page

variable {q r : Page} {owner loop : Nat} {l : FrameLoop}

theorem requestFrame_of_permitted (loop : Nat)
    (hp : q.script.refusal? "requestAnimationFrame" = none) :
    q.requestFrame loop = (.ok q.nextFrame, { q.did (.requestAnimationFrame q.nextFrame) with
      frames := q.frames ++ [⟨q.nextFrame, loop⟩], nextFrame := q.nextFrame + 1 }) := by
  unfold requestFrame
  rw [hp]
  rfl

theorem requestFrame_of_refused {thrown : PageValue} (loop : Nat)
    (hp : q.script.refusal? "requestAnimationFrame" = some thrown) :
    q.requestFrame loop = (.error thrown, q) := by
  unfold requestFrame
  rw [hp]

theorem startLoop_eq_ok (h : startLoop owner q = (.ok loop, r)) :
    loop = q.loops.length ∧ r.schedule = q.schedule.start owner ∧ r.timers = q.timers ∧
      Event.Silent q.journal r.journal := by
  unfold startLoop at h
  simp only at h
  rcases hp : q.script.refusal? "requestAnimationFrame" with _ | thrown
  · rw [requestFrame_of_permitted _ hp] at h
    cases h
    exact ⟨rfl, rfl, rfl, .push rfl _⟩
  · rw [requestFrame_of_refused _ hp] at h
    cases h

theorem startLoop_eq_error {e : StartupError} (h : startLoop owner q = (.error e, r)) : r = q := by
  unfold startLoop at h
  simp only at h
  rcases hp : q.script.refusal? "requestAnimationFrame" with _ | thrown
  · rw [requestFrame_of_permitted _ hp] at h
    cases h
  · rw [requestFrame_of_refused _ hp] at h
    cases h
    rfl

theorem continueLoop_of_gone (h : ∀ l, q.loops[loop]? = some l → l.alive = false) :
    q.continueLoop loop = q := by
  have hnone : (q.loops[loop]?).filter (·.alive) = none :=
    Option.filter_eq_none_iff.2 fun l hl => by simp [h l hl]
  unfold continueLoop
  rw [hnone]

section

variable (hl : q.loops[loop]? = some l) (ha : l.alive = true)

include hl ha

theorem continueLoop_of_permitted (hp : q.script.refusal? "requestAnimationFrame" = none) :
    (q.continueLoop loop).schedule = q.schedule.ask loop ∧
      (q.continueLoop loop).timers = q.timers ∧
      Event.Silent q.journal (q.continueLoop loop).journal := by
  have hsome : (q.loops[loop]?).filter (·.alive) = some l := by rw [hl]; simp [ha]
  unfold continueLoop
  rw [hsome, requestFrame_of_permitted loop hp]
  exact ⟨rfl, rfl, .push rfl _⟩

theorem continueLoop_of_refused {thrown : PageValue}
    (hp : q.script.refusal? "requestAnimationFrame" = some thrown) :
    (q.continueLoop loop).schedule = q.schedule.giveUp loop ∧
      (q.continueLoop loop).timers = q.timers ∧
      Event.Silent q.journal (q.continueLoop loop).journal := by
  have hsome : (q.loops[loop]?).filter (·.alive) = some l := by rw [hl]; simp [ha]
  unfold continueLoop
  rw [hsome, requestFrame_of_refused loop hp]
  exact ⟨rfl, rfl, .push rfl _⟩

end

/-- Other requests than the one that is taken back are left standing, and that one only if the page
refuses. -/
theorem cancelFrame_schedule (request : Nat) (q : Page) :
    ∃ frames, (q.cancelFrame request).schedule = { q.schedule with frames } ∧
      frames.Sublist q.frames ∧ (∀ r ∈ q.frames, r.id ≠ request → r ∈ frames) ∧
      ∀ r ∈ frames, r.id = request → (q.script.refusal? "cancelAnimationFrame").isSome := by
  have hscript : (q.did (.cancelAnimationFrame request)).script = q.script := rfl
  unfold cancelFrame
  simp only [hscript]
  rcases q.script.refusal? "cancelAnimationFrame" with _ | thrown
  · refine ⟨q.frames.filter (·.id ≠ request), rfl, List.filter_sublist, fun x hx hne => ?_,
      fun x hx he => ?_⟩
    · exact List.mem_filter.2 ⟨hx, by simpa using hne⟩
    · exact absurd he (by simpa using (List.mem_filter.1 hx).2)
  · exact ⟨q.frames, rfl, .refl _, fun _ hx _ => hx, fun _ _ _ => rfl⟩

/-- A loop that is stopped leaves the requests of others standing, and its own only if it had been
cancelled before or the page refuses to take it back. -/
theorem stopLoop_schedule (hl : q.loops[loop]? = some l) :
    ∃ frames, (q.stopLoop loop).schedule = q.schedule.stop loop frames ∧
      frames.Sublist q.frames ∧ (∀ r ∈ q.frames, r.id ≠ l.request → r ∈ frames) ∧
      ∀ r ∈ frames, r.id = l.request → l.cancelled = true ∨
        (q.script.refusal? "cancelAnimationFrame").isSome := by
  have hstop : q.stopLoop loop = (if l.cancelled then q else q.cancelFrame l.request).modifyLoop
      loop fun l => { l with cancelled := true, alive := false } := by
    unfold stopLoop
    rw [hl]
  have hmodify : ∀ p : Page, (p.modifyLoop loop fun l =>
      { l with cancelled := true, alive := false }).schedule =
        p.schedule.stop loop p.schedule.frames := fun _ => rfl
  rw [hstop, hmodify]
  by_cases hc : l.cancelled = true
  · rw [if_pos hc]
    exact ⟨q.frames, rfl, .refl _, fun _ hr _ => hr, fun _ _ _ => .inl hc⟩
  · obtain ⟨frames, he, hs, ho, hr⟩ := q.cancelFrame_schedule l.request
    rw [if_neg hc, he]
    exact ⟨frames, rfl, hs, ho, fun r hm hid => .inr (hr r hm hid)⟩

theorem stopLoop_of_absent (hl : q.loops[loop]? = none) : q.stopLoop loop = q := by
  unfold stopLoop
  rw [hl]

theorem timers_stopLoop (loop : Nat) (q : Page) : (q.stopLoop loop).timers = q.timers := by
  obtain ⟨journal, frames, he, -⟩ := q.stopLoop_eq loop
  rw [he]

end Page

end GuestBridge
