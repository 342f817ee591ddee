import GuestBridge.Proofs.Page.Lasting
import GuestBridge.Proofs.Page.Paced

/-!
# Sessions have a rhythm

Every session of a page is a rhythm of its frame loops (`Page.run_rhythm`), and so every loop keeps
the pace (`Page.frames_paced`). `InRhythm p due q` is what carries the argument: the page `q` is
reached from `p` in a rhythm that has left the errands `due` to do, and no timer is set for a call
that tells a guest of a frame. It lasts (`InRhythm.lasts`), and it endures what has to do with
frames: each errand is done by the part of a frame that is there for it.
-/

set_option autoImplicit false

namespace GuestBridge.Page

open Ieee

structure InRhythm (p : Page) (due : List Errand) (q : Page) : Prop where
  rhythm : ∃ beats, Rhythm p beats due q
  timers : ∀ t ∈ q.timers, (Event.call t.completion.entry).frameCall? = none

/-- Whatever step a guest takes, it stays in the rhythm, and does its own errands. -/
def StaysInRhythm (inner : Performer) : Prop :=
  ∀ p due step q, InRhythm p due q → InRhythm p due (inner step q).2

variable {p q r : Page} {due due' : List Errand} {inner : Performer} {owner loop : Nat}

namespace InRhythm

theorem between (h : InRhythm p due q) (hb : Between q r) (ht : r.timers ⊆ q.timers) :
    InRhythm p due r := by
  obtain ⟨beats, hr⟩ := h.rhythm
  exact ⟨⟨beats, hr.between hb⟩, fun t hm => h.timers t (ht hm)⟩

theorem beat {beat : Beat} (h : InRhythm p due q) (hb : Beats q due beat r due') :
    InRhythm p due' r := by
  obtain ⟨beats, hr⟩ := h.rhythm
  exact ⟨⟨_, hr.snoc hb⟩, hb.timers ▸ h.timers⟩

theorem lasts (hi : StaysInRhythm inner) (p : Page) (due : List Errand) :
    Lasts inner (InRhythm p due) where
  apart h ha := h.between (.of_apart ha) (ha.timers ▸ List.Subset.refl _)
  alloc q len h := h.between (.note rfl rfl q) (List.Subset.refl _)
  call q entry he h := h.between (.note rfl (by cases entry <;> first | rfl | cases he) q)
    (List.Subset.refl _)
  step q step h := hi p due step q h

/-! ## Loops -/

theorem startLoop (owner : Nat) : Attempt.Keeps (InRhythm p due) (startLoop owner) := by
  intro q h
  rcases hr : Page.startLoop owner q with ⟨e | loop, r⟩
  · rw [startLoop_eq_error hr]
    exact h
  · exact h.beat (.started hr)

theorem stopLoop (loop : Nat) (h : InRhythm p due q) : InRhythm p due (q.stopLoop loop) := by
  rcases Nat.lt_or_ge loop q.loops.length with hlt | hge
  · exact h.beat (.stopped hlt)
  · rw [stopLoop_of_absent (List.getElem?_eq_none hge)]
    exact h

theorem continueLoop (h : InRhythm p (.resume loop :: due) q) :
    InRhythm p due (q.continueLoop loop) := by
  by_cases hgone : ∀ l, q.loops[loop]? = some l → l.alive = false
  · rw [continueLoop_of_gone hgone]
    exact h.beat (.gone hgone)
  · obtain ⟨l, hl, ha⟩ : ∃ l, q.loops[loop]? = some l ∧ l.alive = true := by simpa using hgone
    rcases hp : q.script.refusal? "requestAnimationFrame" with _ | thrown
    · exact h.beat (.asked hl ha hp)
    · exact h.beat (.refused hl ha hp)

section

variable (hi : StaysInRhythm inner)

include hi

theorem runFrame {timestamp : Double} {x : FrameRequest}
    (h : InRhythm p (.call timestamp x :: due) q) :
    InRhythm p due (runFrame inner timestamp x q) := by
  unfold Page.runFrame
  split
  · rename_i hnone
    have hskipped := h.beat (.skipped fun l hl ha =>
      absurd (Option.filter_eq_none_iff.1 hnone l hl) (by simp [ha]))
    exact (lasts hi p due).did _ hskipped
  · rename_i l hsome
    obtain ⟨hl, ha⟩ := Option.filter_eq_some_iff.1 hsome
    split
    · rename_i hc
      refine h.beat (.skipped fun m hm _ => ?_)
      obtain rfl := Option.some.inj (hl.symm.trans hm)
      exact hc
    · rename_i hc
      have hoffered := h.beat (.offered hl ha (by simpa using hc))
      have hlasts := lasts hi p (.resume x.loop :: due)
      -- While the guest is in the frame, the loop is still to ask for the next one.
      have hcalled : InRhythm p (.resume x.loop :: due)
          ((platform inner l.owner).animationFrame timestamp q).2 := by
        rcases animationFrame_cases inner l.owner timestamp q with he | he <;> rw [he]
        · exact hoffered
        · exact hlasts.interlude l.owner _ hoffered
      simp only
      split
      · rename_i r hr
        rw [hr] at hcalled
        exact hcalled.continueLoop
      · rename_i e r hr
        rw [hr] at hcalled
        exact (hlasts.log (by decide) hcalled).continueLoop

theorem runFrames {timestamp : Double} (xs : List FrameRequest)
    (h : InRhythm p (xs.map (.call timestamp) ++ due) q) :
    InRhythm p due (runFrames inner timestamp xs q) := by
  induction xs generalizing q with
  | nil => exact h
  | cons x rest ih => exact ih (runFrame hi h)

theorem frame (timestamp : Double) (h : InRhythm p due q) :
    InRhythm p due (frame inner timestamp q).2 :=
  runFrames hi q.frames (h.beat (.taken timestamp))

/-! ## Tasks and timers -/

theorem copyImage (fetch : Accepted) (image : DecodedImage) (h : InRhythm p due q) :
    InRhythm p due ((platform inner owner).copyImage fetch image q) := by
  have hlasts := lasts hi p due
  have hcopy := hlasts.copyToGuest owner image.pixels q h
  unfold Platform.copyImage
  rcases hr : (platform inner owner).copyToGuest image.pixels q with ⟨e | ⟨ptr, len⟩ | _, t⟩ <;>
    rw [hr] at hcopy
  · exact hlasts.logs owner (Event.isWarning_of_target (by decide)) hcopy
  · -- A timer is set, unless that is refused.
    show InRhythm p due (defer owner _ t)
    unfold defer
    split
    · exact hlasts.log (by decide) hcopy
    · obtain ⟨beats, hrhythm⟩ := (hlasts.note (e := .defer) rfl rfl hcopy).rhythm
      refine ⟨⟨beats, hrhythm.between (.of_eq rfl rfl rfl)⟩, fun u hu => ?_⟩
      rcases List.mem_append.1 hu with hu | hu
      · exact hcopy.timers u hu
      · rw [List.mem_singleton.1 hu]
        rfl
  · exact hlasts.logs owner (Event.isWarning_of_target (by decide)) hcopy

theorem complete (fetch : Accepted) (result : Except FetchError DecodedImage)
    (h : InRhythm p due q) : InRhythm p due ((platform inner owner).complete fetch result q) := by
  have hlasts := lasts hi p due
  have hsettled : InRhythm p due ((platform inner owner).onBridge (·.settle fetch.id) q) :=
    hlasts.onBridge (f := fun b => b.settle fetch.id) (fun _ _ => rfl) (fun _ => rfl) owner h
  unfold Platform.complete
  simp only
  split
  · exact hlasts.logs owner (Event.isWarning_of_target (by decide)) hsettled
  · cases result with
    | ok image => exact copyImage hi fetch image hsettled
    | error e => exact hlasts.logs owner (Event.isWarning_of_target (by decide)) hsettled

theorem finishLoad (l : ImageLoad) (result : Except FetchError DecodedImage)
    (h : InRhythm p due q) : InRhythm p due (finishLoad inner l result q) := by
  unfold Page.finishLoad
  split
  · exact complete hi _ _ h
  · exact h

theorem pollLoad (l : ImageLoad) (h : InRhythm p due q) :
    InRhythm p due (pollLoad inner l q).2 := by
  have hlasts := lasts hi p due
  unfold Page.pollLoad
  simp only
  split
  · have himage := keeps_createImage (P := InRhythm p due) (fun _ e h => hlasts.did e h)
      (fun _ _ h => hlasts.of_eq h rfl rfl rfl) l.fetch.request.url q h
    split
    · rename_i image r hr
      rwa [hr] at himage
    · rename_i reason r hr
      rw [hr] at himage
      exact finishLoad hi l _ himage
  · split
    · exact h
    · rename_i image i hsettled
      exact finishLoad hi l _ (keeps_imageResult (fun _ e h => hlasts.did e h)
        l.fetch.request.url i.size _ (hlasts.did _ (hlasts.did _ h)))

theorem pollEach (loads : List ImageLoad) (h : InRhythm p due q) :
    InRhythm p due (pollEach inner loads q).2.2 := by
  induction loads generalizing q with
  | nil => exact h
  | cons l rest ih =>
    have hpoll := ih (pollLoad hi l h)
    unfold Page.pollEach
    simp only
    split <;> exact hpoll

theorem runTasksFor (n : Nat) (h : InRhythm p due q) :
    InRhythm p due (runTasksFor inner n q) := by
  have hloads : ∀ (t : Page) loads, InRhythm p due t → InRhythm p due { t with loads } :=
    fun t loads h => h.between (.of_eq rfl rfl rfl) (List.Subset.refl _)
  induction n generalizing q with
  | zero => exact h
  | succ n ih =>
    have hround := pollEach hi q.loads (hloads q [] h)
    unfold Page.runTasksFor
    simp only
    split
    · exact ih (hloads _ _ hround)
    · exact hloads _ _ hround

theorem deliver {c : Completion} (hc : (Event.call c.entry).frameCall? = none)
    (h : InRhythm p due q) : InRhythm p due ((platform inner owner).deliver c q) := by
  have hlasts := lasts hi p due
  have hcall : InRhythm p due ((platform inner owner).callGuest c.entry q).2 :=
    Platform.keeps_callGuest (fun t ht =>
      hlasts.calls_of_note ht (ht.between (.note rfl hc t) (List.Subset.refl _))) q h
  unfold Platform.deliver
  simp only
  split
  · exact h
  · rcases hr : (platform inner owner).callGuest c.entry q with ⟨e | ⟨⟩, t⟩ <;> rw [hr] at hcall
    · exact hlasts.logs owner (Event.isWarning_of_target (by decide)) hcall
    · exact hcall

theorem runTimer (h : InRhythm p due q) : InRhythm p due (runTimer inner q).2 := by
  unfold Page.runTimer
  split
  · exact h
  · rename_i t rest ht
    have htaken : InRhythm p due { q with timers := rest } :=
      h.between (.of_eq rfl rfl rfl) fun _ hm => ht ▸ .tail _ hm
    simp only
    split
    · exact deliver hi (h.timers t (ht ▸ .head _)) htaken
    · exact htaken

/-! ## Imports -/

theorem callImport (name : String) (args : Arguments) (h : InRhythm p due q) :
    InRhythm p due (callImport inner name args q).2 := by
  rcases callImport_cases inner name args q with
    ⟨owner, fetch, text, -, -, -, -, -, hcall⟩ | hapart
  · rw [hcall]
    exact h.between (.accept owner fetch text q) (List.Subset.refl _)
  · exact (lasts hi p due).apart h hapart

theorem endures (p : Page) (due : List Errand) : Endures inner (InRhythm p due) where
  toLasts := lasts hi p due
  startLoop := startLoop
  stopLoop _ loop h := h.stopLoop loop
  frame _ timestamp h := frame hi timestamp h
  runTasks _ h := runTasksFor hi _ h
  runTimer _ h := runTimer hi h
  callImport _ name args h := callImport hi name args h

end

end InRhythm

theorem performFor_staysInRhythm (depth : Nat) : StaysInRhythm (performFor depth) := by
  induction depth with
  | zero => exact fun _ _ _ _ h => h
  | succ depth ih => exact fun p due step q h => (InRhythm.endures ih p due).performWith step h

/-- Whatever is done on a page, its frame loops have a rhythm. -/
theorem run_rhythm (steps : List PageStep)
    (hq : ∀ t ∈ q.timers, (Event.call t.completion.entry).frameCall? = none) :
    ∃ beats, Rhythm q beats [] (run steps q) := by
  have hrun : ∀ r, InRhythm q [] r → InRhythm q [] (run steps r) := by
    induction steps with
    | nil => exact fun _ h => h
    | cons step rest ih => exact fun r h => ih _ (performFor_staysInRhythm _ q [] step r h)
  exact (hrun q ⟨⟨[], .refl⟩, hq⟩).rhythm

/-! ## Sessions -/

/-- The bridge that a page holds is running if a loop of its own was started that has not ended. -/
theorem isRunning_iff (hq : q.AtRest) {size : Nat} {beats : List Beat}
    (hr : Rhythm (fresh size) beats [] q) {h : PageHandle} (hh : q.handle = some h) :
    q.isRunning h = true ↔
      ∃ loop id, .started h.owner loop id ∈ beats ∧ ¬ HasEnded beats loop := by
  have hsound := hq.ready.sound
  constructor
  · intro hrunning
    rcases hloop : h.loop with _ | loop
    · simp [isRunning, hloop] at hrunning
    · obtain ⟨-, hend⟩ := (hr.paced.running h loop hloop).1 hrunning
      obtain ⟨l, hl, ho, -⟩ := hsound.looping h loop hh hloop
      obtain ⟨id, hid⟩ := (hr.recorded.started h.owner loop).2 ⟨l, hl, ho⟩
      exact ⟨loop, id, hid, hend⟩
  · rintro ⟨loop, id, hid, hend⟩
    obtain ⟨l, hl, ho⟩ := (hr.recorded.started h.owner loop).1 ⟨id, hid⟩
    have halive : l.alive = true := by
      rw [← Bool.not_eq_false]
      exact fun ha => hend (.inl ((hr.recorded.stopped loop).2 ⟨l, hl, ha⟩))
    -- A loop that still has its callback is that of the handle.
    obtain ⟨h', hh', hloop⟩ := hsound.alive loop l hl halive
    obtain rfl : h = h' := Option.some.inj (hh.symm.trans hh')
    exact (hr.paced.running h loop hloop).2 ⟨⟨h.owner, id, hid⟩, hend⟩

end GuestBridge.Page
