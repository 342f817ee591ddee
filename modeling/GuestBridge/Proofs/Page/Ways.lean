import GuestBridge.Proofs.Page.Visits

/-!
# Ways of tasks, frames and listeners

Whatever comes to the guests of a page comes to guests that can be come by: a task or timer asks
whether its bridge still exists, a frame whether its loop still has a callback, and a listener
reacts only while it is installed. A frame makes its loop ask anew, and no other loop that was there
before (`Reached.frame`).
-/

set_option autoImplicit false

namespace GuestBridge.Page

/-! ## Images -/

theorem permitted_snd (call : String) (p : Page) : (permitted call p).2 = p := by
  simp only [permitted, Bind.bind, Attempt.bind, Attempt.get]
  cases p.script.refusal? call <;> rfl

theorem keeps_permitted {P : Page → Prop} (call : String) : Attempt.Keeps P (permitted call) :=
  Attempt.keeps_of_snd_eq (permitted_snd call)

section

variable {P : Page → Prop} (hd : ∀ q e, P q → P (q.did e))

include hd

theorem keeps_createImage (hi : ∀ q images, P q → P { q with images }) (url : String) :
    Attempt.Keeps P (createImage url) := by
  refine (keeps_permitted _).bind fun _ => Attempt.keeps_state fun q h => hi _ _ ?_
  exact hd _ (.src url) (hd _ (.onerror true) (hd _ (.onload true) (hd q _ h)))

theorem keeps_createScratch (width height : UInt32) :
    Attempt.Keeps P (createScratch width height) := by
  refine (keeps_permitted _).bind fun _ =>
    (Attempt.keeps_modify fun q h => hd q _ h).bind fun _ => Attempt.keeps_get.bind fun q => ?_
  split
  · exact Attempt.keeps_fail _
  · refine (Attempt.keeps_modify fun q h => hd _ (.height _ height) (hd q _ h)).bind fun _ =>
      (Attempt.keeps_modify fun q h => hd q _ h).bind fun _ => ?_
    split
    · exact Attempt.keeps_fail _
    · exact Attempt.keeps_pure _

theorem keeps_decodeImage (url : String) (width height : UInt32) :
    Attempt.Keeps P (decodeImage url width height) := by
  unfold decodeImage
  split
  · exact Attempt.keeps_pure _
  · exact (keeps_createScratch hd _ _).bind fun _ => (keeps_permitted _).bind fun _ =>
      (Attempt.keeps_modify fun q h => hd q _ h).bind fun _ => (keeps_permitted _).bind fun _ =>
        (Attempt.keeps_modify fun q h => hd q _ h).bind fun _ => Attempt.keeps_get.bind fun _ =>
          Attempt.keeps_pure _

/-- Nothing is done to the page for an image that has loaded, but what the journal tells. -/
theorem keeps_imageResult (url : String) (size : Option (UInt32 × UInt32)) :
    Attempt.Keeps P (imageResult url size) := by
  cases size with
  | none => exact Attempt.keeps_fail _
  | some size => exact fun q h => keeps_decodeImage hd url size.1 size.2 q h

end

/-! ## Frames -/

section

variable {P : Page → Prop} {q : Page} (hn : ∀ q e, e.isEntry = false → P q → P (q.note e))
  (hs : ∀ q loops frames nextFrame, P q → P { q with loops, frames, nextFrame })

include hn hs

theorem keeps_requestFrame (loop : Nat) (h : P q) : P (q.requestFrame loop).2 := by
  unfold requestFrame
  split
  · exact h
  · exact hs _ _ _ _ (hn q (.page (.requestAnimationFrame q.nextFrame)) rfl h)

theorem keeps_startLoop (owner : Nat) : Attempt.Keeps P (startLoop owner) := by
  intro q h
  have hrequest := keeps_requestFrame hn hs q.loops.length h
  unfold startLoop
  simp only
  split
  · rename_i request r hr
    rw [hr] at hrequest
    exact hs r _ r.frames r.nextFrame hrequest
  · rename_i thrown r hr
    rwa [hr] at hrequest

theorem keeps_continueLoop (loop : Nat) (h : P q) : P (q.continueLoop loop) := by
  have hrequest := keeps_requestFrame hn hs loop h
  unfold continueLoop
  split
  · exact h
  · split
    · rename_i request r hr
      rw [hr] at hrequest
      exact hs r _ r.frames r.nextFrame hrequest
    · rename_i thrown r hr
      rw [hr] at hrequest
      have hlogged := hn r (.log ⟨.error, Log.Target.animation,
        "could not request animation frame: " ++ thrown.shown⟩) rfl hrequest
      exact hs _ _ r.frames r.nextFrame hlogged

variable {inner : Performer} {timestamp : Ieee.Double}
  (hf : ∀ owner, Attempt.Keeps P ((platform inner owner).animationFrame timestamp))

include hf

theorem keeps_runFrame (x : FrameRequest) (h : P q) : P (runFrame inner timestamp x q) := by
  unfold runFrame
  split
  · exact hn q (.page .uncaught) rfl h
  · rename_i l hl
    have hframe := hf l.owner q h
    split
    · exact h
    · simp only
      split
      · rename_i r hr
        rw [hr] at hframe
        exact keeps_continueLoop hn hs x.loop hframe
      · rename_i e r hr
        rw [hr] at hframe
        exact keeps_continueLoop hn hs x.loop (hn r _ rfl hframe)

/-- What becomes of loops and requests does not matter, and neither does what is noted, as long as
no guest is entered but by the frame. -/
theorem keeps_frame (h : P q) : P (frame inner timestamp q).2 := by
  have hrun : ∀ (xs : List FrameRequest) (r : Page), P r → P (runFrames inner timestamp xs r) := by
    intro xs
    induction xs with
    | nil => exact fun _ h => h
    | cons x rest ih => exact fun r h => ih _ (keeps_runFrame hn hs hf x h)
  exact hrun q.frames _ (hs q q.loops [] q.nextFrame h)

end

namespace Reached

variable {S : Nat → Prop} {st : List Nat} {again : Nat → Prop} {p q : Page} {inner : Performer}

/-! ## Tasks -/

section

variable (hi : Follows S inner)

include hi

theorem finishLoad (l : ImageLoad) (result : Except FetchError DecodedImage)
    (h : Reached S st again p q) : Reached S st again p (finishLoad inner l result q) := by
  unfold Page.finishLoad
  split
  · rename_i ha
    exact h.trans ((refl h.ready).complete hi (h.ready.serves_of_isAlive ha) l.fetch result)
  · exact h

theorem pollLoad (l : ImageLoad) (h : Reached S st again p q) :
    Reached S st again p (pollLoad inner l q).2 := by
  unfold Page.pollLoad
  simp only
  split
  · have himage := keeps_createImage (P := Reached S st again p) (fun _ e h => h.did e)
      (fun _ _ h => h.of_eq rfl (.refl _)) l.fetch.request.url q h
    split
    · rename_i image q' hr
      rwa [hr] at himage
    · rename_i reason q' hr
      rw [hr] at himage
      exact himage.finishLoad hi l _
  · split
    · exact h
    · rename_i image i hsettled
      have hhandlers : Reached S st again p q.removeHandlers := (h.did _).did _
      exact finishLoad hi l _
        (keeps_imageResult (fun _ e h => h.did e) l.fetch.request.url i.size _ hhandlers)

theorem pollEach (loads : List ImageLoad) (h : Reached S st again p q) :
    Reached S st again p (pollEach inner loads q).2.2 := by
  induction loads generalizing q with
  | nil => exact h
  | cons l rest ih =>
    have hpoll := ih (h.pollLoad hi l)
    unfold Page.pollEach
    simp only
    split <;> exact hpoll

theorem runTasksFor (n : Nat) (h : Reached S st again p q) :
    Reached S st again p (runTasksFor inner n q) := by
  induction n generalizing q with
  | zero => exact h
  | succ n ih =>
    have hround := (h.of_eq (r := { q with loads := [] }) rfl (.refl _)).pollEach hi q.loads
    unfold Page.runTasksFor
    simp only
    split
    · exact ih (hround.of_eq rfl (.refl _))
    · exact hround.of_eq rfl (.refl _)

theorem runTasks (h : Reached S st again p q) : Reached S st again p (runTasks inner q) :=
  h.runTasksFor hi _

omit hi in
theorem settleImages (h : Reached S st again p q) : Reached S st again p q.settleImages :=
  h.of_eq rfl (.refl _)

theorem runTimer (h : Reached S st again p q) : Reached S st again p (runTimer inner q).2 := by
  unfold Page.runTimer
  split
  · exact h
  · rename_i t rest ht
    have htaken : Reached S st again p { q with timers := rest } :=
      h.of_eq rfl ⟨rfl, rfl, fun _ hm => ht ▸ .tail _ hm, .refl _⟩
    have hfetch : t.completion.entry.exportName = "onFetch" :=
      h.ready.timers t (ht ▸ .head _)
    simp only
    split
    · rename_i ha
      exact htaken.trans
        ((refl htaken.ready).deliver hi (htaken.ready.serves_of_isAlive ha) hfetch)
    · exact htaken

theorem runAllFor (n : Nat) (h : Reached S st again p q) :
    Reached S st again p (runAllFor inner n q) := by
  induction n generalizing q with
  | zero => exact h
  | succ n ih =>
    have htimer := (((h.runTasks hi).settleImages).runTasks hi).runTimer hi
    unfold Page.runAllFor
    simp only
    split
    · rename_i q' hr
      rw [hr] at htimer
      exact ih htimer
    · rename_i q' hr
      rwa [hr] at htimer

theorem runAll (h : Reached S st again p q) : Reached S st again p (runAll inner q) :=
  h.runAllFor hi _

end

/-! ## Listeners -/

section

variable (hi : Follows S inner)

include hi

theorem forward {owner : Nat} (ho : Serves S q owner) (hheld : q.Holds owner) (event : InputEvent)
    (h : Reached S st again p q) : Reached S st again p (forward inner owner event q) := by
  have hcall := h.trans (Attempt.meets_iff_snd.1 (callGuest hi ho event.entryPoint) q
    ⟨refl h.ready, hheld⟩)
  have hd : (platform inner owner).dispatchInput event =
    (platform inner owner).callGuest event.entryPoint := rfl
  unfold Page.forward
  rw [hd]
  split
  · rename_i q' hr
    rwa [hr] at hcall
  · rename_i e q' hr
    rw [hr] at hcall
    exact hcall.log _ _ _

theorem resize {owner : Nat} (ho : Serves S q owner) (hheld : q.Holds owner)
    (h : Reached S st again p q) : Reached S st again p (resize inner owner q) := by
  let fitted := q.resizeCanvas (q.canvasId owner) q.script.innerSize.1 q.script.innerSize.2
  have hfitted : Reached S st again p fitted := (h.did _).did _
  have ho' : Serves S fitted owner := ⟨ho.allowed, ho.installed⟩
  exact hfitted.forward hi ho' hheld (.resize _ _)

theorem submitInput {owner : Nat} (ho : Serves S q owner) (input : Nat)
    (h : Reached S st again p q) : Reached S st again p (submitInput inner owner input q) := by
  have hsubmit := h.trans (submitEquation hi ho (q.script.text input) q (refl h.ready))
  unfold Page.submitInput
  split
  · rename_i copy q' hr
    rwa [hr] at hsubmit
  · rename_i e q' hr
    rw [hr] at hsubmit
    exact hsubmit.log _ _ _

/-- A listener that is installed is one of the bridge that the page holds. -/
theorem react {l : Listener} (hl : l ∈ q.listeners) (payload : Payload)
    (h : Reached S st again p q) : Reached S st again p (react inner payload l q) := by
  have hheld : q.Holds l.owner := h.ready.holds_of_listener hl
  have ho : Serves S q l.owner := h.ready.serves_of_holds hheld
  unfold Page.react
  split
  · exact h.resize hi ho hheld
  · split
    · exact h.submitInput hi ho _
    · exact h
  · split
    · exact h.forward hi ho hheld _
    · exact h

theorem reactAll (payload : Payload) (ls : List Listener) (h : Reached S st again p q) :
    Reached S st again p (reactAll inner payload ls q) := by
  induction ls generalizing q with
  | nil => exact h
  | cons l rest ih =>
    refine ih (q := if q.listeners.contains l then Page.react inner payload l q else q) ?_
    split
    · rename_i hl
      exact h.react hi (by simpa using hl) payload
    · exact h

theorem dispatch (target kind : String) (payload : Payload) (h : Reached S st again p q) :
    Reached S st again p (dispatch inner target kind payload q).2 :=
  h.reactAll hi payload _

end

/-! ## Frames -/

/-- A loop that has no frame to come asks for one, or is refused it. -/
theorem continueLoop {loop : Nat} (hn : ∀ r ∈ q.frames, r.loop ≠ loop)
    (hc : ∀ l, q.loops[loop]? = some l → l.alive = true → l.cancelled = false)
    (h : Reached S st (· = loop) p q) : Reached S st (· = loop) p (q.continueLoop loop) := by
  unfold Page.continueLoop
  split
  · exact h
  · rename_i l hl
    obtain ⟨hloop, halive⟩ := Option.filter_eq_some_iff.1 hl
    unfold requestFrame
    split
    · rename_i id q' hr
      split at hr
      · cases hr
      · cases hr
        have hquiet := Quiet.did (.requestAnimationFrame q.nextFrame) q
        refine h.of_standing (h.ready.sound.ask hloop (hc l hloop halive) hn q.nextFrame)
          (Standing.later_ask _ _ _) h.ready.handle h.ready.starting hquiet ?_ fun _ => .inl
        refine h.ready.prompt.modifyLoop (f := fun l => { l with request := q.nextFrame })
          (fun _ => rfl) rfl (fun r hr => ?_) hquiet.journal
        refine (List.mem_append.1 hr).imp_right fun hr => ?_
        obtain rfl := List.mem_singleton.1 hr
        exact ⟨l, hloop, halive⟩
    · rename_i thrown q' hr
      split at hr
      · cases hr
        have hlogged := h.log .error Log.Target.animation
          ("could not request animation frame: " ++ thrown.shown)
        exact hlogged.of_standing (h.ready.sound.giveUp hn) (Standing.later_giveUp _ _)
          h.ready.handle h.ready.starting (.refl _) (hlogged.ready.prompt.modifyLoop
            (f := fun l => { l with cancelled := true }) (fun _ => rfl) rfl (fun _ => .inl)
            (List.prefix_refl _)) fun _ => .inl
      · cases hr

section

variable (hi : Follows S inner)

include hi

/-- The callback of a request enters the guest of its loop's owner, and lets only that loop ask
again, if that has no frame to come. -/
theorem runFrame (timestamp : Ieee.Double) (r : FrameRequest) (hn : ∀ x ∈ q.frames, x.loop ≠ r.loop)
    (h : Reached S st (· = r.loop) p q) :
    Reached S st (· = r.loop) p (runFrame inner timestamp r q) := by
  unfold Page.runFrame
  split
  · exact h.did _
  · rename_i l hl
    obtain ⟨hloop, halive⟩ := Option.filter_eq_some_iff.1 hl
    have hheld : q.Holds l.owner := h.ready.holds_of_loop hloop halive
    have ho : Serves S q l.owner := h.ready.serves_of_holds hheld
    split
    · exact h
    · rename_i hcancelled
      -- What the guest's steps have done to the page, they have not asked for a frame of this loop.
      have hcall : Reached S st (fun _ => False) q
          ((platform inner l.owner).animationFrame timestamp q).2 :=
        Attempt.meets_iff_snd.1 (animationFrame hi ho timestamp) q ⟨refl h.ready, hheld⟩
      have hnone : ∀ x ∈ ((platform inner l.owner).animationFrame timestamp q).2.frames,
          x.loop ≠ r.loop := by
        intro x hx he
        rcases hcall.later.asks x hx with hf | hlen | ⟨y, hy, hyx⟩
        · exact hf
        · have := (List.getElem?_eq_some_iff.1 hloop).1
          exact Nat.not_le_of_lt this (he ▸ hlen)
        · exact hn y hy (hyx.trans he)
      have hgoing : ∀ m, ((platform inner l.owner).animationFrame timestamp q).2.loops[r.loop]? =
          some m → m.alive = true → m.cancelled = false := by
        intro m hm hma
        rcases hcall.later.loops r.loop m hm with ⟨hlen, -⟩ | ⟨l', hl', -, hal⟩
        · exact absurd (List.getElem?_eq_some_iff.1 hloop).1 (Nat.not_lt_of_le hlen)
        · obtain rfl : l = l' := Option.some.inj (hloop.symm.trans hl')
          rcases (hal hma).2 (by simpa using hcancelled) with hmc | hf | ⟨x, hx, he⟩
          · exact hmc
          · exact hf.elim
          · exact absurd he (hn x hx)
      have hreached := h.trans_inner hcall
      simp only
      split
      · rename_i q' hr
        rw [hr] at hreached hnone hgoing
        exact hreached.continueLoop hnone hgoing
      · rename_i e q' hr
        rw [hr] at hreached hnone hgoing
        exact (hreached.log _ _ _).continueLoop hnone hgoing

theorem runFrames (timestamp : Ieee.Double) (rs : List FrameRequest) (hp : p.Ready S st)
    (hd : (rs.map (·.loop)).Nodup) (hl : ∀ r ∈ rs, r.loop < p.loops.length)
    (hn : ∀ r ∈ rs, ∀ x ∈ p.frames, x.loop ≠ r.loop) :
    Reached S st (fun loop => ∃ r ∈ rs, r.loop = loop) p (runFrames inner timestamp rs p) := by
  induction rs generalizing p with
  | nil => exact refl hp
  | cons r rest ih =>
    have hfirst := runFrame hi timestamp r (hn r (.head _)) (refl hp)
    obtain ⟨hr, hd⟩ := List.nodup_cons.1 (List.map_cons ▸ hd)
    have hlater := ih hfirst.ready hd
      (fun x hx => Nat.lt_of_lt_of_le (hl x (.tail _ hx)) hfirst.later.more) fun x hx y hy he => by
        rcases hfirst.later.asks y hy with hyr | hlen | ⟨z, hz, hzy⟩
        · exact hr (List.mem_map.2 ⟨x, hx, he.symm.trans hyr⟩)
        · exact Nat.not_le_of_lt (hl x (.tail _ hx)) (he ▸ hlen)
        · exact hn x (.tail _ hx) z hz (hzy.trans he)
    exact (hfirst.mono fun loop hloop => ⟨r, .head _, hloop.symm⟩).trans
      (hlater.mono fun loop ⟨x, hx, hxl⟩ => ⟨x, .tail _ hx, hxl⟩)

/-- All requests are taken; only their loops can have asked again. -/
theorem frame (timestamp : Ieee.Double) (h : Reached S st again p q) :
    Reached S st again p (frame inner timestamp q).2 := by
  have hs := h.ready.sound
  have htaken : ({ q with frames := [] } : Page).Ready S st :=
    { h.ready with
      sound := hs.of_frames_sublist (List.nil_sublist _)
      prompt := nofun }
  have hrun := runFrames hi timestamp q.frames htaken hs.once
    (fun r hr => by
      obtain ⟨l, hl, -⟩ := hs.requested r hr
      exact (List.getElem?_eq_some_iff.1 hl).1)
    fun _ _ _ hx => nomatch hx
  have hstill : Stays S q { q with frames := [] } := .still (.refl q) (Nat.le_refl _)
  refine h.trans_inner ⟨hrun.ready, ?_, hstill.trans hrun.stays, hrun.entered, hrun.held⟩
  exact
  { hrun.later with
    loops := fun loop m hm => (hrun.later.loops loop m hm).imp_right fun ⟨l, hl, ho, ha⟩ =>
      ⟨l, hl, ho, fun hma => (ha hma).imp_right fun hc hlc => by
        rcases hc hlc with hmc | ⟨x, hx, he⟩ | ⟨x, hx, -⟩
        · exact .inl hmc
        · exact .inr (.inr ⟨x, hx, he⟩)
        · cases hx⟩
    asks := fun r hr => by
      rcases hrun.later.asks r hr with ⟨x, hx, he⟩ | hlen | ⟨x, hx, -⟩
      · exact .inr (.inr ⟨x, hx, he⟩)
      · exact .inr (.inl hlen)
      · cases hx }

end

/-! ## Imports -/

theorem callImport (name : String) (args : Arguments) (h : Reached S st again p q) :
    Reached S st again p (callImport inner name args q).2 := by
  unfold Page.callImport
  split
  · exact h
  · rename_i owner ho
    split
    · rename_i i hfound
      have hperform := perform p inner owner (i.capability args) q h
      unfold runImport
      split
      · rename_i result q' hr
        rwa [hr] at hperform
      · rename_i e q' hr
        rw [hr] at hperform
        simp only
        split
        · exact hperform
        · exact hperform.log _ _ _
    · exact h

end Reached

end GuestBridge.Page
