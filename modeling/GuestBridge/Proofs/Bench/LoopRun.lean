import GuestBridge.Proofs.Bench.Loop

/-!
# Runs of the loop

What any one step of the loop can come to (`perform_loopStep`) decides what a run of them comes to,
by induction on its steps: when the bridge starts to run (`run_running_iff`), and what the guest is
called by before (`run_calls_of_idle`) and after that (`run_calls_of_running`). `LoopContract` puts
together what a maintainer of the loop may rely on.
-/

set_option autoImplicit false

namespace GuestBridge.Bench

variable {G C : Type} [GraphicsContext G] [AdjustableContext G C] {b : Bench G C}

/-! ## Runs -/

variable {steps : List (Step C)}

theorem run_ready (hb : b.Ready) (hs : ∀ step ∈ steps, step.OfLoop) : (run steps b).Ready := by
  induction steps generalizing b with
  | nil => exact hb
  | cons step rest ih =>
    have hstep := perform_loopStep hb (hs step (.head _))
    exact ih (hstep.ready hb) fun s hm => hs s (.tail _ hm)

/-- The init that a run of steps starts the bridge with. -/
def Starts (b : Bench G C) (steps before : List (Step C)) (width height : UInt32)
    (after : List (Step C)) : Prop :=
  steps = before ++ .bridge (.init width height) :: after ∧
    (perform (.bridge (.init width height)) (run before b)).1 = .ok .nothing

theorem run_running_iff (hb : b.Ready) (hs : ∀ step ∈ steps, step.OfLoop) :
    (run steps b).core.bridge.phase = .running ↔ b.core.bridge.phase = .running ∨
      ∃ before width height after, Starts b steps before width height after := by
  induction steps generalizing b with
  | nil =>
    refine (or_iff_left ?_).symm
    rintro ⟨before, width, height, after, he, -⟩
    simp at he
  | cons step rest ih =>
    have hstep := perform_loopStep hb (hs step (.head _))
    have hrest := ih (hstep.ready hb) fun s hm => hs s (.tail _ hm)
    rw [show run (step :: rest) b = run rest (perform step b).2 from rfl, hrest,
      hstep.running_iff, or_assoc]
    refine or_congr_right ⟨?_, ?_⟩
    · rintro (⟨width, height, rfl, hr⟩ | ⟨before, width, height, after, he, hr⟩)
      · exact ⟨[], width, height, rest, rfl, hr⟩
      · exact ⟨step :: before, width, height, after, by rw [he]; rfl, hr⟩
    · rintro ⟨before, width, height, after, he, hr⟩
      cases before with
      | nil =>
        cases he
        exact .inl ⟨width, height, rfl, hr⟩
      | cons first before =>
        cases he
        exact .inr ⟨before, width, height, after, rfl, hr⟩

/-- As long as the bridge does not run, the guest is called by its init only. -/
theorem run_calls_of_idle (hb : b.Ready) (hs : ∀ step ∈ steps, step.OfLoop)
    (hp : (run steps b).core.bridge.phase ≠ .running)
    (hc : ∀ entry ∈ b.core.calls, entry.isInit = true) :
    ∀ entry ∈ (run steps b).core.calls, entry.isInit = true := by
  induction steps generalizing b with
  | nil => exact hc
  | cons step rest ih =>
    have hstep := perform_loopStep hb (hs step (.head _))
    have hidle : b.core.bridge.phase ≠ .running := fun h =>
      hp ((run_running_iff hb hs).2 (.inl h))
    obtain ⟨more, he, hinit⟩ := hstep.calls_eq
    refine ih (hstep.ready hb) (fun s hm => hs s (.tail _ hm)) hp fun entry hm => ?_
    rw [he] at hm
    rcases List.mem_append.1 hm with hm | hm
    · exact hc entry hm
    · rw [hinit entry hm]
      cases h : b.core.bridge.phase with
      | idle => rfl
      | running => exact absurd h hidle

/-- Once the bridge runs, the guest is not called by its init any more. -/
theorem run_calls_of_running (hb : b.Ready) (hs : ∀ step ∈ steps, step.OfLoop)
    (hp : b.core.bridge.phase = .running) : ∃ more,
      (run steps b).core.calls = b.core.calls ++ more ∧ ∀ entry ∈ more, entry.isInit = false := by
  induction steps generalizing b with
  | nil => exact ⟨[], (List.append_nil _).symm, by simp⟩
  | cons step rest ih =>
    have hstep := perform_loopStep hb (hs step (.head _))
    obtain ⟨first, hf, hfirst⟩ := hstep.calls_eq
    obtain ⟨more, hm, hmore⟩ := ih (hstep.ready hb) (fun s hm => hs s (.tail _ hm))
      (hstep.running_iff.2 (.inl hp))
    refine ⟨first ++ more, ?_, fun entry hmem => ?_⟩
    · rw [show run (step :: rest) b = run rest (perform step b).2 from rfl, hm, hf,
        List.append_assoc]
    · rcases List.mem_append.1 hmem with hmem | hmem
      · rw [hfirst entry hmem, hp]
        rfl
      · exact hmore entry hmem

/-! ## The contract of the loop -/

/-- What holds of the bench `b` after the steps of a run. -/
structure LoopContract (b : Bench G C) (steps : List (Step C)) : Prop where
  /-- The bridge runs exactly if an init has succeeded. -/
  running_iff : (run steps b).core.bridge.phase = .running ↔
    ∃ before width height after, Starts b steps before width height after
  /-- It never stops running. -/
  runs_on : ∀ before after, steps = before ++ after →
    (run before b).core.bridge.phase = .running → (run steps b).core.bridge.phase = .running
  /-- A bridge that runs has a guest. -/
  sound : (run steps b).core.bridge.phase = .running → (run steps b).core.bridge.attached = true
  /-- A guest stays. -/
  attached : ∀ before after, steps = before ++ after →
    (run before b).core.bridge.attached = true → (run steps b).core.bridge.attached = true
  /-- No other guest takes its place. -/
  attach : (run steps b).core.bridge.attached = true →
    perform (.bridge .attachGuest) (run steps b) =
      (.error (.bridge .guestAlreadyAttached), run steps b)
  /-- Until an init has succeeded the guest is called by its init only. -/
  idle_calls : (run steps b).core.bridge.phase = .idle →
    ∀ entry ∈ (run steps b).core.calls, entry.isInit = true
  /-- The init that succeeds is the last one that the guest is called by. -/
  calls : ∀ before width height after, Starts b steps before width height after →
    (∀ entry ∈ (run before b).core.calls, entry.isInit = true) ∧
      ∃ more, (run steps b).core.calls =
          (run before b).core.calls ++ .init width height :: more ∧
        ∀ entry ∈ more, entry.isInit = false
  /-- Input enters the guest exactly once, whether or not it traps. -/
  input : (run steps b).core.bridge.phase = .running → ∀ event : InputEvent,
    (perform (.bridge (.dispatchInput event)) (run steps b)).2.core.entries =
      (run steps b).core.entries ++ [.call event.entryPoint]
  /-- An equation that can be copied is allocated once and handed over once. -/
  equation : (run steps b).core.bridge.phase = .running → ∀ text ptr len,
    (perform (.bridge (.copyToGuest (Text.utf8 text))) (run steps b)).1 =
        .ok (.copy (.copied ptr len)) →
      len.toNat = (Text.utf8 text).length ∧
      (perform (.bridge (.submitEquation text)) (run steps b)).2.core.entries =
        (run steps b).core.entries ++ [.alloc len, .call (.equation ptr len)]
  /-- An empty equation is neither allocated nor handed over. -/
  no_equation : (perform (.bridge (.submitEquation "")) (run steps b)).2.core.entries =
    (run steps b).core.entries
  /-- An operation that is refused changes nothing. -/
  refused : ∀ op : Operation, op.InLoop → ∀ e : BridgeError, e.IsRefusal →
    (perform (.bridge op) (run steps b)).1 = .error (.bridge e) →
      (perform (.bridge op) (run steps b)).2 = run steps b

omit [GraphicsContext G] [AdjustableContext G C] in
theorem Fresh.ready (hb : b.Fresh) (hg : b.guest.All Step.SparesLoop) : b.Ready :=
  ⟨hb.owned, hb.sound, hg⟩

theorem calls_of_starts (hb : b.Ready) (hs : ∀ step ∈ steps, step.OfLoop)
    (hc : ∀ entry ∈ b.core.calls, entry.isInit = true) {before after : List (Step C)}
    {width height : UInt32} (hst : Starts b steps before width height after) :
    (∀ entry ∈ (run before b).core.calls, entry.isInit = true) ∧
      ∃ more, (run steps b).core.calls =
          (run before b).core.calls ++ .init width height :: more ∧
        ∀ entry ∈ more, entry.isInit = false := by
  obtain ⟨rfl, hr⟩ := hst
  have hbefore : ∀ step ∈ before, step.OfLoop := fun step hm =>
    hs step (List.mem_append_left _ hm)
  have hready := run_ready hb hbefore
  have hstep := perform_loopStep hready (hs _ (List.mem_append_right before (.head _)))
  rw [hr] at hstep
  obtain ⟨hidle, hrunning, hcall⟩ := hstep.of_started
  obtain ⟨more, hmore, hn⟩ := run_calls_of_running (hstep.ready hready)
    (fun step hm => hs step (List.mem_append_right before (.tail _ hm))) hrunning
  refine ⟨run_calls_of_idle hb hbefore (by simp [hidle]) hc, more, ?_, hn⟩
  rw [run_append]
  refine hmore.trans ?_
  rw [hcall, List.append_assoc]
  rfl

theorem perform_attachGuest_of_attached (hb : b.Ready) (ha : b.core.bridge.attached = true) :
    perform (.bridge .attachGuest) b = (.error (.bridge .guestAlreadyAttached), b) := by
  let inner : Performer G C := performFor (b.guest.weight + 1)
  have hbridge : (platform inner).bridge b = (.ok b.core.bridge, b) := rfl
  have hattach : (platform inner).attachGuest b = (.error .guestAlreadyAttached, b) := by
    unfold Platform.attachGuest
    rw [Attempt.bind_of_ok hbridge, if_pos ha]
    rfl
  rw [perform_bridge_eq hb.owned]
  show Platform.reply _ (platform inner).attachGuest b = _
  unfold Platform.reply
  rw [hattach]
  rfl

theorem perform_dispatchInput_entries (hb : b.Ready) (hp : b.core.bridge.phase = .running)
    (event : InputEvent) : (perform (.bridge (.dispatchInput event)) b).2.core.entries =
      b.core.entries ++ [.call event.entryPoint] := by
  obtain ⟨r, b', hcall, hpass⟩ :=
    callGuest_of_running (performFor_follows (b.guest.weight + 1)) hb hp event.entryPoint
  rw [perform_bridge_eq hb.owned]
  show ((platform _).callGuest event.entryPoint b).2.core.entries = _
  rw [hcall]
  exact hpass.entries

theorem perform_submitEquation_entries (hb : b.Ready) (hp : b.core.bridge.phase = .running)
    {text : String} {ptr len : UInt32}
    (hc : (perform (.bridge (.copyToGuest (Text.utf8 text))) b).1 = .ok (.copy (.copied ptr len))) :
    len.toNat = (Text.utf8 text).length ∧
      (perform (.bridge (.submitEquation text)) b).2.core.entries =
        b.core.entries ++ [.alloc len, .call (.equation ptr len)] := by
  let inner : Performer G C := performFor (b.guest.weight + 1)
  have hi : Follows Step.SparesLoop inner _ := performFor_follows _
  rw [perform_bridge_eq hb.owned] at hc ⊢
  change Reply.ofExcept Value.copy ((platform inner).copyToGuest (Text.utf8 text) b).1 = _ at hc
  show _ ∧ ((platform inner).submitEquation text b).2.core.entries = _
  rcases copyToGuest_cases hi hb (hb.sound hp) (Text.utf8 text) with
    ⟨-, hr⟩ | ⟨fault, hr⟩ | ⟨-, hlen, b', hpass, ⟨fault, hr⟩ | ⟨fault, hr⟩ | ⟨ptr', hr⟩⟩
  · rw [hr] at hc
    cases hc
  · rw [hr] at hc
    cases hc
  · rw [hr] at hc
    cases hc
  · rw [hr] at hc
    cases hc
  · rw [hr] at hc
    cases hc
    obtain ⟨r, b'', hs, hpass⟩ := submitEquation_passage hi hb hp hr hpass
    rw [hs]
    exact ⟨UInt32.toNat_ofNat_of_lt hlen, hpass.entries⟩

theorem perform_submitEquation_empty (hb : b.Ready) :
    (perform (.bridge (.submitEquation "")) b).2.core.entries = b.core.entries := by
  let inner : Performer G C := performFor (b.guest.weight + 1)
  rw [perform_bridge_eq hb.owned]
  show ((platform inner).submitEquation "" b).2.core.entries = _
  by_cases hp : b.core.bridge.phase = .running
  · rcases copyToGuest_cases (performFor_follows _ : Follows Step.SparesLoop inner _) hb
      (hb.sound hp) (Text.utf8 "") with ⟨-, hr⟩ | ⟨fault, hr⟩ | ⟨hn, -⟩
    · rw [submitEquation_of_empty hp hr]
      exact (Passage.log inner _ _ _ b).entries.trans (List.append_nil _)
    · rw [submitEquation_of_error hp hr]
    · exact absurd rfl hn
  · rw [submitEquation_of_idle hp]

/-- Every run of operations of the loop, in any order and with the guest trapping wherever it likes,
keeps the contract of the loop. -/
theorem run_loopContract (hb : b.Fresh) (hg : b.guest.All Step.SparesLoop)
    (hs : ∀ step ∈ steps, step.OfLoop) : LoopContract b steps := by
  have hready := hb.ready hg
  have hrun := run_ready hready hs
  have hidle : b.core.bridge.phase ≠ .running := by
    rw [hb.bridge]
    simp
  have hnone : ∀ entry ∈ b.core.calls, entry.isInit = true := by
    simp [Core.calls, hb.journal]
  have split : ∀ before after, steps = before ++ after →
      run steps b = run after (run before b) ∧ (run before b).Ready ∧
        ∀ step ∈ after, step.OfLoop := by
    rintro before after rfl
    exact ⟨run_append _ _ _, run_ready hready fun step hm => hs step (List.mem_append_left _ hm),
      fun step hm => hs step (List.mem_append_right _ hm)⟩
  constructor
  · rw [run_running_iff hready hs]
    exact or_iff_right hidle
  · intro before after he hp
    obtain ⟨hr, hbefore, hafter⟩ := split before after he
    rw [hr]
    exact (run_running_iff hbefore hafter).2 (.inl hp)
  · exact hrun.sound
  · intro before after he ha
    obtain ⟨hr, -, -⟩ := split before after he
    rw [hr]
    exact run_attached ha _
  · exact perform_attachGuest_of_attached hrun
  · exact fun hp => run_calls_of_idle hready hs (by simp [hp]) hnone
  · exact fun before width height after hst => calls_of_starts hready hs hnone hst
  · exact perform_dispatchInput_entries hrun
  · exact fun hp text ptr len hc => perform_submitEquation_entries hrun hp hc
  · exact perform_submitEquation_empty hrun
  · intro op ho e he hr
    have hloop := operate_loopStep (performFor_follows ((run steps b).guest.weight + 1)) hrun ho
    rw [← perform_bridge_eq hrun.owned, hr] at hloop
    exact hloop.of_refused ho he

/-- The guest traps in its first init and returns from its second; an event comes before, between
and after them. -/
theorem run_loopContract_of_trap :
    let steps : List (Step ScriptedContext.Change) :=
      [.failExport "onInit" (some "out of memory"), .bridge firstInit,
        .bridge (.dispatchInput (.keyUp 27)), .restoreExport "onInit", .bridge firstInit,
        .bridge (.dispatchInput (.keyUp 27)), .bridge (.submitEquation "x")]
    (run steps (scripted 256 true)).core.calls =
        [.init 640 480, .init 640 480, .keyUp 27 false, .equation 8 1] ∧
      ∃ before width height after, Starts (scripted 256 true) steps before width height after := by
  intro steps
  have hcalls : (run steps (scripted 256 true)).core.calls =
      [.init 640 480, .init 640 480, .keyUp 27 false, .equation 8 1] := by decide +kernel
  have hp : (run steps (scripted 256 true)).core.bridge.phase = .running := by decide +kernel
  have hs : ∀ step ∈ steps, step.OfLoop := by
    simp [steps, Step.OfLoop, Operation.InLoop, Step.SparesLoop, Step.AllBelow, firstInit]
  have hc := run_loopContract (b := scripted 256 true) ⟨rfl, rfl, rfl, rfl, rfl, rfl⟩
    (fun _ => nofun) hs
  exact ⟨hcalls, hc.running_iff.1 hp⟩

end GuestBridge.Bench
