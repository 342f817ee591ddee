import GuestBridge.Proofs.Bench.Passage
import GuestBridge.Proofs.Bench.Shutdown

/-!
# The loop

Attaching a guest, its init, frames, input and equations are the operations of the loop.
`LoopStep` says what any one of them can come to, in between with steps that leave the loop alone:
it is refused and nothing changes, it attaches or starts the guest, the guest traps in its init, or
the bridge runs and the guest is entered other than by its init.
-/

set_option autoImplicit false

namespace GuestBridge

/-- Whether an error refuses an operation before it has done anything. -/
def BridgeError.IsRefusal : BridgeError → Prop
  | notRunning | alreadyRunning | noGuest | guestAlreadyAttached => True
  | _ => False

def Operation.InLoop : Operation → Prop
  | attachGuest | init _ _ | animationFrame _ | dispatchInput _ | submitEquation _ => True
  | _ => False

namespace Bench

variable {G C : Type} [GraphicsContext G]

/-! ## Steps -/

/-- What a step of the loop can come to: its reply, and the bench after it. -/
inductive LoopStep (b : Bench G C) : Step C → Reply → Bench G C → Prop
  | refused {op : Operation} {e : BridgeError} (he : e.IsRefusal) :
    LoopStep b (.bridge op) (.error (.bridge e)) b
  | attached {b' : Bench G C}
    (h : Passage (b.withBridge fun bridge => { bridge with attached := true }) [] b') :
    LoopStep b (.bridge .attachGuest) (.ok .nothing) b'
  /-- The guest has returned from its init. -/
  | started {width height : UInt32} {b' : Bench G C} (hp : b.core.bridge.phase = .idle)
    (ha : b.core.bridge.attached = true)
    (h : Passage (b.withBridge fun bridge => { bridge with phase := .running })
      [.call (.init width height)] b') :
    LoopStep b (.bridge (.init width height)) (.ok .nothing) b'
  | trapped {width height : UInt32} {fault : GuestError} {b' : Bench G C}
    (hp : b.core.bridge.phase = .idle) (h : Passage b [.call (.init width height)] b') :
    LoopStep b (.bridge (.init width height)) (.error (.bridge (.guest fault))) b'
  /-- The bridge runs, and the guest is entered other than by its init, if at all. -/
  | entered {op : Operation} {reply : Reply} {es : List Event} {b' : Bench G C}
    (hp : b.core.bridge.phase = .running) (ho : ∀ width height, op ≠ .init width height)
    (hr : ∀ e, reply = .error (.bridge e) → ¬ e.IsRefusal)
    (he : ∀ entry, .call entry ∈ es → entry.isInit = false) (h : Passage b es b') :
    LoopStep b (.bridge op) reply b'
  | spared {step : Step C} {reply : Reply} {b' : Bench G C} (hs : step.SparesLoop)
    (h : Passage b [] b') : LoopStep b step reply b'

/-! ## What a step comes to -/

omit [GraphicsContext G] in
theorem Passage.calls_eq {b b' : Bench G C} {es : List Event} (h : Passage b es b') :
    b'.core.calls = b.core.calls ++ es.filterMap Event.call? := by
  rw [Core.calls_eq, Core.calls_eq, h.entries, List.filterMap_append]

namespace LoopStep

variable {b b' : Bench G C} {step : Step C} {reply : Reply}

omit [GraphicsContext G] in
theorem ready (h : LoopStep b step reply b') (hb : b.Ready) : b'.Ready := by
  cases h with
  | refused he => exact hb
  | attached h => exact h.ready ⟨hb.owned, fun _ => rfl, hb.guest⟩
  | started hp ha h => exact h.ready ⟨hb.owned, fun _ => ha, hb.guest⟩
  | trapped hp h => exact h.ready hb
  | entered hp ho hr he h => exact h.ready hb
  | spared hs h => exact h.ready hb

omit [GraphicsContext G] in
/-- The bridge runs after a step if it ran before, or if the step was an init that succeeded. -/
theorem running_iff (h : LoopStep b step reply b') : b'.core.bridge.phase = .running ↔
    b.core.bridge.phase = .running ∨
      ∃ width height, step = .bridge (.init width height) ∧ reply = .ok .nothing := by
  cases h with
  | refused he => simp
  | attached h => simp [h.phase, withBridge]
  | started hp ha h => simp [h.phase, withBridge]
  | trapped hp h => simp [h.phase]
  | entered hp ho hr he h => simp [h.phase, hp]
  | spared hs h =>
    rw [h.phase]
    refine (or_iff_left ?_).symm
    rintro ⟨width, height, rfl, -⟩
    exact hs

omit [GraphicsContext G] in
/-- Before the bridge runs a step calls the guest's init at most; after that, anything else. -/
theorem calls_eq (h : LoopStep b step reply b') : ∃ more,
    b'.core.calls = b.core.calls ++ more ∧
      ∀ entry ∈ more, entry.isInit = (b.core.bridge.phase = .idle : Bool) := by
  cases h with
  | refused he => exact ⟨[], (List.append_nil _).symm, by simp⟩
  | attached h | spared hs h => exact ⟨_, h.calls_eq, by simp⟩
  | started hp ha h | trapped hp h =>
    exact ⟨_, h.calls_eq, by simp [Event.call?, hp, EntryPoint.isInit]⟩
  | entered hp ho hr he h =>
    refine ⟨_, h.calls_eq, fun entry hm => ?_⟩
    obtain ⟨e, hmem, hcall⟩ := List.mem_filterMap.1 hm
    cases e with
    | call entry' =>
      cases hcall
      simpa [hp] using he entry hmem
    | _ => cases hcall

omit [GraphicsContext G] in
/-- An init that succeeds finds a bridge that does not run yet. -/
theorem of_started {width height : UInt32}
    (h : LoopStep b (.bridge (.init width height)) (.ok .nothing) b') :
    b.core.bridge.phase = .idle ∧ b'.core.bridge.phase = .running ∧
      b'.core.calls = b.core.calls ++ [.init width height] := by
  cases h with
  | started hp ha h => exact ⟨hp, h.phase, h.calls_eq⟩
  | entered hp ho hr he h => exact absurd rfl (ho width height)
  | spared hs h => exact hs.elim

omit [GraphicsContext G] in
theorem of_refused {op : Operation} {e : BridgeError}
    (h : LoopStep b (.bridge op) (.error (.bridge e)) b') (ho : op.InLoop) (he : e.IsRefusal) :
    b' = b := by
  cases h with
  | refused he => rfl
  | trapped hp h => exact he.elim
  | entered hp hop hr hes h => exact absurd he (hr e rfl)
  | spared hs h => cases op <;> first | exact hs.elim | exact ho.elim

end LoopStep

/-! ## What an operation comes to -/

section

variable {inner : Performer G C} {tell : Teller G C} {b : Bench G C}

/-- The reply of what only the guest can fail in is no refusal. -/
theorem ofExcept_mapError_guest {α : Type} {value : α → Value} {r : Except GuestError α}
    {e : BridgeError} (h : Reply.ofExcept value (r.mapError .guest) = .error (.bridge e)) :
    ¬ e.IsRefusal := by
  cases r with
  | error fault =>
    cases h
    exact id
  | ok a => cases h

omit [GraphicsContext G] in
theorem attachGuest_loopStep (b : Bench G C) : LoopStep b (.bridge .attachGuest)
    (Platform.reply (fun _ => .nothing) (platform inner).attachGuest b).1
    (Platform.reply (fun _ => .nothing) (platform inner).attachGuest b).2 := by
  have hbridge : (platform inner).bridge b = (.ok b.core.bridge, b) := rfl
  unfold Platform.reply Platform.attachGuest
  rw [Attempt.bind_of_ok hbridge]
  by_cases ha : b.core.bridge.attached = true
  · rw [if_pos ha]
    exact .refused (e := .guestAlreadyAttached) trivial
  · rw [if_neg ha]
    exact .attached (.refl _)

theorem init_loopStep (hi : Follows Step.SparesLoop inner tell) (hb : b.Ready)
    (width height : UInt32) :
    LoopStep b (.bridge (.init width height))
      (Platform.reply (fun _ => .nothing) ((platform inner).init width height) b).1
      (Platform.reply (fun _ => .nothing) ((platform inner).init width height) b).2 := by
  unfold Platform.reply
  by_cases hp : b.core.bridge.phase = .running
  · rw [init_of_running hp]
    exact .refused trivial
  · have hidle : b.core.bridge.phase = .idle := by
      cases h : b.core.bridge.phase with
      | idle => rfl
      | running => exact absurd h hp
    have hadmits : b.core.bridge.admits (.init width height) = true := by
      simp [Bridge.admits, EntryPoint.isInit]
    by_cases ha : b.core.bridge.attached = true
    · obtain ⟨r, b', hcall, hpass⟩ := callGuest_passage hi hb hadmits ha
      cases r with
      | error fault =>
        rw [init_of_error hp hcall]
        exact .trapped hidle hpass
      | ok =>
        rw [init_of_ok hp hcall]
        refine .started hidle ha ?_
        have hlog : Passage (b'.withBridge fun b => { b with phase := .running }) [] _ :=
          .log inner .debug Log.Target.bridge s!"guest initialized at {width}x{height}" _
        exact ⟨hlog.entries.trans (by rw [List.append_nil]; exact hpass.entries), rfl,
          hpass.attached, hpass.owned, hpass.guest⟩
    · have hcall : (platform inner).callGuest (.init width height) b = (.error .noGuest, b) := by
        rw [callGuest_eq, if_neg (by simp [hadmits]), if_pos (by simpa using ha)]
      rw [init_of_error hp hcall]
      exact .refused trivial

theorem animationFrame_loopStep (hi : Follows Step.SparesLoop inner tell) (hb : b.Ready)
    (timestamp : Ieee.Double) : LoopStep b (.bridge (.animationFrame timestamp))
      (Platform.reply .bool ((platform inner).animationFrame timestamp) b).1
      (Platform.reply .bool ((platform inner).animationFrame timestamp) b).2 := by
  unfold Platform.reply
  by_cases hp : b.core.bridge.phase = .running
  · cases hs : b.core.bridge.staleAfter? timestamp with
    | some last =>
      rw [animationFrame_of_stale hp hs]
      exact .entered hp (by rintro _ _ ⟨⟩) (by rintro _ ⟨⟩) (by simp) (.log inner _ _ _ b)
    | none =>
      let b₁ := b.withBridge fun b => { b with lastFrame := some timestamp }
      have hframe : Passage b [] b₁ := ⟨(List.append_nil _).symm, rfl, rfl, rfl, id⟩
      obtain ⟨r, b', hcall, hpass⟩ :=
        callGuest_of_running hi (hframe.ready hb) hp (.animationFrame timestamp)
      rw [animationFrame_of_next hp hs hcall]
      cases r with
      | error fault =>
        exact .entered hp (by rintro _ _ ⟨⟩) (by rintro _ ⟨⟩; exact id)
          (by simp [EntryPoint.isInit]) (hframe.trans hpass)
      | ok =>
        exact .entered hp (by rintro _ _ ⟨⟩) (by rintro _ ⟨⟩) (by simp [EntryPoint.isInit])
          (hframe.trans hpass)
  · rw [animationFrame_of_idle hp]
    exact .refused trivial

theorem isInit_entryPoint (event : InputEvent) : event.entryPoint.isInit = false := by
  cases event <;> rfl

omit [GraphicsContext G] in
theorem callGuest_of_not_running {entry : EntryPoint} (hp : b.core.bridge.phase ≠ .running)
    (hn : entry.isInit = false) :
    (platform inner).callGuest entry b = (.error .notRunning, b) := by
  rw [callGuest_eq, if_pos (by simp [Bridge.admits, hp, hn])]

theorem dispatchInput_loopStep (hi : Follows Step.SparesLoop inner tell) (hb : b.Ready)
    (event : InputEvent) : LoopStep b (.bridge (.dispatchInput event))
      (Platform.reply (fun _ => .nothing) ((platform inner).dispatchInput event) b).1
      (Platform.reply (fun _ => .nothing) ((platform inner).dispatchInput event) b).2 := by
  unfold Platform.reply Platform.dispatchInput
  by_cases hp : b.core.bridge.phase = .running
  · obtain ⟨r, b', hcall, hpass⟩ := callGuest_of_running hi hb hp event.entryPoint
    rw [hcall]
    refine .entered hp (by rintro _ _ ⟨⟩) (fun e he => ofExcept_mapError_guest he) ?_ hpass
    simp [isInit_entryPoint]
  · rw [callGuest_of_not_running hp (isInit_entryPoint event)]
    exact .refused trivial

/-- The bytes of an equation are copied, and the guest is called with the region that they are
in. -/
theorem submitEquation_passage (hi : Follows Step.SparesLoop inner tell) (hb : b.Ready)
    (hp : b.core.bridge.phase = .running) {text : String} {b' : Bench G C} {ptr len : UInt32}
    {es : List Event} (hcopy : (platform inner).copyToGuest (Text.utf8 text) b =
      (.ok (.copied ptr len), b')) (hpass : Passage b es b') :
    ∃ r b'', (platform inner).submitEquation text b = (Except.mapError .guest r, b'') ∧
      Passage b (es ++ [.call (.equation ptr len)]) b'' := by
  obtain ⟨r, b'', hcall, hcalled⟩ :=
    callGuest_of_running hi (hpass.ready hb) (hpass.phase.trans hp) (.equation ptr len)
  refine ⟨r.map fun _ => .copied ptr len, b'', ?_, hpass.trans hcalled⟩
  rw [submitEquation_of_copied hp hcopy hcall]
  cases r <;> rfl

theorem submitEquation_loopStep (hi : Follows Step.SparesLoop inner tell) (hb : b.Ready)
    (text : String) : LoopStep b (.bridge (.submitEquation text))
      (Platform.reply .copy ((platform inner).submitEquation text) b).1
      (Platform.reply .copy ((platform inner).submitEquation text) b).2 := by
  unfold Platform.reply
  by_cases hp : b.core.bridge.phase = .running
  · rcases copyToGuest_cases hi hb (hb.sound hp) (Text.utf8 text) with
      ⟨-, hc⟩ | ⟨fault, hc⟩ | ⟨-, -, b', hpass, ⟨fault, hc⟩ | ⟨fault, hc⟩ | ⟨ptr, hc⟩⟩
    · rw [submitEquation_of_empty hp hc]
      exact .entered hp (by rintro _ _ ⟨⟩) (by rintro _ ⟨⟩) (by simp) (.log inner _ _ _ b)
    · rw [submitEquation_of_error hp hc]
      exact .entered hp (by rintro _ _ ⟨⟩) (by rintro _ ⟨⟩; exact id) (by simp) (.refl b)
    · rw [submitEquation_of_error hp hc]
      exact .entered hp (by rintro _ _ ⟨⟩) (by rintro _ ⟨⟩; exact id) (by simp) hpass
    · rw [submitEquation_of_error hp hc]
      exact .entered hp (by rintro _ _ ⟨⟩) (by rintro _ ⟨⟩; exact id) (by simp) hpass
    · obtain ⟨r, b'', hs, hpass⟩ := submitEquation_passage hi hb hp hc hpass
      rw [hs]
      exact .entered hp (by rintro _ _ ⟨⟩) (fun e he => ofExcept_mapError_guest he)
        (by simp [EntryPoint.isInit]) hpass
  · rw [submitEquation_of_idle hp]
    exact .refused trivial

theorem operate_loopStep (hi : Follows Step.SparesLoop inner tell) (hb : b.Ready) {op : Operation}
    (ho : op.InLoop) : LoopStep b (.bridge op) ((platform inner).operate op b).1
      ((platform inner).operate op b).2 := by
  cases op with
  | attachGuest => exact attachGuest_loopStep b
  | init width height => exact init_loopStep hi hb width height
  | animationFrame timestamp => exact animationFrame_loopStep hi hb timestamp
  | dispatchInput event => exact dispatchInput_loopStep hi hb event
  | submitEquation text => exact submitEquation_loopStep hi hb text
  | _ => exact ho.elim

end

variable [AdjustableContext G C] {b : Bench G C}

/-- Whether a step is an operation of the loop, or leaves the loop alone, together with the steps
that it has in store for the guest. -/
def Step.OfLoop (step : Step C) : Prop :=
  ((∃ op : Operation, op.InLoop ∧ step = .bridge op) ∨ step.SparesLoop) ∧
    step.AllBelow Step.SparesLoop

/-- Whatever step of the loop is taken, this is what it can come to. -/
theorem perform_loopStep (hb : b.Ready) {step : Step C} (hs : step.OfLoop) :
    LoopStep b step (perform step b).1 (perform step b).2 := by
  obtain ⟨⟨op, hop, rfl⟩ | hspares, hbelow⟩ := hs
  · rw [perform_bridge_eq hb.owned]
    exact operate_loopStep (performFor_follows _) hb hop
  · have hleads : Leads _ (Happening.Within Step.SparesLoop) [] b _ [] (perform step b).2 :=
      (perform_leads step b hbelow).mono fun h hc => ⟨step, hspares, hc⟩
    exact .spared hspares (hleads.passage hb)

end Bench

end GuestBridge
