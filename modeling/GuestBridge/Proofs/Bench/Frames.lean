import GuestBridge.Bench.Setup
import GuestBridge.Proofs.Bench.Chronicle
import GuestBridge.Proofs.Ieee.Order

/-!
# The order of frames

As long as no step calls the guest's frame entry point directly, the bridge's record of the last
frame is the last one the guest was called with (`History.lastFrame_eq`), and no frame is at most
the one before it (`History.frames_chain`). So the timestamps that the guest sees are strictly
increasing if and only if they are all numbers, or at most one
(`frames_increasing_iff`). A timestamp that is not a number gets past the guard, and so does every
timestamp after it.
-/

set_option autoImplicit false

namespace GuestBridge

open Ieee

/-- The timestamp of the frame that an event delivers. -/
def Event.frame? : Event → Option Double
  | .call (.animationFrame timestamp) => some timestamp
  | _ => none

/-- The timestamps of the frames that the guest was called with, in order. -/
def Core.frames {G : Type} (c : Core G) : List Double := c.journal.toList.filterMap Event.frame?

theorem Core.frames_eq {G : Type} (c : Core G) : c.frames = c.entries.filterMap Event.frame? := by
  refine (c.filterMap_entries fun e he => ?_).symm
  cases e <;> first | rfl | cases he

namespace Bench

variable {G C : Type} [GraphicsContext G]

/-- Whether a happening is a call of the frame entry point that does not go through the bridge's
guard. -/
def Happening.IsDirectFrame (h : Happening) : Prop :=
  ∃ timestamp, h = .called (.animationFrame timestamp)

def Step.IsDirectFrame (step : Step C) : Prop :=
  ∃ timestamp, step = .bridge (.callGuest (.animationFrame timestamp))

theorem Happening.not_isDirectFrame {h : Happening}
    (hw : h.Within fun step : Step C => ¬ step.IsDirectFrame) : ¬ h.IsDirectFrame := by
  rintro ⟨timestamp, rfl⟩
  obtain ⟨step, hn, hc⟩ := hw
  refine hn ⟨timestamp, ?_⟩
  cases step with
  | bridge op =>
    cases op with
    | callGuest entry => rw [show entry = _ from (Eq.symm hc : entry = .animationFrame timestamp)]
    | init width height => cases hc
    | dispatchInput event => cases event <;> cases hc
    | submitEquation text =>
      obtain ⟨ptr, len, hc⟩ := hc
      cases hc
    | _ => exact hc.elim
  | _ => exact hc.elim

/-- What is known of the frames along a history. -/
structure FramesInOrder (b : Bench G C) : Prop where
  completions : b.CompletionsFetch
  last : b.core.bridge.lastFrame = b.core.frames.getLast?
  chain : b.core.frames.IsChain fun x y => y.le x = false

/-- Only a frame delivers a frame, and it takes the place of the last one. -/
theorem Happens.frames_eq {m n : Moment G C} {h : Happening} (hh : Happens m h n)
    (hd : ¬ h.IsDirectFrame) (hm : m.bench.CompletionsFetch) :
    (∃ timestamp, h = .frame timestamp ∧
      n.bench.core.frames = m.bench.core.frames ++ [timestamp] ∧
      n.bench.core.bridge.lastFrame = some timestamp) ∨
    n.bench.core.frames = m.bench.core.frames ∧
      n.bench.core.bridge.lastFrame = m.bench.core.bridge.lastFrame := by
  obtain ⟨registry, hb⟩ := hh.bridge_eq
  have hf : n.bench.core.frames =
      m.bench.core.frames ++ h.entry?.toList.filterMap Event.frame? := by
    rw [Core.frames_eq, hh.entries_eq, List.filterMap_append, ← Core.frames_eq]
  rw [hf, hb]
  cases h with
  | frame timestamp => exact .inl ⟨timestamp, rfl, rfl, rfl⟩
  | called entry =>
    refine .inr ⟨?_, rfl⟩
    cases entry with
    | animationFrame timestamp => exact absurd ⟨timestamp, rfl⟩ hd
    | _ => exact List.append_nil _
  | told c =>
    refine .inr ⟨?_, rfl⟩
    cases hh with
    | told hdef ho =>
      obtain ⟨_, _, _, _, _, he⟩ := hm c (by rw [hdef]; exact .head _)
      simp [Happening.entry?, he, Event.frame?]
  | shutDown =>
    obtain ⟨requests, he, -⟩ := Bridge.cancelPending_eq m.bench.core.bridge
    exact .inr ⟨List.append_nil _, by rw [Happening.onBridge, he]⟩
  | _ => exact .inr ⟨List.append_nil _, rfl⟩

theorem Happens.framesInOrder {m n : Moment G C} {h : Happening} (hh : Happens m h n)
    (hd : ¬ h.IsDirectFrame) (hm : m.bench.FramesInOrder) : n.bench.FramesInOrder := by
  rcases hh.frames_eq hd hm.completions with ⟨timestamp, rfl, hf, hl⟩ | ⟨hf, hl⟩
  · refine ⟨hh.completionsFetch hm.completions, by rw [hf, hl, List.getLast?_concat], ?_⟩
    rw [hf]
    refine hm.chain.append (.singleton _) fun x hx y hy => ?_
    -- The frame before is the one that the guard has compared with.
    cases hh with
    | frame hp ha hs =>
      obtain rfl : timestamp = y := by simpa using hy
      unfold Bridge.staleAfter? at hs
      rw [hm.last, Option.mem_def.1 hx, Option.filter_some] at hs
      by_contra hle
      rw [if_pos (by simpa using hle)] at hs
      cases hs
  · exact ⟨hh.completionsFetch hm.completions, by rw [hf, hl, hm.last], by rw [hf]; exact hm.chain⟩

omit [GraphicsContext G] in
theorem Quiet.framesInOrder {b b' : Bench G C} (hq : Quiet b b') (h : b.FramesInOrder) :
    b'.FramesInOrder := by
  have hf : b'.core.frames = b.core.frames := by
    rw [Core.frames_eq, hq.entries_eq, ← Core.frames_eq]
  refine ⟨?_, by rw [hf, hq.bridge, h.last], by rw [hf]; exact h.chain⟩
  unfold CompletionsFetch
  rw [hq.deferred]
  exact h.completions

theorem History.framesInOrder {m n : Moment G C} {hs : List Happening} (h : History m hs n)
    (hd : ∀ h ∈ hs, ¬ h.IsDirectFrame) (hm : m.bench.FramesInOrder) : n.bench.FramesInOrder := by
  induction h with
  | refl => exact hm
  | quiet before hq ih => exact hq.framesInOrder (ih hd)
  | snoc before now ih =>
    exact now.framesInOrder (hd _ (by simp)) (ih fun h hm => hd h (by simp [hm]))

omit [GraphicsContext G] in
theorem Fresh.framesInOrder {b : Bench G C} (h : b.Fresh) : b.FramesInOrder := by
  have hf : b.core.frames = [] := by
    unfold Core.frames
    rw [h.journal]
    rfl
  refine ⟨?_, ?_, ?_⟩
  · unfold CompletionsFetch
    rw [h.deferred]
    simp
  · rw [hf, h.bridge]
    rfl
  · rw [hf]
    exact .nil

variable [AdjustableContext G C]

/-- On every run without direct calls of the frame entry point, the frames that the guest sees are
strictly increasing exactly when all of them are numbers, or there is at most one; and none is at
most the one before it in any case. -/
theorem frames_increasing_iff {b : Bench G C} (hb : b.Fresh)
    (hg : b.guest.All fun step => ¬ step.IsDirectFrame) (steps : List (Step C))
    (hs : ∀ step ∈ steps, ¬ step.IsDirectFrame ∧ step.AllBelow fun step => ¬ step.IsDirectFrame) :
    ((run steps b).core.frames.IsChain fun x y => y.le x = false) ∧
    ((run steps b).core.frames.Pairwise (fun x y => x.lt y = true) ↔
      (run steps b).core.frames.length ≤ 1 ∨
        ∀ timestamp ∈ (run steps b).core.frames, timestamp.isNan = false) := by
  obtain ⟨loads, hh, hc, -⟩ := run_history hb hg steps fun step hm => (hs step hm).2
  have hd : ∀ h ∈ chronicle steps b, ¬ h.IsDirectFrame := by
    refine hc.forall_of ?_ fun h hw => h.not_isDirectFrame hw
    rintro h ⟨step, hm, hcause⟩
    exact h.not_isDirectFrame ⟨step, (hs step hm).1, hcause⟩
  have hchain := (hh.framesInOrder hd hb.framesInOrder).chain
  exact ⟨hchain, Double.pairwise_lt_iff hchain⟩

/-- Two frames in order: the second is greater. -/
theorem frames_increasing_of_numbers :
    let b := run [.bridge firstInit, .bridge (.animationFrame .zero),
      .bridge (.animationFrame .one)] (scripted 256 true)
    b.core.frames = [.zero, .one] ∧ b.core.frames.Pairwise fun x y => x.lt y = true := by
  intro b
  have hf : b.core.frames = [.zero, .one] := by decide +kernel
  have hg : (scripted 256 true).guest.All fun step => ¬ step.IsDirectFrame :=
    fun _ hm => absurd hm List.not_mem_nil
  refine ⟨hf, (frames_increasing_iff ⟨rfl, rfl, rfl, rfl, rfl, rfl⟩ hg _ ?_).2.2 (.inr ?_)⟩
  · simp [Step.IsDirectFrame, Step.AllBelow, firstInit]
  · show ∀ timestamp ∈ b.core.frames, timestamp.isNan = false
    rw [hf]
    decide +kernel

/-- A frame whose timestamp is not a number is delivered, and is not greater than the one before
it. -/
theorem frames_not_increasing_past_nan :
    let nan : Double := ⟨0x7ff8000000000000⟩
    let b := run [.bridge firstInit, .bridge (.animationFrame .one), .bridge (.animationFrame nan)]
      (scripted 256 true)
    b.core.frames = [.one, nan] ∧ ¬ b.core.frames.Pairwise fun x y => x.lt y = true := by
  decide +kernel

end Bench

end GuestBridge
