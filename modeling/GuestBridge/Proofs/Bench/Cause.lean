import GuestBridge.Proofs.Bench.Happening

/-!
# What a step can cause

`Happening.CausedBy` says which steps a happening can come from. A step may also have steps in
store for the guest: `Step.AllBelow p` and `Guest.All p` say that those have the property `p`.
`Course top inner hs` is the shape of what happens in the course of one step: happenings of the
step itself, which satisfy `top`, and between them what the guest's steps cause, which satisfies
`inner`; and once the allocator has been asked for room for an image, only the guest's steps come
before that image is copied or the copy fails.
-/

set_option autoImplicit false

namespace GuestBridge.Bench

variable {G C : Type}

/-! ## Steps in store -/

mutual

/-- All steps that a step has in store for the guest have a property. -/
def Step.AllBelow (p : Step C → Prop) : Step C → Prop
  | .interlude _ steps => Step.AllIn p steps
  | _ => True

/-- All steps of a list have a property, and all that they have in store. -/
def Step.AllIn (p : Step C → Prop) : List (Step C) → Prop
  | [] => True
  | step :: rest => p step ∧ Step.AllBelow p step ∧ Step.AllIn p rest

end

/-- All steps that the guest is to take have a property. -/
def Guest.All (p : Step C → Prop) (g : Guest C) : Prop :=
  ∀ entry ∈ g.interludes.queue, Step.AllIn p entry.2

variable {p : Step C → Prop}

theorem Guest.All.add {g : Guest C} (h : g.All p) {steps : List (Step C)}
    (hs : Step.AllIn p steps) (name : String) :
    ({ g with interludes := g.interludes.add name steps } : Guest C).All p := by
  intro entry he
  rcases List.mem_append.1 he with he | he
  · exact h entry he
  · rw [List.mem_singleton.1 he]
    exact hs

theorem Guest.All.take {g : Guest C} (h : g.All p) (name : String) :
    Step.AllIn p (g.interludes.take name).1 ∧
      ({ g with interludes := (g.interludes.take name).2 } : Guest C).All p := by
  unfold Interludes.take
  rcases hf : g.interludes.queue.find? (·.1 = name) with _ | ⟨key, steps⟩
  · simp only [hf]
    exact ⟨trivial, h⟩
  · simp only [hf]
    refine ⟨h _ (List.mem_of_find?_eq_some hf), fun entry he => h entry ?_⟩
    exact List.mem_of_mem_eraseP he

mutual

theorem Step.allBelow_of_forall (h : ∀ step, p step) (step : Step C) : step.AllBelow p := by
  cases step with
  | interlude name steps => exact Step.allIn_of_forall h steps
  | _ => trivial

theorem Step.allIn_of_forall (h : ∀ step, p step) (steps : List (Step C)) :
    Step.AllIn p steps := by
  cases steps with
  | nil => trivial
  | cons step rest =>
    exact ⟨h step, Step.allBelow_of_forall h step, Step.allIn_of_forall h rest⟩

end

/-! ## Causes -/

/-- Whether a step calls the guest through an entry point, other than to tell it of an image or
to deliver a frame in due course. -/
def Step.Calls : Step C → EntryPoint → Prop
  | .bridge (.init width height), entry => entry = .init width height
  | .bridge (.callGuest entry'), entry => entry = entry'
  | .bridge (.dispatchInput event), entry => entry = event.entryPoint
  | .bridge (.submitEquation _), entry => ∃ ptr len, entry = .equation ptr len
  | _, _ => False

/-- Whether a step asks for an allocation, other than for an image. -/
def Step.Allocates : Step C → Prop
  | .bridge (.submitEquation _) | .bridge (.copyToGuest _) | .reserve _ | .writeText _
  | .writeWords _ => True
  | _ => False

namespace Happening

/-- Whether a load is taken up, or its image copied. -/
def IsLoad : Happening → Prop
  | lost _ | ended _ _ | asked _ _ | copied _ _ _ | failed _ _ => True
  | _ => False

/-- Whether a completion is taken off its queue. -/
def IsDelivery : Happening → Prop
  | told _ | omitted _ _ => True
  | _ => False

/-- Whether a happening can be the doing of a step itself, and not of the guest's steps inside
it. -/
def CausedBy : Happening → Step C → Prop
  | performed c, step => step = .bridge (.capability c)
  | accepted _, step => ∃ c, step = .bridge (.capability c)
  | cancelled id, step => step = .cancelRequest id
  | shutDown, step => step = .bridge .shutdown
  | dropped, step => step = .drop
  | attached, step => step = .bridge .attachGuest
  | started, step => ∃ width height, step = .bridge (.init width height)
  | frame timestamp, step => step = .bridge (.animationFrame timestamp)
  | called entry, step => step.Calls entry
  | allocated _, step => step.Allocates
  | lost _, step | ended _ _, step | asked _ _, step | copied _ _ _, step | failed _ _, step =>
    step = .runTasks ∨ step = .runAll
  | told _, step | omitted _ _, step =>
    step = .runDeferred ∨ step = .runOneDeferred ∨ step = .runAll

/-- Whether a happening can come from a step with a property. -/
def Within (p : Step C → Prop) (h : Happening) : Prop := ∃ step, p step ∧ h.CausedBy step

theorem IsLoad.causedBy {h : Happening} (hl : h.IsLoad) {step : Step C}
    (hs : step = .runTasks ∨ step = .runAll) : h.CausedBy step := by
  cases h <;> first | exact hs | exact hl.elim

theorem IsDelivery.causedBy {h : Happening} (hd : h.IsDelivery) {step : Step C}
    (hs : step = .runDeferred ∨ step = .runOneDeferred ∨ step = .runAll) : h.CausedBy step := by
  cases h <;> first | exact hs | exact hd.elim

/-- Whether a happening begins or ends a copy. -/
def IsCopying : Happening → Prop
  | asked _ _ | copied _ _ _ | failed _ _ => True
  | _ => False

/-- Whether a happening ends the copy of an image. -/
def EndsCopy (fetch : Accepted) (image : DecodedImage) (h : Happening) : Prop :=
  h = .failed fetch image ∨ ∃ ptr, h = .copied fetch image ptr

theorem isLoad_of_endsCopy {fetch : Accepted} {image : DecodedImage} {h : Happening}
    (he : h.EndsCopy fetch image) : h.IsLoad := by
  rcases he with rfl | ⟨ptr, rfl⟩ <;> trivial

end Happening

/-! ## Courses -/

inductive Course (top inner : Happening → Prop) : List Happening → Prop
  | nil : Course top inner []
  | one {h : Happening} (ht : top h) (hc : ¬ h.IsCopying) : Course top inner [h]
  | inner {hs : List Happening} (hi : ∀ h ∈ hs, inner h) : Course top inner hs
  | copy {fetch : Accepted} {image : DecodedImage} {hs : List Happening} {last : Happening}
    (ha : top (.asked fetch image)) (hi : ∀ h ∈ hs, inner h) (hl : top last)
    (he : last.EndsCopy fetch image) : Course top inner (.asked fetch image :: hs ++ [last])
  | append {hs hs' : List Happening} (h : Course top inner hs) (h' : Course top inner hs') :
    Course top inner (hs ++ hs')

namespace Course

variable {top top' inner : Happening → Prop} {hs : List Happening}

theorem mono (h : Course top inner hs) (ht : ∀ h, top h → top' h) : Course top' inner hs := by
  induction h with
  | nil => exact .nil
  | one h hc => exact .one (ht _ h) hc
  | inner hi => exact .inner hi
  | copy ha hi hl he => exact .copy (ht _ ha) hi (ht _ hl) he
  | append _ _ ih ih' => exact ih.append ih'

/-- All of a course satisfies what both the step and the guest's steps satisfy. -/
theorem forall_of (h : Course top inner hs) {q : Happening → Prop} (ht : ∀ h, top h → q h)
    (hi : ∀ h, inner h → q h) : ∀ h ∈ hs, q h := by
  induction h with
  | nil => simp
  | one h hc =>
    intro h' hm
    rw [List.mem_singleton.1 hm]
    exact ht _ h
  | inner h => exact fun h' hm => hi _ (h h' hm)
  | copy ha h hl he =>
    intro h' hm
    rcases List.mem_append.1 hm with hm | hm
    · rcases List.mem_cons.1 hm with rfl | hm
      · exact ht _ ha
      · exact hi _ (h h' hm)
    · rw [List.mem_singleton.1 hm]
      exact ht _ hl
  | append _ _ ih ih' =>
    intro h' hm
    rcases List.mem_append.1 hm with hm | hm
    · exact ih h' hm
    · exact ih' h' hm

end Course

end GuestBridge.Bench
