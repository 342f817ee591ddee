import GuestBridge.Proofs.Bench.Chronicle
import GuestBridge.Proofs.Platform.Upkeep

/-!
# What loads come to

While no step of the guest changes the images, a load that is taken up has come to what the images
of the bench say (`perform_takenFrom`): the allocator is asked for room for an image only if the
load has brought that very image, and a fetch ends only over the result that its load has.
`Stocked` is the invariant behind it: the images are those that the bench had to begin with, and
every task on the queue was there already or knows its image by them.
-/

set_option autoImplicit false

namespace GuestBridge.Bench

variable {G C : Type}

/-- Whether a step leaves the images as they are. -/
def Step.KeepsImages : Step C → Prop
  | .setImage _ _ => False
  | _ => True

/-- A task that is queued, or one whose load is started while the images are as they are. -/
def Awaits (b : Bench G C) (t : Task) : Prop :=
  t ∈ b.tasks ∨ t.known = (b.images.lookup t.fetch.request.url).isSome

/-- The load of one of the bench's tasks has come to this result. -/
def Brought (b : Bench G C) (fetch : Accepted) (result : Except FetchError DecodedImage) : Prop :=
  ∃ t, b.Awaits t ∧ t.fetch = fetch ∧ b.result? t = some result

/-- Whether what happens to a load that is taken up is up to the result that the bench says it has
come to, and to the bridge at that moment. -/
def Happening.TakenFrom (b : Bench G C) : Happening → Prop
  | ended fetch why => ∃ result, b.Brought fetch result ∧
      ∃ bridge, ending? bridge fetch.id result = some why
  | asked fetch image => b.Brought fetch (.ok image) ∧
      ∃ bridge, ending? bridge fetch.id (.ok image) = none
  | _ => True

theorem Happening.takenFrom_of_endsCopy {b : Bench G C} {fetch : Accepted} {image : DecodedImage}
    {h : Happening} (he : h.EndsCopy fetch image) : h.TakenFrom b := by
  rcases he with rfl | ⟨ptr, rfl⟩ <;> trivial

/-- What of a bench decides about loads. -/
structure Stocked (b₀ b : Bench G C) : Prop where
  images : b.images = b₀.images
  tasks (t : Task) (ht : t ∈ b.tasks) : b₀.Awaits t
  guest : b.guest.All Step.KeepsImages

namespace Stocked

variable {b₀ b b' : Bench G C}

theorem of_eq (h : Stocked b₀ b) (hi : b'.images = b.images) (ht : b'.tasks = b.tasks)
    (hg : b'.guest.interludes = b.guest.interludes) : Stocked b₀ b' := by
  refine ⟨hi.trans h.images, fun t hm => h.tasks t (ht ▸ hm), ?_⟩
  have hall := h.guest
  unfold Guest.All at hall ⊢
  rwa [hg]

theorem note (h : Stocked b₀ b) (e : Event) : Stocked b₀ (b.note e) := h.of_eq rfl rfl rfl

theorem withBridge (h : Stocked b₀ b) (f : Bridge → Bridge) : Stocked b₀ (b.withBridge f) :=
  h.of_eq rfl rfl rfl

theorem result? (h : Stocked b₀ b) (t : Task) : b.result? t = b₀.result? t := by
  unfold Bench.result?
  rw [h.images]

theorem spawn (h : Stocked b₀ b) (fetch : Accepted) : Stocked b₀ (Bench.spawn fetch b) := by
  refine ⟨h.images, fun t hm => ?_, h.guest⟩
  rcases List.mem_append.1 hm with hm | hm
  · exact h.tasks t hm
  · rw [List.mem_singleton.1 hm]
    refine .inr ?_
    rw [← h.images]
    rfl

theorem grant (h : Stocked b₀ b) (len : UInt32) : Stocked b₀ (Bench.grant len b).2 := by
  obtain ⟨guest, memory, hb, hg⟩ :=
    of_grant (show Bench.grant len b = ((Bench.grant len b).1, (Bench.grant len b).2) from rfl)
  rw [hb]
  exact h.of_eq rfl rfl hg

theorem upholds (inner : Performer G C) (b₀ : Bench G C) :
    (platform inner).Upholds (Stocked b₀) :=
  fun _ _ h _ => h.of_eq rfl rfl rfl

end Stocked

/-- The bench has come to `b'`, and the loads that were taken up on the way had come to what `b₀`
says. -/
structure Brings (b₀ : Bench G C) (hs : List Happening) (b' : Bench G C) : Prop where
  stocked : Stocked b₀ b'
  taken (h : Happening) (hm : h ∈ hs) : h.TakenFrom b₀

namespace Brings

variable {b₀ b b' : Bench G C} {hs hs' : List Happening} {h : Happening}

theorem nil (hb : Stocked b₀ b) : Brings b₀ [] b := ⟨hb, nofun⟩

theorem single (hb : Stocked b₀ b) (ht : h.TakenFrom b₀) : Brings b₀ [h] b :=
  ⟨hb, fun _ hm => List.mem_singleton.1 hm ▸ ht⟩

theorem append (h : Brings b₀ hs b) (h' : Brings b₀ hs' b') : Brings b₀ (hs ++ hs') b' :=
  ⟨h'.stocked, fun x hm => (List.mem_append.1 hm).elim (h.taken x) (h'.taken x)⟩

theorem cons (ht : h.TakenFrom b₀) (h' : Brings b₀ hs b) : Brings b₀ (h :: hs) b :=
  (single h'.stocked ht).append h'

/-- It may go on to another bench on which loads are decided as before. -/
theorem reach (h : Brings b₀ hs b) (hb : Stocked b₀ b') : Brings b₀ hs b' := ⟨hb, h.taken⟩

end Brings

/-! ## The guest -/

variable {b₀ b : Bench G C} {inner : Performer G C} {tell : Teller G C}

/-- Every step that the guest may take takes loads up with what they have come to. -/
def Supplies (b₀ : Bench G C) (inner : Performer G C) (tell : Teller G C) : Prop :=
  ∀ step b, step.KeepsImages → step.AllBelow Step.KeepsImages → Stocked b₀ b →
    Brings b₀ (tell step b) (inner step b).2

section

variable (hi : Supplies b₀ inner tell)

include hi

theorem takeSteps_brings (steps : List (Step C)) (hs : Step.AllIn Step.KeepsImages steps)
    (hb : Stocked b₀ b) :
    Brings b₀ (Teller.takeSteps inner tell steps b) (takeSteps inner steps b) := by
  induction steps generalizing b with
  | nil => exact .nil hb
  | cons step rest ih =>
    obtain ⟨hk, hbelow, hrest⟩ := hs
    have hstep := hi step b hk hbelow hb
    exact hstep.append (ih hrest (hstep.stocked.of_eq rfl rfl rfl))

theorem interlude_brings (name : String) (hb : Stocked b₀ b) :
    Brings b₀ (Teller.interlude inner tell name b) (interlude inner name b) := by
  obtain ⟨hsteps, hrest⟩ := hb.guest.take name
  have h := takeSteps_brings hi _ hsteps (b := b.enter name) ⟨hb.images, hb.tasks, hrest⟩
  exact h.reach (h.stocked.of_eq rfl rfl rfl)

theorem stocked_alloc (len : UInt32) (b : Bench G C) (hb : Stocked b₀ b) :
    Stocked b₀ (alloc inner len b).2 :=
  (interlude_brings hi _ (hb.note _)).stocked.grant len

theorem stocked_call (entry : EntryPoint) (b : Bench G C) (hb : Stocked b₀ b) :
    Stocked b₀ (call inner entry b).2 := by
  rw [call_eq]
  exact (interlude_brings hi _ (hb.note _)).stocked

theorem alloc_brings (len : UInt32) (hb : Stocked b₀ b) :
    Brings b₀ (Teller.alloc inner tell len b) (alloc inner len b).2 :=
  .reach (.cons trivial (interlude_brings hi _ (hb.note _))) (stocked_alloc hi len b hb)

/-! ## Operations -/

theorem callGuest_brings (entry : EntryPoint) (hb : Stocked b₀ b) :
    Brings b₀ (Teller.callGuest inner tell entry b) ((platform inner).callGuest entry b).2 := by
  have hafter : Stocked b₀ ((platform inner).callGuest entry b).2 :=
    Platform.keeps_callGuest (stocked_call hi entry) b hb
  unfold Teller.callGuest
  split
  · exact .reach (.cons trivial (interlude_brings hi _ (hb.note _))) hafter
  · exact .nil hafter

theorem init_brings (width height : UInt32) (hb : Stocked b₀ b) :
    Brings b₀ (Teller.init inner tell width height b) ((platform inner).init width height b).2 := by
  unfold Teller.init
  by_cases hp : b.core.bridge.phase = .running
  · rw [if_pos hp, init_of_running hp]
    exact .nil hb
  · have h := callGuest_brings hi (.init width height) hb
    rw [if_neg hp]
    rcases hr : (platform inner).callGuest (.init width height) b with ⟨e | ⟨⟩, b'⟩
    · rw [hr] at h
      rw [init_of_error hp hr]
      exact h.append (.nil h.stocked)
    · rw [hr] at h
      rw [init_of_ok hp hr]
      exact h.append (.single (h.stocked.of_eq rfl rfl rfl) trivial)

theorem animationFrame_brings (timestamp : Ieee.Double) (hb : Stocked b₀ b) :
    Brings b₀ (Teller.animationFrame inner tell timestamp b)
      ((platform inner).animationFrame timestamp b).2 := by
  have hafter : Stocked b₀ ((platform inner).animationFrame timestamp b).2 :=
    (Platform.meets_animationFrame (Stocked.upholds inner b₀).bears timestamp (fun _ hs => hs)
      (stocked_call hi _)).keeps b hb
  unfold Teller.animationFrame
  split
  · exact .reach (.cons trivial (interlude_brings hi _ ((hb.withBridge _).note _))) hafter
  · exact .nil hafter

theorem stocked_copyToGuest (bytes : List UInt8) (hb : Stocked b₀ b) :
    Stocked b₀ ((platform inner).copyToGuest bytes b).2 :=
  Platform.keeps_copyToGuest (Stocked.upholds inner b₀).bears bytes (stocked_alloc hi) b hb

theorem copyToGuest_brings (bytes : List UInt8) (hb : Stocked b₀ b) :
    Brings b₀ (Teller.copyToGuest inner tell bytes b)
      ((platform inner).copyToGuest bytes b).2 := by
  have hafter := stocked_copyToGuest hi bytes hb
  unfold Teller.copyToGuest
  split
  · split
    · exact (alloc_brings hi _ hb).reach hafter
    · exact .nil hafter
  · exact .nil hafter

theorem submitEquation_brings (text : String) (hb : Stocked b₀ b) :
    Brings b₀ (Teller.submitEquation inner tell text b)
      ((platform inner).submitEquation text b).2 := by
  have hafter : Stocked b₀ ((platform inner).submitEquation text b).2 :=
    Platform.keeps_submitEquation (Stocked.upholds inner b₀).bears text (stocked_alloc hi)
      (fun _ _ => stocked_call hi _) b hb
  have hcopy := copyToGuest_brings hi (Text.utf8 text) hb
  unfold Teller.submitEquation
  split
  · rcases hr : (platform inner).copyToGuest (Text.utf8 text) b with ⟨e | ⟨ptr, len⟩ | _, b'⟩
    · exact (hcopy.append (.nil hcopy.stocked)).reach hafter
    · rw [hr] at hcopy
      exact (hcopy.append (callGuest_brings hi _ hcopy.stocked)).reach hafter
    · exact (hcopy.append (.nil hcopy.stocked)).reach hafter
  · exact .nil hafter

omit hi in
theorem capability_brings [GraphicsContext G] (inner : Performer G C) (c : Capability)
    (hb : Stocked b₀ b) :
    Brings b₀ (Teller.capability c b) ((platform inner).perform c b).2 := by
  have hafter : Stocked b₀ ((platform inner).perform c b).2 :=
    Platform.keeps_perform (Stocked.upholds inner b₀) c (fun fetch _ hs => hs.spawn fetch) b hb
  unfold Teller.capability
  split <;> exact .single hafter trivial

theorem operate_brings [GraphicsContext G] (op : Operation) (hb : Stocked b₀ b) :
    Brings b₀ (Teller.operate inner tell op b) ((platform inner).operate op b).2 := by
  cases op with
  | capability c => exact capability_brings inner c hb
  | attachGuest =>
    have hafter : Stocked b₀ ((platform inner).attachGuest b).2 := by
      rw [attachGuest_eq]
      exact hb.of_eq rfl rfl rfl
    show Brings b₀ (Teller.attachGuest b) ((platform inner).attachGuest b).2
    unfold Teller.attachGuest
    split
    · exact .nil hafter
    · exact .single hafter trivial
  | init width height => exact init_brings hi width height hb
  | animationFrame timestamp => exact animationFrame_brings hi timestamp hb
  | callGuest entry => exact callGuest_brings hi entry hb
  | dispatchInput event => exact callGuest_brings hi event.entryPoint hb
  | submitEquation text => exact submitEquation_brings hi text hb
  | copyToGuest bytes => exact copyToGuest_brings hi bytes hb
  | shutdown => exact .single (hb.of_eq rfl rfl rfl) trivial
  | phase | pendingFetches | registry => exact .nil hb
  | readText ptr len => exact .nil (hb.of_eq rfl rfl rfl)

/-! ## The queues -/

theorem complete_brings {t : Task} {result : Except FetchError DecodedImage} (hb : Stocked b₀ b)
    (ht : b₀.Awaits t) (hr : b.result? t = some result) :
    Brings b₀ (Teller.complete inner tell t.fetch result b)
      ((platform inner).complete t.fetch result b) := by
  have hafter : Stocked b₀ ((platform inner).complete t.fetch result b) :=
    Platform.complete_keeps (Stocked.upholds inner b₀) t.fetch result (stocked_alloc hi)
      (fun _ _ _ hs => hs.of_eq rfl rfl rfl) hb
  have hbrought : b₀.Brought t.fetch result := ⟨t, ht, rfl, hb.result? t ▸ hr⟩
  unfold Teller.complete
  cases he : ending? b.core.bridge t.fetch.id result with
  | some why => exact .single hafter ⟨result, hbrought, b.core.bridge, he⟩
  | none =>
    cases result with
    | error e => exact .nil hafter
    | ok image =>
      have hinterlude := interlude_brings hi allocatorExport
        ((hb.withBridge (·.settle t.fetch.id)).note (.alloc (.ofNat image.pixels.length)))
      have hlast := Happening.takenFrom_of_endsCopy (b := b₀)
        (Teller.endsCopy_endOfCopy t.fetch image ((platform inner).copyToGuest image.pixels
          (b.withBridge (·.settle t.fetch.id))).1)
      have hasked : (Happening.asked t.fetch image).TakenFrom b₀ :=
        ⟨hbrought, b.core.bridge, he⟩
      exact (Brings.cons hasked hinterlude).append (.single hafter hlast)

theorem takeUp_brings {t : Task} {result : Except FetchError DecodedImage} (hb : Stocked b₀ b)
    (ht : b₀.Awaits t) (hr : b.result? t = some result) :
    Brings b₀ (Teller.takeUp inner tell t result b) (takeUp inner t result b) := by
  unfold Teller.takeUp takeUp
  split
  · exact complete_brings hi hb ht hr
  · exact .single hb trivial

theorem pollEach_brings (ts : List Task) (hts : ∀ t ∈ ts, b₀.Awaits t) (hb : Stocked b₀ b) :
    Brings b₀ (Teller.pollEach inner tell ts b) (pollEach inner ts b).2.2 ∧
      ∀ t ∈ (pollEach inner ts b).1, b₀.Awaits t := by
  induction ts generalizing b with
  | nil => exact ⟨.nil hb, nofun⟩
  | cons t rest ih =>
    obtain ⟨ht, hrest⟩ := List.forall_mem_cons.1 hts
    unfold Teller.pollEach
    rcases hr : b.result? t with _ | result
    · rw [pollEach_cons_of_none hr]
      obtain ⟨h, hwaiting⟩ := ih hrest hb
      exact ⟨h, List.forall_mem_cons.2 ⟨ht, hwaiting⟩⟩
    · rw [pollEach_cons_of_some hr]
      have hup := takeUp_brings hi hb ht hr
      obtain ⟨h, hwaiting⟩ := ih hrest hup.stocked
      exact ⟨hup.append h, hwaiting⟩

theorem poll_brings (hb : Stocked b₀ b) :
    Brings b₀ (Teller.pollEach inner tell b.tasks { b with tasks := [] }) (poll inner b).2 := by
  obtain ⟨h, hwaiting⟩ := pollEach_brings hi (b := { b with tasks := [] }) b.tasks hb.tasks
    ⟨hb.images, nofun, hb.guest⟩
  refine h.reach ⟨h.stocked.images, fun t ht => ?_, h.stocked.guest⟩
  exact (List.mem_append.1 ht).elim (hwaiting t) (h.stocked.tasks t)

theorem runTasksFor_brings (n : Nat) (hb : Stocked b₀ b) :
    Brings b₀ (Teller.runTasksFor inner tell n b) (runTasksFor inner n b) := by
  induction n generalizing b with
  | zero => exact .nil hb
  | succ n ih =>
    have h := poll_brings hi hb
    rw [runTasksFor_succ, Teller.runTasksFor]
    rcases hp : poll inner b with ⟨_ | _, b'⟩
    · rw [hp] at h
      exact h.append (.nil h.stocked)
    · rw [hp] at h
      exact h.append (ih h.stocked)

theorem runOneDeferred_brings (hb : Stocked b₀ b) :
    Brings b₀ (Teller.runOneDeferred inner tell b) (runOneDeferred inner b).2 := by
  unfold Teller.runOneDeferred
  cases hd : b.deferred with
  | nil =>
    rw [runOneDeferred_of_nil hd]
    exact .nil hb
  | cons c rest =>
    have hrest : Stocked b₀ ({ b with deferred := rest } : Bench G C) := hb.of_eq rfl rfl rfl
    have hafter : Stocked b₀ (handle inner c { b with deferred := rest }) := by
      unfold handle
      split
      · exact Platform.deliver_keeps (Stocked.upholds inner b₀) c (stocked_call hi _) hrest
      · exact hrest
    rw [runOneDeferred_of_cons hd]
    simp only [Teller.handle]
    split
    · exact .reach (.cons trivial (interlude_brings hi _ (hrest.note _))) hafter
    · exact .single hafter trivial

theorem runDeferredFor_brings (n : Nat) (hb : Stocked b₀ b) :
    Brings b₀ (Teller.runDeferredFor inner tell n b) (runDeferredFor inner n b) := by
  induction n generalizing b with
  | zero => exact .nil hb
  | succ n ih =>
    have h := runOneDeferred_brings hi hb
    unfold Teller.runDeferredFor runDeferredFor
    rcases hr : runOneDeferred inner b with ⟨_ | _, b'⟩
    · rw [hr] at h
      exact h.append (.nil h.stocked)
    · rw [hr] at h
      exact h.append (ih h.stocked)

theorem runAllFor_brings (n : Nat) (hb : Stocked b₀ b) :
    Brings b₀ (Teller.runAllFor inner tell n b) (runAllFor inner n b) := by
  induction n generalizing b with
  | zero => exact .nil hb
  | succ n ih =>
    have h : Brings b₀ (Teller.runTasks inner tell b) (runTasks inner b) :=
      runTasksFor_brings hi _ hb
    unfold Teller.runAllFor runAllFor
    simp only
    split
    · exact h.append (.nil h.stocked)
    · have h' : Brings b₀ _ (runDeferred inner (runTasks inner b)) :=
        runDeferredFor_brings hi _ h.stocked
      exact h.append (h'.append (ih h'.stocked))

/-! ## Steps -/

variable [GraphicsContext G] [AdjustableContext G C]

theorem performWith_brings (step : Step C) (hbelow : step.AllBelow Step.KeepsImages)
    (hk : step.KeepsImages) (hb : Stocked b₀ b) :
    Brings b₀ (Teller.performWith inner tell step b) (performWith inner step b).2 := by
  have howned {f : Bench G C → Reply × Bench G C} {hs : List Happening}
      (hf : Brings b₀ hs (f b).2) :
      Brings b₀ (Teller.whileOwned b hs) (b.whileOwned f).2 := by
    unfold Teller.whileOwned whileOwned
    split
    · exact hf
    · exact .nil hb
  cases step with
  | bridge op => exact howned (operate_brings hi op hb)
  | drop | cancelRequest => exact .single (hb.of_eq rfl rfl rfl) trivial
  | reserve len => exact howned (f := Platform.reply _ _) (alloc_brings hi len hb)
  | writeText text => exact howned (f := Platform.reply _ _) (copyToGuest_brings hi _ hb)
  | writeWords words => exact howned (f := Platform.reply _ _) (copyToGuest_brings hi _ hb)
  | interlude name steps => exact .nil ⟨hb.images, hb.tasks, hb.guest.add hbelow name⟩
  | setImage => exact hk.elim
  | runTasks => exact runTasksFor_brings hi _ hb
  | runDeferred => exact runDeferredFor_brings hi _ hb
  | runOneDeferred => exact runOneDeferred_brings hi hb
  | runAll => exact runAllFor_brings hi _ hb
  | _ => exact .nil (hb.of_eq rfl rfl rfl)

end

section

variable [GraphicsContext G] [AdjustableContext G C]

theorem performFor_brings (depth : Nat) (step : Step C) (b : Bench G C) (hk : step.KeepsImages)
    (hbelow : step.AllBelow Step.KeepsImages) (hb : Stocked b₀ b) :
    Brings b₀ (Teller.performFor depth step b) (performFor depth step b).2 := by
  induction depth generalizing step b with
  | zero => exact .nil hb
  | succ depth ih => exact performWith_brings ih step hbelow hk hb

/-- A load that is taken up in a step has come to what the images say when the step is taken. -/
theorem perform_takenFrom (hg : b.guest.All Step.KeepsImages) (step : Step C)
    (hbelow : step.AllBelow Step.KeepsImages) :
    ∀ h ∈ Teller.perform step b, h.TakenFrom b := by
  have hb : Stocked b b := ⟨rfl, fun t ht => .inl ht, hg⟩
  by_cases hk : step.KeepsImages
  · exact (performFor_brings _ step b hk hbelow hb).taken
  · cases step with
    | setImage url source => exact nofun
    | _ => exact absurd trivial hk

end

end GuestBridge.Bench
