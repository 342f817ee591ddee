import GuestBridge.Bench.Setup
import GuestBridge.Proofs.Bench.Deferral
import GuestBridge.Proofs.Bench.Life
import GuestBridge.Proofs.Bench.Loads
import GuestBridge.Proofs.Bench.Turns

/-!
# Fetches complete once

What becomes of the fetches in a run is told by its chronicle, and `FetchesComplete b steps` is
what the chronicle says about them: the guest is told of no image twice, no fetch gets lost or is
mistaken for another, and each one that is not cancelled comes to what it should by the result of
its load (`Outcome`). That result is what the images of the bench say (`perform_takenFrom`), and the
journal of the run records the entries of the chronicle and no others.
-/

set_option autoImplicit false

namespace GuestBridge

/-- Whether an image has bytes, and no more than a guest can take. -/
def DecodedImage.Copyable (image : DecodedImage) : Prop :=
  image.pixels ≠ [] ∧ image.pixels.length < UInt32.size

def EntryPoint.isFetch : EntryPoint → Bool
  | .fetch _ _ _ _ _ => true
  | _ => false

namespace Bench

variable {G C : Type}

/-! ## Steps -/

def Step.PollsTasks (step : Step C) : Prop := step = .runTasks ∨ step = .runAll

/-- Whether a step calls the fetch entry point by name. -/
def Step.IsDirectFetch (step : Step C) : Prop :=
  ∃ width height ptr len token, step = .bridge (.callGuest (.fetch width height ptr len token))

namespace Happening

theorem not_isLoad {h : Happening} (hw : h.Within fun step : Step C => ¬ step.PollsTasks) :
    ¬ h.IsLoad := by
  rintro hl
  obtain ⟨step, hn, hc⟩ := hw
  refine hn ?_
  cases h <;> first | exact hc | exact hl.elim

theorem isFetch_of_within {entry : EntryPoint}
    (hw : (called entry).Within fun step : Step C => ¬ step.IsDirectFetch) :
    entry.isFetch = false := by
  obtain ⟨step, hn, hc⟩ := hw
  cases entry with
  | fetch width height ptr len token =>
    exact absurd ⟨_, _, _, _, _, Step.eq_of_calls_fetch hc⟩ hn
  | _ => rfl

/-- The call by which the guest is told of an image. -/
def telling? : Happening → Option EntryPoint
  | told c => some c.entry
  | _ => none

theorem fetch?_of_told? {h : Happening} {id : Nat} (ht : h.told? = some id) :
    h.fetch? = some id := by
  cases h <;> first | exact ht | cases ht

end Happening

/-! ## Outcomes -/

/-- What becomes of a fetch that is not cancelled, if the bridge is there and runs, by what its load
has come to. -/
inductive Outcome (fetch : Accepted) :
    Except FetchError DecodedImage → List Happening → Prop
  | fault (e : FetchError) :
    Outcome fetch (.error e) [.accepted fetch, .ended fetch (.loadFault e)]
  | unfit (image : DecodedImage) (why : Ending) (hn : ¬ image.Copyable) :
    Outcome fetch (.ok image) [.accepted fetch, .ended fetch why]
  /-- The allocator has failed, or what it gave is out of bounds. -/
  | failed (image : DecodedImage) (hi : image.Copyable) :
    Outcome fetch (.ok image) [.accepted fetch, .asked fetch image, .failed fetch image]
  | told (image : DecodedImage) (ptr : UInt32) (hi : image.Copyable) :
    Outcome fetch (.ok image) [.accepted fetch, .asked fetch image, .copied fetch image ptr,
      .told (completion fetch image ptr)]

theorem copyable_of_ending {bridge : Bridge} {id : Nat} {image : DecodedImage}
    (h : ending? bridge id (.ok image) = none) : image.Copyable := by
  obtain ⟨-, -, hne, hlen⟩ := ending_eq_none h
  refine ⟨by simpa using hne, ?_⟩
  unfold Store.guestLen at hlen
  split at hlen
  · assumption
  · cases hlen

/-- A fetch that neither is cancelled nor lacks a guest ends over what its load has come to. -/
theorem of_ending_eq_some {bridge : Bridge} {id : Nat}
    {result : Except FetchError DecodedImage} {why : Ending}
    (h : ending? bridge id result = some why) (hg : why ≠ .noGuest) (hc : why ≠ .cancelled) :
    (∃ e, result = .error e ∧ why = .loadFault e) ∨
      ∃ image, result = .ok image ∧ ¬ image.Copyable := by
  unfold ending? at h
  split at h
  · exact absurd (Option.some.inj h).symm hc
  cases result with
  | error e => exact .inl ⟨e, rfl, (Option.some.inj h).symm⟩
  | ok image =>
    refine .inr ⟨image, rfl, fun ⟨hne, hlen⟩ => ?_⟩
    have hl : Store.guestLen image.pixels = .ok (.ofNat image.pixels.length) := if_pos hlen
    simp only [hl, List.isEmpty_iff, hne, if_false] at h
    split at h
    · exact hg (Option.some.inj h).symm
    · cases h

/-- Whether a fetch's load was taken up, and its completion delivered, only while the bridge was
owned, and its completion only while the guest was running. -/
def InTime (id : Nat) (hs : List Happening) : Prop :=
  ∀ before h after, hs = before ++ h :: after →
    (h.takenUp? = some id → .dropped ∉ before) ∧
      (h.delivered? = some id → .dropped ∉ before ∧ .started ∈ before)

section

variable {b : Bridge} {hs : List Happening} {fetch : Accepted} {stages : List Stage}
  {path : List Happening}

/-- Its life tells what becomes of a fetch, whatever is known (`P`) of the result with which its
load is taken up. -/
theorem Life.outcome {P : Except FetchError DecodedImage → Prop} (hl : Life b hs fetch [] path)
    (hc : b.isCancelled fetch.id = false) (hi : InTime fetch.id hs)
    (hended : ∀ why, .ended fetch why ∈ path →
      ∃ result, P result ∧ ∃ bridge, ending? bridge fetch.id result = some why)
    (hasked : ∀ image, .asked fetch image ∈ path → P (.ok image) ∧ image.Copyable) :
    ∃ result, P result ∧ Outcome fetch result path := by
  cases hl with
  | lost hd =>
    obtain ⟨before, after, he, hd⟩ := hd
    exact absurd hd ((hi before _ after he).1 rfl)
  | ended why hg hw =>
    have hcancelled : why ≠ .cancelled := by
      intro he
      rw [hw he] at hc
      cases hc
    obtain ⟨result, hp, bridge, he⟩ := hended why (.tail _ (.head _))
    rcases of_ending_eq_some he hg hcancelled with ⟨e, rfl, rfl⟩ | ⟨image, rfl, hn⟩
    · exact ⟨_, hp, .fault e⟩
    · exact ⟨_, hp, .unfit image why hn⟩
  | failed image =>
    obtain ⟨hp, hcopy⟩ := hasked image (.tail _ (.head _))
    exact ⟨_, hp, .failed image hcopy⟩
  | told image ptr =>
    obtain ⟨hp, hcopy⟩ := hasked image (.tail _ (.head _))
    exact ⟨_, hp, .told image ptr hcopy⟩
  | omitted image ptr why he =>
    cases why with
    | gone =>
      obtain ⟨before, after, he, hd⟩ := he
      exact absurd hd ((hi before _ after he).2 rfl).1
    | cancelled =>
      rw [show b.isCancelled fetch.id = true from he] at hc
      cases hc
    | refused =>
      obtain ⟨before, after, he, hn⟩ := he
      exact absurd ((hi before _ after he).2 rfl).2 hn

theorem Life.count_told_le (hl : Life b hs fetch stages path) :
    (path.filterMap Happening.told?).count fetch.id ≤ 1 := by
  cases hl <;> simp [Happening.told?, List.filterMap, completion]

end

/-! ## Chronicles -/

/-- A fetch without a task and a completion in the queues is not in flight. -/
theorem flight_eq_nil {b : Bench G C} {id : Nat} (ht : ∀ t ∈ b.tasks, t.fetch.id ≠ id)
    (hd : ∀ c ∈ b.deferred, c.request ≠ id) :
    (⟨b, b.tasks, []⟩ : Moment G C).flight id = [] := by
  unfold Moment.flight Moment.flights
  rw [List.filter_eq_nil_iff]
  intro s hs
  simp only [List.map_nil, List.append_nil, List.mem_append, List.mem_map] at hs
  rcases hs with ⟨t, hm, rfl⟩ | ⟨c, hm, rfl⟩
  · exact decide_eq_false (ht t hm) ▸ Bool.false_ne_true
  · exact decide_eq_false (hd c hm) ▸ Bool.false_ne_true

theorem flight_perm {b : Bench G C} {loads : List Task} (hp : b.tasks.Perm loads) (id : Nat) :
    ((⟨b, b.tasks, []⟩ : Moment G C).flight id).Perm
      ((⟨b, loads, []⟩ : Moment G C).flight id) :=
  List.Perm.filter _ (((hp.map _).append_right _).append_right _)

section

variable [GraphicsContext G] {m n : Moment G C} {hs : List Happening}

/-- The allocator is asked for room only for an image that can be copied. -/
theorem History.copyable_of_asked (hh : History m hs n) {fetch : Accepted} {image : DecodedImage}
    (ha : .asked fetch image ∈ hs) : image.Copyable := by
  obtain ⟨before, after, he⟩ := List.append_of_mem ha
  obtain ⟨t, u, -, now⟩ := hh.exists_happens he
  cases now with
  | asked ht hl hr he => exact copyable_of_ending he

/-- A fetch ends over some result of its load. -/
theorem History.exists_result (hh : History m hs n) {fetch : Accepted} {why : Ending}
    (he : .ended fetch why ∈ hs) :
    ∃ result bridge, ending? bridge fetch.id result = some why := by
  obtain ⟨before, after, he⟩ := List.append_of_mem he
  obtain ⟨t, u, -, now⟩ := hh.exists_happens he
  cases now with
  | ended ht hl hr he => exact ⟨_, _, he⟩

/-- The calls of the fetch entry point are those that tell of an image, unless it is called by
name. -/
theorem fetchCalls_eq (hc : ∀ entry, .called entry ∈ hs → entry.isFetch = false)
    (ht : ∀ c, .told c ∈ hs → c.entry.isFetch = true) :
    ((hs.filterMap Happening.entry?).filterMap Event.call?).filter EntryPoint.isFetch =
      hs.filterMap Happening.telling? := by
  rw [List.filterMap_filterMap, ← List.filterMap_eq_filter, List.filterMap_filterMap]
  refine List.filterMap_congr fun h hm => ?_
  cases h with
  | called entry => simp [Happening.entry?, Event.call?, Happening.telling?, hc entry hm]
  | told c => simp [Happening.entry?, Event.call?, Happening.telling?, ht c hm]
  | frame timestamp => rfl
  | _ => rfl

variable [AdjustableContext G C]

/-- The images are left as they are by all steps but those of the run itself. -/
def KeepsImages (b : Bench G C) (steps : List (Step C)) : Prop :=
  b.guest.All Step.KeepsImages ∧ ∀ step ∈ steps, step.AllBelow Step.KeepsImages

/-- The load of a fetch has come to this result, as the images say when one of the steps is taken.
-/
def CameTo (b : Bench G C) (steps : List (Step C)) (fetch : Accepted)
    (result : Except FetchError DecodedImage) : Prop :=
  ∃ before step after, steps = before ++ step :: after ∧ (run before b).Brought fetch result

/-- What becomes of the fetches in a run of steps. -/
structure FetchesComplete (b : Bench G C) (steps : List (Step C)) : Prop where
  /-- At the end of the chronicle, the loads that have not come back are those whose task is
  queued. -/
  history : ∃ loads, History ⟨b, [], []⟩ (chronicle steps b) ⟨run steps b, loads, []⟩ ∧
    (run steps b).tasks.Perm loads
  /-- All that happens comes from the steps of the run, or from those that the guest takes. -/
  course {p : Step C → Prop} (hg : b.guest.All p) (hs : ∀ step ∈ steps, step.AllBelow p) :
    Course (fun h => ∃ step ∈ steps, h.CausedBy step) (Happening.Within p) (chronicle steps b)
  /-- The journal records the entries of the chronicle. -/
  entries : (run steps b).core.entries = (chronicle steps b).filterMap Happening.entry?
  /-- The fetch entry point is called only to tell the guest of an image, if not by name. -/
  calls (hg : b.guest.All fun step => ¬ step.IsDirectFetch)
    (hs : ∀ step ∈ steps, ¬ step.IsDirectFetch ∧ step.AllBelow fun step => ¬ step.IsDirectFetch) :
    (run steps b).core.calls.filter EntryPoint.isFetch =
      (chronicle steps b).filterMap Happening.telling?
  dropped : (run steps b).owned = false ↔ .dropped ∈ chronicle steps b
  started : (run steps b).core.bridge.phase = .running ↔ .started ∈ chronicle steps b
  /-- A load that is taken up in a step has come to what the images say when the step is taken. -/
  loads (hk : b.KeepsImages steps) {before after : List (Step C)} {step : Step C}
    (he : steps = before ++ step :: after) :
    chronicle steps b = chronicle before b ++ (Teller.perform step (run before b) ++
        chronicle after (perform step (run before b)).2) ∧
      ∀ h ∈ Teller.perform step (run before b), h.TakenFrom (run before b)
  copyable {fetch : Accepted} {image : DecodedImage} (ha : .asked fetch image ∈ chronicle steps b) :
    image.Copyable
  /-- The guest is told of no image twice. -/
  once (id : Nat) : ((chronicle steps b).filterMap Happening.told?).count id ≤ 1
  /-- No fetch gets lost, or is mistaken for another. -/
  life {id : Nat} {request : FetchRequest}
    (hr : (run steps b).core.bridge.requests[id]? = some request)
    (hc : request.cancelled = false) :
    Life (run steps b).core.bridge (chronicle steps b) ⟨id, request⟩
      ((⟨run steps b, (run steps b).tasks, []⟩ : Moment G C).flight id)
      (about id (chronicle steps b))
  /-- Once its task and its completion have run, a fetch has come to what it should, by what its
  load has come to. -/
  outcome {id : Nat} {request : FetchRequest}
    (hr : (run steps b).core.bridge.requests[id]? = some request)
    (hc : request.cancelled = false) (ht : ∀ t ∈ (run steps b).tasks, t.fetch.id ≠ id)
    (hd : ∀ c ∈ (run steps b).deferred, c.request ≠ id) (hi : InTime id (chronicle steps b)) :
    ∃ result, (b.KeepsImages steps → b.CameTo steps ⟨id, request⟩ result) ∧
      Outcome ⟨id, request⟩ result (about id (chronicle steps b))
  copied : ((chronicle steps b).filterMap Happening.told?).Sublist
    ((chronicle steps b).filterMap Happening.copied?)
  /-- A host that polls one task at a time has the guest told of images in the order in which
  their loads came back. -/
  takenUp (ho : OneAtATime (chronicle steps b)) :
    ((chronicle steps b).filterMap Happening.told?).Sublist
      ((chronicle steps b).filterMap Happening.takenUp?)
  /-- So does the host, unless a guest has it poll its tasks from inside a call. -/
  oneAtATime (hg : b.guest.All fun step => ¬ step.PollsTasks)
    (hs : ∀ step ∈ steps, step.AllBelow fun step => ¬ step.PollsTasks) :
    OneAtATime (chronicle steps b)

theorem calls_of_chronicle {b : Bench G C} (hb : b.Fresh) {steps : List (Step C)}
    (hg : b.guest.All fun step => ¬ step.IsDirectFetch)
    (hs : ∀ step ∈ steps, ¬ step.IsDirectFetch ∧ step.AllBelow fun step => ¬ step.IsDirectFetch) :
    (run steps b).core.calls.filter EntryPoint.isFetch =
      (chronicle steps b).filterMap Happening.telling? := by
  obtain ⟨loads, hh, hcourse, -⟩ := run_history hb hg steps fun step hm => (hs step hm).2
  have hwithin : ∀ h ∈ chronicle steps b, h.Within fun step : Step C => ¬ step.IsDirectFetch :=
    hcourse.forall_of (fun h ⟨step, hm, hc⟩ => ⟨step, (hs step hm).1, hc⟩) fun _ hw => hw
  rw [Core.calls_eq, hh.entries_eq, hb.entries_eq_nil, List.nil_append]
  refine fetchCalls_eq (fun entry hm => Happening.isFetch_of_within (hwithin _ hm)) fun c hm => ?_
  obtain ⟨before, after, he⟩ := List.append_of_mem hm
  obtain ⟨fetch, image, ptr, rfl, -⟩ := hh.told_copied hb.sourced he
  rfl

theorem KeepsImages.takenFrom {b : Bench G C} (hb : b.Fresh) {before after : List (Step C)}
    {step : Step C} (hk : b.KeepsImages (before ++ step :: after)) :
    ∀ h ∈ Teller.perform step (run before b), h.TakenFrom (run before b) := by
  have hguest : (run before b).guest.All Step.KeepsImages :=
    guest_run hb hk.1 fun step hm => hk.2 step (List.mem_append_left _ hm)
  exact perform_takenFrom hguest step (hk.2 step (List.mem_append_right _ (.head _)))

theorem KeepsImages.takenFrom_of_mem {b : Bench G C} (hb : b.Fresh) {steps : List (Step C)}
    (hk : b.KeepsImages steps) {h : Happening} (hm : h ∈ chronicle steps b) :
    ∃ before step after, steps = before ++ step :: after ∧ h.TakenFrom (run before b) := by
  obtain ⟨before, step, after, rfl, hstep⟩ := exists_step_of_mem hm
  exact ⟨before, step, after, rfl, hk.takenFrom hb h hstep⟩

theorem exists_cameTo_of_ended {b : Bench G C} (hb : b.Fresh) {steps : List (Step C)}
    {fetch : Accepted} {why : Ending} (hm : .ended fetch why ∈ chronicle steps b) :
    ∃ result, (b.KeepsImages steps → b.CameTo steps fetch result) ∧
      ∃ bridge, ending? bridge fetch.id result = some why := by
  by_cases hk : b.KeepsImages steps
  · obtain ⟨before, step, after, he, result, hbrought, hbridge⟩ := hk.takenFrom_of_mem hb hm
    exact ⟨result, fun _ => ⟨before, step, after, he, hbrought⟩, hbridge⟩
  · obtain ⟨loads, hh, -⟩ := history_of_chronicle hb steps
    obtain ⟨result, hbridge⟩ := hh.exists_result hm
    exact ⟨result, fun hk' => absurd hk' hk, hbridge⟩

theorem cameTo_of_asked {b : Bench G C} (hb : b.Fresh) {steps : List (Step C)}
    (hk : b.KeepsImages steps) {fetch : Accepted} {image : DecodedImage}
    (hm : .asked fetch image ∈ chronicle steps b) : b.CameTo steps fetch (.ok image) := by
  obtain ⟨before, step, after, he, hbrought, -⟩ := hk.takenFrom_of_mem hb hm
  exact ⟨before, step, after, he, hbrought⟩

/-- On every run of a bridge with a guest, the guest is told of the image of a fetch at most once;
and of each fetch that was not cancelled, once its task and its completion have both run in time,
it was told exactly once if the load came to an image that could be copied, and not at all
otherwise: with the image's size, the allocator's pointer and the fetch's token, after the
allocator was asked once, for as many bytes as the image has. The guest is told of images in the
order in which their loads came back if the host polls one task at a time, as it does unless a
guest has it poll its tasks from inside a call. -/
theorem fetches_complete_once {b : Bench G C} (hb : b.Fresh)
    (ha : b.core.bridge.attached = true) (steps : List (Step C)) : b.FetchesComplete steps := by
  obtain ⟨loads, hh, hp⟩ := history_of_chronicle hb steps
  have hl := hh.lives (hb.lives ha)
  have hlife {id : Nat} {request : FetchRequest}
      (hr : (run steps b).core.bridge.requests[id]? = some request)
      (hc : request.cancelled = false) :
      Life (run steps b).core.bridge (chronicle steps b) ⟨id, request⟩
        ((⟨run steps b, (run steps b).tasks, []⟩ : Moment G C).flight id)
        (about id (chronicle steps b)) := by
    have h := hl.live _ _ (Bridge.accepted?_of_not_cancelled hr hc)
    rwa [eq_of_perm_of_length_le (flight_perm hp id) h.length_le]
  constructor
  case history => exact ⟨loads, hh, hp⟩
  case course =>
    intro p hg hs
    exact (run_history hb hg steps hs).choose_spec.2.1
  case entries => rw [hh.entries_eq, hb.entries_eq_nil, List.nil_append]
  case calls => exact calls_of_chronicle hb
  case dropped => exact hl.dropped
  case started => exact hl.started
  case loads =>
    rintro hk before after step rfl
    exact ⟨chronicle_append before (step :: after) b, hk.takenFrom hb⟩
  case copyable => exact hh.copyable_of_asked
  case once =>
    intro id
    rw [← count_about fun _ _ => Happening.fetch?_of_told?]
    rcases hr : (run steps b).core.bridge.accepted? id with _ | request
    · rw [(hl.unborn id hr).2]
      exact Nat.zero_le 1
    · exact (hl.live id request hr).count_told_le
  case life => exact hlife
  case outcome =>
    intro id request hr hc ht hd hi
    have h := hlife hr hc
    rw [flight_eq_nil ht hd] at h
    have hmem {h : Happening} (hm : h ∈ about id (chronicle steps b)) : h ∈ chronicle steps b :=
      (mem_about.1 hm).1
    exact h.outcome ((Bridge.isCancelled_eq hr).trans hc) hi
      (fun why hm => exists_cameTo_of_ended hb (hmem hm))
      fun image hm => ⟨fun hk => cameTo_of_asked hb hk (hmem hm), hh.copyable_of_asked (hmem hm)⟩
  case copied => exact hh.told_sublist_copied hb.deferred
  case takenUp => exact hh.told_sublist_takenUp hb.deferred rfl
  case oneAtATime =>
    intro hg hs
    obtain ⟨-, -, hc, -⟩ := run_history hb hg steps hs
    exact (hc.oneAtATime fun _ hw => Happening.not_isLoad hw).1

end

/-- Two fetches with one token; the image of the first comes only when the second is done with. -/
def fetchTwo : List (Step ScriptedContext.Change) :=
  [.bridge firstInit, .poke 0 (Text.utf8 "a.pngb.png"), .setImage "a.png" .pending,
    .setImage "b.png" (.image ⟨1, 1, [0, 0, 0, 0]⟩), .bridge (.capability (.fetchBytes 0 5 7)),
    .bridge (.capability (.fetchBytes 5 5 7)), .runAll,
    .setImage "a.png" (.image ⟨1, 2, [1, 1, 1, 1, 1, 1, 1, 1]⟩), .runAll]

set_option maxRecDepth 2000 in
theorem fetches_complete_once_of_late_image :
    let fetch : Accepted := ⟨0, 7, "a.png", false⟩
    let image : DecodedImage := ⟨1, 2, [1, 1, 1, 1, 1, 1, 1, 1]⟩
    (run fetchTwo (scripted 256 true)).core.calls =
        [.init 640 480, .fetch 1 1 8 4 7, .fetch 1 2 16 8 7] ∧
      about 0 (chronicle fetchTwo (scripted 256 true)) =
        [.accepted fetch, .asked fetch image, .copied fetch image 16,
          .told ⟨0, .fetch 1 2 16 8 7⟩] ∧
      (scripted 256 true).FetchesComplete fetchTwo ∧
      ∃ result, (scripted 256 true).CameTo fetchTwo fetch result ∧
        Outcome fetch result (about 0 (chronicle fetchTwo (scripted 256 true))) := by
  intro fetch image
  have hf := fetches_complete_once (b := scripted 256 true) ⟨rfl, rfl, rfl, rfl, rfl, rfl⟩ rfl
    fetchTwo
  have hk : (scripted 256 true).KeepsImages fetchTwo := by
    refine ⟨nofun, fun step hm => ?_⟩
    simp only [fetchTwo, List.mem_cons, List.not_mem_nil, or_false] at hm
    rcases hm with rfl | rfl | rfl | rfl | rfl | rfl | rfl | rfl | rfl <;> trivial
  have ho : (run fetchTwo (scripted 256 true)).owned = true := by decide +kernel
  have hr : (run fetchTwo (scripted 256 true)).core.bridge.requests =
    [⟨7, "a.png", false⟩, ⟨7, "b.png", false⟩] := by decide +kernel
  have hr₀ : (run fetchTwo (scripted 256 true)).core.bridge.requests[0]? =
      some ⟨7, "a.png", false⟩ := by
    rw [hr]
    rfl
  have ht : (run fetchTwo (scripted 256 true)).tasks = [] := by decide +kernel
  have hd : (run fetchTwo (scripted 256 true)).deferred = [] := by decide +kernel
  obtain ⟨rest, hc⟩ : ∃ rest, chronicle fetchTwo (scripted 256 true) =
      .called (.init 640 480) :: .started :: rest := ⟨_, rfl⟩
  have hi : InTime 0 (chronicle fetchTwo (scripted 256 true)) := by
    intro before h after he
    have hnot : .dropped ∉ before := by
      intro hm
      rw [hf.dropped.2 (he ▸ List.mem_append_left _ hm)] at ho
      cases ho
    refine ⟨fun _ => hnot, fun hdelivered => ⟨hnot, ?_⟩⟩
    -- The guest has started before anything is heard of a fetch.
    rw [hc] at he
    match before, he with
    | [], he =>
      cases he
      cases hdelivered
    | [_], he =>
      cases he
      cases hdelivered
    | _ :: _ :: _, he =>
      cases he
      exact .tail _ (.head _)
  obtain ⟨result, hcame, houtcome⟩ := hf.outcome hr₀ rfl (by simp [ht]) (by simp [hd]) hi
  exact ⟨by decide +kernel, rfl, hf, result, hcame hk, houtcome⟩

end Bench

end GuestBridge
