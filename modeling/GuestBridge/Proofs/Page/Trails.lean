import GuestBridge.Proofs.Page.Lasting
import GuestBridge.Proofs.Page.Stages
import GuestBridge.Proofs.Platform.Copy

/-!
# Sessions as trails

Every session of a page is a trail (`Page.run_trail`). `OnTrail p hand q` is what carries the
argument: the page `q` is reached from `p` on a trail, and the fetches that wait for their images
have been accepted, those of the loads in `hand` included, which have been taken off the queue to be
polled. It survives everything that can be done to a page, if it survives the steps that guests
take (`Tracks`): to ask for an image, to copy it and to tell the guest of it are stages of a fetch,
and all else is aside.
-/

set_option autoImplicit false

namespace GuestBridge.Page

open Attempt

structure OnTrail (p : Page) (hand : List ImageLoad) (q : Page) : Prop where
  trail : ∃ stages, Trail p stages q
  queued : ∀ l ∈ q.loads, q.HasAccepted l.owner l.fetch
  inHand : ∀ l ∈ hand, q.HasAccepted l.owner l.fetch

/-- Whatever step a guest takes, it stays on the trail. -/
def Tracks (inner : Performer) : Prop :=
  ∀ p hand step q, OnTrail p hand q → OnTrail p hand (inner step q).2

variable {p q r : Page} {hand : List ImageLoad} {inner : Performer} {owner : Nat}

namespace OnTrail

theorem aside (h : OnTrail p hand q) (ha : Aside q r) (hl : r.loads ⊆ q.loads) :
    OnTrail p hand r := by
  obtain ⟨stages, htrail⟩ := h.trail
  have hkept : ∀ {o fetch}, q.HasAccepted o fetch → r.HasAccepted o fetch :=
    fun {o fetch} hf => (ha.accepted o fetch.id).trans hf
  exact ⟨⟨stages, htrail.aside ha⟩, fun l hm => hkept (h.queued l (hl hm)),
    fun l hm => hkept (h.inHand l hm)⟩

theorem step {stage : Stage} (h : OnTrail p hand q) (ht : Takes q stage r)
    (hl : ∀ l ∈ r.loads, l ∈ q.loads ∨ r.HasAccepted l.owner l.fetch) : OnTrail p hand r := by
  obtain ⟨stages, htrail⟩ := h.trail
  exact ⟨⟨_, htrail.snoc ht⟩,
    fun l hm => (hl l hm).elim (fun hm => ht.hasAccepted (h.queued l hm)) id,
    fun l hm => ht.hasAccepted (h.inHand l hm)⟩

/-- The page goes on with the same bridges, but for their marks, and nobody is entered. -/
theorem silent (h : OnTrail p hand q) (hb : ∀ o, (r.core o).bridge = (q.core o).bridge)
    (ht : r.timers = q.timers) (hl : r.loads = q.loads) (hj : Event.Silent q.journal r.journal) :
    OnTrail p hand r :=
  h.aside ⟨fun o id => congrArg (Bridge.accepted? · id) (hb o), ht ▸ List.Subset.refl _,
    fetchCalls_of_silent hj⟩ (hl ▸ List.Subset.refl _)

theorem of_eq (h : OnTrail p hand q) (hi : r.installations = q.installations)
    (ht : r.timers = q.timers) (hl : r.loads = q.loads) (hj : r.journal = q.journal) :
    OnTrail p hand r :=
  h.aside (.of_eq hi ht hj) (hl ▸ List.Subset.refl _)

theorem note (h : OnTrail p hand q) {e : Event} (he : e.fetchCall? = none) :
    OnTrail p hand (q.note e) :=
  h.aside (.note he q) (List.Subset.refl _)

theorem did (h : OnTrail p hand q) (e : PageEvent) : OnTrail p hand (q.did e) := h.note rfl

theorem withCore (h : OnTrail p hand q) {c : Core ScriptedContext}
    (ha : ∀ id, c.bridge.accepted? id = q.accepted? owner id)
    (hj : Event.Silent q.journal c.journal) : OnTrail p hand (q.withCore owner c) :=
  h.aside (.withCore ha hj) (List.Subset.refl _)

theorem lasts (hi : Tracks inner) (p : Page) (hand : List ImageLoad) :
    Lasts inner (OnTrail p hand) where
  apart h ha := h.aside (.of_apart ha) (ha.loads ▸ List.Subset.refl _)
  alloc _ _ h := h.note rfl
  call _ entry he h := h.note (by cases entry <;> first | rfl | cases he)
  step q step h := hi p hand step q h

/-! ## The platform -/

theorem bears (p : Page) (hand : List ImageLoad) (inner : Performer) (owner : Nat) :
    (platform inner owner).Bears (OnTrail p hand) where
  log _ _ _ _ h := h.withCore (fun _ => rfl) (.push rfl _)
  frame _ _ h := h.withCore (fun _ => rfl) (.refl _)
  store stores q h := by
    refine h.withCore (fun id => ?_) (Core.Still.store stores _).journal
    rcases Core.store_cases stores (q.core owner) with ⟨memory, hs⟩ | ⟨e, hs⟩ <;>
      exact congrArg (fun x => Bridge.accepted? x.2.bridge id) hs

section

variable (hi : Tracks inner)

include hi

theorem animationFrame (owner : Nat) (timestamp : Ieee.Double) :
    Keeps (OnTrail p hand) ((platform inner owner).animationFrame timestamp) :=
  (Platform.meets_animationFrame (bears p hand inner owner) timestamp (fun _ h => h) fun _ h =>
    (lasts hi p hand).calls_of_note h (h.note rfl)).keeps

/-- What is left of a copy once the allocator has answered is a stage of the fetch. -/
theorem copyImage {l : ImageLoad} (hm : l ∈ hand) (image : DecodedImage) (h : OnTrail p hand q) :
    OnTrail p hand ((platform inner l.owner).copyImage l.fetch image q) := by
  have hcopy : OnTrail p hand ((platform inner l.owner).copyToGuest image.pixels q).2 :=
    (lasts hi p hand).copyToGuest l.owner image.pixels q h
  unfold Platform.copyImage
  rcases hr : (platform inner l.owner).copyToGuest image.pixels q with ⟨e | ⟨ptr, len⟩ | _, t⟩ <;>
    rw [hr] at hcopy
  · exact (bears p hand inner l.owner).log _ _ _ _ hcopy
  · obtain ⟨u, memory, hb, rfl, hal, hw, rfl⟩ := Platform.copyToGuest_of_copied hr
    have hallocated : OnTrail p hand u := by
      have halloc := (lasts hi p hand).allocates l.owner (.ofNat image.pixels.length) h
      rwa [show Page.alloc inner l.owner _ q = _ from hal] at halloc
    have hstored : (platform inner l.owner).withCore
        { (platform inner l.owner).core u with memory } u = { u with memory } := withCore_eq rfl
    simp only [hstored]
    refine hallocated.step (.copied (hallocated.inHand l hm) hb hal hw) fun l' hl' => .inl ?_
    exact loads_defer l.owner _ { u with memory } ▸ hl'
  · exact (bears p hand inner l.owner).log _ _ _ _ hcopy

theorem complete {l : ImageLoad} (hm : l ∈ hand) (result : Except FetchError DecodedImage)
    (h : OnTrail p hand q) :
    OnTrail p hand ((platform inner l.owner).complete l.fetch result q) := by
  have hsettled : OnTrail p hand ((platform inner l.owner).onBridge (·.settle l.fetch.id) q) :=
    (lasts hi p hand).onBridge (f := fun b => b.settle l.fetch.id) (fun _ _ => rfl) (fun _ => rfl)
      l.owner h
  unfold Platform.complete
  simp only
  split
  · exact (bears p hand inner l.owner).log _ _ _ _ hsettled
  · cases result with
    | ok image => exact hsettled.copyImage hi hm image
    | error e => exact (bears p hand inner l.owner).log _ _ _ _ hsettled

/-- A timer that goes off may tell a guest, which is a stage of the fetch. -/
theorem deliver {c : Completion} {rest : List Timer} (ht : q.timers = ⟨owner, c⟩ :: rest)
    (h : OnTrail p hand q) :
    OnTrail p hand ((platform inner owner).deliver c { q with timers := rest }) := by
  have htaken : OnTrail p hand { q with timers := rest } :=
    h.aside ⟨fun _ _ => rfl, fun _ hm => ht ▸ .tail _ hm, rfl⟩ (List.Subset.refl _)
  have htold : OnTrail p hand ({ q with timers := rest }.note (.call c.entry)) :=
    h.step (.told ht) fun _ => .inl
  have hcall : OnTrail p hand
      ((platform inner owner).callGuest c.entry { q with timers := rest }).2 := by
    refine meets_iff_snd.1 (Platform.meets_callGuest (P := (· = { q with timers := rest }))
      ?_ ?_) _ rfl
    · rintro _ rfl
      exact htaken
    · rintro _ rfl
      exact (lasts hi p hand).calls_of_note htaken htold
  unfold Platform.deliver
  simp only
  split
  · exact htaken
  · rcases hr : (platform inner owner).callGuest c.entry { q with timers := rest } with
      ⟨e | ⟨⟩, t⟩ <;> rw [hr] at hcall
    · exact (bears p hand inner owner).log _ _ _ _ hcall
    · exact hcall

/-! ## Tasks and timers -/

theorem finishLoad {l : ImageLoad} (hm : l ∈ hand) (result : Except FetchError DecodedImage)
    (h : OnTrail p hand q) : OnTrail p hand (finishLoad inner l result q) := by
  unfold Page.finishLoad
  split
  · exact h.complete hi hm result
  · exact h

/-- A load that goes on waiting is still that of its fetch. -/
theorem pollLoad {l : ImageLoad} (hm : l ∈ hand) (h : OnTrail p hand q) :
    OnTrail p hand (pollLoad inner l q).2 ∧
      ∀ l', (pollLoad inner l q).1 = some l' → l'.owner = l.owner ∧ l'.fetch = l.fetch := by
  have hdid : ∀ t e, OnTrail p hand t → OnTrail p hand (t.did e) := fun t e h => h.did e
  unfold Page.pollLoad
  simp only
  split
  · have himage := keeps_createImage hdid (fun _ _ h => h.of_eq rfl rfl rfl rfl)
      l.fetch.request.url q h
    split
    · rename_i image t hr
      rw [hr] at himage
      refine ⟨himage, ?_⟩
      rintro _ ⟨⟩
      exact ⟨rfl, rfl⟩
    · rename_i reason t hr
      rw [hr] at himage
      exact ⟨himage.finishLoad hi hm _, nofun⟩
  · split
    · refine ⟨h, ?_⟩
      rintro _ ⟨⟩
      exact ⟨rfl, rfl⟩
    · rename_i image i hsettled
      have hhandlers : OnTrail p hand q.removeHandlers := (h.did _).did _
      have hresult := keeps_imageResult hdid l.fetch.request.url i.size _ hhandlers
      exact ⟨finishLoad hi hm _ hresult, nofun⟩

theorem pollEach {loads : List ImageLoad} (hm : loads ⊆ hand) (h : OnTrail p hand q) :
    OnTrail p hand (pollEach inner loads q).2.2 ∧
      ∀ l' ∈ (pollEach inner loads q).1, ∃ l ∈ loads, l'.owner = l.owner ∧ l'.fetch = l.fetch := by
  induction loads generalizing q with
  | nil => exact ⟨h, nofun⟩
  | cons l rest ih =>
    obtain ⟨hl, hrest⟩ := List.cons_subset.1 hm
    obtain ⟨hpoll, hsame⟩ := h.pollLoad hi hl
    obtain ⟨heach, hwaiting⟩ := ih hrest hpoll
    have htail : ∀ l' ∈ (Page.pollEach inner rest (Page.pollLoad inner l q).2).1,
        ∃ m ∈ l :: rest, l'.owner = m.owner ∧ l'.fetch = m.fetch := fun l' hl' => by
      obtain ⟨m, hmem, he⟩ := hwaiting l' hl'
      exact ⟨m, .tail _ hmem, he⟩
    unfold Page.pollEach
    simp only
    split
    · rename_i l' hnext
      refine ⟨heach, fun m hmem => ?_⟩
      rcases List.mem_cons.1 hmem with rfl | hmem
      · exact ⟨l, .head _, hsame _ hnext⟩
      · exact htail m hmem
    · exact ⟨heach, htail⟩

/-- The loads that are polled are in hand until those that wait are put back. -/
theorem runTasksFor (n : Nat) (h : OnTrail p hand q) : OnTrail p hand (runTasksFor inner n q) := by
  induction n generalizing q with
  | zero => exact h
  | succ n ih =>
    have htaken : OnTrail p (q.loads ++ hand) { q with loads := [] } := by
      refine ⟨?_, nofun, fun l hm => ?_⟩
      · obtain ⟨stages, htrail⟩ := h.trail
        exact ⟨stages, htrail.aside (.of_eq rfl rfl rfl)⟩
      · exact (List.mem_append.1 hm).elim (h.queued l) (h.inHand l)
    obtain ⟨hround, hwaiting⟩ := htaken.pollEach hi (List.subset_append_left q.loads hand)
    have hback : OnTrail p hand
        { (Page.pollEach inner q.loads { q with loads := [] }).2.2 with
          loads := (Page.pollEach inner q.loads { q with loads := [] }).1 ++
            (Page.pollEach inner q.loads { q with loads := [] }).2.2.loads } := by
      obtain ⟨stages, htrail⟩ := hround.trail
      refine ⟨⟨stages, htrail.aside (.of_eq rfl rfl rfl)⟩, fun l hm => ?_, fun l hm =>
        hround.inHand l (List.mem_append_right _ hm)⟩
      rcases List.mem_append.1 hm with hm | hm
      · obtain ⟨m, hmem, ho, hf⟩ := hwaiting l hm
        rw [ho, hf]
        exact hround.inHand m (List.mem_append_left _ hmem)
      · exact hround.queued l hm
    unfold Page.runTasksFor
    simp only
    split
    · exact ih hback
    · exact hback

theorem runTasks (h : OnTrail p hand q) : OnTrail p hand (runTasks inner q) := h.runTasksFor hi _

theorem runTimer (h : OnTrail p hand q) : OnTrail p hand (runTimer inner q).2 := by
  unfold Page.runTimer
  split
  · exact h
  · rename_i t rest ht
    simp only
    split
    · exact h.deliver hi ht
    · exact h.aside ⟨fun _ _ => rfl, fun _ hm => ht ▸ .tail _ hm, rfl⟩ (List.Subset.refl _)

/-! ## Frames -/

omit hi in
theorem stopLoop (loop : Nat) (h : OnTrail p hand q) : OnTrail p hand (q.stopLoop loop) := by
  obtain ⟨journal, frames, he, hj, -⟩ := q.stopLoop_eq loop
  rw [he]
  exact h.silent (fun _ => rfl) rfl rfl hj

theorem frame (timestamp : Ieee.Double) (h : OnTrail p hand q) :
    OnTrail p hand (frame inner timestamp q).2 :=
  keeps_frame (fun _ _ he h => h.note (Event.fetchCall?_of_not_entry he))
    (fun _ _ _ _ h => h.of_eq rfl rfl rfl rfl) (fun o => animationFrame hi o timestamp) h

/-! ## Imports -/

omit hi in
/-- The call of an import is a stage of a fetch, if a fetch is accepted. -/
theorem callImport (inner : Performer) (name : String) (args : Arguments) (h : OnTrail p hand q) :
    OnTrail p hand (callImport inner name args q).2 := by
  rcases callImport_cases inner name args q with
    ⟨owner, fetch, text, rfl, ho, hid, hc, -, hcall⟩ | hapart
  · rw [hcall]
    refine h.step (.asked hcall rfl) fun l hm => ?_
    refine (List.mem_append.1 hm).imp_right fun hm => ?_
    obtain rfl := List.mem_singleton.1 hm
    exact (accepted?_accept ho hid hc text owner fetch.id).trans (if_pos ⟨rfl, rfl⟩)
  · exact h.aside (.of_apart hapart) (hapart.loads ▸ List.Subset.refl _)

theorem endures (p : Page) (hand : List ImageLoad) : Endures inner (OnTrail p hand) where
  toLasts := lasts hi p hand
  startLoop := keeps_startLoop (fun _ _ he h => h.note (Event.fetchCall?_of_not_entry he))
    fun _ _ _ _ h => h.of_eq rfl rfl rfl rfl
  stopLoop _ loop h := h.stopLoop loop
  frame _ timestamp h := h.frame hi timestamp
  runTasks _ h := h.runTasks hi
  runTimer _ h := h.runTimer hi
  callImport _ name args h := h.callImport inner name args

end

end OnTrail

theorem performFor_tracks (depth : Nat) : Tracks (performFor depth) := by
  induction depth with
  | zero => exact fun _ _ _ _ h => h
  | succ depth ih => exact fun p hand step _ h => (OnTrail.endures ih p hand).performWith step h

/-- Whatever is done on a page, it is a trail. -/
theorem run_trail (steps : List PageStep) (hq : ∀ l ∈ q.loads, q.HasAccepted l.owner l.fetch) :
    ∃ stages, Trail q stages (run steps q) := by
  have hrun : ∀ r, OnTrail q [] r → OnTrail q [] (run steps r) := by
    induction steps with
    | nil => exact fun _ h => h
    | cons step rest ih => exact fun r h => ih _ (performFor_tracks _ q [] step r h)
  exact (hrun q ⟨⟨[], .refl⟩, hq, nofun⟩).trail

end GuestBridge.Page
