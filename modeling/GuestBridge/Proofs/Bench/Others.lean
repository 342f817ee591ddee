import GuestBridge.Proofs.Bench.Cancellation
import GuestBridge.Proofs.Bench.Share

/-!
# What a cancellation changes for others

What the guest is told of some of the fetches is up to their share of the bench, step by step
(`Tracks.told_performWith`) and along a run (`Tracks.told_chronicle`). Cancelling another fetch does
not touch the share, so the chronicle of the run without the cancellation tells the same of them.
Together with what becomes of the cancelled fetch itself, that is `cancel_final`.
-/

set_option autoImplicit false

namespace GuestBridge.Bench

variable {G C : Type}

/-! ## Tellings -/

/-- What the guest is told of a fetch in `p`, but for where the image is. -/
def Happening.toldOf? (p : Nat → Bool) : Happening → Option Completion
  | .told c => if p c.request then some c.unplaced else none
  | _ => none

section

variable {p : Nat → Bool} {inner : Performer G C} {tell : Teller G C} {b b' : Bench G C}

theorem Teller.interlude_of_records (hg : b.guest.Records) (name : String) :
    Teller.interlude inner tell name b = [] := by
  unfold Teller.interlude Interludes.take
  rw [hg.queue]
  rfl

/-! ## The queues -/

theorem tells_share {c : Completion} (hp : p c.request = true) :
    (b.share p).tells c.unplaced = (omission? b c).isNone := by
  have hc : (b.share p).cancelled c.request = b.core.bridge.isCancelled c.request := by
    simp [share, hp]
  have hl : (b.share p).isAlive = b.isAlive := rfl
  have hi : c.entry.unplaced.isInit = c.entry.isInit := by cases c.entry <;> rfl
  have ha : ({ phase := (b.share p).phase } : Bridge).admits c.entry.unplaced =
      b.core.bridge.admits c.entry := by
    unfold Bridge.admits
    rw [hi]
    rfl
  unfold Share.tells omission?
  show (_ && !(b.share p).cancelled c.request && Bridge.admits _ c.entry.unplaced &&
    b.core.bridge.attached) = _
  rw [hl, hc, ha]
  cases b.isAlive <;> cases b.core.bridge.isCancelled c.request <;>
    cases b.core.bridge.admits c.entry <;> cases b.core.bridge.attached <;> rfl

theorem told_handle (hg : b.guest.Records) (c : Completion) (rest : List Completion) :
    (Teller.handle inner tell c { b with deferred := rest }).filterMap (Happening.toldOf? p) =
      if p c.request && (b.share p).tells c.unplaced then [c.unplaced] else [] := by
  let b₁ : Bench G C := { b with deferred := rest }
  have hg₁ : (b₁.note (.call c.entry)).guest.Records := ⟨hg.queue, hg.allocations⟩
  have ho : omission? b₁ c = omission? b c := rfl
  show (Teller.handle inner tell c b₁).filterMap _ = _
  unfold Teller.handle
  rw [Teller.interlude_of_records hg₁, ho]
  cases hp : p c.request with
  | false => cases omission? b c <;> simp [Happening.toldOf?, hp]
  | true =>
    rw [tells_share hp]
    cases omission? b c <;> simp [Happening.toldOf?, hp]

/-- Running all completions tells the guest of those that the share tells it of. -/
theorem Tracks.told_runDeferredFor {n : Nat} (h : b.Tracks p) (hl : b.deferred.length < n)
    (hn : (runDeferredFor inner n b).guest.allocator.next < UInt32.size) :
    (Teller.runDeferredFor inner tell n b).filterMap (Happening.toldOf? p) =
      (b.share p).waiting.filter (b.share p).tells := by
  induction n generalizing b with
  | zero => cases hl
  | succ n ih =>
    rw [Teller.runDeferredFor, Teller.runOneDeferred, List.filterMap_append]
    have hwaiting : (b.share p).waiting =
        (b.deferred.filter (p ·.request)).map Completion.unplaced := rfl
    cases hd : b.deferred with
    | nil =>
      rw [runOneDeferred_of_nil hd, hwaiting, hd]
      rfl
    | cons c rest =>
      have hc : Advances p _ b (Bench.handle inner c { b with deferred := rest }) :=
        h.handle c rest
      have hrest := (keeps_handle inner h.records c rest).2
      rw [hd] at hl
      have hl' : (Bench.handle inner c { b with deferred := rest }).deferred.length < n := by
        rw [hrest]
        exact Nat.lt_of_succ_lt_succ hl
      rw [runDeferredFor_succ_of_cons hd] at hn
      have hd' : DeliversTo inner _ _ := runDeferredFor_of_records hc.tracks.records hl'
      have hle := (hd'.advances hc.tracks).next
      rw [runOneDeferred_of_cons hd]
      dsimp only
      rw [told_handle h.records, ih hc.tracks hl' hn, hc.share (Nat.lt_of_le_of_lt hle hn),
        hwaiting, hd, List.filter_cons]
      cases p c.request with
      | false => rfl
      | true =>
        rw [if_pos rfl, List.map_cons, List.filter_cons]
        cases (b.share p).tells c.unplaced <;> rfl

theorem Tracks.told_runDeferred (h : b.Tracks p)
    (hn : (Bench.runDeferred inner b).guest.allocator.next < UInt32.size) :
    (Teller.runDeferred inner tell b).filterMap (Happening.toldOf? p) =
      (b.share p).waiting.filter (b.share p).tells :=
  h.told_runDeferredFor (by unfold work; omega) hn

theorem Teller.runDeferred_of_nil (hd : b.deferred = []) :
    Teller.runDeferred inner tell b = [] := by
  rw [Teller.runDeferred, Teller.runDeferredFor, Teller.runOneDeferred, hd,
    runOneDeferred_of_nil hd]
  rfl

theorem Teller.pollEach_of_waits {ts : List Task} (h : ∀ t ∈ ts, b.result? t = none) :
    Teller.pollEach inner tell ts b = [] := by
  induction ts with
  | nil => rfl
  | cons t rest ih =>
    rw [Teller.pollEach, h t (.head _)]
    exact ih fun t' hm => h t' (.tail _ hm)

theorem Teller.runTasks_of_waits (h : b.Waits) : Teller.runTasks inner tell b = [] := by
  rw [Teller.runTasks, Teller.runTasksFor, poll_of_waits inner h,
    Teller.pollEach_of_waits (b := { b with tasks := [] }) h]
  rfl

/-- After one round of the queues nothing more happens. -/
theorem Teller.runAll_of_records (hg : b.guest.Records) :
    Teller.runAll inner tell b =
      Teller.runTasks inner tell b ++ Teller.runDeferred inner tell (Bench.runTasks inner b) := by
  obtain ⟨hwaits, hd⟩ := settled_of_records inner hg
  have hrest (n : Nat) : Teller.runAllFor inner tell n
      (Bench.runDeferred inner (Bench.runTasks inner b)) = [] := by
    cases n with
    | zero => rfl
    | succ n =>
      rw [Teller.runAllFor, Teller.runTasks_of_waits hwaits, Bench.runTasks_of_waits hwaits, hd]
      rfl
  rw [Teller.runAll, Teller.runAllFor]
  cases hpolled : (Bench.runTasks inner b).deferred with
  | nil => simp [Teller.runDeferred_of_nil hpolled]
  | cons c rest => simp [hrest]

/-! ## Ways on which nothing is told -/

variable [GraphicsContext G]

/-- A way on which nothing is told. -/
theorem Leads.told_eq_nil {top : Happening → Prop} {hs : List Happening}
    (h : Leads (fun _ => False) top [] b hs [] b') (hg : b.guest.Records) (hb : b.Sound)
    (ht : ∀ c, ¬ top (.told c)) : hs.filterMap (Happening.toldOf? p) = [] := by
  have hall : b.guest.All fun _ => False := by
    unfold Guest.All
    rw [hg.queue]
    exact nofun
  obtain ⟨loads, -, hcourse, -⟩ := h [] b.tasks [] hall hb (.refl _)
  have hnone : ∀ h ∈ hs, ∀ c, h ≠ .told c :=
    hcourse.forall_of (fun h hh c he => ht c (he ▸ hh)) fun h ⟨_, hf, _⟩ => hf.elim
  refine List.filterMap_eq_nil_iff.2 fun h hm => ?_
  cases h with
  | told c => exact absurd rfl (hnone _ hm c)
  | _ => rfl

/-- Steps of a guest that takes none. -/
theorem follows_false : Follows (fun _ => False) inner tell := fun _ _ h => h.elim

theorem Tracks.told_runTasks (h : b.Tracks p) (hb : b.Sound) :
    (Teller.runTasks inner tell b).filterMap (Happening.toldOf? p) = [] := by
  have hleads : Leads (fun _ => False) Happening.IsLoad [] b (Teller.runTasks inner tell b) []
      (Bench.runTasks inner b) := runTasks_leads follows_false (fun _ hl => hl) b
  exact hleads.told_eq_nil h.records hb fun _ => id

theorem Tracks.told_runAll (h : b.Tracks p) (hb : b.Sound)
    (hn : (Bench.runAll inner b).guest.allocator.next < UInt32.size) :
    (Teller.runAll inner tell b).filterMap (Happening.toldOf? p) =
      (b.share p).told (.runAll : Step C) := by
  have ht : Advances p _ b (Bench.runTasks inner b) := h.runTasks
  rw [(Bench.runAll_of_records inner h.records).2] at hn
  have hd := runDeferred_of_records inner ht.tracks.records
  have hle := (hd.advances ht.tracks).next
  rw [Teller.runAll_of_records h.records, List.filterMap_append, h.told_runTasks hb,
    ht.tracks.told_runDeferred hn, ht.share (Nat.lt_of_le_of_lt hle hn)]
  rfl

/-! ## Steps and runs -/

variable [AdjustableContext G C]

/-- What the guest is told of the fetches in `p` in a step is up to their share. -/
theorem Tracks.told_performWith (h : b.Tracks p) (hb : b.Sound) {step : Step C} (hs : step.Records)
    (hn : (Bench.performWith inner step b).2.guest.allocator.next < UInt32.size) :
    (Teller.performWith inner tell step b).filterMap (Happening.toldOf? p) =
      (b.share p).told step := by
  have hleads (hc : ∀ c, ¬ Happening.CausedBy (.told c) step) (hb' : step.AllBelow fun _ => False) :
      (Teller.performWith inner tell step b).filterMap (Happening.toldOf? p) = [] :=
    (performWith_leads follows_false step b hb').told_eq_nil h.records hb hc
  cases step with
  | runDeferred => exact h.told_runDeferred hn
  | runAll => exact h.told_runAll hb hn
  | interlude | queueAllocation | runOneDeferred => exact hs.elim
  | _ => exact hleads (by rintro c (hc | hc | hc) <;> cases hc) trivial

theorem Tracks.perform (h : b.Tracks p) {step : Step C} (hs : step.Records) :
    Advances p ((b.share p).after p step) b (Bench.perform step b).2 :=
  h.performWith hs

/-- The completions that the guest is told of in a run of steps. -/
def Share.toldIn (p : Nat → Bool) : List (Step C) → Share → List Completion
  | [], _ => []
  | step :: rest, v => v.told step ++ toldIn p rest (v.after p step)

theorem Tracks.next_le_run (h : b.Tracks p) {steps : List (Step C)}
    (hs : ∀ step ∈ steps, step.Records) :
    b.guest.allocator.next ≤ (Bench.run steps b).guest.allocator.next := by
  induction steps generalizing b with
  | nil => exact Nat.le_refl _
  | cons step rest ih =>
    have ha := h.perform (hs step (.head _))
    exact Nat.le_trans ha.next (ih ha.tracks fun step' hm => hs step' (.tail _ hm))

theorem Tracks.told_chronicle (h : b.Tracks p) (hb : b.Sound) {steps : List (Step C)}
    (hs : ∀ step ∈ steps, step.Records)
    (hn : (Bench.run steps b).guest.allocator.next < UInt32.size) :
    (chronicle steps b).filterMap (Happening.toldOf? p) = (b.share p).toldIn p steps := by
  induction steps generalizing b with
  | nil => rfl
  | cons step rest ih =>
    have ha := h.perform (hs step (.head _))
    have hrest : ∀ step' ∈ rest, step'.Records := fun step' hm => hs step' (.tail _ hm)
    have hn' := Nat.lt_of_le_of_lt (ha.tracks.next_le_run hrest) hn
    rw [chronicle, List.filterMap_append, ih ha.tracks (sound_perform hb step) hrest hn,
      ha.share hn', Teller.perform, Teller.performFor,
      h.told_performWith hb (hs step (.head _)) hn']
    rfl

/-! ## Cancellations -/

omit [GraphicsContext G] [AdjustableContext G C] in
/-- Cancelling a fetch does not touch the share of others. -/
theorem share_cancel {id : Nat} (b : Bench G C) (hp : p id = false) :
    (b.withBridge (·.cancel id)).share p = b.share p := by
  refine Share.ext rfl rfl rfl rfl rfl rfl (funext fun other => ?_) rfl rfl rfl
  show (p other && (b.core.bridge.cancel id).isCancelled other) =
    (p other && b.core.bridge.isCancelled other)
  rw [Bridge.isCancelled_cancel]
  by_cases ho : id = other
  · rw [← ho, hp]
    rfl
  · simp [ho]

/-- The fetches accepted so far, but for one. -/
def others (b : Bench G C) (id other : Nat) : Bool :=
  decide (other < b.core.bridge.requests.length ∧ other ≠ id)

/-- A run after a cancellation tells the guest the same of the other fetches as without it. -/
theorem told_others {s : Bench G C} (hg : s.guest.Records) (hb : s.Sound) (id : Nat)
    {post : List (Step C)} (hpost : ∀ step ∈ post, step.Records)
    (hn : (Bench.run post s).guest.allocator.next < UInt32.size)
    (hn' : (Bench.run post (s.withBridge (·.cancel id))).guest.allocator.next < UInt32.size) :
    (chronicle post (s.withBridge (·.cancel id))).filterMap (Happening.toldOf? (s.others id)) =
      (chronicle post s).filterMap (Happening.toldOf? (s.others id)) := by
  have ht : Tracks (s.others id) s := ⟨hg, fun other ho => (of_decide_eq_true ho).1⟩
  have ht' : Tracks (s.others id) (s.withBridge (·.cancel id)) := by
    refine ⟨hg, fun other ho => ?_⟩
    show other < (s.core.bridge.cancel id).requests.length
    rw [Bridge.requests_length_cancel]
    exact ht.accepted other ho
  rw [ht.told_chronicle hb hpost hn, ht'.told_chronicle hb hpost hn',
    share_cancel s (by simp [others])]

/-! ## Chronicles -/

/-- The call of the guest that happens. -/
def Happening.call? (h : Happening) : Option EntryPoint := h.entry?.bind Event.call?

/-- What the chronicle of a run tells is what has happened, and the calls of the guest in it are
those of the run. -/
structure Chronicled (b : Bench G C) (steps : List (Step C)) : Prop where
  history : ∃ loads, History ⟨b, b.tasks, []⟩ (chronicle steps b) ⟨Bench.run steps b, loads, []⟩ ∧
    (Bench.run steps b).tasks.Perm loads
  calls : (Bench.run steps b).core.calls =
    b.core.calls ++ (chronicle steps b).filterMap Happening.call?

theorem Sound.chronicled {b : Bench G C} (hb : b.Sound) (steps : List (Step C)) :
    b.Chronicled steps := by
  obtain ⟨loads, hh, hp⟩ := hb.history_of_chronicle steps
  refine ⟨⟨loads, hh, hp⟩, ?_⟩
  rw [Core.calls_eq, Core.calls_eq, hh.entries_eq, List.filterMap_append, List.filterMap_filterMap]
  rfl

/-- A cancellation is final, at whatever moment it comes, inside a call of the guest as well: from
then on the guest is not told of the fetch; if its load had not been taken up, nothing is copied for
it; and when its load is taken up later, the guest is not called or asked for anything, and its
memory stays as it is. With a guest that only records, and allocations below the end of the address
space, a cancellation leaves all other fetches accepted before alone: in whatever follows, the guest
is told of the same ones in the same order, with images of the same size and length and with the
same tokens. -/
theorem cancel_final {b : Bench G C} (hb : b.Fresh) :
    (∀ hs n, History ⟨b, [], []⟩ hs n → ∀ id < n.bench.core.bridge.requests.length,
      ∀ hs' m, History { n with bench := n.bench.withBridge (·.cancel id) } hs' m →
        (∀ c, .told c ∈ hs' → c.request ≠ id) ∧
          ((∀ h ∈ hs, h.takenUp? ≠ some id) → ∀ h ∈ hs', ¬ h.Copies id) ∧
            ∀ (inner : Performer G C) t result, t.fetch.id = id →
              SparesGuest m.bench (takeUp inner t result m.bench) ∧
                (takeUp inner t result m.bench).core.memory = m.bench.core.memory) ∧
    ∀ (pre post : List (Step C)) (id : Nat),
      let s := Bench.run pre b
      let s' := Bench.run (pre ++ [.cancelRequest id]) b
      s.guest.Records → (∀ step ∈ post, step.Records) →
      (Bench.run post s).guest.allocator.next < UInt32.size →
      (Bench.run post s').guest.allocator.next < UInt32.size →
      s.Chronicled post ∧ s'.Chronicled post ∧
        (chronicle post s').filterMap (Happening.toldOf? (s.others id)) =
          (chronicle post s).filterMap (Happening.toldOf? (s.others id)) := by
  refine ⟨fun hs n hh id hid hs' m hh' => ?_, fun pre post id => ?_⟩
  · have hcancel := isCancelled_of_cancel hid
    have hcancelled := hh'.isCancelled_of_isCancelled hcancel
    refine ⟨(hh'.not_told_of_hushed (hushed_cancel hid)).2, fun hnot => ?_,
      fun inner t result ht => takeUp_of_isCancelled inner (ht ▸ hcancelled) result⟩
    have hbarred : Barred id { n with bench := n.bench.withBridge (·.cancel id) } := by
      refine ⟨hcancel, ?_⟩
      rintro x hx rfl
      obtain ⟨h, hm, ht⟩ := hh.copying_of_takenUp rfl x hx
      exact hnot h hm ht
    exact (hh'.not_copied_of_barred hbarred).2
  · intro s s' hg hpost hn hn'
    have hs' : s' = s.withBridge (·.cancel id) := Bench.run_append pre [.cancelRequest id] b
    have hsound : s.Sound := sound_of_run hb pre
    refine ⟨hsound.chronicled post, (sound_of_run hb _).chronicled post, ?_⟩
    rw [hs'] at hn' ⊢
    exact told_others hg hsound id hpost hn hn'

/-- Two fetches of one image with one token, both accepted and neither taken up. -/
def fetchTwins : List (Step NumberedContext.Change) :=
  [.bridge firstInit, .writeText "late.png", .bridge (.capability (.fetchBytes 8 8 4)),
    .bridge (.capability (.fetchBytes 8 8 4))]

/-- Cancelling one of two fetches that are alike leaves the other, but for where its image is. -/
theorem cancel_final_of_twin :
    let s := Bench.run fetchTwins (numbered 0 [("late.png", 2, 2)])
    let s' := Bench.run (fetchTwins ++ [.cancelRequest 0]) (numbered 0 [("late.png", 2, 2)])
    (Bench.run [.runAll] s).core.calls =
        [.init 640 480, .fetch 2 2 16 16 4, .fetch 2 2 32 16 4] ∧
      (Bench.run [.runAll] s').core.calls = [.init 640 480, .fetch 2 2 16 16 4] ∧
      (chronicle [.runAll] s).filterMap (Happening.toldOf? (s.others 0)) =
        [⟨1, .fetch 2 2 0 16 4⟩] ∧
      (chronicle [.runAll] s').filterMap (Happening.toldOf? (s.others 0)) =
        [⟨1, .fetch 2 2 0 16 4⟩] := by
  intro s s'
  have hb : Fresh (numbered 0 [("late.png", 2, 2)]) := ⟨rfl, rfl, rfl, rfl, rfl, rfl⟩
  have hpost (step : Step NumberedContext.Change) (hm : step ∈ [.runAll]) : step.Records := by
    rw [List.mem_singleton.1 hm]
    trivial
  have htold : (chronicle [.runAll] s).filterMap (Happening.toldOf? (s.others 0)) =
      [⟨1, .fetch 2 2 0 16 4⟩] := by decide +kernel
  obtain ⟨-, -, heq⟩ := (cancel_final hb).2 fetchTwins [.runAll] 0 ⟨by decide +kernel, rfl⟩
    hpost (by decide +kernel) (by decide +kernel)
  exact ⟨by decide +kernel, by decide +kernel, htold, heq.trans htold⟩

end

end GuestBridge.Bench
