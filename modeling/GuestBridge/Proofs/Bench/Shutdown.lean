import GuestBridge.Bench.Setup
import GuestBridge.Proofs.Bench.Pending
import GuestBridge.Proofs.Bench.Rounds

/-!
# What a shutdown silences

A shutdown cancels the fetches that are pending, and the guest is never told of a cancelled one
(`History.not_told_of_hushed`). A fetch whose image is just being copied, or whose completion
waits, is not pending any more, so the shutdown passes it by: of those that were not cancelled
before, the guest can still be told (`runDeferredFor_tells`).
-/

set_option autoImplicit false

namespace GuestBridge

/-- The calls of the guest so far, in order. -/
def Core.calls {G : Type} (c : Core G) : List EntryPoint :=
  c.journal.toList.filterMap fun
    | .call entry => some entry
    | _ => none

/-- The entry point that an event is a call of. -/
def Event.call? : Event → Option EntryPoint
  | .call entry => some entry
  | _ => none

theorem Core.calls_eq_filterMap {G : Type} (core : Core G) :
    core.calls = core.journal.toList.filterMap Event.call? := rfl

theorem Core.calls_eq {G : Type} (core : Core G) :
    core.calls = core.entries.filterMap Event.call? := by
  refine (core.filterMap_entries fun e he => ?_).symm
  cases e <;> first | rfl | cases he

namespace Bench

variable {G C : Type} [GraphicsContext G] {m n : Moment G C} {h : Happening} {id : Nat}

/-! ## Silence -/

/-- Whether a fetch has been accepted, and is cancelled if it is in flight. -/
structure Hushed (id : Nat) (m : Moment G C) : Prop where
  accepted : m.bench.core.bridge.accepted? id ≠ none
  cancelled (s : Stage) (hs : s ∈ m.flights) (hid : s.id = id) :
    m.bench.core.bridge.isCancelled id = true

theorem Hushed.step (hm : Hushed id m) (hh : Happens m h n) : Hushed id n where
  accepted := hh.accepted?_ne_none hm.accepted
  cancelled s hs hid := by
    obtain ⟨rest, hp, hp'⟩ := hh.flights_perm
    have hnew : ∀ fetch, h = .accepted fetch → s ∉ h.reaches := by
      rintro fetch rfl hr
      obtain rfl : s = .loading fetch := List.mem_singleton.1 hr
      rcases hh.accepted?_eq id with ⟨_, -, -, hnone, -⟩ | ⟨hne, -⟩
      · exact hm.accepted hnone
      · exact hne fetch rfl hid
    have hmem : s.id ∈ (h.leaves ++ rest).map Stage.id := by
      rcases List.mem_append.1 (hp'.mem_iff.1 hs) with hr | hr
      · have hsub := Happening.reaches_sublist fun fetch he => hnew fetch he hr
        exact List.map_append ▸ List.mem_append_left _ (hsub.subset (List.mem_map_of_mem hr))
      · exact List.mem_map_of_mem (List.mem_append_right _ hr)
    obtain ⟨s', hs', hid'⟩ := List.mem_map.1 hmem
    exact hh.isCancelled_of_isCancelled
      (hm.cancelled s' (hp.mem_iff.2 hs') (hid'.trans hid))

omit [GraphicsContext G] in
theorem Hushed.of_quiet {b : Bench G C} (hm : Hushed id m) (hq : Quiet m.bench b) :
    Hushed id { m with bench := b } := by
  obtain ⟨ha, hc⟩ := hm
  constructor
  · rwa [hq.bridge]
  · rwa [hq.flights_eq, hq.bridge]

theorem Hushed.ne_of_told {c : Completion} (hm : Hushed id m) (hh : Happens m (.told c) n) :
    c.request ≠ id := by
  rintro rfl
  cases hh with
  | told hd ho =>
    have hs : Stage.queued c ∈ m.flights := by
      unfold Moment.flights
      rw [hd]
      exact List.mem_append_right _ (.head _)
    have hc := (omission_eq_none ho).2.1
    rw [hm.cancelled _ hs rfl] at hc
    cases hc

/-- The guest is never told of a fetch that is hushed. -/
theorem History.not_told_of_hushed {hs : List Happening} (hh : History m hs n)
    (hm : Hushed id m) : Hushed id n ∧ ∀ c, .told c ∈ hs → c.request ≠ id := by
  induction hh with
  | refl => exact ⟨hm, nofun⟩
  | quiet before hq ih => exact ⟨ih.1.of_quiet hq, ih.2⟩
  | snoc before now ih =>
    refine ⟨ih.1.step now, fun c hc => ?_⟩
    rcases List.mem_append.1 hc with hc | hc
    · exact ih.2 c hc
    · exact ih.1.ne_of_told (List.mem_singleton.1 hc ▸ now)

/-- A shutdown hushes the fetches whose image is not being copied and whose completion does not
wait. -/
theorem Pending.hushed_of_shutdown (hm : Pending m) (ha : m.bench.core.bridge.accepted? id ≠ none)
    (hc : ∀ x ∈ m.copying, x.1.id = id → m.bench.core.bridge.isCancelled id = true)
    (hd : ∀ c ∈ m.bench.deferred, c.request = id → m.bench.core.bridge.isCancelled id = true) :
    Hushed id { m with bench.core := m.bench.core.shutdown } := by
  have hs : Happens m .shutDown { m with bench.core := m.bench.core.shutdown } := .shutDown
  refine ⟨hs.accepted?_ne_none ha, fun s hmem hid => ?_⟩
  have hmem : s ∈ m.flights := hmem
  unfold Moment.flights at hmem
  simp only [List.mem_append, List.mem_map] at hmem
  rcases hmem with (⟨t, ht, rfl⟩ | ⟨x, hx, rfl⟩) | ⟨c, hmem', rfl⟩
  · -- Its load is pending, and so the shutdown cancels it.
    exact hid ▸ hm.isCancelled_of_load ht
  · exact hs.isCancelled_of_isCancelled (hc x hx hid)
  · exact hs.isCancelled_of_isCancelled (hd c hmem' hid)

/-! ## What can still be told -/

section

variable {inner : Performer G C} {b : Bench G C}

omit [GraphicsContext G] in
theorem interlude_eq_self (hq : b.guest.interludes.queue = []) (name : String) :
    interlude inner name b = b := by
  unfold interlude Interludes.take
  simp [hq, takeSteps]

/-- A guest that takes no steps is told of the first completion, and that is all. -/
theorem deliver_tells (inner : Performer G C) (hq : b.guest.interludes.queue = []) {c : Completion}
    {rest : List Completion} (hd : b.deferred = c :: rest) (ho : omission? b c = none)
    (loads : List Task) (copying : List (Accepted × DecodedImage)) :
    ∃ journal, (platform inner).deliver c { b with deferred := rest } =
        { b with deferred := rest, core.journal := journal } ∧
      History ⟨b, loads, copying⟩ [.told c]
        ⟨{ b with deferred := rest, core.journal := journal }, loads, copying⟩ := by
  obtain ⟨-, hc, hp, ha⟩ := omission_eq_none ho
  let b₁ : Bench G C := { b with deferred := rest }
  have hcall : ((platform inner).callGuest c.entry b₁).2 = b₁.note (.call c.entry) := by
    have hp₁ : b₁.core.bridge.admits c.entry = true := hp
    have ha₁ : b₁.core.bridge.attached = true := ha
    rw [callGuest_eq, if_neg (by simp [hp₁]), if_neg (by simp [ha₁]), call_eq]
    exact interlude_eq_self (b := b₁.note (.call c.entry)) hq _
  have htold : History ⟨b, loads, copying⟩ [.told c] ⟨b₁.note (.call c.entry), loads, copying⟩ :=
    .single (.told hd ho)
  rcases deliver_of_callGuest inner (b := b₁) hc hcall with hdel | ⟨level, target, text, hdel⟩
  · exact ⟨_, hdel, htold⟩
  · exact ⟨_, hdel, .quiet htold (quiet_note (e := .log ⟨level, target, text⟩) _ rfl)⟩

/-- A running guest that takes no steps is told of all completions that are not cancelled. -/
theorem runDeferredFor_tells (inner : Performer G C) (hq : b.guest.interludes.queue = [])
    (ho : b.owned = true) (hp : b.core.bridge.phase = .running) (ha : b.core.bridge.attached = true)
    {k : Nat} (hk : b.deferred.length ≤ k) (loads : List Task) :
    ∃ hs, History ⟨b, loads, []⟩ hs ⟨runDeferredFor inner k b, loads, []⟩ ∧
      ∀ c ∈ b.deferred, b.core.bridge.isCancelled c.request = false → .told c ∈ hs := by
  induction k generalizing b with
  | zero =>
    rw [List.length_eq_zero_iff.1 (Nat.le_zero.1 hk)]
    exact ⟨[], .refl, nofun⟩
  | succ k ih =>
    rcases hd : b.deferred with _ | ⟨c, rest⟩
    · rw [runDeferredFor_succ_of_nil hd]
      exact ⟨[], .refl, nofun⟩
    · have hl : b.isAlive = true := by simp [isAlive, ho]
      have hl' : ({ b with deferred := rest } : Bench G C).isAlive = true := hl
      rw [runDeferredFor_succ_of_cons hd, handle, if_pos hl']
      rw [hd] at hk
      have hk' : rest.length ≤ k := Nat.le_of_succ_le_succ hk
      by_cases hc : b.core.bridge.isCancelled c.request = true
      · rw [deliver_of_isCancelled (b := { b with deferred := rest }) hc]
        have hom : omission? b c = some .cancelled := by
          rw [omission?, if_neg (by simp [hl]), if_pos hc]
        obtain ⟨hs, hh, htold⟩ := ih (b := { b with deferred := rest }) hq ho hp ha hk'
        refine ⟨_, (History.single (.omitted hd hom)).trans hh, fun c' hmem hn => ?_⟩
        rcases List.mem_cons.1 hmem with rfl | hmem
        · rw [hc] at hn
          cases hn
        · exact .tail _ (htold c' hmem hn)
      · have hom : omission? b c = none := by
          rw [omission?, if_neg (by simp [hl]), if_neg hc, if_neg (by simp [Bridge.admits, hp, ha])]
        obtain ⟨journal, hdel, hh⟩ := deliver_tells inner hq hd hom loads []
        obtain ⟨hs, hh', htold⟩ :=
          ih (b := { b with deferred := rest, core.journal := journal }) hq ho hp ha hk'
        rw [hdel]
        refine ⟨_, hh.trans hh', fun c' hmem hn => ?_⟩
        rcases List.mem_cons.1 hmem with rfl | hmem
        · exact .head _
        · exact .tail _ (htold c' hmem hn)

end

/-! ## Guests without steps -/

variable [AdjustableContext G C] {b : Bench G C}

theorem perform_bridge (ho : b.owned = true) (op : Operation) :
    ∃ inner : Performer G C, (perform (.bridge op) b).2 = ((platform inner).operate op b).2 := by
  refine ⟨performFor (b.guest.weight + (Step.bridge op : Step C).weight), ?_⟩
  show (b.whileOwned _).2 = _
  rw [whileOwned, if_pos ho]

theorem perform_attachGuest (ho : b.owned = true) :
    (perform (.bridge .attachGuest) b).2 = { b with core.bridge.attached := true } := by
  obtain ⟨inner, h⟩ := perform_bridge ho .attachGuest
  rw [h]
  exact attachGuest_eq inner b

theorem perform_init (ho : b.owned = true) (ha : b.core.bridge.attached = true)
    (hg : b.guest = {}) (width height : UInt32) :
    ∃ journal, (perform (.bridge (.init width height)) b).2 =
      { b with core.bridge.phase := .running, core.journal := journal } := by
  obtain ⟨inner, h⟩ := perform_bridge ho (.init width height)
  rw [h]
  show ∃ journal, ((platform inner).init width height b).2 = _
  by_cases hp : b.core.bridge.phase = .running
  · refine ⟨b.core.journal, ?_⟩
    rw [init_of_running hp, ← hp]
  · have hcall : (platform inner).callGuest (.init width height) b =
        (.ok (), b.note (.call (.init width height))) := by
      have hi : call inner (.init width height) b =
          (.ok (), b.note (.call (.init width height))) := by
        unfold call
        rw [interlude_eq_self (b := b.note (.call (.init width height))) (by simp [note, hg])]
        simp [note, hg, Guest.fault?]
      rw [callGuest_eq, if_neg (by simp [Bridge.admits, EntryPoint.isInit]),
        if_neg (by simp [ha]), hi]
      rfl
    rw [init_of_ok hp hcall]
    exact ⟨_, rfl⟩

theorem perform_shutdown (ho : b.owned = true) :
    (perform (.bridge .shutdown) b).2 = { b with core := b.core.shutdown } := by
  obtain ⟨inner, h⟩ := perform_bridge ho .shutdown
  rw [h]
  rfl

/-! ## Runs after a shutdown -/

/-- Whether there is a guest that can still be told of a fetch, on some later run. -/
def CanTell (b : Bench G C) (id : Nat) : Prop :=
  ∃ guest steps hs loads, History ⟨{ b with guest }, b.tasks, []⟩ hs
    ⟨run steps { b with guest }, loads, []⟩ ∧ ∃ c : Completion, c.request = id ∧ .told c ∈ hs

theorem not_canTell_of_hushed {loads : List Task} (hm : Hushed id (⟨b, loads, []⟩ : Moment G C))
    (hp : b.tasks.Perm loads) : ¬ b.CanTell id := by
  rintro ⟨guest, steps, hs, loads', hh, c, hid, hc⟩
  have hm' : Hushed id (⟨{ b with guest }, b.tasks, []⟩ : Moment G C) := by
    refine ⟨hm.accepted, fun s hs => hm.cancelled s ?_⟩
    unfold Moment.flights at hs ⊢
    have hperm : (b.tasks.map (Stage.loading ·.fetch)).Perm (loads.map (Stage.loading ·.fetch)) :=
      hp.map _
    simpa only [List.mem_append, hperm.mem_iff] using hs
  exact (hh.not_told_of_hushed hm').2 c hc hid

/-- A guest that lets the deferred completions run, and is started before if need be. -/
theorem canTell_of_mem (ho : b.owned = true) (hs : b.Sound) {c : Completion}
    (hc : c ∈ b.deferred) (hn : b.core.bridge.isCancelled c.request = false) :
    b.CanTell c.request := by
  let b₁ : Bench G C := { b with guest := {} }
  let b₂ : Bench G C := { b₁ with core.bridge.attached := true }
  obtain ⟨journal, hinit⟩ := perform_init (b := b₂) ho rfl rfl 1 1
  let b₃ : Bench G C := { b₂ with core.bridge.phase := .running, core.journal := journal }
  have hrun : run [.bridge .attachGuest, .bridge (.init 1 1)] b₁ = b₃ := by
    show (perform (.bridge (.init 1 1)) (perform (.bridge .attachGuest) b₁).2).2 = b₃
    rw [perform_attachGuest (b := b₁) ho]
    exact hinit
  obtain ⟨loads₁, hh₁, -⟩ := run_leads (p := fun _ => True)
    [.bridge .attachGuest, .bridge (.init 1 1)] b₁ (fun step _ =>
      step.allBelow_of_forall fun _ => trivial) [] b.tasks [] nofun hs (.refl _)
  rw [hrun] at hh₁
  have hk : b₃.deferred.length ≤ b₃.work + 1 := by
    unfold work
    omega
  obtain ⟨hs₂, hh₂, htold⟩ := runDeferredFor_tells (b := b₃)
    (performFor (b₃.guest.weight + (Step.runDeferred : Step C).weight)) rfl ho rfl rfl hk loads₁
  refine ⟨{}, [.bridge .attachGuest, .bridge (.init 1 1), .runDeferred],
    chronicle [.bridge .attachGuest, .bridge (.init 1 1)] b₁ ++ hs₂, loads₁, ?_, c, rfl,
    List.mem_append_right _ (htold c hc hn)⟩
  rw [show run [.bridge .attachGuest, .bridge (.init 1 1), .runDeferred] b₁ =
    (perform .runDeferred b₃).2 by rw [← hrun]; rfl]
  exact hh₁.trans hh₂

theorem run_shutdown {steps : List (Step C)} (ho : (run steps b).owned = true) :
    run (steps ++ [.bridge .shutdown]) b =
      { run steps b with core := (run steps b).core.shutdown } := by
  rw [← perform_shutdown ho]
  exact run_append steps [.bridge .shutdown] b

/-- A shutdown at any moment, inside a call of the guest as well, silences the fetches whose image
is not being copied and whose completion does not wait, and those that are cancelled. After a
shutdown that the owner of the bridge asks for, the guest can still be told of a fetch exactly if
its completion waits and it is not cancelled. -/
theorem shutdown_silences_iff {b : Bench G C} (hb : b.Fresh) :
    (∀ hs m, History ⟨b, [], []⟩ hs m → ∀ id < m.bench.core.bridge.requests.length,
      (∀ x ∈ m.copying, x.1.id = id → m.bench.core.bridge.isCancelled id = true) →
      (∀ c ∈ m.bench.deferred, c.request = id → m.bench.core.bridge.isCancelled id = true) →
      ∀ hs' n, History { m with bench.core := m.bench.core.shutdown } hs' n →
        ∀ c, .told c ∈ hs' → c.request ≠ id) ∧
    ∀ steps : List (Step C), (run steps b).owned = true →
      ∀ id < (run steps b).core.bridge.requests.length,
        ((run (steps ++ [.bridge .shutdown]) b).CanTell id ↔
          (∃ c ∈ (run steps b).deferred, c.request = id) ∧
            (run steps b).core.bridge.isCancelled id = false) := by
  refine ⟨fun hs m hh id hid hx hc hs' n hh' => ?_, fun steps ho id hid => ⟨fun htell => ?_, ?_⟩⟩
  · have ha := (not_congr Bridge.accepted?_eq_none).2 (Nat.not_le.2 hid)
    exact (hh'.not_told_of_hushed ((hh.pending hb.pending).hushed_of_shutdown ha hx hc)).2
  · obtain ⟨loads, hh, hp⟩ := history_of_chronicle hb steps
    have ha := (not_congr Bridge.accepted?_eq_none).2 (Nat.not_le.2 hid)
    rw [run_shutdown ho] at htell
    by_contra hn
    refine not_canTell_of_hushed ((hh.pending hb.pending).hushed_of_shutdown ha nofun ?_) hp htell
    intro c hc hid
    by_contra hcan
    exact hn ⟨⟨c, hc, hid⟩, by simpa using hcan⟩
  · rintro ⟨⟨c, hc, rfl⟩, hcan⟩
    obtain ⟨loads, hh, hp⟩ := history_of_chronicle hb steps
    rw [run_shutdown ho]
    refine canTell_of_mem (b := { run steps b with core := (run steps b).core.shutdown }) ho ?_
      hc ?_
    · exact Happens.sound (m := ⟨run steps b, loads, []⟩) .shutDown (hh.sound hb.sound)
    · show (run steps b).core.bridge.cancelPending.isCancelled c.request = false
      have hnot := (hh.pending hb.pending).not_pending_of_deferred ho hc
      rw [Bridge.isCancelled_cancelPending, hcan]
      simp [hnot]

def fetchLate : List (Step ScriptedContext.Change) :=
  [.bridge firstInit, .poke 0 (Text.utf8 "late.png"),
    .setImage "late.png" (.image ⟨2, 2, List.replicate 16 0x10⟩),
    .bridge (.capability (.fetchBytes 0 8 4))]

/-- A shutdown before the load is taken up. -/
theorem shutdown_silences_pending :
    (run fetchLate (scripted 256 true)).core.bridge.pending = [0] ∧
      ¬ (run (fetchLate ++ [.bridge .shutdown]) (scripted 256 true)).CanTell 0 := by
  refine ⟨by decide +kernel, fun htell => ?_⟩
  have ho : (run fetchLate (scripted 256 true)).owned = true := by decide +kernel
  have hd : (run fetchLate (scripted 256 true)).deferred = [] := by decide +kernel
  obtain ⟨⟨c, hc, -⟩, -⟩ := ((shutdown_silences_iff (b := scripted 256 true)
    ⟨rfl, rfl, rfl, rfl, rfl, rfl⟩).2 fetchLate ho 0 (by decide +kernel)).1 htell
  rw [hd] at hc
  cases hc

/-- A shutdown after the image has been copied: the guest is told of it all the same. -/
theorem told_after_shutdown :
    (run (fetchLate ++ [.runTasks, .bridge .shutdown]) (scripted 256 true)).core.calls =
        [.init 640 480] ∧
      (run (fetchLate ++ [.runTasks, .bridge .shutdown, .runAll]) (scripted 256 true)).core.calls =
        [.init 640 480, .fetch 2 2 8 16 4] ∧
      (run (fetchLate ++ [.runTasks, .bridge .shutdown]) (scripted 256 true)).CanTell 0 := by
  have hc : (⟨0, .fetch 2 2 8 16 4⟩ : Completion) ∈
    (run (fetchLate ++ [.runTasks, .bridge .shutdown]) (scripted 256 true)).deferred := by
      decide +kernel
  have ho : (run (fetchLate ++ [.runTasks, .bridge .shutdown]) (scripted 256 true)).owned = true :=
    by decide +kernel
  have hn : (run (fetchLate ++ [.runTasks, .bridge .shutdown])
    (scripted 256 true)).core.bridge.isCancelled 0 = false := by decide +kernel
  have hs := sound_of_run (b := scripted 256 true) ⟨rfl, rfl, rfl, rfl, rfl, rfl⟩
    (fetchLate ++ [.runTasks, .bridge .shutdown])
  exact ⟨by decide +kernel, by decide +kernel, canTell_of_mem ho hs hc hn⟩

end Bench

end GuestBridge
