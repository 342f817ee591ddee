import GuestBridge.Bench.Setup
import GuestBridge.Proofs.Bench.Shutdown

/-!
# Who tells the guest of an image

No capability enters the guest or its allocator (`perform_sparesGuest`), and the task that waits
for a load asks the allocator at most and leaves the call that tells the guest to the queue
(`complete_cases`). `Sourced` follows a completion back from the queue to the copy, the allocation
and the acceptance of its fetch, so that the guest is told of an image only after the call that
fetched it and the task that copied it have returned. The one other way to the fetch entry point is
to call it by name.
-/

set_option autoImplicit false

namespace GuestBridge

/-! ## Capabilities -/

/-- Whether a capability succeeds or fails, it leaves the entries into the guest as they are. -/
theorem Capability.entries_run {G : Type} [GraphicsContext G] (c : Capability) (s : Core G) :
    (c.run s).2.entries = s.entries := by
  rcases c.run_cases s with ⟨request, text, -, hr⟩ | ⟨-, hw⟩
  · rw [hr]
    exact Bench.entries_of_journal (Array.toList_push) (by simp [Event.isQuiet])
  · obtain ⟨events, he, hq⟩ := (hw .buffer).journal_eq
    exact Bench.entries_of_journal he fun e hm => (hq e hm).1

namespace Platform

/-- On any platform, a capability works on the core and spawns a task at most; it neither enters the
guest or its allocator nor defers anything. -/
theorem perform_cases {σ G : Type} [GraphicsContext G] (p : Platform σ G) (c : Capability)
    (s : σ) : ∃ core, core.entries = (p.core s).entries ∧
      ((p.perform c s).2 = p.withCore core s ∨
        ∃ fetch, (p.perform c s).2 = p.spawn fetch (p.withCore core s)) := by
  have hr : p.onCore c.run s = ((c.run (p.core s)).1, p.withCore (c.run (p.core s)).2 s) := rfl
  refine ⟨(c.run (p.core s)).2, c.entries_run _, ?_⟩
  unfold perform
  rcases hrun : (c.run (p.core s)).1 with e | result
  · rw [hrun] at hr
    rw [Attempt.bind_of_error hr]
    exact .inl rfl
  · rw [hrun] at hr
    rw [Attempt.bind_of_ok hr]
    cases result with
    | accepted fetch => exact .inr ⟨fetch, rfl⟩
    | _ => exact .inl rfl

end Platform

namespace Bench

variable {G C : Type} [GraphicsContext G] {inner : Performer G C}

/-- What leaves the guest alone: it is not entered, and no completion is queued or run. -/
structure SparesGuest (b b' : Bench G C) : Prop where
  entries : b'.core.entries = b.core.entries
  guest : b'.guest = b.guest
  deferred : b'.deferred = b.deferred

omit [GraphicsContext G] in
theorem entries_spawn (fetch : Accepted) (b : Bench G C) :
    (spawn fetch b).core.entries = b.core.entries := by
  refine entries_of_journal (?_ : _ = _ ++ [.load fetch.request.url, .spawn]) ?_
  · simp [spawn, note, Core.note]
  · simp [Event.isQuiet]

theorem perform_sparesGuest (inner : Performer G C) (c : Capability) (b : Bench G C) :
    SparesGuest b ((platform inner).perform c b).2 := by
  obtain ⟨core, hc, hp | ⟨fetch, hp⟩⟩ := (platform inner).perform_cases c b
  · rw [hp]
    exact ⟨hc, rfl, rfl⟩
  · rw [hp]
    exact ⟨(entries_spawn fetch _).trans hc, rfl, rfl⟩

/-! ## Load tasks -/

omit [GraphicsContext G] in
theorem entries_log (level : Log.Level) (target text : String) (b : Bench G C) :
    ((platform inner).log level target text b).core.entries = b.core.entries :=
  (entries_note b.core (.log ⟨level, target, text⟩)).trans (List.append_nil _)

/-- The bench when the guest has been asked for so many bytes and has taken the steps that it had
in store for that. -/
def askedFor (inner : Performer G C) (len : UInt32) (b : Bench G C) : Bench G C :=
  interlude inner allocatorExport (b.note (.alloc len))

omit [GraphicsContext G] in
theorem copyImage_eq_log (fetch : Accepted) {image : DecodedImage} {b b' : Bench G C}
    {e : BridgeError} (h : (platform inner).copyToGuest image.pixels b = (.error e, b')) :
    ∃ level target text, (platform inner).copyImage fetch image b =
      (platform inner).log level target text b' := by
  simp only [Platform.copyImage, h]
  exact ⟨_, _, _, rfl⟩

omit [GraphicsContext G] in
/-- Once the guest has been asked for room, nothing is left to the copy of an image but to put off
its completion, or to log that there is none. -/
theorem copyImage_cases (inner : Performer G C) (fetch : Accepted) {image : DecodedImage}
    {b : Bench G C} (ha : b.core.bridge.attached = true) (he : image.pixels.isEmpty = false)
    (hl : Store.guestLen image.pixels = .ok (.ofNat image.pixels.length)) :
    ∃ guest memory,
      let granted : Bench G C :=
        { askedFor inner (.ofNat image.pixels.length) b with guest, core.memory := memory }
      (∃ ptr, (platform inner).copyImage fetch image b =
        granted.defer (completion fetch image ptr)) ∨
      ∃ level target text, (platform inner).copyImage fetch image b =
        (platform inner).log level target text granted := by
  have halloc : alloc inner (.ofNat image.pixels.length) b =
    grant (.ofNat image.pixels.length) (askedFor inner (.ofNat image.pixels.length) b) := rfl
  have hcopy := copyToGuest_eq inner ha he hl
  rw [halloc] at hcopy
  rcases hgr : grant (.ofNat image.pixels.length) (askedFor inner (.ofNat image.pixels.length) b)
    with ⟨r, b'⟩
  obtain ⟨guest, memory, hb, -⟩ := of_grant hgr
  rw [hgr] at hcopy
  cases r with
  | error e =>
    have hlog := copyImage_eq_log fetch hcopy
    rw [hb] at hlog
    exact ⟨guest, memory, .inr hlog⟩
  | ok ptr =>
    rcases Core.store_cases [.bytes ptr image.pixels] b'.core with ⟨memory', hs⟩ | ⟨e, hs⟩
    · simp only [hs] at hcopy
      refine ⟨guest, memory', .inl ⟨ptr, ?_⟩⟩
      simp only [Platform.copyImage, hcopy, hb]
      rfl
    · simp only [hs] at hcopy
      have hlog := copyImage_eq_log fetch hcopy
      rw [hb] at hlog
      exact ⟨guest, memory, .inr hlog⟩

omit [GraphicsContext G] in
/-- The task of a load leaves the guest alone, or it asks the allocator once, and then at most puts
the completion off, as the last thing it does. -/
theorem complete_cases (inner : Performer G C) (fetch : Accepted)
    (result : Except FetchError DecodedImage) (b : Bench G C) :
    let returned := (platform inner).complete fetch result b
    SparesGuest b returned ∨ ∃ image, result = .ok image ∧
      let asked := askedFor inner (.ofNat image.pixels.length) (b.withBridge (·.settle fetch.id))
      returned.core.entries = asked.core.entries ∧ (returned.deferred = asked.deferred ∨
        ∃ ptr, returned.deferred = asked.deferred ++ [completion fetch image ptr]) := by
  intro returned
  rcases he : ending? b.core.bridge fetch.id result with _ | why
  · obtain ⟨image, rfl, hcomplete⟩ := complete_of_image inner he
    obtain ⟨-, ha, hne, hlen⟩ := ending_eq_none he
    refine .inr ⟨image, rfl, ?_⟩
    rw [show returned = _ from hcomplete]
    obtain ⟨guest, memory, ⟨ptr, hr⟩ | ⟨level, target, text, hr⟩⟩ :=
      copyImage_cases inner fetch (b := b.withBridge (·.settle fetch.id)) ha hne hlen
    · rw [hr]
      exact ⟨(entries_note _ .defer).trans (List.append_nil _), .inr ⟨ptr, rfl⟩⟩
    · rw [hr]
      exact ⟨entries_log _ _ _ _, .inl rfl⟩
  · obtain ⟨level, target, text, hr⟩ := complete_of_ending inner he
    rw [show returned = _ from hr]
    exact .inl ⟨entries_log _ _ _ _, rfl, rfl⟩

/-! ## Completions -/

/-- What goes before a fetch's completion, in order: the fetch was accepted, the allocator was asked
for room for its image, and the image was copied. -/
def Copied (hs : List Happening) (c : Completion) : Prop :=
  ∃ fetch image ptr, c = completion fetch image ptr ∧
    [.accepted fetch, .asked fetch image, .copied fetch image ptr].Sublist hs

/-- Every fetch in flight has come to its stage step by step. -/
structure Sourced (hs : List Happening) (m : Moment G C) : Prop where
  load (t : Task) (ht : t ∈ m.loads) : [.accepted t.fetch].Sublist hs
  copy (x : Accepted × DecodedImage) (hx : x ∈ m.copying) :
    [.accepted x.1, .asked x.1 x.2].Sublist hs
  queued (c : Completion) (hc : c ∈ m.bench.deferred) : Copied hs c

variable {m n : Moment G C} {h : Happening} {hs : List Happening}

omit [GraphicsContext G] in
theorem Sourced.concat (hm : Sourced hs m) (h : Happening) : Sourced (hs ++ [h]) m where
  load t ht := (hm.load t ht).trans (List.sublist_append_left _ _)
  copy x hx := (hm.copy x hx).trans (List.sublist_append_left _ _)
  queued c hc := by
    obtain ⟨fetch, image, ptr, he, hsub⟩ := hm.queued c hc
    exact ⟨fetch, image, ptr, he, hsub.trans (List.sublist_append_left _ _)⟩

theorem Sourced.step (hm : Sourced hs m) (hh : Happens m h n) : Sourced (hs ++ [h]) n := by
  obtain ⟨hload, hcopy, hqueued⟩ := hm.concat h
  cases hh with
  | accepted c hr =>
    refine ⟨fun t ht => ?_, hcopy, hqueued⟩
    rcases List.mem_append.1 ht with ht | ht
    · exact hload t ht
    · rw [List.mem_singleton.1 ht]
      exact List.sublist_append_right _ _
  | lost ht hl | ended ht hl hr he =>
    exact ⟨fun t ht' => hload t (List.mem_of_mem_erase ht'), hcopy, hqueued⟩
  | asked ht hl hr he =>
    refine ⟨fun t ht' => hload t (List.mem_of_mem_erase ht'), fun x hx => ?_, hqueued⟩
    rcases List.mem_cons.1 hx with rfl | hx
    · exact (hm.load _ ht).append_right _
    · exact hcopy x hx
  | copied hc hg hs =>
    obtain ⟨guest, memory, rfl, -⟩ := of_grant hg
    rw [hc] at hcopy
    refine ⟨hload, fun x hx => hcopy x (.tail _ hx), fun c hd => ?_⟩
    rcases List.mem_append.1 hd with hd | hd
    · exact hqueued c hd
    · refine ⟨_, _, _, List.mem_singleton.1 hd, ?_⟩
      exact (hm.copy _ (by rw [hc]; exact .head _)).append_right _
  | failed hc hg hs =>
    obtain ⟨guest, memory, rfl, -⟩ := of_grant hg
    rw [hc] at hcopy
    exact ⟨hload, fun x hx => hcopy x (.tail _ hx), hqueued⟩
  | told hd ho | omitted hd ho =>
    rw [hd] at hqueued
    exact ⟨hload, hcopy, fun c hc => hqueued c (.tail _ hc)⟩
  | _ => exact ⟨hload, hcopy, hqueued⟩

omit [GraphicsContext G] in
theorem Sourced.of_quiet {b : Bench G C} (hm : Sourced hs m) (hq : Quiet m.bench b) :
    Sourced hs { m with bench := b } :=
  ⟨hm.load, hm.copy, fun c hc => hm.queued c (hq.deferred ▸ hc)⟩

omit [GraphicsContext G] in
theorem Fresh.sourced {b : Bench G C} (hb : b.Fresh) :
    Sourced [] (⟨b, [], []⟩ : Moment G C) where
  load := by simp
  copy := by simp
  queued := by simp [hb.deferred]

theorem History.sourced (hh : History m hs n) (hm : Sourced [] m) : Sourced hs n := by
  induction hh with
  | refl => exact hm
  | quiet before hq ih => exact ih.of_quiet hq
  | snoc before now ih => exact ih.step now

/-- A history can be taken up again at any of its happenings. -/
theorem History.exists_happens (hh : History m hs n) {before after : List Happening}
    (he : hs = before ++ h :: after) : ∃ t u, History m before t ∧ Happens t h u := by
  induction hh generalizing after with
  | refl => simp at he
  | quiet _ _ ih => exact ih he
  | snoc earlier now ih =>
    rcases List.eq_nil_or_concat after with rfl | ⟨after', last, rfl⟩
    · obtain ⟨rfl, hlast⟩ := List.append_inj' he rfl
      obtain rfl := List.singleton_inj.1 hlast
      exact ⟨_, _, earlier, now⟩
    · rw [List.concat_eq_append, ← List.cons_append, ← List.append_assoc] at he
      exact ih (List.append_inj' he rfl).1

/-- The guest is told only of what was copied before. -/
theorem History.told_copied (hh : History m hs n) (hm : Sourced [] m)
    {before after : List Happening} {c : Completion} (he : hs = before ++ .told c :: after) :
    Copied before c := by
  obtain ⟨t, u, earlier, now⟩ := hh.exists_happens he
  cases now with
  | told hd ho => exact (earlier.sourced hm).queued c (by rw [hd]; exact .head _)

/-! ## Runs -/

/-- Whether a step has the host run completions. -/
def Step.RunsDeferred (step : Step C) : Prop :=
  step = .runDeferred ∨ step = .runOneDeferred ∨ step = .runAll

omit [GraphicsContext G] in
theorem Step.of_allIn {p : Step C → Prop} {steps : List (Step C)} (h : Step.AllIn p steps)
    {step : Step C} (hm : step ∈ steps) : p step ∧ step.AllBelow p := by
  induction steps with
  | nil => cases hm
  | cons first rest ih =>
    obtain ⟨hp, hb, hr⟩ := h
    rcases List.mem_cons.1 hm with rfl | hm
    · exact ⟨hp, hb⟩
    · exact ih hr hm

omit [GraphicsContext G] in
/-- Only a call by name comes to the fetch entry point without a completion. -/
theorem Step.eq_of_calls_fetch {step : Step C} {width height ptr len token : UInt32}
    (h : step.Calls (.fetch width height ptr len token)) :
    step = .bridge (.callGuest (.fetch width height ptr len token)) := by
  cases step with
  | bridge op =>
    cases op with
    | callGuest entry => rw [show entry = _ from Eq.symm h]
    | init width height => cases h
    | dispatchInput event => cases event <;> cases h
    | submitEquation text =>
      obtain ⟨ptr, len, h⟩ := h
      cases h
    | _ => exact h.elim
  | _ => exact h.elim

/-- An entry into the guest by which it is told of an image, at its place in a history: a completion
is delivered, or the entry point is called by name. -/
inductive TellsBy (p : Step C → Prop) (before : List Happening) (entry : EntryPoint) :
    Happening → Prop
  | completion {c : Completion} {step : Step C} (he : c.entry = entry) (hp : p step)
    (hs : step.RunsDeferred) (hc : Copied before c) : TellsBy p before entry (.told c)
  | name (hp : p (.bridge (.callGuest entry))) : TellsBy p before entry (.called entry)

omit [GraphicsContext G] in
theorem tellsBy_of_within {p : Step C → Prop} {before : List Happening}
    {width height ptr len token : UInt32} (hw : h.Within p)
    (he : h.entry? = some (.call (.fetch width height ptr len token)))
    (ht : ∀ c, h = .told c → Copied before c) :
    TellsBy p before (.fetch width height ptr len token) h := by
  obtain ⟨step, hp, hc⟩ := hw
  cases h with
  | called entry =>
    obtain rfl : entry = .fetch width height ptr len token := by simpa [Happening.entry?] using he
    exact .name (Step.eq_of_calls_fetch hc ▸ hp)
  | told c => exact .completion (by simpa [Happening.entry?] using he) hp hc (ht c rfl)
  | _ => cases he

variable [AdjustableContext G C]

/-- The guest is not re-entered. A capability enters neither the guest nor its allocator, however it
ends; the task of a load asks the allocator at most, and puts the completion off when it returns;
and on every run the guest is told of an image only where a step has the host run a completion,
after the fetch was accepted and after its image was copied, unless the entry point is called by
name. -/
theorem fetch_entries_deferred {p : Step C → Prop} {b : Bench G C} (hb : b.Fresh)
    (hg : b.guest.All p) (steps : List (Step C)) (hs : Step.AllIn p steps) :
    (∀ (inner : Performer G C) c b', SparesGuest b' ((platform inner).perform c b').2) ∧
    (∀ (inner : Performer G C) fetch result b',
      let returned := (platform inner).complete fetch result b'
      SparesGuest b' returned ∨ ∃ image, result = .ok image ∧
        let asked :=
          askedFor inner (.ofNat image.pixels.length) (b'.withBridge (·.settle fetch.id))
        returned.core.entries = asked.core.entries ∧ (returned.deferred = asked.deferred ∨
          ∃ ptr, returned.deferred = asked.deferred ++ [completion fetch image ptr])) ∧
    ∃ hs loads, History ⟨b, [], []⟩ hs ⟨run steps b, loads, []⟩ ∧
      (run steps b).core.entries = hs.filterMap Happening.entry? ∧
      ∀ before h after, hs = before ++ h :: after → ∀ width height ptr len token,
        h.entry? = some (.call (.fetch width height ptr len token)) →
        TellsBy p before (.fetch width height ptr len token) h := by
  refine ⟨perform_sparesGuest, complete_cases, ?_⟩
  obtain ⟨loads, hh, hcourse, -⟩ := run_history hb hg steps fun step hm => (Step.of_allIn hs hm).2
  have hwithin : ∀ h ∈ chronicle steps b, h.Within p := hcourse.forall_of
    (fun h ⟨step, hm, hc⟩ => ⟨step, (Step.of_allIn hs hm).1, hc⟩) fun _ hw => hw
  refine ⟨_, loads, hh, ?_, fun before h after he width height ptr len token hentry => ?_⟩
  · rw [hh.entries_eq, hb.entries_eq_nil, List.nil_append]
  · refine tellsBy_of_within (hwithin h (by simp [he])) hentry fun c hc => ?_
    subst hc
    exact hh.told_copied hb.sourced he

omit [GraphicsContext G] [AdjustableContext G C] in
theorem mem_calls_iff {core : Core G} {entry : EntryPoint} :
    entry ∈ core.calls ↔ .call entry ∈ core.entries := by
  unfold Core.calls Core.entries
  rw [List.mem_filterMap, List.mem_filter]
  constructor
  · rintro ⟨e, he, hc⟩
    cases e with
    | call entry' => exact Option.some.inj hc ▸ ⟨he, rfl⟩
    | _ => cases hc
  · exact fun ⟨he, _⟩ => ⟨_, he, rfl⟩

/-- The guest is told of an image that was fetched and copied, and only a completion has told it. -/
theorem fetch_entries_deferred_of_image :
    (run (fetchLate ++ [.runAll]) (scripted 256 true)).core.calls =
        [.init 640 480, .fetch 2 2 8 16 4] ∧
      ∃ hs before c after, (run (fetchLate ++ [.runAll]) (scripted 256 true)).core.entries =
          hs.filterMap Happening.entry? ∧
        hs = before ++ .told c :: after ∧ c.entry = .fetch 2 2 8 16 4 ∧ Copied before c := by
  have hcalls : (run (fetchLate ++ [.runAll]) (scripted 256 true)).core.calls =
      [.init 640 480, .fetch 2 2 8 16 4] := by decide +kernel
  let p : Step ScriptedContext.Change → Prop := fun step =>
    ∀ entry, step ≠ .bridge (.callGuest entry)
  have hs : Step.AllIn p (fetchLate ++ [.runAll]) :=
    ⟨fun _ => nofun, trivial, fun _ => nofun, trivial, fun _ => nofun, trivial, fun _ => nofun,
      trivial, fun _ => nofun, trivial, trivial⟩
  obtain ⟨-, -, hs, loads, -, hentries, htells⟩ := fetch_entries_deferred
    (b := scripted 256 true) ⟨rfl, rfl, rfl, rfl, rfl, rfl⟩ (fun _ => nofun) _ hs
  have hcall : .fetch 2 2 8 16 4 ∈
      (run (fetchLate ++ [.runAll]) (scripted 256 true)).core.calls := by
    rw [hcalls]
    exact .tail _ (.head _)
  rw [mem_calls_iff, hentries] at hcall
  obtain ⟨h, hmem, hentry⟩ := List.mem_filterMap.1 hcall
  obtain ⟨before, after, hsplit⟩ := List.append_of_mem hmem
  cases htells before h after hsplit 2 2 8 16 4 hentry with
  | completion hc hp hr hcopied =>
    exact ⟨hcalls, hs, before, _, after, hentries, hsplit, hc, hcopied⟩
  | name hp => exact absurd rfl (hp _)

/-- Called by name, the fetch entry point is entered with nothing fetched and nothing deferred. -/
theorem fetch_entry_by_name :
    let b := run [.bridge firstInit, .bridge (.callGuest (.fetch 1 1 8 4 7))] (scripted 256 true)
    b.core.calls = [.init 640 480, .fetch 1 1 8 4 7] ∧ b.core.bridge.requests = [] ∧
      b.tasks = [] ∧ b.deferred = [] :=
  ⟨by decide +kernel, by decide +kernel, by decide +kernel, by decide +kernel⟩

end Bench

end GuestBridge
