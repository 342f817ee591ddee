import GuestBridge.Proofs.Bench.Frames

/-!
# Which frames are delivered

A bridge that runs delivers a frame if and only if it comes after all that it was offered before,
the dropped ones and those that failed inside the guest included. The bridge only remembers one
timestamp; along a history this is the greatest of all offers (`History.isPeak`). So the frames
that a run delivers are the strict running maxima of those it offers (`frames_selected`). The
guest may offer frames as well, in steps of its own.
-/

set_option autoImplicit false

namespace GuestBridge

open Ieee

namespace Bench

variable {G C : Type} [GraphicsContext G]

/-! ## Frames along a history -/

/-- The timestamp of a frame that is delivered in due course. -/
def Happening.frame? : Happening → Option Double
  | frame timestamp => some timestamp
  | _ => none

theorem Happening.frame?_eq_some {h : Happening} {timestamp : Double} :
    h.frame? = some timestamp ↔ h = .frame timestamp := by
  cases h <;> simp [Happening.frame?]

/-- Only a frame takes the place of the last one. -/
theorem Happens.lastFrame_eq {m n : Moment G C} {h : Happening} (hh : Happens m h n) :
    n.bench.core.bridge.lastFrame = h.frame?.or m.bench.core.bridge.lastFrame := by
  obtain ⟨registry, hb⟩ := hh.bridge_eq
  rw [hb]
  cases h with
  | shutDown =>
    obtain ⟨requests, he, -⟩ := Bridge.cancelPending_eq m.bench.core.bridge
    simp [Happening.onBridge, Happening.frame?, he]
  | _ => rfl

/-- A frame is delivered only if it exceeds all that was offered. -/
theorem Happens.exceeds {m n : Moment G C} {timestamp : Double} {os : List Double}
    (hh : Happens m (.frame timestamp) n) (hx : timestamp.isNan = false)
    (hm : Double.IsPeak os m.bench.core.bridge.lastFrame) : timestamp.Exceeds os := by
  cases hh with
  | frame hp ha hs => exact (hm.exceeds_iff hx).2 hs

/-- Along a history, the frames that are delivered are offers as well, and the last of them is the
greatest of all. -/
theorem History.isPeak {m n : Moment G C} {hs : List Happening} (h : History m hs n)
    (hnum : ∀ timestamp, .frame timestamp ∈ hs → timestamp.isNan = false) {os : List Double}
    (hm : Double.IsPeak os m.bench.core.bridge.lastFrame) :
    Double.IsPeak (os ++ hs.filterMap Happening.frame?) n.bench.core.bridge.lastFrame := by
  induction h with
  | refl => simpa using hm
  | quiet before hq ih =>
    rw [hq.bridge]
    exact ih hnum
  | snoc before now ih =>
    rename_i hs h t u
    have hpeak := ih fun timestamp ht => hnum timestamp (List.mem_append_left _ ht)
    rw [now.lastFrame_eq, List.filterMap_append, ← List.append_assoc]
    cases hf : h.frame? with
    | none => simpa [hf] using hpeak
    | some timestamp =>
      obtain rfl := Happening.frame?_eq_some.1 hf
      have hx := hnum timestamp (by simp)
      simpa [hf] using Double.IsPeak.concat_of_exceeds hx (now.exceeds hx hpeak)

theorem History.completionsFetch {m n : Moment G C} {hs : List Happening} (h : History m hs n)
    (hm : m.bench.CompletionsFetch) : n.bench.CompletionsFetch := by
  refine h.keeps ?_ (fun _ _ _ now => now.completionsFetch) hm
  intro t b hq ht
  unfold CompletionsFetch at ht ⊢
  rwa [hq.deferred]

/-- As long as nothing calls the frame entry point directly, the guest sees the strict running
maxima of the offers. -/
theorem History.frames_eq {m n : Moment G C} {hs : List Happening} (h : History m hs n)
    (hnum : ∀ timestamp, .frame timestamp ∈ hs → timestamp.isNan = false)
    (hd : ∀ h ∈ hs, ¬ h.IsDirectFrame) {os : List Double}
    (hm : Double.IsPeak os m.bench.core.bridge.lastFrame) (hc : m.bench.CompletionsFetch)
    (hf : m.bench.core.frames = Double.records os) :
    n.bench.core.frames = Double.records (os ++ hs.filterMap Happening.frame?) := by
  induction h with
  | refl => simpa using hf
  | quiet before hq ih =>
    rw [Core.frames_eq, hq.entries_eq, ← Core.frames_eq]
    exact ih hnum hd
  | snoc before now ih =>
    rename_i hs h t u
    have hnum' : ∀ timestamp, .frame timestamp ∈ hs → timestamp.isNan = false :=
      fun timestamp ht => hnum timestamp (List.mem_append_left _ ht)
    have ih := ih hnum' fun h hmem => hd h (List.mem_append_left _ hmem)
    rw [List.filterMap_append, ← List.append_assoc]
    cases hframe : h.frame? with
    | none =>
      rcases now.frames_eq (hd h (by simp)) (before.completionsFetch hc) with
        ⟨timestamp, rfl, -, -⟩ | ⟨hframes, -⟩
      · cases hframe
      · simpa [hframe, hframes] using ih
    | some timestamp =>
      obtain rfl := Happening.frame?_eq_some.1 hframe
      have hex := now.exceeds (hnum timestamp (by simp)) (before.isPeak hnum' hm)
      have hframes : u.bench.core.frames = t.bench.core.frames ++ [timestamp] := by
        rw [Core.frames_eq, now.entries_eq, List.filterMap_append, ← Core.frames_eq]
        rfl
      rw [hframes, ih]
      show _ = Double.records (_ ++ [timestamp])
      rw [Double.records_concat, if_pos hex]

/-- The frames that a history delivers are among those the guest has seen by its end. -/
theorem History.mem_frames {m n : Moment G C} {hs : List Happening} (h : History m hs n)
    {timestamp : Double} (hf : timestamp ∈ hs.filterMap Happening.frame?) :
    timestamp ∈ n.bench.core.frames := by
  obtain ⟨happening, hmem, hframe⟩ := List.mem_filterMap.1 hf
  obtain rfl := Happening.frame?_eq_some.1 hframe
  have hentry : Event.call (.animationFrame timestamp) ∈ hs.filterMap Happening.entry? :=
    List.mem_filterMap.2 ⟨_, hmem, rfl⟩
  rw [Core.frames_eq, h.entries_eq]
  exact List.mem_filterMap.2 ⟨_, List.mem_append_right _ hentry, rfl⟩

/-! ## One offer -/

/-- The bench after the guest has returned from a frame. -/
def afterFrame (inner : Performer G C) (timestamp : Double) (b : Bench G C) : Bench G C :=
  interlude inner (EntryPoint.animationFrame timestamp).exportName
    ((b.withBridge fun b => { b with lastFrame := some timestamp }).note
      (.call (.animationFrame timestamp)))

/-- The reply to a frame that was delivered: whether the guest has failed. -/
def frameReply (timestamp : Double) (after : Bench G C) : Reply :=
  match after.guest.fault? (EntryPoint.animationFrame timestamp).exportName with
  | some e => .error (.bridge (.guest e))
  | none => .ok (.bool true)

section

variable [AdjustableContext G C] {b : Bench G C} {timestamp : Double}

omit [GraphicsContext G] [AdjustableContext G C] in
theorem animationFrame_of_fresh (inner : Performer G C) (hp : b.core.bridge.phase = .running)
    (ha : b.core.bridge.attached = true) (hs : b.core.bridge.staleAfter? timestamp = none) :
    Platform.reply .bool ((platform inner).animationFrame timestamp) b =
      (frameReply timestamp (afterFrame inner timestamp b), afterFrame inner timestamp b) := by
  let b₁ := b.withBridge fun b => { b with lastFrame := some timestamp }
  have hadmits : b₁.core.bridge.admits (.animationFrame timestamp) = true := by
    show (decide (b.core.bridge.phase = .running) || _) = true
    simp [hp]
  have hattached : b₁.core.bridge.attached = true := ha
  have hentered : call inner (.animationFrame timestamp) b₁ =
      match (afterFrame inner timestamp b).guest.fault?
          (EntryPoint.animationFrame timestamp).exportName with
      | some e => (.error e, afterFrame inner timestamp b)
      | none => (.ok (), afterFrame inner timestamp b) := rfl
  have hcall : (platform inner).callGuest (.animationFrame timestamp) b₁ = _ := callGuest_eq _ b₁
  rw [if_neg (by simp [hadmits]), if_neg (by simp [hattached]), hentered] at hcall
  unfold Platform.reply frameReply
  rw [animationFrame_of_next hp hs hcall]
  cases (afterFrame inner timestamp b).guest.fault?
    (EntryPoint.animationFrame timestamp).exportName <;> rfl

end

/-! ## Offers -/

/-- The frame that a step offers to a bridge that runs. -/
def Step.offer? (b : Bench G C) : Step C → Option Double
  | .bridge (.animationFrame timestamp) =>
    if b.owned = true ∧ b.core.bridge.phase = .running then some timestamp else none
  | _ => none

/-- A frame that is offered to a bridge that runs. -/
structure Offer where
  timestamp : Double
  /-- Whether it is the guest that offers it, in a step of its own. -/
  own : Bool

/-- What is known of a bench to which the frames `os` were offered; `plain` says that nothing
calls the frame entry point directly. -/
structure Tally (p : Step C → Prop) (plain : Prop) (os : List Double) (b : Bench G C) : Prop where
  peak : Double.IsPeak os b.core.bridge.lastFrame
  frames : plain → b.core.frames = Double.records os
  sound : b.Sound
  guest : b.guest.All p
  completions : b.CompletionsFetch

section

variable {p : Step C → Prop} {plain : Prop} {os : List Double}

theorem History.tally {m n : Moment G C} {hs : List Happening} (h : History m hs n)
    (hnum : ∀ timestamp, .frame timestamp ∈ hs → timestamp.isNan = false)
    (hd : plain → ∀ h ∈ hs, ¬ h.IsDirectFrame) (hg : n.bench.guest.All p)
    (ht : Tally p plain os m.bench) :
    Tally p plain (os ++ hs.filterMap Happening.frame?) n.bench where
  peak := h.isPeak hnum ht.peak
  frames hplain := h.frames_eq hnum (hd hplain) ht.peak ht.completions (ht.frames hplain)
  sound := h.sound ht.sound
  guest := hg
  completions := h.completionsFetch ht.completions

theorem Happening.of_within {timestamp : Double} (h : (Happening.frame timestamp).Within p) :
    p (.bridge (.animationFrame timestamp)) := by
  obtain ⟨step, hp, rfl⟩ := h
  exact hp

theorem Happening.plain_of_within {h : Happening} (hw : h.Within p)
    (hp : ∀ step, p step → ¬ step.IsDirectFrame) : ¬ h.IsDirectFrame := by
  obtain ⟨step, hstep, hc⟩ := hw
  exact h.not_isDirectFrame ⟨step, hp step hstep, hc⟩

variable [AdjustableContext G C] {b : Bench G C} {step : Step C}

omit [AdjustableContext G C] in
/-- What the guest's own steps deliver is an offer of theirs, and counts as one. -/
theorem Tally.extend {b' : Bench G C} {loads loads' : List Task} {hs : List Happening}
    (ht : Tally p plain os b) (hh : History ⟨b, loads, []⟩ hs ⟨b', loads', []⟩)
    (hp : ∀ timestamp, p (.bridge (.animationFrame timestamp)) → timestamp.isNan = false)
    (hown : ∀ timestamp, .frame timestamp ∈ hs → p (.bridge (.animationFrame timestamp)))
    (hd : plain → ∀ h ∈ hs, ¬ h.IsDirectFrame) (hg : b'.guest.All p) :
    ∃ own, (∀ timestamp ∈ own, p (.bridge (.animationFrame timestamp)) ∧
      timestamp ∈ b'.core.frames) ∧ Tally p plain (os ++ own) b' := by
  refine ⟨hs.filterMap Happening.frame?, ?_, ?_⟩
  · intro timestamp hf
    refine ⟨?_, hh.mem_frames hf⟩
    obtain ⟨happening, hmem, hframe⟩ := List.mem_filterMap.1 hf
    obtain rfl := Happening.frame?_eq_some.1 hframe
    exact hown timestamp hmem
  · exact hh.tally (fun timestamp hmem => hp timestamp (hown timestamp hmem)) hd hg ht

/-- A step that offers no frame delivers only those that the guest's own steps offer. -/
theorem perform_tally_of_no_offer (hbelow : step.AllBelow p)
    (hp : ∀ timestamp, p (.bridge (.animationFrame timestamp)) → timestamp.isNan = false)
    (hn : ∀ timestamp, step ≠ .bridge (.animationFrame timestamp))
    (hd : plain → ¬ step.IsDirectFrame ∧ ∀ step, p step → ¬ step.IsDirectFrame)
    (ht : Tally p plain os b) :
    ∃ own, (∀ timestamp ∈ own, p (.bridge (.animationFrame timestamp)) ∧
        timestamp ∈ (perform step b).2.core.frames) ∧
      Tally p plain (os ++ own) (perform step b).2 := by
  obtain ⟨loads, hh, hc, -, hg⟩ :=
    perform_leads step b hbelow [] b.tasks [] ht.guest ht.sound (by simp)
  refine ht.extend hh hp ?_ ?_ hg
  · intro timestamp hmem
    refine hc.forall_of (q := fun h => h = .frame timestamp →
      p (.bridge (.animationFrame timestamp))) ?_ ?_ _ hmem rfl
    · rintro h hcause rfl
      exact absurd hcause (hn timestamp)
    · rintro h hw rfl
      exact Happening.of_within hw
  · intro hplain
    refine hc.forall_of ?_ fun h hw => Happening.plain_of_within hw (hd hplain).2
    intro h hcause
    exact h.not_isDirectFrame ⟨step, (hd hplain).1, hcause⟩

variable {timestamp : Double}

theorem perform_frame (ho : b.owned = true) :
    perform (.bridge (.animationFrame timestamp)) b = Platform.reply .bool
      ((platform (performFor (b.guest.weight + 1))).animationFrame timestamp) b :=
  perform_bridge_eq ho _

theorem perform_frame_of_idle (ho : b.owned = true) (hp : b.core.bridge.phase ≠ .running) :
    perform (.bridge (.animationFrame timestamp)) b = (.error (.bridge .notRunning), b) := by
  rw [perform_frame ho]
  unfold Platform.reply
  rw [animationFrame_of_idle hp]
  rfl

theorem perform_frame_of_stale (ho : b.owned = true) (hp : b.core.bridge.phase = .running)
    {last : Double} (hs : b.core.bridge.staleAfter? timestamp = some last) :
    perform (.bridge (.animationFrame timestamp)) b =
      (.ok (.bool false), b.note (.log (staleRecord timestamp last))) := by
  rw [perform_frame ho]
  unfold Platform.reply
  rw [animationFrame_of_stale hp hs]
  rfl

theorem perform_frame_of_fresh (ho : b.owned = true) (hp : b.core.bridge.phase = .running)
    (hsound : b.Sound) (hs : b.core.bridge.staleAfter? timestamp = none) :
    perform (.bridge (.animationFrame timestamp)) b =
      (frameReply timestamp (afterFrame (performFor (b.guest.weight + 1)) timestamp b),
        afterFrame (performFor (b.guest.weight + 1)) timestamp b) := by
  rw [perform_frame ho]
  exact animationFrame_of_fresh _ hp (hsound hp) hs

omit [AdjustableContext G C] in
/-- A frame that is delivered, and the frames that the guest offers inside it. -/
theorem afterFrame_tally {inner : Performer G C} {tell : Teller G C} (hi : Follows p inner tell)
    (hp : ∀ timestamp, p (.bridge (.animationFrame timestamp)) → timestamp.isNan = false)
    (hn : timestamp.isNan = false) (hrun : b.core.bridge.phase = .running)
    (hs : b.core.bridge.staleAfter? timestamp = none)
    (hd : plain → ∀ step, p step → ¬ step.IsDirectFrame) (ht : Tally p plain os b) :
    ∃ own, (∀ t ∈ own, p (.bridge (.animationFrame t)) ∧
        t ∈ (afterFrame inner timestamp b).core.frames) ∧
      Tally p plain (os ++ [timestamp] ++ own) (afterFrame inner timestamp b) := by
  let b₁ : Bench G C := (b.withBridge fun b => { b with lastFrame := some timestamp }).note
    (.call (.animationFrame timestamp))
  have hframe : Happens (⟨b, b.tasks, []⟩ : Moment G C) (.frame timestamp) ⟨b₁, b.tasks, []⟩ :=
    .frame hrun (ht.sound hrun) hs
  have ht₁ : Tally p plain (os ++ [timestamp]) b₁ := by
    refine (History.single hframe).tally ?_ ?_ ht.guest ht
    · intro t hmem
      cases List.mem_singleton.1 hmem
      exact hn
    · rintro - h hmem ⟨t, rfl⟩
      cases List.mem_singleton.1 hmem
  obtain ⟨hs, hleads⟩ :
      ∃ hs, Leads p (Happening.Within p) [] b₁ hs [] (afterFrame inner timestamp b) :=
    ⟨_, interlude_leads hi _ _⟩
  obtain ⟨loads, hh, hc, -, hg⟩ := hleads [] b₁.tasks [] ht₁.guest ht₁.sound (by simp)
  have hw : ∀ h ∈ hs, h.Within p := hc.forall_of (fun _ h => h) fun _ h => h
  refine ht₁.extend hh hp ?_ ?_ hg
  · intro t hmem
    exact Happening.of_within (hw _ hmem)
  · intro hplain h hmem
    exact Happening.plain_of_within (hw h hmem) (hd hplain)

omit [GraphicsContext G] [AdjustableContext G C] in
/-- A frame that is dropped was an offer all the same. -/
theorem Tally.note_stale (ht : Tally p plain os b) (hn : timestamp.isNan = false) {last : Double}
    (hs : b.core.bridge.staleAfter? timestamp = some last) (record : Log.Record) :
    Tally p plain (os ++ [timestamp]) (b.note (.log record)) := by
  have hex : ¬ timestamp.Exceeds os := by
    rw [ht.peak.exceeds_iff hn]
    show ¬ b.core.bridge.staleAfter? timestamp = none
    simp [hs]
  refine ⟨ht.peak.concat_of_not_exceeds hn hex, ?_, ht.sound, ht.guest, ht.completions⟩
  intro hplain
  rw [Double.records_concat, if_neg hex, List.append_nil, ← ht.frames hplain, Core.frames_eq,
    Core.frames_eq]
  exact congrArg _ ((entries_note _ _).trans (List.append_nil _))

/-- What a step adds to the offers: the frame that it offers itself, and after it those that the
guest's own steps deliver. -/
theorem perform_tally (hbelow : step.AllBelow p)
    (hp : ∀ timestamp, p (.bridge (.animationFrame timestamp)) → timestamp.isNan = false)
    (hn : ∀ timestamp, step = .bridge (.animationFrame timestamp) → timestamp.isNan = false)
    (hd : plain → ¬ step.IsDirectFrame ∧ ∀ step, p step → ¬ step.IsDirectFrame)
    (ht : Tally p plain os b) :
    ∃ own, (∀ timestamp ∈ own, p (.bridge (.animationFrame timestamp)) ∧
        timestamp ∈ (perform step b).2.core.frames) ∧
      Tally p plain (os ++ (step.offer? b).toList ++ own) (perform step b).2 := by
  by_cases hframe : ∃ timestamp, step = .bridge (.animationFrame timestamp)
  · obtain ⟨timestamp, rfl⟩ := hframe
    by_cases hr : b.owned = true ∧ b.core.bridge.phase = .running
    · have hoffer : (Step.bridge (.animationFrame timestamp) : Step C).offer? b =
          some timestamp := if_pos hr
      rw [hoffer]
      cases hs : b.core.bridge.staleAfter? timestamp with
      | none =>
        rw [perform_frame_of_fresh hr.1 hr.2 ht.sound hs]
        exact afterFrame_tally (performFor_follows _) hp (hn timestamp rfl) hr.2 hs
          (fun hplain => (hd hplain).2) ht
      | some last =>
        rw [perform_frame_of_stale hr.1 hr.2 hs]
        refine ⟨[], by simp, ?_⟩
        rw [List.append_nil]
        exact ht.note_stale (hn timestamp rfl) hs _
    · have hoffer : (Step.bridge (.animationFrame timestamp) : Step C).offer? b = none := if_neg hr
      have hsame : (perform (.bridge (.animationFrame timestamp)) b).2 = b := by
        by_cases ho : b.owned = true
        · rw [perform_frame_of_idle ho fun hp => hr ⟨ho, hp⟩]
        · show (b.whileOwned _).2 = b
          rw [whileOwned, if_neg ho]
      rw [hoffer, hsame]
      exact ⟨[], by simp, by simpa using ht⟩
  · have hn' : ∀ timestamp, step ≠ .bridge (.animationFrame timestamp) :=
      fun timestamp h => hframe ⟨timestamp, h⟩
    have hoffer : step.offer? b = none := by
      unfold Step.offer?
      split
      · exact absurd rfl (hn' _)
      · rfl
    rw [hoffer]
    simpa using perform_tally_of_no_offer hbelow hp hn' hd ht

end

/-! ## Runs -/

section

variable [AdjustableContext G C] {p : Step C → Prop}

/-- The frames that the steps of a run offer to a bridge that runs, in order. -/
def offers : List (Step C) → Bench G C → List Double
  | [], _ => []
  | step :: rest, b => (step.offer? b).toList ++ offers rest (perform step b).2

theorem offers_concat (steps : List (Step C)) (step : Step C) (b : Bench G C) :
    offers (steps ++ [step]) b = offers steps b ++ (step.offer? (run steps b)).toList := by
  induction steps generalizing b with
  | nil => exact List.append_nil _
  | cons first rest ih =>
    show _ ++ offers (rest ++ [step]) _ = _ ++ offers rest _ ++ _
    rw [ih, List.append_assoc]
    rfl

/-- `os` are the frames that were offered on a run: those of its steps, and between them those that
the guest offered in steps of its own. Of the latter only those are counted that it also got; it
was past the others. -/
structure Offered (p : Step C → Prop) (steps : List (Step C)) (b : Bench G C) (os : List Offer) :
    Prop where
  direct : (os.filter (!·.own)).map (·.timestamp) = offers steps b
  own : ∀ o ∈ os, o.own = true →
    p (.bridge (.animationFrame o.timestamp)) ∧ o.timestamp ∈ (run steps b).core.frames

/-- Without offers of the guest, the offers are those of the steps. -/
theorem Offered.timestamps_eq {steps : List (Step C)} {b : Bench G C} {os : List Offer}
    (h : Offered p steps b os) (hp : ∀ timestamp, ¬ p (.bridge (.animationFrame timestamp))) :
    os.map (·.timestamp) = offers steps b := by
  rw [← h.direct, List.filter_eq_self.2]
  intro o ho
  cases hown : o.own with
  | false => rfl
  | true => exact absurd (h.own o ho hown).1 (hp _)

theorem frames_subset_perform {step : Step C} {b : Bench G C} (hbelow : step.AllBelow p)
    (hg : b.guest.All p) (hs : b.Sound) {timestamp : Double} (h : timestamp ∈ b.core.frames) :
    timestamp ∈ (perform step b).2.core.frames := by
  obtain ⟨loads, hh, -⟩ := perform_leads step b hbelow [] b.tasks [] hg hs (by simp)
  rw [Core.frames_eq, hh.entries_eq, List.filterMap_append, ← Core.frames_eq]
  exact List.mem_append_left _ h

/-- Every run from a fresh bench has its offers. -/
theorem run_tally {plain : Prop} {b : Bench G C} (hb : b.Fresh) (hg : b.guest.All p)
    (hp : ∀ timestamp, p (.bridge (.animationFrame timestamp)) → timestamp.isNan = false)
    (steps : List (Step C)) (hs : ∀ step ∈ steps, step.AllBelow p)
    (hn : ∀ timestamp, .bridge (.animationFrame timestamp) ∈ steps → timestamp.isNan = false)
    (hd : plain → (∀ step ∈ steps, ¬ step.IsDirectFrame) ∧ ∀ step, p step → ¬ step.IsDirectFrame) :
    ∃ os, Offered p steps b os ∧ Tally p plain (os.map (·.timestamp)) (run steps b) := by
  induction steps using List.reverseRecOn with
  | nil =>
    have hframes := hb.framesInOrder
    refine ⟨[], ⟨rfl, by simp⟩, ?_, ?_, hb.sound, hg, hframes.completions⟩
    · show Double.IsPeak [] b.core.bridge.lastFrame
      rw [hb.bridge]
      rfl
    · intro _
      show b.core.frames = []
      unfold Core.frames
      rw [hb.journal]
      rfl
  | append_singleton steps step ih =>
    obtain ⟨os, hos, ht⟩ := ih (fun s hm => hs s (by simp [hm])) (fun t hm => hn t (by simp [hm]))
      fun hplain => ⟨fun s hm => (hd hplain).1 s (by simp [hm]), (hd hplain).2⟩
    have hbelow : step.AllBelow p := hs step (by simp)
    obtain ⟨own, hown, ht'⟩ := perform_tally hbelow hp
      (fun t h => hn t (by simp [h])) (fun hplain => ⟨(hd hplain).1 step (by simp), (hd hplain).2⟩) ht
    have hrun : run (steps ++ [step]) b = (perform step (run steps b)).2 := run_append steps [step] b
    refine ⟨os ++ (step.offer? (run steps b)).toList.map (⟨·, false⟩) ++ own.map (⟨·, true⟩),
      ⟨?_, ?_⟩, ?_⟩
    · have hnone : (own.map fun t => (⟨t, true⟩ : Offer)).filter (!·.own) = [] := by simp
      have hall : ((step.offer? (run steps b)).toList.map fun t => (⟨t, false⟩ : Offer)).filter
          (!·.own) = (step.offer? (run steps b)).toList.map (⟨·, false⟩) := by simp
      rw [List.filter_append, List.filter_append, hnone, hall, List.append_nil, List.map_append,
        hos.direct, offers_concat, List.map_map]
      exact congrArg _ (List.map_id _)
    · intro o ho hyes
      rw [hrun]
      rcases List.mem_append.1 ho with ho | ho
      · rcases List.mem_append.1 ho with ho | ho
        · obtain ⟨hpo, hmem⟩ := hos.own o ho hyes
          exact ⟨hpo, frames_subset_perform hbelow ht.guest ht.sound hmem⟩
        · obtain ⟨t, -, rfl⟩ := List.mem_map.1 ho
          cases hyes
      · obtain ⟨t, hmem, rfl⟩ := List.mem_map.1 ho
        exact hown t hmem
    · rw [hrun]
      simpa [List.map_append, List.map_map, Function.comp_def] using ht'

/-! ## What becomes of an offer -/

/-- Whether the guest is entered with a frame, before anything else. -/
def Delivers (timestamp : Double) (b after : Bench G C) : Prop :=
  ∃ more, after.core.entries = b.core.entries ++ .call (.animationFrame timestamp) :: more

/-- What becomes of a frame that is offered after the frames `os`. -/
structure Decision (os : List Double) (timestamp : Double) (b : Bench G C) (reply : Reply)
    (after : Bench G C) : Prop where
  /-- It is delivered exactly if it exceeds them all. -/
  selected : Delivers timestamp b after ↔ timestamp.Exceeds os
  /-- Then the answer is yes, or the failure of the guest. -/
  delivered : Delivers timestamp b after → reply = frameReply timestamp after
  /-- Otherwise it is no, and a warning is all that is left of the frame. -/
  dropped : ¬ Delivers timestamp b after → reply = .ok (.bool false) ∧
    ∃ last, b.core.bridge.lastFrame = some last ∧
      after = b.note (.log (staleRecord timestamp last))

omit [AdjustableContext G C] in
theorem afterFrame_delivers {inner : Performer G C} {tell : Teller G C} (hi : Follows p inner tell)
    {b : Bench G C} (hg : b.guest.All p) (hb : b.Sound) (timestamp : Double) :
    Delivers timestamp b (afterFrame inner timestamp b) := by
  let b₁ : Bench G C := (b.withBridge fun b => { b with lastFrame := some timestamp }).note
    (.call (.animationFrame timestamp))
  obtain ⟨hs, hleads⟩ :
      ∃ hs, Leads p (Happening.Within p) [] b₁ hs [] (afterFrame inner timestamp b) :=
    ⟨_, interlude_leads hi _ _⟩
  obtain ⟨loads, hh, -⟩ := hleads [] b₁.tasks [] hg hb (by simp)
  have hentries : b₁.core.entries = b.core.entries ++ [.call (.animationFrame timestamp)] :=
    entries_note _ _
  refine ⟨hs.filterMap Happening.entry?, ?_⟩
  rw [hh.entries_eq, hentries, List.append_assoc]
  rfl

omit [GraphicsContext G] [AdjustableContext G C] in
theorem not_delivers_note (timestamp : Double) (b : Bench G C) (record : Log.Record) :
    ¬ Delivers timestamp b (b.note (.log record)) := by
  rintro ⟨more, h⟩
  have hentries : (b.note (.log record)).core.entries = b.core.entries :=
    (entries_note _ _).trans (List.append_nil _)
  rw [hentries, List.self_eq_append_right] at h
  cases h

/-- A bridge that runs decides by the greatest offer alone. -/
theorem decision_of_tally {plain : Prop} {os : List Double} {b : Bench G C} {timestamp : Double}
    (ht : Tally p plain os b) (ho : b.owned = true) (hp : b.core.bridge.phase = .running)
    (hn : timestamp.isNan = false) :
    Decision os timestamp b (perform (.bridge (.animationFrame timestamp)) b).1
      (perform (.bridge (.animationFrame timestamp)) b).2 := by
  have hex : timestamp.Exceeds os ↔ b.core.bridge.staleAfter? timestamp = none :=
    ht.peak.exceeds_iff hn
  cases hs : b.core.bridge.staleAfter? timestamp with
  | none =>
    rw [perform_frame_of_fresh ho hp ht.sound hs]
    have hdel := afterFrame_delivers (performFor_follows (b.guest.weight + 1)) ht.guest ht.sound
      timestamp
    exact ⟨⟨fun _ => hex.2 hs, fun _ => hdel⟩, fun _ => rfl, fun h => absurd hdel h⟩
  | some last =>
    rw [perform_frame_of_stale ho hp hs]
    have hdel := not_delivers_note timestamp b (staleRecord timestamp last)
    have hlast : b.core.bridge.lastFrame = some last := by
      unfold Bridge.staleAfter? at hs
      exact (Option.filter_eq_some_iff.1 hs).1
    refine ⟨⟨fun h => absurd h hdel, fun h => ?_⟩, fun h => absurd h hdel, fun _ =>
      ⟨rfl, last, hlast, rfl⟩⟩
    rw [hex, hs] at h
    cases h

/-- Which of the frames that a run offers are delivered. -/
structure Selection (p : Step C → Prop) (steps : List (Step C)) (b : Bench G C) : Prop where
  /-- A bridge that does not run refuses a frame, and that changes nothing. -/
  refused : ∀ before timestamp after,
    steps = before ++ .bridge (.animationFrame timestamp) :: after →
      (run before b).owned = true → (run before b).core.bridge.phase ≠ .running →
        perform (.bridge (.animationFrame timestamp)) (run before b) =
          (.error (.bridge .notRunning), run before b)
  /-- One that runs decides by all that was offered before. -/
  decided : ∀ before timestamp after,
    steps = before ++ .bridge (.animationFrame timestamp) :: after →
      (run before b).owned = true → (run before b).core.bridge.phase = .running →
        ∃ os, Offered p before b os ∧ Decision (os.map (·.timestamp)) timestamp (run before b)
          (perform (.bridge (.animationFrame timestamp)) (run before b)).1
          (perform (.bridge (.animationFrame timestamp)) (run before b)).2
  /-- If nothing calls the frame entry point directly, the guest sees the strict running maxima of
  the offers, in order. -/
  maxima : (∀ step ∈ steps, ¬ step.IsDirectFrame) → (∀ step, p step → ¬ step.IsDirectFrame) →
    ∃ os, Offered p steps b os ∧
      (run steps b).core.frames = Double.records (os.map (·.timestamp))

/-- On every run on which all frames that are offered are numbers, those are delivered that exceed
all offered before them; `p` is what the guest's own steps are like. -/
theorem frames_selected {b : Bench G C} (hb : b.Fresh) (hg : b.guest.All p)
    (hp : ∀ timestamp, p (.bridge (.animationFrame timestamp)) → timestamp.isNan = false)
    (steps : List (Step C)) (hs : ∀ step ∈ steps, step.AllBelow p)
    (hn : ∀ timestamp, .bridge (.animationFrame timestamp) ∈ steps → timestamp.isNan = false) :
    Selection p steps b := by
  refine ⟨?_, ?_, ?_⟩
  · intro before timestamp after _ ho hidle
    exact perform_frame_of_idle ho hidle
  · rintro before timestamp after rfl ho hrun
    obtain ⟨os, hos, ht⟩ : ∃ os, Offered p before b os ∧
        Tally p False (os.map (·.timestamp)) (run before b) :=
      run_tally hb hg hp before (fun step hm => hs step (by simp [hm]))
        (fun t hm => hn t (by simp [hm])) False.elim
    exact ⟨os, hos, decision_of_tally ht ho hrun (hn timestamp (by simp))⟩
  · intro hsteps hguest
    obtain ⟨os, hos, ht⟩ : ∃ os, Offered p steps b os ∧
        Tally p True (os.map (·.timestamp)) (run steps b) :=
      run_tally hb hg hp steps hs hn fun _ => ⟨hsteps, hguest⟩
    exact ⟨os, hos, ht.frames trivial⟩

/-- The guest fails inside the first frame that it gets, at one; the frame before, offered to a
bridge that did not run yet, counts for nothing, and the frame at one half comes too late. -/
theorem frames_selected_of_trap :
    let two : Double := ⟨0x4000000000000000⟩
    let steps : List (Step ScriptedContext.Change) := [.bridge (.animationFrame two),
      .bridge firstInit, failOn "onAnimationFrame", .bridge (.animationFrame .one),
      .restoreExport "onAnimationFrame", .bridge (.animationFrame .half),
      .bridge (.animationFrame two)]
    (∀ timestamp, .bridge (.animationFrame timestamp) ∈ steps → timestamp.isNan = false) ∧
      Selection (fun _ => False) steps (scripted 256 true) ∧
      offers steps (scripted 256 true) = [.one, .half, two] ∧
      (run steps (scripted 256 true)).core.frames = [.one, two] := by
  intro two steps
  have hn : ∀ timestamp, .bridge (.animationFrame timestamp) ∈ steps → timestamp.isNan = false := by
    intro timestamp h
    obtain rfl | rfl | rfl : timestamp = two ∨ timestamp = .one ∨ timestamp = .half := by
      simp only [steps, firstInit, failOn, List.mem_cons, Step.bridge.injEq,
        Operation.animationFrame.injEq, reduceCtorEq, List.not_mem_nil, false_or, or_false] at h
      tauto
    all_goals decide +kernel
  have hselected : Selection (fun _ => False) steps (scripted 256 true) :=
    frames_selected ⟨rfl, rfl, rfl, rfl, rfl, rfl⟩ (fun _ hm => absurd hm List.not_mem_nil)
      (fun _ => False.elim) steps (by simp [steps, Step.AllBelow, firstInit, failOn]) hn
  have hoffers : offers steps (scripted 256 true) = [.one, .half, two] := by decide +kernel
  obtain ⟨os, hos, hframes⟩ := hselected.maxima
    (by simp [steps, Step.IsDirectFrame, firstInit, failOn]) fun _ => False.elim
  refine ⟨hn, hselected, hoffers, ?_⟩
  rw [hframes, hos.timestamps_eq fun _ => id, hoffers]
  decide +kernel

end

end Bench

end GuestBridge
