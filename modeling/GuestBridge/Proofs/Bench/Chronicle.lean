import GuestBridge.Proofs.Bench.Queues

/-!
# The history of a run

Whatever is performed on the bench is a way, on which happens what is told of it:
`performFor_leads` says so of one step, `run_leads` of a run of steps, and `run_history` of a run
from a fresh bench, whose chronicle (`chronicle`) so is a history.
-/

set_option autoImplicit false

namespace GuestBridge.Bench

variable {G C : Type} [GraphicsContext G]

/-! ## Steps -/

section

variable {p : Step C → Prop} {inner : Performer G C} {tell : Teller G C}

theorem operate_leads (hi : Follows p inner tell) (op : Operation) (b : Bench G C) :
    Leads p (·.CausedBy (.bridge op : Step C)) [] b (Teller.operate inner tell op b) []
      ((platform inner).operate op b).2 := by
  cases op with
  | capability c => exact performCapability_leads c b rfl fun _ => ⟨c, rfl⟩
  | attachGuest => exact attachGuest_leads b rfl
  | init width height => exact init_leads hi width height b rfl ⟨width, height, rfl⟩
  | animationFrame timestamp => exact animationFrame_leads hi timestamp b rfl
  | callGuest entry => exact callGuest_leads hi entry b rfl
  | dispatchInput event => exact callGuest_leads hi event.entryPoint b rfl
  | submitEquation text =>
    exact submitEquation_leads hi text b (fun _ => trivial) fun ptr len => ⟨ptr, len, rfl⟩
  | copyToGuest bytes => exact copyToGuest_leads hi bytes b fun _ => trivial
  | shutdown => exact .happens (fun _ _ => .shutDown) rfl id rfl rfl
  | phase => exact .refl
  | pendingFetches => exact .refl
  | registry => exact .refl
  | readText ptr len =>
    exact onCore_leads (fun c => Core.keeps_readString (P := (· = c)) ptr len c rfl) b

theorem whileOwned_leads {top : Happening → Prop} {f : Bench G C → Reply × Bench G C}
    {b : Bench G C} {hs : List Happening} (h : Leads p top [] b hs [] (f b).2) :
    Leads p top [] b (Teller.whileOwned b hs) [] (b.whileOwned f).2 := by
  unfold whileOwned Teller.whileOwned
  split
  · exact h
  · exact .refl

variable [AdjustableContext G C]

theorem performWith_leads (hi : Follows p inner tell) (step : Step C) (b : Bench G C)
    (hb : step.AllBelow p) :
    Leads p (·.CausedBy step) [] b (Teller.performWith inner tell step b) []
      (performWith inner step b).2 := by
  cases step with
  | bridge op => exact whileOwned_leads (operate_leads hi op b)
  | drop => exact .happens (fun _ _ => .dropped) rfl id rfl rfl
  | request id => exact .refl
  | cancelRequest id => exact .happens (fun _ _ => .cancelled id) rfl (fun h => h) rfl rfl
  | reserve len =>
    refine whileOwned_leads ?_
    exact alloc_leads hi len b trivial
  | writeText text =>
    exact whileOwned_leads (copyToGuest_leads hi _ b fun _ => trivial)
  | writeWords words =>
    exact whileOwned_leads (copyToGuest_leads hi _ b fun _ => trivial)
  | interlude name steps =>
    exact .quiet (.of_eq rfl rfl rfl rfl) (.refl _) fun hg => hg.add hb name
  | runTasks => exact runTasks_leads hi (fun h hl => hl.causedBy (.inl rfl)) b
  | runDeferred => exact runDeferred_leads hi (fun h hd => hd.causedBy (.inl rfl)) b
  | runOneDeferred => exact runOneDeferred_leads hi (fun h hd => hd.causedBy (.inr (.inl rfl))) b
  | runAll =>
    exact runAll_leads hi (fun h hl => hl.causedBy (.inr rfl))
      (fun h hd => hd.causedBy (.inr (.inr rfl))) b
  | peek | breaks => exact .refl
  | _ => exact .quiet (.of_eq rfl rfl rfl rfl) (.refl _) id

theorem performFor_leads (depth : Nat) (step : Step C) (b : Bench G C) (hb : step.AllBelow p) :
    Leads p (·.CausedBy step) [] b (Teller.performFor depth step b) []
      (performFor depth step b).2 := by
  induction depth generalizing step b with
  | zero => exact .refl
  | succ depth ih =>
    refine performWith_leads (fun step' b' hp hb' => ?_) step b hb
    exact (ih step' b' hb').mono fun h hc => ⟨step', hp, hc⟩

theorem perform_leads (step : Step C) (b : Bench G C) (hb : step.AllBelow p) :
    Leads p (·.CausedBy step) [] b (Teller.perform step b) [] (perform step b).2 :=
  performFor_leads _ step b hb

theorem sound_perform {b : Bench G C} (hb : b.Sound) (step : Step C) :
    (perform step b).2.Sound := by
  obtain ⟨loads, hh, -⟩ :=
    (perform_leads step b (step.allBelow_of_forall fun _ => trivial)).history hb
  exact hh.sound hb

theorem performFor_follows (depth : Nat) :
    Follows p (performFor depth : Performer G C) (Teller.performFor depth) := by
  intro step b hstep hbelow
  exact (performFor_leads depth step b hbelow).mono fun h hc => ⟨step, hstep, hc⟩

end

theorem perform_bridge_eq [AdjustableContext G C] {b : Bench G C} (ho : b.owned = true)
    (op : Operation) :
    perform (.bridge op) b = (platform (performFor (b.guest.weight + 1))).operate op b := by
  show b.whileOwned _ = _
  rw [whileOwned, if_pos ho]
  rfl

/-! ## Runs -/

variable [AdjustableContext G C]

/-- The bench after a run of steps. -/
def run (steps : List (Step C)) (b : Bench G C) : Bench G C :=
  steps.foldl (fun b step => (perform step b).2) b

theorem run_append (steps more : List (Step C)) (b : Bench G C) :
    run (steps ++ more) b = run more (run steps b) :=
  List.foldl_append

theorem chronicle_append (steps more : List (Step C)) (b : Bench G C) :
    chronicle (steps ++ more) b = chronicle steps b ++ chronicle more (run steps b) := by
  induction steps generalizing b with
  | nil => rfl
  | cons step rest ih =>
    rw [List.cons_append, chronicle, chronicle, ih, List.append_assoc]
    rfl

/-- What happens in a run happens in one of its steps. -/
theorem exists_step_of_mem {steps : List (Step C)} {b : Bench G C} {h : Happening}
    (hm : h ∈ chronicle steps b) :
    ∃ before step after, steps = before ++ step :: after ∧
      h ∈ Teller.perform step (run before b) := by
  induction steps generalizing b with
  | nil => cases hm
  | cons step rest ih =>
    rcases List.mem_append.1 hm with hm | hm
    · exact ⟨[], step, rest, rfl, hm⟩
    · obtain ⟨before, step', after, rfl, hstep⟩ := ih hm
      exact ⟨step :: before, step', after, rfl, hstep⟩

/-- A bench as it is set up: nothing has happened on it. -/
structure Fresh (b : Bench G C) : Prop where
  bridge : b.core.bridge = { attached := b.core.bridge.attached }
  journal : b.core.journal = #[]
  owned : b.owned = true
  entered : b.entered = false
  tasks : b.tasks = []
  deferred : b.deferred = []

omit [GraphicsContext G] [AdjustableContext G C] in
theorem Fresh.sound {b : Bench G C} (h : b.Fresh) : b.Sound := by
  intro hp
  rw [h.bridge] at hp
  cases hp

omit [GraphicsContext G] [AdjustableContext G C] in
theorem Fresh.entries_eq_nil {b : Bench G C} (h : b.Fresh) : b.core.entries = [] := by
  simp [Core.entries, h.journal]

theorem run_leads {p : Step C → Prop} (steps : List (Step C)) (b : Bench G C)
    (hs : ∀ step ∈ steps, step.AllBelow p) :
    Leads p (fun h => ∃ step ∈ steps, h.CausedBy step) [] b (chronicle steps b) []
      (run steps b) := by
  induction steps generalizing b with
  | nil => exact .refl
  | cons step rest ih =>
    have h₁ : Leads p (fun h => ∃ s ∈ step :: rest, h.CausedBy s) [] b _ [] (perform step b).2 :=
      (perform_leads step b (hs step (.head _))).mono fun h hc => ⟨step, .head _, hc⟩
    refine h₁.trans ((ih _ fun s hm => hs s (.tail _ hm)).mono ?_)
    rintro h ⟨s, hm, hc⟩
    exact ⟨s, .tail _ hm, hc⟩

/-- The guest is left with steps that it had in store, and with those that it was given. -/
theorem guest_run {p : Step C → Prop} {b : Bench G C} (hb : b.Fresh) (hg : b.guest.All p)
    {steps : List (Step C)} (hs : ∀ step ∈ steps, step.AllBelow p) :
    (run steps b).guest.All p := by
  obtain ⟨loads, -, -, -, hall⟩ := run_leads steps b hs [] b.tasks [] hg hb.sound (.refl _)
  exact hall

/-- A bridge that has a guest keeps it. -/
theorem run_attached {b : Bench G C} (ha : b.core.bridge.attached = true) (steps : List (Step C)) :
    (run steps b).core.bridge.attached = true :=
  (run_leads steps b fun step _ => step.allBelow_of_forall fun _ => trivial).attached ha

/-- The chronicle of every run from a fresh bench is a history; at its end no image is being copied,
and the loads that have not come back are those whose task is queued. -/
theorem run_history {p : Step C → Prop} {b : Bench G C} (hb : b.Fresh) (hg : b.guest.All p)
    (steps : List (Step C)) (hs : ∀ step ∈ steps, step.AllBelow p) :
    ∃ loads, History ⟨b, [], []⟩ (chronicle steps b) ⟨run steps b, loads, []⟩ ∧
      Course (fun h => ∃ step ∈ steps, h.CausedBy step) (Happening.Within p) (chronicle steps b) ∧
      (run steps b).tasks.Perm loads := by
  obtain ⟨loads, hh, hc, hp, -⟩ :=
    run_leads steps b hs [] [] [] hg hb.sound (by simp [hb.tasks])
  exact ⟨loads, hh, hc, by simpa using hp⟩

/-- Whatever has happened before, the chronicle of a run is a history. -/
theorem Sound.history_of_chronicle {b : Bench G C} (hb : b.Sound) (steps : List (Step C)) :
    ∃ loads, History ⟨b, b.tasks, []⟩ (chronicle steps b) ⟨run steps b, loads, []⟩ ∧
      (run steps b).tasks.Perm loads :=
  (run_leads steps b fun step _ => step.allBelow_of_forall fun _ => trivial).history hb

theorem history_of_chronicle {b : Bench G C} (hb : b.Fresh) (steps : List (Step C)) :
    ∃ loads, History ⟨b, [], []⟩ (chronicle steps b) ⟨run steps b, loads, []⟩ ∧
      (run steps b).tasks.Perm loads := by
  have h := hb.sound.history_of_chronicle steps
  rwa [hb.tasks] at h

theorem sound_of_run {b : Bench G C} (hb : b.Fresh) (steps : List (Step C)) :
    (run steps b).Sound := by
  obtain ⟨loads, hh, -⟩ := history_of_chronicle hb steps
  exact hh.sound hb.sound

end GuestBridge.Bench
