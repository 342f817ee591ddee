import GuestBridge.Bench.Setup
import GuestBridge.Proofs.Bench.Copies

/-!
# Copies never clobber one another

A run copies what its steps ask for (`copies`), and the allocator lays it out from its first
address on (`regions`). A step makes its copies first (`polled_lays`) and then runs completions at
most (`perform_delivers`); what is known of the copies made so far is carried through a step
(`Underway.step`) and so through a run (`Underway.run`). If the copies fit below the end of the
address space and nothing else writes the memory, their regions do not meet, and each one still
holds what was copied there at the end of the run and when the guest is told of it
(`copies_unclobbered`).
-/

set_option autoImplicit false

namespace GuestBridge.Bench

variable {G C : Type}

/-! ## Steps -/

/-- What an operation of the bridge has to copy into the guest. -/
def operationCopies (b : Bench G C) : Operation → List Copy
  | .copyToGuest bytes => [.plain bytes]
  | .submitEquation text =>
    if b.core.bridge.phase = .running then [.plain (Text.utf8 text)] else []
  | _ => []

/-- What a step has to copy into the guest. -/
def copiesOf (b : Bench G C) : Step C → List Copy
  | .bridge op => if b.owned then b.operationCopies op else []
  | .writeText text => if b.owned then [.plain (Text.utf8 text)] else []
  | .writeWords words => if b.owned then [.plain (words.flatMap wordBytes)] else []
  | .runTasks | .runAll => b.taskCopies
  | _ => []

/-- What is answered to a step that copies directly, if its copy is made. -/
def Step.copyReply? (b : Bench G C) (r : Region) : Step C → Option Reply
  | .bridge (.copyToGuest _) => some (.ok (.copy (.copied r.ptr r.len)))
  | .bridge (.submitEquation _) =>
    some ((b.guest.fault? "onEquation").elim (.ok (.copy (.copied r.ptr r.len)))
      fun e => .error (.bridge (.guest e)))
  | .writeText _ => some (.ok (.region r.ptr r.len))
  | .writeWords _ => some (.ok (.int r.ptr.toNat))
  | _ => none

section

variable {inner : Performer G C} {b b' : Bench G C} {copies : List Copy}

theorem whileOwned_lays {f : Bench G C → Reply × Bench G C} (hg : b.guest.Records)
    (h : b.owned = true → Lays copies b (f b).2) :
    Lays (if b.owned then copies else []) b (b.whileOwned f).2 := by
  unfold whileOwned
  cases ho : b.owned with
  | true => exact h ho
  | false => exact .refl hg

theorem growMemory_lays (hg : b.guest.Records) (size : Nat) :
    Lays [] b { b with core.memory := b.core.memory.grow size } :=
  fun _ => ⟨hg, .of_grow size⟩

variable (inner) in
theorem runAll_delivers (hg : b.guest.Records) :
    ∃ told, Account.Delivers (runTasks inner b).deferred told (runTasks inner b).account
      (runAll inner b).account ∧ (runAll inner b).guest.Records := by
  have hk : Keeps ({ b with tasks := [] } : Bench G C) _ :=
    keeps_foldl_resume inner (b := { b with tasks := [] }) hg b.tasks
  have hg' : (runTasks inner b).guest.Records := by
    rw [(runTasks_of_records inner hg).1]
    exact hk.records hg
  have hd := runDeferred_of_records inner hg'
  obtain ⟨told, hdelivers⟩ := hd.delivers hg'
  rw [(runAll_of_records inner hg).2]
  exact ⟨told, hdelivers, (hd.keeps hg').1.records hg'⟩

variable (inner) in
theorem runOneDeferred_delivers (hg : b.guest.Records) :
    ∃ done told, Account.Delivers done told b.account (runOneDeferred inner b).2.account ∧
      (runOneDeferred inner b).2.guest.Records := by
  cases hd : b.deferred with
  | nil =>
    rw [runOneDeferred_of_nil hd]
    exact ⟨[], [], .refl _, hg⟩
  | cons c rest =>
    have hhandle := handle_of_records inner (b := { b with deferred := rest }) hg c
    obtain ⟨told, hdelivers⟩ := hhandle.delivers hd
    rw [runOneDeferred_of_cons hd]
    exact ⟨[c], told, hdelivers, hhandle.records hg⟩

variable (inner) in
/-- What is answered to a copy that is made. -/
theorem reply_copyToGuest (hg : b.guest.Records) (ha : b.core.bridge.attached = true)
    {bytes : List UInt8} (hn : layoutEnd b.guest.allocator.next [.plain bytes] < UInt32.size)
    {r : Region} (hr : r ∈ layout b.guest.allocator.next [.plain bytes])
    (value : CopyResult → Value) :
    (Platform.reply value ((platform inner).copyToGuest bytes) b).1 =
      .ok (value (.copied r.ptr r.len)) := by
  obtain ⟨he, rfl⟩ := mem_layout_singleton hr
  rw [layoutEnd_eq_stop he] at hn
  have hcopy := copyToGuest_of_room inner hg ha (show bytes.isEmpty = false from he) hn
  unfold Platform.reply
  rw [hcopy]
  rfl

variable (inner) in
theorem reply_submitEquation (hg : b.guest.Records) (ha : b.core.bridge.attached = true)
    (hp : b.core.bridge.phase = .running) {text : String}
    (hn : layoutEnd b.guest.allocator.next [.plain (Text.utf8 text)] < UInt32.size)
    {r : Region} (hr : r ∈ layout b.guest.allocator.next [.plain (Text.utf8 text)]) :
    (Platform.reply .copy ((platform inner).submitEquation text) b).1 =
      (b.guest.fault? "onEquation").elim (.ok (.copy (.copied r.ptr r.len)))
        fun e => .error (.bridge (.guest e)) := by
  obtain ⟨he, rfl⟩ := mem_layout_singleton hr
  rw [layoutEnd_eq_stop he] at hn
  unfold Platform.reply
  rw [submitEquation_of_room inner hg ha hp he hn]
  cases b.guest.fault? "onEquation" <;> rfl

variable [GraphicsContext G]

variable (inner) in
theorem operate_lays (hg : b.guest.Records) (ha : b.core.bridge.attached = true) (op : Operation)
    (hm : ∀ c, op = .capability c →
      ((platform inner).operate op b).2.core.memory = b.core.memory) :
    Lays (b.operationCopies op) b ((platform inner).operate op b).2 := by
  have hb : (platform inner).bridge b = (.ok b.core.bridge, b) := rfl
  cases op with
  | capability c => exact .of_sparesGuest hg (perform_sparesGuest inner c b) (hm c rfl)
  | attachGuest =>
    show Lays [] b ((platform inner).attachGuest b).2
    unfold Platform.attachGuest
    rw [Attempt.bind_of_ok hb, if_pos ha]
    exact .refl hg
  | init width height => exact init_lays inner hg width height
  | animationFrame timestamp => exact animationFrame_lays inner hg timestamp
  | callGuest entry => exact callGuest_lays inner hg entry
  | dispatchInput event => exact callGuest_lays inner hg event.entryPoint
  | submitEquation text => exact submitEquation_lays inner hg ha text
  | copyToGuest bytes => exact copyToGuest_lays inner hg ha bytes
  | shutdown =>
    refine (withBridge_lays hg (·.cancelPending)).trans_nil fun hg' => ?_
    exact log_lays inner hg' _ _ _
  | phase => exact .refl hg
  | pendingFetches => exact .refl hg
  | registry => exact .refl hg
  | readText ptr len =>
    have hread : (Core.readString ptr len b.core).2 = b.core :=
      Core.keeps_readString (P := (· = b.core)) ptr len b.core rfl
    have hoperate : ((platform inner).operate (.readText ptr len) b).2 =
        { b with core := (Core.readString ptr len b.core).2 } := rfl
    rw [hoperate, hread]
    exact .refl hg

variable [AdjustableContext G C]

/-- A step that has the guest's allocator asked for copies only, leaves the guest one that only
records, and does not write its memory otherwise. -/
def Step.SparesCopies (b : Bench G C) : Step C → Prop
  | .reserve _ | .queueAllocation _ | .interlude _ _ => False
  | .bridge (.capability c) => (perform (.bridge (.capability c)) b).2.core.memory = b.core.memory
  | .poke offset bytes => (perform (.poke offset bytes) b).2.core.memory = b.core.memory
  | _ => True

/-- The bench when a step has made its copies, and is about to run completions if it does. -/
def polled (b : Bench G C) : Step C → Bench G C
  | .runAll => (perform .runTasks b).2
  | .runDeferred | .runOneDeferred => b
  | step => (perform step b).2

theorem polled_lays (hg : b.guest.Records) (ha : b.core.bridge.attached = true) (step : Step C)
    (hs : step.SparesCopies b) : Lays (b.copiesOf step) b (b.polled step) := by
  let inner : Performer G C := performFor (b.guest.weight + step.weight)
  cases step with
  | bridge op =>
    refine whileOwned_lays hg fun ho => operate_lays inner hg ha op fun c hc => ?_
    subst hc
    rw [← hs, perform_bridge_eq ho]
    rfl
  | reserve len => exact hs.elim
  | queueAllocation result => exact hs.elim
  | interlude name steps => exact hs.elim
  | writeText text => exact whileOwned_lays hg fun _ => copyToGuest_lays inner hg ha _
  | writeWords words => exact whileOwned_lays hg fun _ => copyToGuest_lays inner hg ha _
  | growMemory size => exact growMemory_lays hg size
  | poke offset bytes => exact .of_sparesGuest hg ⟨rfl, rfl, rfl⟩ hs
  | failExport name message => exact .of_calls ⟨hg.queue, hg.allocations⟩ b.core.calls rfl
  | restoreExport name => exact .of_calls ⟨hg.queue, hg.allocations⟩ b.core.calls rfl
  | runTasks | runAll => exact runTasks_lays inner hg ha
  | _ => exact .of_sparesGuest hg ⟨rfl, rfl, rfl⟩ rfl

/-- After its copies a step can only run completions. -/
theorem perform_delivers (hg : b.guest.Records) (step : Step C)
    (hg' : (b.polled step).guest.Records) : ∃ done told,
      Account.Delivers done told (b.polled step).account (perform step b).2.account ∧
        (perform step b).2.guest.Records := by
  cases step with
  | runDeferred =>
    have hd := runDeferred_of_records (performFor (b.guest.weight + 1)) hg
    obtain ⟨told, hdelivers⟩ := hd.delivers hg
    exact ⟨_, told, hdelivers, (hd.keeps hg).1.records hg⟩
  | runOneDeferred => exact runOneDeferred_delivers _ hg
  | runAll =>
    obtain ⟨told, hdelivers, hg'⟩ := runAll_delivers (performFor (b.guest.weight + 1)) hg
    exact ⟨_, told, hdelivers, hg'⟩
  | _ => exact ⟨[], [], .refl _, hg'⟩

/-- Below the end of the address space, the copy of a step that copies directly is made. -/
theorem reply_of_room (hg : b.guest.Records) (ha : b.core.bridge.attached = true) {step : Step C}
    (hn : layoutEnd b.guest.allocator.next (b.copiesOf step) < UInt32.size) {r : Region}
    (hr : r ∈ layout b.guest.allocator.next (b.copiesOf step)) {reply : Reply}
    (h : step.copyReply? b r = some reply) : (perform step b).1 = reply := by
  let inner : Performer G C := performFor (b.guest.weight + step.weight)
  have hperform : perform step b = performWith inner step b := rfl
  have ho : b.owned = true := by
    by_contra ho
    have hcopies : b.copiesOf step = [] := by
      cases step <;> simp [copiesOf, Step.copyReply?, ho] at h ⊢
    rw [hcopies] at hr
    cases hr
  cases step with
  | bridge op =>
    have hcopies : b.copiesOf (.bridge op : Step C) = b.operationCopies op := if_pos ho
    rw [hcopies] at hn hr
    rw [perform_bridge_eq ho]
    cases op with
    | copyToGuest bytes =>
      cases h
      exact reply_copyToGuest _ hg ha hn hr _
    | submitEquation text =>
      cases h
      by_cases hp : b.core.bridge.phase = .running
      · have hone : b.operationCopies (.submitEquation text) = [.plain (Text.utf8 text)] :=
          if_pos hp
        rw [hone] at hn hr
        exact reply_submitEquation _ hg ha hp hn hr
      · have hnone : b.operationCopies (.submitEquation text) = [] := if_neg hp
        rw [hnone] at hr
        cases hr
    | _ => cases h
  | writeText text =>
    have hcopies : b.copiesOf (.writeText text : Step C) = [.plain (Text.utf8 text)] := if_pos ho
    rw [hcopies] at hn hr
    cases h
    rw [hperform, performWith, whileOwned, if_pos ho]
    exact reply_copyToGuest _ hg ha hn hr _
  | writeWords words =>
    have hcopies : b.copiesOf (.writeWords words : Step C) = [.plain (words.flatMap wordBytes)] :=
      if_pos ho
    rw [hcopies] at hn hr
    cases h
    rw [hperform, performWith, whileOwned, if_pos ho]
    exact reply_copyToGuest _ hg ha hn hr _
  | _ => cases h

end

/-! ## Runs -/

variable [GraphicsContext G] [AdjustableContext G C] {b : Bench G C} {before rest : List (Step C)}

/-- What a run has to copy into the guest, in order. -/
def copies : List (Step C) → Bench G C → List Copy
  | [], _ => []
  | step :: rest, b => b.copiesOf step ++ copies rest (perform step b).2

/-- All steps of a run spare the copies. -/
def Undisturbed : List (Step C) → Bench G C → Prop
  | [], _ => True
  | step :: rest, b => step.SparesCopies b ∧ Undisturbed rest (perform step b).2

theorem copies_append (before rest : List (Step C)) (b : Bench G C) :
    copies (before ++ rest) b = copies before b ++ copies rest (run before b) := by
  induction before generalizing b with
  | nil => rfl
  | cons step before ih =>
    show b.copiesOf step ++ copies (before ++ rest) _ = b.copiesOf step ++ copies before _ ++ _
    rw [ih, List.append_assoc]
    rfl

theorem undisturbed_append :
    Undisturbed (before ++ rest) b ↔ Undisturbed before b ∧ Undisturbed rest (run before b) := by
  induction before generalizing b with
  | nil => exact (iff_of_eq (true_and _)).symm
  | cons step before ih => exact (and_congr_right' ih).trans and_assoc.symm

/-- The copies have been made on the way from one bench to another, and the guest still serves. -/
structure Underway (cs : List Copy) (b s : Bench G C) : Prop where
  records : s.guest.Records
  attached : s.core.bridge.attached = true
  laid : ∃ done, Account.Laid cs done b.account s.account

namespace Underway

variable {cs : List Copy} {s : Bench G C}

omit [GraphicsContext G] [AdjustableContext G C] in
theorem refl (hg : b.guest.Records) (ha : b.core.bridge.attached = true) : Underway [] b b :=
  ⟨hg, ha, [], .of_calls b.core.calls rfl⟩

omit [GraphicsContext G] [AdjustableContext G C] in
theorem next_eq (h : Underway cs b s) :
    s.guest.allocator.next = layoutEnd b.guest.allocator.next cs := by
  obtain ⟨done, hlaid⟩ := h.laid
  exact hlaid.next

/-- A step makes its copies first. -/
theorem polled {step : Step C} (h : Underway cs b s) (hs : step.SparesCopies s)
    (hn : layoutEnd b.guest.allocator.next (cs ++ s.copiesOf step) < UInt32.size) :
    (s.polled step).guest.Records ∧
      Account.Laid (s.copiesOf step) [] s.account (s.polled step).account := by
  rw [layoutEnd_append, ← h.next_eq] at hn
  exact polled_lays h.records h.attached step hs hn

/-- What a step keeps. -/
theorem step {step : Step C} (h : Underway cs b s) (hs : step.SparesCopies s)
    (hn : layoutEnd b.guest.allocator.next (cs ++ s.copiesOf step) < UInt32.size) :
    Underway (cs ++ s.copiesOf step) b (perform step s).2 := by
  obtain ⟨done, hlaid⟩ := h.laid
  obtain ⟨hg, hcopies⟩ := h.polled hs hn
  obtain ⟨done', told, hdelivers, hg'⟩ := perform_delivers h.records step hg
  have hall := (hlaid.trans hcopies).trans hdelivers.laid
  rw [List.append_nil] at hall
  exact ⟨hg', run_attached h.attached [step], _, hall⟩

/-- What a run keeps. -/
theorem run {steps : List (Step C)} (h : Underway cs b s) (hu : Undisturbed steps s)
    (hn : layoutEnd b.guest.allocator.next (cs ++ copies steps s) < UInt32.size) :
    Underway (cs ++ copies steps s) b (run steps s) := by
  induction steps generalizing cs s with
  | nil =>
    rw [copies, List.append_nil]
    exact h
  | cons step rest ih =>
    rw [copies, ← List.append_assoc] at hn ⊢
    exact ih (h.step hu.1 (Nat.lt_of_le_of_lt (layoutEnd_le_append ..) hn)) hu.2 hn

end Underway

/-! ## Regions -/

/-- A guest that only records, is there for the bridge, and has not been asked for anything yet. -/
structure Opened (b : Bench G C) : Prop where
  records : b.guest.Records
  attached : b.core.bridge.attached = true
  next : b.guest.allocator.next = allocationAlign
  allocations : b.core.allocations = []
  deferred : b.deferred = []

/-- Where the copies of a run lie. -/
def regions (steps : List (Step C)) (b : Bench G C) : List Region :=
  layout allocationAlign (copies steps b)

/-- Where the copies of a step lie that follows a run. -/
def regionsOf (before : List (Step C)) (step : Step C) (b : Bench G C) : List Region :=
  layout (layoutEnd allocationAlign (copies before b)) ((run before b).copiesOf step)

/-- Completions are run, and the memory is not touched. Whatever the guest is told of is the region
of an image, and holds its pixels. -/
structure Informs (rs : List Region) (b b' : Bench G C) : Prop where
  memory : b'.core.memory = b.core.memory
  calls : ∃ told : List Completion, b'.core.calls = b.core.calls ++ told.map (·.entry) ∧
    ∀ c ∈ told, ∃ r ∈ rs, ∃ fetch image, r.copy = .image fetch image ∧
      c.entry = .fetch image.width image.height r.ptr r.len fetch.request.token ∧
      b.core.memory.readBytes r.ptr r.len = .ok image.pixels

/-- What becomes of the copies of a run. -/
structure Unclobbered (steps : List (Step C)) (b : Bench G C) : Prop where
  /-- The allocator is asked once for each copy that is not empty, and for nothing else. -/
  allocations : (run steps b).core.allocations = (regions steps b).map Region.len
  /-- The copy of a step that copies directly is answered. -/
  replies : ∀ before step after, steps = before ++ step :: after → ∀ r ∈ regionsOf before step b,
    ∀ reply, step.copyReply? (run before b) r = some reply →
      (perform step (run before b)).1 = reply
  /-- The completion of an image that is copied is put off. -/
  completions : ∀ before step after, steps = before ++ step :: after →
    ((run before b).polled step).deferred = (run before b).deferred ++
      (regionsOf before step b).filterMap Region.completion?
  aligned : ∀ r ∈ regions steps b,
    r.ptr.toNat % allocationAlign = 0 ∧ allocationAlign ≤ r.ptr.toNat
  apart : (regions steps b).Pairwise fun r r' => r.range.Apart r'.range
  grows : ∀ before later, before <+: later → later <+: steps →
    (run before b).core.memory.size ≤ (run later b).core.memory.size
  /-- However much is copied later, a copy stays where it is. -/
  held : ∀ before later, before <+: later → later <+: steps → ∀ r ∈ regions before b,
    r ∈ regions later b ∧ r.range.stop ≤ (run later b).core.memory.size ∧
      (run later b).core.memory.readBytes r.ptr r.len = .ok r.copy.bytes
  /-- When a completion runs, its image is still there. -/
  told : ∀ before step after, steps = before ++ step :: after →
    Informs (regions (before ++ [step]) b) ((run before b).polled step)
      (perform step (run before b)).2

omit [GraphicsContext G] [AdjustableContext G C] in
theorem Region.completion?_eq_some {r : Region} {c : Completion} (h : r.completion? = some c) :
    ∃ fetch image, r.copy = .image fetch image ∧
      c.entry = .fetch image.width image.height r.ptr r.len fetch.request.token := by
  obtain ⟨start, copy⟩ := r
  cases copy with
  | plain data => cases h
  | image fetch decoded =>
    cases h
    exact ⟨fetch, decoded, rfl, rfl⟩

theorem copies_concat (before : List (Step C)) (step : Step C) (b : Bench G C) :
    copies (before ++ [step]) b = copies before b ++ (run before b).copiesOf step := by
  rw [copies_append]
  exact congrArg (copies before b ++ ·) (List.append_nil _)

theorem regions_subset (before more : List (Step C)) (b : Bench G C) :
    regions before b ⊆ regions (before ++ more) b := by
  unfold regions
  rw [copies_append, layout_append]
  exact List.subset_append_left ..

namespace Opened

variable {cs : List Copy} {done past told : List Completion} {s s' : Bench G C} {r : Region}

omit [GraphicsContext G] [AdjustableContext G C]

theorem layout_eq (hb : b.Opened) : layout b.account.allocator.next = layout allocationAlign :=
  congrArg layout hb.next

theorem held (hb : b.Opened) (h : Account.Laid cs done b.account s.account)
    (hr : r ∈ layout allocationAlign cs) : r.Held s.core.memory :=
  h.held r (hb.layout_eq ▸ hr)

theorem readBytes (hb : b.Opened) (h : Account.Laid cs done b.account s.account)
    (hn : layoutEnd allocationAlign cs < UInt32.size) (hr : r ∈ layout allocationAlign cs) :
    s.core.memory.readBytes r.ptr r.len = .ok r.copy.bytes :=
  (hb.held h hr).readBytes (stop_lt_of_mem hn hr)

/-- What the guest is told of has been copied, and has stayed where it was. -/
theorem informs (hb : b.Opened) (h : Account.Laid cs done b.account s.account)
    (hn : layoutEnd allocationAlign cs < UInt32.size)
    (hd : Account.Delivers past told s.account s'.account) :
    Informs (layout allocationAlign cs) s s' := by
  refine ⟨hd.memory_eq, told, hd.calls_eq, fun c hc => ?_⟩
  have hqueue : s.deferred = past ++ s'.deferred := hd.queue
  have hcopied : b.deferred ++ (layout allocationAlign cs).filterMap Region.completion? =
      done ++ s.deferred := by
    rw [← hb.layout_eq]
    exact h.deferred
  have hmem : c ∈ b.deferred ++ (layout allocationAlign cs).filterMap Region.completion? := by
    rw [hcopied, hqueue]
    exact List.mem_append_right _ (List.mem_append_left _ (hd.sublist.subset hc))
  rw [hb.deferred, List.nil_append] at hmem
  obtain ⟨r, hr, hcompletion⟩ := List.mem_filterMap.1 hmem
  obtain ⟨fetch, image, hcopy, hentry⟩ := Region.completion?_eq_some hcompletion
  refine ⟨r, hr, fetch, image, hcopy, hentry, ?_⟩
  rw [hb.readBytes h hn hr, hcopy]
  rfl

end Opened

/-! ## Along a run -/

/-- A run on which only copies write the memory, none of them beyond the end of the address
space. -/
structure Orderly (steps : List (Step C)) (b : Bench G C) : Prop extends Opened b where
  undisturbed : Undisturbed steps b
  room : layoutEnd allocationAlign (copies steps b) < UInt32.size

namespace Orderly

variable {steps before after more : List (Step C)} {step : Step C} {r : Region}

theorem of_append (h : Orderly (before ++ more) b) : Orderly before b where
  toOpened := h.toOpened
  undisturbed := (undisturbed_append.1 h.undisturbed).1
  room := by
    have hroom := h.room
    rw [copies_append] at hroom
    exact Nat.lt_of_le_of_lt (layoutEnd_le_append ..) hroom

theorem of_split (h : Orderly steps b) (hs : steps = before ++ step :: after) :
    Orderly (before ++ [step]) b := by
  have happend : Orderly ((before ++ [step]) ++ after) b := by
    rw [List.append_assoc, List.singleton_append, ← hs]
    exact h
  exact happend.of_append

theorem underway (h : Orderly steps b) : Underway (copies steps b) b (run steps b) :=
  (Underway.refl h.records h.attached).run h.undisturbed (h.next.symm ▸ h.room)

theorem next_eq (h : Orderly steps b) :
    (run steps b).guest.allocator.next = layoutEnd allocationAlign (copies steps b) := by
  rw [h.underway.next_eq, h.next]

theorem polled (h : Orderly (before ++ [step]) b) :
    ((run before b).polled step).guest.Records ∧ Account.Laid ((run before b).copiesOf step) []
      (run before b).account ((run before b).polled step).account := by
  refine h.of_append.underway.polled (undisturbed_append.1 h.undisturbed).2.1 ?_
  rw [h.next, ← copies_concat]
  exact h.room

theorem allocations_eq (h : Orderly steps b) :
    (run steps b).core.allocations = (regions steps b).map Region.len := by
  obtain ⟨done, hlaid⟩ := h.underway.laid
  have hall : (run steps b).core.allocations = b.core.allocations ++
      (layout b.guest.allocator.next (copies steps b)).map Region.len := hlaid.allocations
  rw [hall, h.allocations, h.next]
  rfl

theorem reply_eq (h : Orderly (before ++ [step]) b) (hr : r ∈ regionsOf before step b)
    {reply : Reply} (hreply : step.copyReply? (run before b) r = some reply) :
    (perform step (run before b)).1 = reply := by
  have hmid := h.of_append
  refine reply_of_room hmid.underway.records hmid.underway.attached ?_ ?_ hreply
  · rw [hmid.next_eq, ← layoutEnd_append, ← copies_concat]
    exact h.room
  · rw [hmid.next_eq]
    exact hr

theorem deferred_polled (h : Orderly (before ++ [step]) b) :
    ((run before b).polled step).deferred = (run before b).deferred ++
      (regionsOf before step b).filterMap Region.completion? := by
  have hdeferred := h.polled.2.deferred
  unfold account at hdeferred
  rw [h.of_append.next_eq] at hdeferred
  exact hdeferred.symm

theorem aligned (h : Orderly steps b) (hr : r ∈ regions steps b) :
    r.ptr.toNat % allocationAlign = 0 ∧ allocationAlign ≤ r.ptr.toNat := by
  obtain ⟨haligned, hle, -⟩ := layout_within _ _ r hr
  rw [Region.toNat_ptr (stop_lt_of_mem h.room hr)]
  exact ⟨haligned, hle⟩

/-- The memory never shrinks. -/
theorem size_le (h : Orderly (before ++ more) b) :
    (run before b).core.memory.size ≤ (run (before ++ more) b).core.memory.size := by
  have hmid := h.of_append.underway
  have hroom : layoutEnd (run before b).guest.allocator.next (copies more (run before b)) <
      UInt32.size := by
    rw [h.of_append.next_eq, ← layoutEnd_append, ← copies_append]
    exact h.room
  obtain ⟨done, hlaid⟩ := ((Underway.refl hmid.records hmid.attached).run
    (undisturbed_append.1 h.undisturbed).2 hroom).laid
  rw [run_append]
  exact hlaid.grows

theorem held (h : Orderly steps b) (hr : r ∈ regions steps b) :
    r.range.stop ≤ (run steps b).core.memory.size ∧
      (run steps b).core.memory.readBytes r.ptr r.len = .ok r.copy.bytes := by
  obtain ⟨done, hlaid⟩ := h.underway.laid
  refine ⟨?_, h.readBytes hlaid h.room hr⟩
  rw [Region.range_eq (stop_lt_of_mem h.room hr)]
  exact (h.toOpened.held hlaid hr).inside

theorem told (h : Orderly (before ++ [step]) b) :
    Informs (regions (before ++ [step]) b) ((run before b).polled step)
      (perform step (run before b)).2 := by
  obtain ⟨done, hlaid⟩ := h.of_append.underway.laid
  obtain ⟨hg, hcopies⟩ := h.polled
  obtain ⟨past, told, hdelivers, -⟩ := perform_delivers h.of_append.underway.records step hg
  have hall := hlaid.trans hcopies
  rw [← copies_concat] at hall
  exact h.informs hall h.room hdelivers

end Orderly

/-- As long as the allocations stay below the end of the address space, the copies of a run never
clobber one another. -/
theorem copies_unclobbered (hb : b.Opened) (steps : List (Step C)) (hu : Undisturbed steps b)
    (hroom : allocationAlign + room (copies steps b) < UInt32.size) : Unclobbered steps b := by
  have h : Orderly steps b :=
    ⟨hb, hu, Nat.lt_of_le_of_lt (layoutEnd_le (by decide) _) hroom⟩
  refine ⟨h.allocations_eq, ?_, ?_, fun r => h.aligned, layout_apart h.room, ?_, ?_, ?_⟩
  · intro before step after hs r hr reply hreply
    exact (h.of_split hs).reply_eq hr hreply
  · intro before step after hs
    exact (h.of_split hs).deferred_polled
  · rintro before _ ⟨more, rfl⟩ ⟨rest, rfl⟩
    exact h.of_append.size_le
  · rintro before _ ⟨more, rfl⟩ ⟨rest, rfl⟩ r hr
    have hmem : r ∈ regions (before ++ more) b := regions_subset before more b hr
    exact ⟨hmem, h.of_append.held hmem⟩
  · intro before step after hs
    exact (h.of_split hs).told

/-- The guest of a numbered bench has not been asked for anything, however much memory it has. -/
theorem numbered_opened (memory : Nat) (sizes : List (String × UInt32 × UInt32)) :
    (numbered memory sizes).Opened :=
  ⟨⟨rfl, rfl⟩, rfl, rfl, rfl, rfl⟩

/-- An image that is copied, with two more copies before the guest is told of it. -/
def copiesAfterImage : List (Step NumberedContext.Change) :=
  [.bridge firstInit, .writeText "late.png", .bridge (.capability (.fetchBytes 8 8 4)), .runTasks,
    .bridge (.copyToGuest [1, 2, 3]), .bridge (.submitEquation "x"), .runDeferred]

/-- The guest has no memory at first. The image goes to 16, and is still there when the guest is
told of it, after copies to 32 and 40. -/
theorem copies_unclobbered_of_image :
    let b := numbered 0 [("late.png", 2, 2)]
    Undisturbed copiesAfterImage b ∧
      allocationAlign + room (copies copiesAfterImage b) < UInt32.size ∧
      Unclobbered copiesAfterImage b ∧
      (regions copiesAfterImage b).map (·.range) = [⟨8, 16⟩, ⟨16, 32⟩, ⟨32, 35⟩, ⟨40, 41⟩] ∧
      (run copiesAfterImage b).core.calls =
        [.init 640 480, .equation 40 1, .fetch 2 2 16 16 4] ∧
      (run copiesAfterImage b).core.memory.readBytes 16 16 = .ok (testPixels 2 2) := by
  intro b
  have hfetch : Step.SparesCopies (run [.bridge firstInit, .writeText "late.png"] b)
      (.bridge (.capability (.fetchBytes 8 8 4))) := by
    show (_ : Memory) = _
    decide +kernel
  have hu : Undisturbed copiesAfterImage b :=
    ⟨trivial, trivial, hfetch, trivial, trivial, trivial, trivial, trivial⟩
  have hroom : allocationAlign + room (copies copiesAfterImage b) < UInt32.size := by
    decide +kernel
  exact ⟨hu, hroom, copies_unclobbered (numbered_opened 0 _) _ hu hroom, by decide +kernel,
    by decide +kernel, by decide +kernel⟩

end GuestBridge.Bench
