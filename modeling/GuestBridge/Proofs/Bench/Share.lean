import GuestBridge.Proofs.Bench.Recording
import GuestBridge.Proofs.Platform.Upkeep

/-!
# What concerns some of the fetches

`Bench.share p b` is what a bench has to do with the fetches in `p`: how far its bridge has come,
which of them are cancelled or pending, their tasks and their completions, these but for where the
images are. On a guest that only records, and below the end of the address space, what becomes of
the fetches depends on nothing else: every step brings the share on as `Share.after` says
(`Tracks.performWith`), whatever other fetches there are. A fetch accepted on the way is none
of `p`, since all of those have been accepted before (`Tracks`).
-/

set_option autoImplicit false

namespace GuestBridge

/-- The call as if its image were at the start of the memory. -/
def EntryPoint.unplaced : EntryPoint → EntryPoint
  | .fetch width height _ len token => .fetch width height 0 len token
  | entry => entry

def Completion.unplaced (c : Completion) : Completion := { c with entry := c.entry.unplaced }

namespace Bench

variable {G C : Type}

/-- What the load of a task has come to, with these images. -/
def resultIn (images : List (String × ImageSource)) (t : Task) :
    Option (Except FetchError DecodedImage) :=
  let url := t.fetch.request.url
  if t.known then (images.lookup url).bind (·.result? url)
  else some (.error (.load url "404"))

/-! ## Shares -/

@[ext]
structure Share where
  owned : Bool
  entered : Bool
  attached : Bool
  phase : Phase
  faults : List (String × Option String)
  images : List (String × ImageSource)
  /-- Which of the fetches are cancelled. -/
  cancelled : Nat → Bool
  pending : Nat → Bool
  loads : List Task
  /-- Their completions, without where the images are. -/
  waiting : List Completion

/-- What a bench has to do with the fetches in `p`. -/
def share (p : Nat → Bool) (b : Bench G C) : Share where
  owned := b.owned
  entered := b.entered
  attached := b.core.bridge.attached
  phase := b.core.bridge.phase
  faults := b.guest.faults
  images := b.images
  cancelled id := p id && b.core.bridge.isCancelled id
  pending id := p id && decide (id ∈ b.core.bridge.pending)
  loads := b.tasks.filter (p ·.fetch.id)
  waiting := (b.deferred.filter (p ·.request)).map Completion.unplaced

namespace Share

variable (v : Share)

def isAlive : Bool := v.owned || v.entered

/-- The image that a task has to copy, if its load has come back and brings one. -/
def image? (t : Task) : Option DecodedImage :=
  match resultIn v.images t with
  | some (.ok image) =>
    let fine := (ending? { attached := v.attached } t.fetch.id (.ok image)).isNone
    if !v.cancelled t.fetch.id && fine then some image else none
  | _ => none

/-- Takes up a load if it has come back. -/
def resume (t : Task) : Share :=
  if v.isAlive && (resultIn v.images t).isSome then
    { v with
      pending := fun id => v.pending id && decide (id ≠ t.fetch.id)
      waiting := v.waiting ++ ((v.image? t).map (completion t.fetch · 0)).toList }
  else v

def runTasks : Share :=
  { v.loads.foldl resume { v with loads := [] } with
    loads := v.loads.filter fun t => (resultIn v.images t).isNone }

/-- Whether the guest is told of a completion when it is run. -/
def tells (c : Completion) : Bool :=
  v.isAlive && !v.cancelled c.request && ({ phase := v.phase } : Bridge).admits c.entry &&
    v.attached

def runDeferred : Share := { v with waiting := [] }

def operate : Operation → Share
  | .attachGuest => { v with attached := true }
  | .init width height =>
    let fault := v.faults.lookup (EntryPoint.init width height).exportName
    if v.attached && fault.isNone then { v with phase := .running } else v
  | .shutdown =>
    { v with cancelled := fun id => v.cancelled id || v.pending id, pending := fun _ => false }
  | _ => v

/-- The share after a step. -/
def after (p : Nat → Bool) : Step C → Share
  | .bridge op => if v.owned then v.operate op else v
  | .drop => { v with owned := false }
  | .cancelRequest id =>
    { v with cancelled := fun other => v.cancelled other || p other && decide (id = other) }
  | .failExport name message =>
    { v with faults := (name, message) :: v.faults.filter (·.1 ≠ name) }
  | .restoreExport name => { v with faults := v.faults.filter (·.1 ≠ name) }
  | .setImage url source => { v with images := (url, source) :: v.images }
  | .runTasks => v.runTasks
  | .runDeferred => v.runDeferred
  | .runAll => v.runTasks.runDeferred
  | _ => v

/-- The completions that the guest is told of by a step. -/
def told : Step C → List Completion
  | .runDeferred => v.waiting.filter v.tells
  | .runAll => v.runTasks.waiting.filter v.runTasks.tells
  | _ => []

end Share

/-! ## Benches that advance -/

section

variable {p : Nat → Bool} {inner : Performer G C} {b b' : Bench G C}

/-- A guest that only records, and fetches that have been accepted. -/
structure Tracks (p : Nat → Bool) (b : Bench G C) : Prop where
  records : b.guest.Records
  accepted (id : Nat) (h : p id = true) : id < b.core.bridge.requests.length

/-- The share is `v` after the way from one bench to the other, if all allocations up to then are
below the end of the address space. The allocator never goes back, so it is enough to look at where
it has come to in the end. -/
structure Advances (p : Nat → Bool) (v : Share) (b b' : Bench G C) : Prop where
  share (hn : b'.guest.allocator.next < UInt32.size) : b'.share p = v
  tracks : b'.Tracks p
  next : b.guest.allocator.next ≤ b'.guest.allocator.next

theorem Tracks.advances (h : b.Tracks p) : Advances p (b.share p) b b :=
  ⟨fun _ => rfl, h, Nat.le_refl _⟩

theorem Advances.trans {v : Share} {f : Share → Share} {b'' : Bench G C} (h : Advances p v b b')
    (h' : Advances p (f (b'.share p)) b' b'') : Advances p (f v) b b'' where
  share hn := by rw [h'.share hn, h.share (Nat.lt_of_le_of_lt h'.next hn)]
  tracks := h'.tracks
  next := Nat.le_trans h.next h'.next

/-! ## What leaves the fetches alone -/

section

variable {v : Share}

theorem Advances.note (h : Advances p v b b') (e : Event) : Advances p v b (b'.note e) :=
  ⟨h.share, ⟨h.tracks.records, h.tracks.accepted⟩, h.next⟩

theorem Advances.call (inner : Performer G C) (h : Advances p v b b') (entry : EntryPoint) :
    Advances p v b (Bench.call inner entry b').2 := by
  rw [call_of_records h.tracks.records]
  exact h.note _

theorem Advances.alloc (inner : Performer G C) (h : Advances p v b b') (len : UInt32) :
    Advances p v b (Bench.alloc inner len b').2 := by
  rw [alloc_of_records h.tracks.records]
  have hr := h.tracks.records
  have hle : b'.guest.allocator.next ≤ (b'.allot len).guest.allocator.next :=
    Nat.le_trans (le_roundUp _) (Nat.le_add_right _ _)
  exact ⟨fun hn => h.share (Nat.lt_of_le_of_lt hle hn), ⟨⟨hr.queue, hr.allocations⟩,
    h.tracks.accepted⟩, Nat.le_trans h.next hle⟩

theorem advances_bears : (platform inner).Bears (Advances p v b) where
  log _ _ _ _ hs := hs.note _
  frame _ _ hs := ⟨hs.share, ⟨hs.tracks.records, hs.tracks.accepted⟩, hs.next⟩
  store stores s hs := by
    rcases Core.store_cases stores s.core with ⟨memory, h⟩ | ⟨e, h⟩
    · show Advances p v b { s with core := (Core.store stores s.core).2 }
      rw [h]
      exact ⟨hs.share, ⟨hs.tracks.records, hs.tracks.accepted⟩, hs.next⟩
    · show Advances p v b { s with core := (Core.store stores s.core).2 }
      rw [h]
      exact hs

/-- The share of a bench on which a fetch has been accepted since. -/
theorem share_spawn (h : b.Tracks p) (request : FetchRequest) (hn : request.cancelled = false)
    (core : Core G) (hc : core.bridge = (b.core.bridge.accept request).2) :
    (spawn (b.core.bridge.accept request).1 { b with core }).share p = b.share p := by
  have hnew : p b.core.bridge.requests.length = false := by
    by_contra hp
    exact Nat.lt_irrefl _ (h.accepted _ (by simpa using hp))
  have hbridge : (spawn (b.core.bridge.accept request).1 { b with core }).core.bridge =
      (b.core.bridge.accept request).2 := hc
  refine Share.ext rfl rfl ?_ ?_ rfl rfl (funext fun id => ?_) (funext fun id => ?_) ?_ rfl
  · show core.bridge.attached = _
    rw [hc]
    rfl
  · show core.bridge.phase = _
    rw [hc]
    rfl
  · show (p id && Bridge.isCancelled _ id) = (p id && Bridge.isCancelled _ id)
    rw [hbridge, Bridge.isCancelled_accept _ hn]
  · show (p id && decide (id ∈ Bridge.pending _)) = (p id && decide (id ∈ b.core.bridge.pending))
    rw [hbridge]
    by_cases hid : id = b.core.bridge.requests.length
    · rw [hid, hnew]
      rfl
    · simp [Bridge.accept, hid]
  · show (b.tasks ++ [_]).filter _ = b.tasks.filter _
    rw [List.filter_append]
    simp [Bridge.accept, hnew]

theorem Tracks.capability (h : b.Tracks p) [GraphicsContext G] (c : Capability) :
    Advances p (b.share p) b ((platform inner).perform c b).2 := by
  unfold Platform.perform
  rcases c.run_cases b.core with ⟨request, text, hn, hr⟩ | ⟨hn, hw⟩
  · rw [Attempt.bind_of_ok (onCore_eq hr)]
    refine ⟨fun _ => share_spawn h request hn _ rfl, ⟨h.records, fun id hp => ?_⟩, Nat.le_refl _⟩
    show id < (b.core.bridge.requests ++ [request]).length
    rw [List.length_append]
    exact Nat.lt_add_right _ (h.accepted id hp)
  · obtain ⟨registry, hb⟩ := (hw .buffer).bridge_eq
    have hcore : Advances p (b.share p) b { b with core := (c.run b.core).2 } := by
      refine ⟨fun _ => ?_, ⟨h.records, fun id hp => ?_⟩, Nat.le_refl _⟩
      · unfold share
        rw [hb]
        rfl
      · rw [hb]
        exact h.accepted id hp
    rcases hr : c.run b.core with ⟨e | result, core⟩
    · rw [hr] at hcore
      rw [Attempt.bind_of_error (onCore_eq hr)]
      exact hcore
    · rw [hr] at hcore hn
      rw [Attempt.bind_of_ok (onCore_eq hr)]
      cases result with
      | accepted fetch => exact absurd rfl (hn fetch)
      | _ => exact hcore

theorem Tracks.init (h : b.Tracks p) (width height : UInt32) :
    Advances p ((b.share p).operate (.init width height)) b
      ((platform inner).init width height b).2 := by
  by_cases hp : b.core.bridge.phase = .running
  · rw [init_of_running hp]
    have hv : (b.share p).operate (.init width height) = b.share p := by
      unfold Share.operate
      have hphase : (b.share p).phase = .running := hp
      dsimp only
      split
      · rw [← hphase]
      · rfl
    rw [hv]
    exact h.advances
  · have hadmits : ¬ b.core.bridge.admits (.init width height) = false := by
      simp [Bridge.admits, EntryPoint.isInit]
    have hcall : (platform inner).callGuest (.init width height) b = _ := callGuest_eq _ b
    rw [if_neg hadmits, call_of_records h.records] at hcall
    have hoperate : (b.share p).operate (.init width height) =
        if b.core.bridge.attached &&
            (b.guest.fault? (EntryPoint.init width height).exportName).isNone then
          { b.share p with phase := .running }
        else b.share p := by
      unfold Guest.fault?
      rw [Option.isNone_map]
      rfl
    rw [hoperate]
    cases ha : b.core.bridge.attached with
    | false =>
      rw [if_pos ha] at hcall
      rw [init_of_error hp hcall]
      exact h.advances
    | true =>
      rw [if_neg (by simp [ha])] at hcall
      cases hf : b.guest.fault? (EntryPoint.init width height).exportName with
      | some e =>
        rw [hf] at hcall
        rw [init_of_error hp hcall]
        exact h.advances.note _
      | none =>
        rw [hf] at hcall
        rw [init_of_ok hp hcall]
        exact ⟨fun _ => rfl, ⟨h.records, h.accepted⟩, Nat.le_refl _⟩

theorem Tracks.shutdown (h : b.Tracks p) :
    Advances p ((b.share p).operate .shutdown) b { b with core := b.core.shutdown } := by
  obtain ⟨requests, he, hl⟩ := b.core.bridge.cancelPending_eq
  refine ⟨fun _ => ?_, ⟨h.records, fun id hp => ?_⟩, Nat.le_refl _⟩
  · refine Share.ext rfl rfl ?_ ?_ rfl rfl (funext fun id => ?_) (funext fun id => ?_) rfl rfl
    · show b.core.bridge.cancelPending.attached = b.core.bridge.attached
      rw [he]
    · show b.core.bridge.cancelPending.phase = b.core.bridge.phase
      rw [he]
    · show (p id && b.core.bridge.cancelPending.isCancelled id) =
        (p id && b.core.bridge.isCancelled id || p id && decide (id ∈ b.core.bridge.pending))
      rw [Bridge.isCancelled_cancelPending]
      cases hp : p id with
      | false => rfl
      | true => simp [h.accepted id hp]
    · exact Bool.and_false _
  · show id < b.core.bridge.cancelPending.requests.length
    rw [he, hl]
    exact h.accepted id hp

theorem Tracks.operate [GraphicsContext G] (h : b.Tracks p) (op : Operation) :
    Advances p ((b.share p).operate op) b ((platform inner).operate op b).2 := by
  have ha := h.advances
  have hbears : (platform inner).Bears (Advances p (b.share p) b) := advances_bears
  have halloc (len : UInt32) (s : Bench G C) (hs : Advances p (b.share p) b s) :
      Advances p (b.share p) b ((platform inner).alloc len s).2 := hs.alloc inner len
  have hcall (entry : EntryPoint) (s : Bench G C) (hs : Advances p (b.share p) b s) :
      Advances p (b.share p) b ((platform inner).call entry s).2 := hs.call inner entry
  cases op with
  | capability c => exact h.capability c
  | attachGuest =>
    show Advances p _ b ((platform inner).attachGuest b).2
    rw [attachGuest_eq]
    exact ⟨fun _ => rfl, ⟨h.records, h.accepted⟩, Nat.le_refl _⟩
  | init width height => exact h.init width height
  | animationFrame timestamp =>
    exact (Platform.meets_animationFrame hbears timestamp (fun _ hs => hs) (hcall _)).keeps _ ha
  | callGuest entry => exact Platform.keeps_callGuest (hcall entry) _ ha
  | dispatchInput event => exact Platform.keeps_callGuest (hcall _) _ ha
  | submitEquation text =>
    exact Platform.keeps_submitEquation hbears text halloc (fun _ _ => hcall _) _ ha
  | copyToGuest bytes => exact Platform.keeps_copyToGuest hbears bytes halloc _ ha
  | shutdown => exact h.shutdown
  | phase | pendingFetches | registry => exact ha
  | readText ptr len =>
    have hread : (Core.readString ptr len b.core).2 = b.core :=
      Core.keeps_readString (P := (· = b.core)) ptr len b.core rfl
    show Advances p _ b { b with core := (Core.readString ptr len b.core).2 }
    rw [hread]
    exact ha

end

/-! ## The queues -/

theorem image?_share {t : Task} (hp : p t.fetch.id = true) :
    (b.share p).image? t = b.image? t := by
  have hr : resultIn (b.share p).images t = b.result? t := rfl
  unfold Share.image? image?
  rw [hr]
  cases b.result? t with
  | none => rfl
  | some result =>
    cases result with
    | error e => rfl
    | ok image =>
      have hc : (b.share p).cancelled t.fetch.id = b.core.bridge.isCancelled t.fetch.id := by
        simp [share, hp]
      have ha : (b.share p).attached = b.core.bridge.attached := rfl
      have he : ending? b.core.bridge t.fetch.id (.ok image) =
          if b.core.bridge.isCancelled t.fetch.id then some .cancelled
          else ending? { attached := b.core.bridge.attached } t.fetch.id (.ok image) := rfl
      simp only [he, hc, ha]
      cases b.core.bridge.isCancelled t.fetch.id <;> simp

/-- The share once a load has been taken up, of a fetch in `p` or not. -/
theorem TakesUp.share_eq {t : Task} (h : TakesUp b t b')
    (hn : b'.guest.allocator.next < UInt32.size) :
    b'.share p = { b.share p with
      pending := fun id => (b.share p).pending id && decide (id ≠ t.fetch.id)
      waiting := (b.share p).waiting ++ if p t.fetch.id then
        ((b.image? t).map (completion t.fetch · 0)).toList else [] } := by
  obtain ⟨ptr, hdeferred⟩ := h.deferred_eq hn
  refine Share.ext h.owned h.entered ?_ ?_ ?_ h.images ?_ (funext fun id => ?_) ?_ ?_
  · show b'.core.bridge.attached = _
    rw [h.bridge]
    rfl
  · show b'.core.bridge.phase = _
    rw [h.bridge]
    rfl
  · show b'.guest.faults = _
    rw [h.guest]
    rfl
  · unfold share
    rw [h.bridge]
    rfl
  · show (p id && decide (id ∈ b'.core.bridge.pending)) =
      (p id && decide (id ∈ b.core.bridge.pending) && decide (id ≠ t.fetch.id))
    rw [h.bridge]
    simp [Bridge.settle, Bool.and_assoc]
  · show b'.tasks.filter _ = _
    rw [h.tasks]
    rfl
  · show (b'.deferred.filter (p ·.request)).map _ = (b.deferred.filter (p ·.request)).map _ ++ _
    rw [hdeferred, List.filter_append, List.map_append]
    cases b.image? t with
    | none => simp
    | some image =>
      cases hp : p t.fetch.id with
      | true => simp [completion, hp, Completion.unplaced, EntryPoint.unplaced]
      | false => simp [completion, hp]

theorem Tracks.resume (h : b.Tracks p) (t : Task) :
    Advances p (if p t.fetch.id then (b.share p).resume t else b.share p) b
      (Bench.resume inner b t) := by
  have hsame (hv : ((b.share p).isAlive && (resultIn (b.share p).images t).isSome) = false) :
      (if p t.fetch.id then (b.share p).resume t else b.share p) = b.share p := by
    unfold Share.resume
    rw [hv]
    simp
  cases hr : b.result? t with
  | none =>
    have hr' : resultIn (b.share p).images t = none := hr
    rw [resume_of_none hr, hsame (by simp [hr'])]
    exact h.advances
  | some result =>
    have hr' : resultIn (b.share p).images t = some result := hr
    rw [resume_of_some hr]
    by_cases hl : b.isAlive = true
    · have ht := takeUp_of_records inner h.records hl hr
      have hl' : (b.share p).isAlive = true := hl
      refine ⟨fun hn => ?_, ⟨ht.records h.records, fun id hp => ?_⟩, ht.next_le⟩
      · rw [ht.share_eq hn]
        cases hp : p t.fetch.id with
        | true =>
          unfold Share.resume
          rw [hl', hr', image?_share hp]
          rfl
        | false =>
          refine Share.ext rfl rfl rfl rfl rfl rfl rfl (funext fun id => ?_) rfl (List.append_nil _)
          show (p id && _ && decide (id ≠ t.fetch.id)) = (p id && _)
          by_cases hid : id = t.fetch.id
          · rw [hid, hp]
            rfl
          · simp [hid]
      · rw [ht.bridge]
        exact h.accepted id hp
    · have hl' : (b.share p).isAlive = false := Bool.eq_false_iff.2 hl
      rw [takeUp, if_neg hl, hsame (by simp [hl'])]
      exact h.advances

theorem Tracks.foldl_resume (h : b.Tracks p) (ts : List Task) :
    Advances p ((ts.filter (p ·.fetch.id)).foldl Share.resume (b.share p)) b
      (ts.foldl (Bench.resume inner) b) := by
  induction ts generalizing b with
  | nil => exact h.advances
  | cons t rest ih =>
    have ht : Advances p _ b (Bench.resume inner b t) := h.resume t
    have hrest := ht.trans (f := (rest.filter (p ·.fetch.id)).foldl Share.resume) (ih ht.tracks)
    rw [List.filter_cons]
    cases hp : p t.fetch.id with
    | true =>
      rw [hp] at hrest
      exact hrest
    | false =>
      rw [hp] at hrest
      exact hrest

theorem Tracks.runTasks (h : b.Tracks p) :
    Advances p (b.share p).runTasks b (Bench.runTasks inner b) := by
  have hb : Tracks p { b with tasks := [] } := ⟨h.records, h.accepted⟩
  rw [(runTasks_of_records inner h.records).1]
  obtain ⟨hshare, ⟨hr, ha⟩, hnext⟩ := hb.foldl_resume b.tasks
  refine ⟨fun hn => ?_, ⟨hr, ha⟩, hnext⟩
  show { (b.tasks.foldl (Bench.resume inner) { b with tasks := [] }).share p with
    loads := (b.tasks.filter fun t => (b.result? t).isNone).filter (p ·.fetch.id) } = _
  rw [hshare hn, List.filter_comm]
  rfl

theorem Tracks.handle (h : b.Tracks p) (c : Completion) (rest : List Completion) :
    Advances p { b.share p with waiting := (rest.filter (p ·.request)).map Completion.unplaced } b
      (Bench.handle inner c { b with deferred := rest }) := by
  have hh := handle_of_records inner (b := { b with deferred := rest }) h.records c
  obtain ⟨hdeferred, hallocator⟩ := hh.unspent
  refine ⟨fun _ => ?_, ⟨hh.records h.records, fun id hp => ?_⟩, Nat.le_of_eq ?_⟩
  · unfold share
    rw [hh.owned, hh.entered, hh.bridge, hh.guest, hh.images, hh.tasks, hdeferred]
  · rw [hh.bridge]
    exact h.accepted id hp
  · rw [hallocator]

theorem DeliversTo.advances (hd : DeliversTo inner b b') (h : b.Tracks p) :
    Advances p (b.share p).runDeferred b b' := by
  induction hd with
  | @empty b hd =>
    refine ⟨fun _ => ?_, h, Nat.le_refl _⟩
    unfold Share.runDeferred share
    rw [hd]
    rfl
  | @next b b' c rest hd next ih =>
    have hc : Advances p _ b (Bench.handle inner c { b with deferred := rest }) := h.handle c rest
    exact hc.trans (f := Share.runDeferred) (ih hc.tracks)

theorem Tracks.runAll (h : b.Tracks p) :
    Advances p (b.share p).runTasks.runDeferred b (Bench.runAll inner b) := by
  rw [(runAll_of_records inner h.records).2]
  have ht : Advances p _ b (Bench.runTasks inner b) := h.runTasks
  exact ht.trans (f := Share.runDeferred)
    ((runDeferred_of_records inner ht.tracks.records).advances ht.tracks)

/-! ## Steps -/

/-- Whether a guest that only records still does after a step, and completions are run all or none.
-/
def Step.Records : Step C → Prop
  | .interlude _ _ | .queueAllocation _ | .runOneDeferred => False
  | _ => True

variable [GraphicsContext G] [AdjustableContext G C]

omit [GraphicsContext G] [AdjustableContext G C] in
theorem Tracks.cancelRequest (h : b.Tracks p) (id : Nat) :
    Advances p ((b.share p).after p (.cancelRequest id : Step C)) b
      (b.withBridge (·.cancel id)) := by
  refine ⟨fun _ => ?_, ⟨h.records, fun other hp => ?_⟩, Nat.le_refl _⟩
  · refine Share.ext rfl rfl rfl rfl rfl rfl (funext fun other => ?_) rfl rfl rfl
    show (p other && (b.core.bridge.cancel id).isCancelled other) =
      (p other && b.core.bridge.isCancelled other || p other && decide (id = other))
    rw [Bridge.isCancelled_cancel]
    cases hp : p other with
    | false => rfl
    | true => simp [h.accepted other hp]
  · show other < (b.core.bridge.cancel id).requests.length
    rw [Bridge.requests_length_cancel]
    exact h.accepted other hp

/-- What becomes of the fetches in `p` in a step is up to their share. -/
theorem Tracks.performWith (h : b.Tracks p) {step : Step C} (hs : step.Records) :
    Advances p ((b.share p).after p step) b (Bench.performWith inner step b).2 := by
  have howned {f : Bench G C → Reply × Bench G C} {v : Share} (hf : Advances p v b (f b).2) :
      Advances p (if b.owned then v else b.share p) b (b.whileOwned f).2 := by
    unfold whileOwned
    cases b.owned with
    | true => exact hf
    | false => exact h.advances
  have hsame {f : Bench G C → Reply × Bench G C} (hf : Advances p (b.share p) b (f b).2) :
      Advances p (b.share p) b (b.whileOwned f).2 := by
    have ho := howned hf
    rwa [ite_self] at ho
  have hcopy (bytes : List UInt8) :
      Advances p (b.share p) b ((platform inner).copyToGuest bytes b).2 :=
    Platform.keeps_copyToGuest advances_bears bytes (fun len _ ha => ha.alloc inner len) _
      h.advances
  cases step with
  | bridge op => exact howned (h.operate op)
  | cancelRequest id => exact h.cancelRequest id
  | reserve len => exact hsame (h.advances.alloc inner len)
  | writeText text => exact hsame (hcopy _)
  | writeWords words => exact hsame (hcopy _)
  | queueAllocation | interlude | runOneDeferred => exact hs.elim
  | runTasks => exact h.runTasks
  | runDeferred => exact (runDeferred_of_records inner h.records).advances h
  | runAll => exact h.runAll
  | failExport | restoreExport =>
    exact ⟨fun _ => rfl, ⟨⟨h.records.queue, h.records.allocations⟩, h.accepted⟩, Nat.le_refl _⟩
  | _ => exact ⟨fun _ => rfl, ⟨h.records, h.accepted⟩, Nat.le_refl _⟩

end

end Bench

end GuestBridge
