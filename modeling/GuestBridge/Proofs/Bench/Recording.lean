import GuestBridge.Proofs.Bench.Account
import GuestBridge.Proofs.Bench.Loop
import GuestBridge.Proofs.Bench.Rounds

/-!
# Guests that only record

A guest that takes no steps of its own, and whose allocator always finds room, leaves little that
can happen while the queues run: a load that is taken up is copied or ends (`takeUp_of_records`), a
completion calls the guest or is dropped (`handle_of_records`), and both leave everything alone that
`Keeps` names. What they do to the guest's calls, allocations, memory and completions is computed on
its `Account`. Every loop of the queues comes to an end.
-/

set_option autoImplicit false

namespace GuestBridge

/-- The number of bytes that an event asks the allocator for. -/
def Event.alloc? : Event → Option UInt32
  | .alloc len => some len
  | _ => none

namespace Core

variable {G : Type} (c : Core G) (e : Event)

/-- The lengths of the allocations so far, in order. -/
def allocations : List UInt32 := c.journal.toList.filterMap Event.alloc?

theorem allocations_eq : c.allocations = c.entries.filterMap Event.alloc? := by
  refine (c.filterMap_entries fun e he => ?_).symm
  cases e <;> first | rfl | cases he

theorem calls_note : (c.note e).calls = c.calls ++ e.call?.toList := by
  rw [calls_eq_filterMap, calls_eq_filterMap, note, Array.toList_push, List.filterMap_append]
  cases e <;> rfl

theorem allocations_note : (c.note e).allocations = c.allocations ++ e.alloc?.toList := by
  unfold allocations
  rw [note, Array.toList_push, List.filterMap_append]
  cases e <;> rfl

variable {c} {stores : List Store}

theorem store_of_ok {memory : Memory} (ha : c.bridge.attached = true)
    (h : c.memory.writeBatch stores = .ok memory) :
    store stores c = (.ok (), { c with memory }) := by
  rw [store_eq ha, h]

theorem store_of_error {e : MemoryError} (ha : c.bridge.attached = true)
    (h : c.memory.writeBatch stores = .error e) : store stores c = (.error (.memory e), c) := by
  rw [store_eq ha, h]

end Core

namespace Bench

variable {G C : Type}

def account (b : Bench G C) : Account :=
  ⟨b.core.calls, b.core.allocations, b.guest.allocator, b.core.memory, b.deferred⟩

/-! ## What is left alone -/

/-- A guest that takes no steps of its own, and whose allocator always finds room. -/
structure Guest.Records (g : Guest C) : Prop where
  queue : g.interludes.queue = []
  allocations : g.allocations = []

/-- The benches differ in their cores, completions and allocators only. -/
structure Keeps (b b' : Bench G C) : Prop where
  owned : b'.owned = b.owned
  entered : b'.entered = b.entered
  images : b'.images = b.images
  tasks : b'.tasks = b.tasks
  guest : b'.guest = { b.guest with allocator := b'.guest.allocator }

namespace Keeps

variable {b b' b'' : Bench G C}

theorem refl (b : Bench G C) : Keeps b b := ⟨rfl, rfl, rfl, rfl, rfl⟩

theorem trans (h : Keeps b b') (h' : Keeps b' b'') : Keeps b b'' where
  owned := h'.owned.trans h.owned
  entered := h'.entered.trans h.entered
  images := h'.images.trans h.images
  tasks := h'.tasks.trans h.tasks
  guest := by rw [h'.guest, h.guest]

theorem records (h : Keeps b b') (hg : b.guest.Records) : b'.guest.Records := by
  rw [h.guest]
  exact ⟨hg.queue, hg.allocations⟩

theorem isAlive (h : Keeps b b') : b'.isAlive = b.isAlive := by
  unfold Bench.isAlive
  rw [h.owned, h.entered]

theorem result? (h : Keeps b b') (t : Task) : b'.result? t = b.result? t := by
  unfold Bench.result?
  rw [h.images]

end Keeps

/-! ## The allocator -/

section

variable {inner : Performer G C} {b : Bench G C}

/-- The bench after room has been allocated. -/
def allot (len : UInt32) (b : Bench G C) : Bench G C := ((b.note (.alloc len)).allocate len).2

theorem account_allot (len : UInt32) (b : Bench G C) :
    (b.allot len).account = b.account.allot len := by
  have hc : (b.allot len).core.calls = b.core.calls :=
    (b.core.calls_note (.alloc len)).trans (List.append_nil _)
  have ha : (b.allot len).core.allocations = b.core.allocations ++ [len] :=
    b.core.allocations_note (.alloc len)
  unfold account
  rw [hc, ha]
  rfl

theorem keeps_allot (len : UInt32) (b : Bench G C) : Keeps b (b.allot len) :=
  ⟨rfl, rfl, rfl, rfl, rfl⟩

theorem alloc_of_records (hg : b.guest.Records) (len : UInt32) :
    alloc inner len b =
      (.ok (b.guest.allocator.allocate len b.core.memory).1, b.allot len) := by
  have hi : interlude inner allocatorExport (b.note (.alloc len)) = b.note (.alloc len) :=
    interlude_eq_self (b := b.note (.alloc len)) hg.queue _
  have ha : (b.note (.alloc len)).guest.allocations = [] := hg.allocations
  rw [alloc_eq, hi]
  unfold grant
  rw [ha]
  rfl

theorem account_note {e : Event} (hc : e.call? = none) (ha : e.alloc? = none) (b : Bench G C) :
    (b.note e).account = b.account := by
  have hcalls : (b.note e).core.calls = b.core.calls :=
    (b.core.calls_note e).trans (by rw [hc]; exact List.append_nil _)
  have hallocations : (b.note e).core.allocations = b.core.allocations :=
    (b.core.allocations_note e).trans (by rw [ha]; exact List.append_nil _)
  unfold account
  rw [hcalls, hallocations]
  rfl

theorem account_log (level : Log.Level) (target text : String) (b : Bench G C) :
    ((platform inner).log level target text b).account = b.account :=
  account_note (e := .log ⟨level, target, text⟩) rfl rfl b

theorem keeps_log (level : Log.Level) (target text : String) (b : Bench G C) :
    Keeps b ((platform inner).log level target text b) :=
  ⟨rfl, rfl, rfl, rfl, rfl⟩

theorem account_defer (c : Completion) (b : Bench G C) :
    (b.defer c).account = { b.account with deferred := b.deferred ++ [c] } :=
  congrArg (fun a : Account => { a with deferred := b.deferred ++ [c] })
    (account_note (e := .defer) rfl rfl b)

/-! ## Loads -/

/-- The image that a task has to copy, if its load has come back and brings one. -/
def image? (b : Bench G C) (t : Task) : Option DecodedImage :=
  match b.result? t with
  | some (.ok image) =>
    if (ending? b.core.bridge t.fetch.id (.ok image)).isNone then some image else none
  | _ => none

theorem image?_of_ending {t : Task} {result : Except FetchError DecodedImage} {why : Ending}
    (hr : b.result? t = some result) (he : ending? b.core.bridge t.fetch.id result = some why) :
    b.image? t = none := by
  unfold image?
  rw [hr]
  cases result with
  | error e => rfl
  | ok image => simp [he]

theorem image?_of_image {t : Task} {image : DecodedImage} (hr : b.result? t = some (.ok image))
    (he : ending? b.core.bridge t.fetch.id (.ok image) = none) : b.image? t = some image := by
  unfold image?
  rw [hr]
  simp [he]

theorem length_lt_of_image? {t : Task} {image : DecodedImage} (h : b.image? t = some image) :
    image.pixels.length < UInt32.size := by
  unfold image? at h
  split at h
  · split at h
    · rename_i he
      cases h
      obtain ⟨-, -, -, hl⟩ := ending_eq_none (Option.isNone_iff_eq_none.1 he)
      unfold Store.guestLen at hl
      split at hl
      · assumption
      · cases hl
    · cases h
  · cases h

/-- What becomes of the bench when a load is taken up. -/
structure TakesUp (b : Bench G C) (t : Task) (b' : Bench G C) : Prop extends Keeps b b' where
  bridge : b'.core.bridge = b.core.bridge.settle t.fetch.id
  account : b'.account = (b.image? t).elim b.account (b.account.copy t.fetch)

variable (inner) in
/-- The guest grants the room for a copy, and the copy is made if the bytes fit there. -/
theorem copyToGuest_of_records (hg : b.guest.Records) (ha : b.core.bridge.attached = true)
    {bytes : List UInt8} {len : UInt32} (he : bytes.isEmpty = false)
    (hl : Store.guestLen bytes = .ok len) :
    (platform inner).copyToGuest bytes b =
      match (b.allot len).core.memory.writeBatch [.bytes (b.account.pointer len) bytes] with
      | .ok memory =>
        (.ok (.copied (b.account.pointer len) len), { b.allot len with core.memory := memory })
      | .error e => (.error (.memory e), b.allot len) := by
  have hptr : (b.guest.allocator.allocate len b.core.memory).1 = b.account.pointer len := rfl
  have ha' : (b.allot len).core.bridge.attached = true := ha
  rw [copyToGuest_eq inner ha he hl, alloc_of_records hg, hptr]
  cases hw : (b.allot len).core.memory.writeBatch [.bytes (b.account.pointer len) bytes] with
  | ok memory => simp only [Core.store_of_ok ha' hw]
  | error e => simp only [Core.store_of_error ha' hw]

variable (inner) in
/-- The copy of an image is made or fails. -/
theorem copyImage_of_records (hg : b.guest.Records) (ha : b.core.bridge.attached = true)
    (fetch : Accepted) {image : DecodedImage} (he : image.pixels.isEmpty = false)
    (hl : Store.guestLen image.pixels = .ok (.ofNat image.pixels.length)) :
    Keeps b ((platform inner).copyImage fetch image b) ∧
      ((platform inner).copyImage fetch image b).core.bridge = b.core.bridge ∧
      ((platform inner).copyImage fetch image b).account = b.account.copy fetch image := by
  let len := UInt32.ofNat image.pixels.length
  let ptr := b.account.pointer len
  have hallot : (b.allot len).account = b.account.allot len := account_allot len b
  have hmemory : (b.allot len).core.memory = (b.account.allot len).memory :=
    congrArg Account.memory hallot
  have hcopy := copyToGuest_of_records inner hg ha he hl
  unfold Platform.copyImage
  cases hw : (b.allot len).core.memory.writeBatch [.bytes ptr image.pixels] with
  | ok memory =>
    rw [hw] at hcopy
    rw [hcopy]
    refine ⟨(keeps_allot len b).trans ⟨rfl, rfl, rfl, rfl, rfl⟩, rfl, ?_⟩
    rw [Account.copy_of_ok (hmemory ▸ hw), ← hallot]
    exact account_defer (completion fetch image ptr) _
  | error e =>
    rw [hw] at hcopy
    rw [hcopy, Account.copy_of_error (hmemory ▸ hw)]
    exact ⟨(keeps_allot len b).trans (keeps_log _ _ _ _), rfl, (account_log _ _ _ _).trans hallot⟩

variable (inner) in
theorem takeUp_of_records (hg : b.guest.Records) (hl : b.isAlive = true) {t : Task}
    {result : Except FetchError DecodedImage} (hr : b.result? t = some result) :
    TakesUp b t (takeUp inner t result b) := by
  let settled := b.withBridge (·.settle t.fetch.id)
  have hk : Keeps b settled := ⟨rfl, rfl, rfl, rfl, rfl⟩
  rw [takeUp, if_pos hl]
  cases he : ending? b.core.bridge t.fetch.id result with
  | some why =>
    obtain ⟨level, target, text, hc⟩ := complete_of_ending inner he
    rw [hc]
    refine ⟨hk.trans (keeps_log level target text settled), rfl, ?_⟩
    rw [image?_of_ending hr he]
    exact account_log level target text settled
  | none =>
    obtain ⟨image, rfl⟩ : ∃ image, result = .ok image := by
      cases result with
      | ok image => exact ⟨image, rfl⟩
      | error e =>
        unfold ending? at he
        split at he <;> cases he
    obtain ⟨hn, ha, hne, hlen⟩ := ending_eq_none he
    have hc : (platform inner).complete t.fetch (.ok image) b =
        (platform inner).copyImage t.fetch image settled := by
      rw [complete_eq]
      simp only [hn]
      rfl
    obtain ⟨hkeeps, hbridge, haccount⟩ :=
      copyImage_of_records inner (b := settled) hg ha t.fetch hne hlen
    rw [hc]
    refine ⟨hk.trans hkeeps, hbridge, ?_⟩
    rw [image?_of_image hr he]
    exact haccount

/-- Below the end of the address space, a load that is taken up leaves a completion if it brings an
image. -/
theorem TakesUp.deferred_eq {t : Task} {b' : Bench G C} (h : TakesUp b t b')
    (hn : b'.guest.allocator.next < UInt32.size) :
    ∃ ptr, b'.deferred = b.deferred ++ ((b.image? t).map (completion t.fetch · ptr)).toList := by
  have hdeferred : b'.deferred = b'.account.deferred := rfl
  have hnext : b'.account.allocator.next < UInt32.size := hn
  rw [h.account] at hnext
  rw [hdeferred, h.account]
  cases hi : b.image? t with
  | none => exact ⟨0, (List.append_nil _).symm⟩
  | some image =>
    rw [hi] at hnext
    refine ⟨b.account.pointer (.ofNat image.pixels.length), ?_⟩
    show (b.account.copy t.fetch image).deferred = _
    rw [Account.copy_eq (length_lt_of_image? hi) hnext]
    rfl

theorem TakesUp.next_le {t : Task} {b' : Bench G C} (h : TakesUp b t b') :
    b.guest.allocator.next ≤ b'.guest.allocator.next := by
  have hnext : b'.guest.allocator = b'.account.allocator := rfl
  rw [hnext, h.account]
  cases b.image? t with
  | none => exact Nat.le_refl _
  | some image => exact b.account.next_le_copy t.fetch image

/-! ## Completions -/

/-- What becomes of the bench when a completion is dealt with. -/
structure Handles (b : Bench G C) (c : Completion) (b' : Bench G C) : Prop extends Keeps b b' where
  bridge : b'.core.bridge = b.core.bridge
  account : b'.account = if (omission? b c).isNone then b.account.call c.entry else b.account

/-- Dealing with a completion asks the allocator for nothing, and leaves nothing to be run. -/
theorem Handles.unspent {c : Completion} {b' : Bench G C} (h : Handles b c b') :
    b'.deferred = b.deferred ∧ b'.guest.allocator = b.guest.allocator := by
  have ha := h.account
  split at ha
  · exact ⟨congrArg Account.deferred ha, congrArg Account.allocator ha⟩
  · exact ⟨congrArg Account.deferred ha, congrArg Account.allocator ha⟩

theorem call_of_records (hg : b.guest.Records) (entry : EntryPoint) :
    call inner entry b =
      ((b.guest.fault? entry.exportName).elim (.ok ()) .error, b.note (.call entry)) := by
  have hi : interlude inner entry.exportName (b.note (.call entry)) = b.note (.call entry) :=
    interlude_eq_self (b := b.note (.call entry)) hg.queue _
  unfold call
  rw [hi]
  cases hf : b.guest.fault? entry.exportName with
  | none => simp [note, hf]
  | some e => simp [note, hf]

theorem account_call (entry : EntryPoint) (b : Bench G C) :
    (b.note (.call entry)).account = b.account.call entry := by
  have hc : (b.note (.call entry)).core.calls = b.core.calls ++ [entry] :=
    b.core.calls_note (.call entry)
  have ha : (b.note (.call entry)).core.allocations = b.core.allocations :=
    (b.core.allocations_note (.call entry)).trans (List.append_nil _)
  unfold account
  rw [hc, ha]
  rfl

/-- The way from a call to the completion that it belongs to is a line in the log at most. -/
theorem Handles.of_callGuest {c : Completion} {b₁ : Bench G C} (hk : Keeps b b₁)
    (hb : b₁.core.bridge = b.core.bridge)
    (ha : b₁.account = if (omission? b c).isNone then b.account.call c.entry else b.account)
    (hc : b.core.bridge.isCancelled c.request = false)
    (h : ((platform inner).callGuest c.entry b).2 = b₁) :
    Handles b c ((platform inner).deliver c b) := by
  rcases deliver_of_callGuest inner hc h with hd | ⟨level, target, text, hd⟩
  · rw [hd]
    exact ⟨hk, hb, ha⟩
  · rw [hd]
    exact ⟨hk.trans (keeps_log level target text b₁), hb,
      (account_log level target text b₁).trans ha⟩

variable (inner) in
theorem handle_of_records (hg : b.guest.Records) (c : Completion) :
    Handles b c (handle inner c b) := by
  unfold handle
  by_cases hl : b.isAlive = true
  · rw [if_pos hl]
    cases ho : omission? b c with
    | none =>
      obtain ⟨-, hc, hp, ha⟩ := omission_eq_none ho
      have hk : Keeps b (b.note (.call c.entry)) := ⟨rfl, rfl, rfl, rfl, rfl⟩
      refine .of_callGuest hk rfl ?_ hc ?_
      · rw [ho]
        exact account_call c.entry b
      · rw [callGuest_eq, if_neg (by simp [hp]), if_neg (by simp [ha])]
        exact congrArg Prod.snd (call_of_records hg c.entry)
    | some why =>
      have haccount : b.account =
          if (omission? b c).isNone then b.account.call c.entry else b.account := by
        rw [ho]
        rfl
      by_cases hc : b.core.bridge.isCancelled c.request = true
      · rw [deliver_of_isCancelled hc]
        exact ⟨.refl b, rfl, haccount⟩
      · exact .of_callGuest (.refl b) rfl haccount (by simpa using hc)
          (callGuest_of_omission hl hc ho)
  · rw [if_neg hl]
    have ho : omission? b c = some .gone := if_pos (by simpa using hl)
    exact ⟨.refl b, rfl, by rw [ho]; rfl⟩

/-! ## The queues -/

variable (inner) in
/-- Takes up a load if it has come back. -/
def resume (b : Bench G C) (t : Task) : Bench G C :=
  match b.result? t with
  | some result => takeUp inner t result b
  | none => b

theorem resume_of_none {t : Task} (h : b.result? t = none) : resume inner b t = b := by
  unfold resume
  rw [h]

theorem resume_of_some {t : Task} {result : Except FetchError DecodedImage}
    (h : b.result? t = some result) : resume inner b t = takeUp inner t result b := by
  unfold resume
  rw [h]

variable (inner) in
theorem keeps_resume (hg : b.guest.Records) (t : Task) : Keeps b (resume inner b t) := by
  cases hr : b.result? t with
  | none => rw [resume_of_none hr]; exact .refl b
  | some result =>
    rw [resume_of_some hr]
    by_cases hl : b.isAlive = true
    · exact (takeUp_of_records inner hg hl hr).toKeeps
    · rw [takeUp, if_neg hl]
      exact .refl b

variable (inner) in
theorem keeps_foldl_resume (hg : b.guest.Records) (ts : List Task) :
    Keeps b (ts.foldl (resume inner) b) := by
  induction ts generalizing b with
  | nil => exact .refl b
  | cons t rest ih =>
    have hk := keeps_resume inner hg t
    exact hk.trans (ih (hk.records hg))

variable (inner) in
/-- Polling takes up the loads that have come back, in order, and no others. -/
theorem pollEach_of_records (hg : b.guest.Records) (ts : List Task) :
    pollEach inner ts b = (ts.filter fun t => (b.result? t).isNone,
      ts.any fun t => (b.result? t).isSome, ts.foldl (resume inner) b) := by
  induction ts generalizing b with
  | nil => rfl
  | cons t rest ih =>
    rw [List.foldl_cons]
    cases hr : b.result? t with
    | none =>
      rw [pollEach_cons_of_none hr, ih hg, resume_of_none hr]
      simp [hr]
    | some result =>
      have hk := keeps_resume inner hg t
      rw [resume_of_some hr] at hk
      rw [pollEach_cons_of_some hr, ih (hk.records hg), resume_of_some hr]
      simp [hr, hk.result?]

variable (inner) in
/-- The bench after every load that has come back has been taken up. -/
def resumeAll (b : Bench G C) : Bench G C :=
  { b.tasks.foldl (resume inner) { b with tasks := [] } with
    tasks := b.tasks.filter fun t => (b.result? t).isNone }

variable (inner) in
theorem poll_of_records (hg : b.guest.Records) :
    poll inner b = (b.tasks.any fun t => (b.result? t).isSome, resumeAll inner b) := by
  have hp := pollEach_of_records inner (b := { b with tasks := [] }) hg b.tasks
  have htasks := (keeps_foldl_resume inner (b := { b with tasks := [] }) hg
    b.tasks).tasks
  unfold poll
  rw [hp]
  simp only [htasks, List.append_nil]
  rfl

variable (inner) in
theorem resumeAll_images (hg : b.guest.Records) : (resumeAll inner b).images = b.images :=
  (keeps_foldl_resume inner (b := { b with tasks := [] }) hg b.tasks).images

variable (inner) in
theorem resumeAll_waits (hg : b.guest.Records) : (resumeAll inner b).Waits := by
  intro t ht
  have hr : (resumeAll inner b).result? t = b.result? t := by
    unfold result?
    rw [resumeAll_images inner hg]
  rw [hr]
  simpa using (List.mem_filter.1 ht).2

variable (inner) in
theorem runTasks_of_records (hg : b.guest.Records) :
    runTasks inner b = resumeAll inner b ∧ PollsTo inner b (resumeAll inner b) := by
  have hp := poll_of_records inner hg
  have hwaits := resumeAll_waits inner hg
  cases he : b.tasks.any fun t => (b.result? t).isSome with
  | false =>
    rw [he] at hp
    have hl : PollsTo inner b (poll inner b).2 := .last (congrArg Prod.fst hp)
    rw [hp] at hl
    refine ⟨?_, hl⟩
    unfold runTasks
    rw [runTasksFor_succ, hp]
    rfl
  | true =>
    rw [he] at hp
    have hl : PollsTo inner (poll inner b).2 (resumeAll inner b) := by
      rw [hp]
      exact .of_waits hwaits
    refine ⟨?_, .again (congrArg Prod.fst hp) hl⟩
    obtain ⟨k, hk⟩ : ∃ k, b.work = k + 1 := by
      obtain ⟨t, ht, -⟩ := List.any_eq_true.1 he
      have := List.length_pos_of_mem ht
      exact ⟨b.work - 1, by unfold work; omega⟩
    unfold runTasks
    rw [runTasksFor_succ, hp, hk]
    show runTasksFor inner (k + 1) (resumeAll inner b) = _
    rw [runTasksFor_succ, poll_of_waits inner hwaits]
    rfl

variable (inner) in
theorem keeps_handle (hg : b.guest.Records) (c : Completion) (rest : List Completion) :
    Keeps b (handle inner c { b with deferred := rest }) ∧
      (handle inner c { b with deferred := rest }).deferred = rest := by
  have hh := handle_of_records inner (b := { b with deferred := rest }) hg c
  have hk : Keeps b ({ b with deferred := rest } : Bench G C) := ⟨rfl, rfl, rfl, rfl, rfl⟩
  exact ⟨hk.trans hh.toKeeps, hh.unspent.1⟩

theorem DeliversTo.keeps {b' : Bench G C} (h : DeliversTo inner b b') (hg : b.guest.Records) :
    Keeps b b' ∧ b'.deferred = [] := by
  induction h with
  | empty hd => exact ⟨.refl _, hd⟩
  | next hd next ih =>
    obtain ⟨hk, -⟩ := keeps_handle inner hg _ _
    obtain ⟨hk', hd'⟩ := ih (hk.records hg)
    exact ⟨hk.trans hk', hd'⟩

theorem runDeferredFor_of_records (hg : b.guest.Records) {n : Nat} (hn : b.deferred.length < n) :
    DeliversTo inner b (runDeferredFor inner n b) := by
  induction n generalizing b with
  | zero => cases hn
  | succ n ih =>
    cases hd : b.deferred with
    | nil =>
      rw [runDeferredFor_succ_of_nil hd]
      exact .empty hd
    | cons c rest =>
      obtain ⟨hk, hrest⟩ := keeps_handle inner hg c rest
      rw [runDeferredFor_succ_of_cons hd]
      refine .next hd (ih (hk.records hg) ?_)
      rw [hrest]
      rw [hd] at hn
      exact Nat.lt_of_succ_lt_succ hn

variable (inner) in
theorem runDeferred_of_records (hg : b.guest.Records) :
    DeliversTo inner b (runDeferred inner b) :=
  runDeferredFor_of_records hg (by unfold work; omega)

variable (inner) in
/-- Once the tasks have been polled and the completions run, no load is back and no completion is
left. -/
theorem settled_of_records (hg : b.guest.Records) :
    (runDeferred inner (runTasks inner b)).Waits ∧
      (runDeferred inner (runTasks inner b)).deferred = [] := by
  have hk : Keeps ({ b with tasks := [] } : Bench G C) _ :=
    keeps_foldl_resume inner (b := { b with tasks := [] }) hg b.tasks
  have hg₁ : (resumeAll inner b).guest.Records := hk.records hg
  obtain ⟨hk₂, hd₂⟩ := (runDeferred_of_records inner hg₁).keeps hg₁
  rw [(runTasks_of_records inner hg).1]
  refine ⟨fun t ht => ?_, hd₂⟩
  rw [hk₂.result?]
  exact resumeAll_waits inner hg t (hk₂.tasks ▸ ht)

variable (inner) in
theorem runAll_of_records (hg : b.guest.Records) :
    PumpsTo inner b (runAll inner b) ∧
      runAll inner b = runDeferred inner (runTasks inner b) := by
  obtain ⟨htasks, hpolls⟩ := runTasks_of_records inner hg
  obtain ⟨hwaits, hd₂⟩ := settled_of_records inner hg
  rw [htasks] at hwaits hd₂
  have hk : Keeps ({ b with tasks := [] } : Bench G C) _ :=
    keeps_foldl_resume inner (b := { b with tasks := [] }) hg b.tasks
  have hg₁ : (resumeAll inner b).guest.Records := hk.records hg
  unfold runAll
  rw [runAllFor]
  simp only [htasks]
  cases hd : (resumeAll inner b).deferred with
  | nil =>
    have hrun : runDeferred inner (resumeAll inner b) = resumeAll inner b :=
      runDeferredFor_succ_of_nil hd _
    rw [hrun]
    exact ⟨.last hpolls hd, rfl⟩
  | cons c rest =>
    obtain ⟨k, hwork⟩ : ∃ k, b.work = k + 1 := by
      refine Nat.exists_eq_succ_of_ne_zero fun hzero => ?_
      have ht : b.tasks = [] := List.length_eq_zero_iff.1 (by unfold work at hzero; omega)
      have hd₀ : b.deferred = [] := List.length_eq_zero_iff.1 (by unfold work at hzero; omega)
      have hnone : (resumeAll inner b).deferred = [] := by
        unfold resumeAll
        rw [ht]
        exact hd₀
      rw [hnone] at hd
      cases hd
    have hlast : runAllFor inner (k + 1) (runDeferred inner (resumeAll inner b)) =
        runDeferred inner (resumeAll inner b) := by
      rw [runAllFor]
      simp only [runTasks_of_waits hwaits, hd₂]
      rfl
    rw [hwork]
    simp only [List.isEmpty_cons, Bool.false_eq_true, if_false, hlast]
    exact ⟨.again hpolls (by rw [hd]; exact List.cons_ne_nil c rest)
      (runDeferred_of_records inner hg₁) (.last (.of_waits hwaits) hd₂), trivial⟩

end

end Bench

end GuestBridge
