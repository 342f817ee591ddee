import GuestBridge.Proofs.Bench.Deferral
import GuestBridge.Proofs.Bench.Layout
import GuestBridge.Proofs.Bench.Recording

/-!
# Copies into a recording guest

What the operations of a bridge and the queues copy into a guest that only records.
`Lays copies b b'` says that the way from `b` to `b'` makes these copies, one after another and
nothing else, as long as they stay below the end of the address space. A direct copy is then made
and its region answered (`copyToGuest_of_room`), and so is the copy of a load that comes back with
an image (`TakesUp.lays`). Calls and completions copy nothing.
-/

set_option autoImplicit false

namespace GuestBridge.Bench

variable {G C : Type}

/-! ## Ways that make copies -/

section

variable {inner : Performer G C} {b b' b'' : Bench G C} {copies more : List Copy}

/-- If there is room for them, the way from one bench to another makes the copies, and the guest
still only records. -/
def Lays (copies : List Copy) (b b' : Bench G C) : Prop :=
  layoutEnd b.guest.allocator.next copies < UInt32.size →
    b'.guest.Records ∧ Account.Laid copies [] b.account b'.account

namespace Lays

theorem trans (h : Lays copies b b') (h' : b'.guest.Records → Lays more b' b'') :
    Lays (copies ++ more) b b'' := by
  intro hn
  obtain ⟨hg, hlaid⟩ := h (Nat.lt_of_le_of_lt (layoutEnd_le_append ..) hn)
  have hnext : b'.guest.allocator.next = layoutEnd b.guest.allocator.next copies := hlaid.next
  rw [layoutEnd_append, ← hnext] at hn
  obtain ⟨hg', hlaid'⟩ := h' hg hn
  exact ⟨hg', hlaid.trans hlaid'⟩

theorem trans_nil (h : Lays copies b b') (h' : b'.guest.Records → Lays [] b' b'') :
    Lays copies b b'' := by
  simpa using h.trans h'

/-- Nothing is copied, the memory is not touched, and the queue of completions is left alone. -/
theorem of_calls (hg : b'.guest.Records) (calls : List EntryPoint)
    (h : b'.account = { b.account with calls }) : Lays [] b b' :=
  fun _ => ⟨hg, .of_calls calls h⟩

theorem refl (hg : b.guest.Records) : Lays [] b b := .of_calls hg b.core.calls rfl

theorem of_sparesGuest (hg : b.guest.Records) (h : SparesGuest b b')
    (hm : b'.core.memory = b.core.memory) : Lays [] b b' := by
  have hallocations : b'.core.allocations = b.core.allocations := by
    rw [Core.allocations_eq, Core.allocations_eq, h.entries]
  refine .of_calls (h.guest ▸ hg) b'.core.calls ?_
  unfold account
  rw [hallocations, h.guest, hm, h.deferred]

end Lays

/-! ## Direct copies -/

/-- Where the next copy goes. -/
def nextRegion (b : Bench G C) (c : Copy) : Region :=
  ⟨roundUp allocationAlign b.guest.allocator.next, c⟩

theorem layoutEnd_eq_stop {c : Copy} (hc : c.bytes.isEmpty = false) :
    layoutEnd b.guest.allocator.next [c] = (b.nextRegion c).stop :=
  layoutEnd_cons hc []

/-- The bench after bytes have been copied to where the next allocation goes. -/
def fill (bytes : List UInt8) (b : Bench G C) : Bench G C :=
  { b.allot (.ofNat bytes.length) with core.memory := (b.account.fill bytes).memory }

theorem account_fill (bytes : List UInt8) (b : Bench G C) :
    (b.fill bytes).account = b.account.fill bytes :=
  congrArg (fun a : Account => { a with memory := (b.account.fill bytes).memory })
    (account_allot (.ofNat bytes.length) b)

variable (inner) in
/-- Below the end of the address space, a copy is made. -/
theorem copyToGuest_of_room (hg : b.guest.Records) (ha : b.core.bridge.attached = true)
    {bytes : List UInt8} (he : bytes.isEmpty = false)
    (hn : (b.nextRegion (.plain bytes)).stop < UInt32.size) :
    (platform inner).copyToGuest bytes b =
      (.ok (.copied (b.nextRegion (.plain bytes)).ptr (b.nextRegion (.plain bytes)).len),
        b.fill bytes) := by
  have hlen : bytes.length < UInt32.size := Nat.lt_of_le_of_lt (Nat.le_add_left ..) hn
  have hmemory : (b.allot (.ofNat bytes.length)).core.memory =
      (b.account.allot (.ofNat bytes.length)).memory :=
    congrArg Account.memory (account_allot _ b)
  have hwrite : (b.account.allot (.ofNat bytes.length)).memory.writeBatch
      [.bytes (b.account.pointer (.ofNat bytes.length)) bytes] =
        .ok (b.account.fill bytes).memory := Account.writeBatch_allot hn
  rw [copyToGuest_of_records inner hg ha he (if_pos hlen), hmemory, hwrite]
  rfl

theorem fill_lays (hg : b.guest.Records) {bytes : List UInt8} (he : bytes.isEmpty = false) :
    Lays [.plain bytes] b (b.fill bytes) := by
  have hplace : b.account.place (.plain bytes) =
      { b.account.fill bytes with deferred := b.deferred ++ [] } :=
    if_neg (by simp [Copy.bytes, he])
  intro hn
  have hlaid := Account.laid_place (a := b.account) hn
  rw [hplace, List.append_nil] at hlaid
  rw [account_fill]
  exact ⟨(keeps_allot _ b).records hg, hlaid⟩

theorem lays_of_isEmpty (hg : b.guest.Records) {bytes : List UInt8} (he : bytes.isEmpty = true) :
    Lays [.plain bytes] b b :=
  fun _ => ⟨hg, .of_isEmpty he⟩

variable (inner) in
theorem copyToGuest_lays (hg : b.guest.Records) (ha : b.core.bridge.attached = true)
    (bytes : List UInt8) : Lays [.plain bytes] b ((platform inner).copyToGuest bytes b).2 := by
  intro hn
  cases he : bytes.isEmpty with
  | true =>
    obtain ⟨r, hr, -⟩ := copyToGuest_of_not inner (b := b) (.inr (.inl he))
    rw [hr]
    exact lays_of_isEmpty hg he hn
  | false =>
    rw [copyToGuest_of_room inner hg ha he (layoutEnd_eq_stop (c := .plain bytes) he ▸ hn)]
    exact fill_lays hg he hn

/-! ## Calls -/

theorem note_lays (hg : b.guest.Records) (entry : EntryPoint) : Lays [] b (b.note (.call entry)) :=
  .of_calls hg _ (account_call entry b)

variable (inner) in
theorem callGuest_lays (hg : b.guest.Records) (entry : EntryPoint) :
    Lays [] b ((platform inner).callGuest entry b).2 := by
  rw [callGuest_eq]
  split
  · exact .refl hg
  · split
    · exact .refl hg
    · rw [call_of_records hg]
      exact note_lays hg entry

variable (inner) in
theorem callGuest_of_records (hg : b.guest.Records) (ha : b.core.bridge.attached = true)
    {entry : EntryPoint} (hp : b.core.bridge.admits entry = true) :
    (platform inner).callGuest entry b =
      ((b.guest.fault? entry.exportName).elim (.ok ()) fun e => .error (.guest e),
        b.note (.call entry)) := by
  rw [callGuest_eq, if_neg (by simp [hp]), if_neg (by simp [ha]), call_of_records hg]
  cases b.guest.fault? entry.exportName <;> rfl

variable (inner) in
theorem log_lays (hg : b.guest.Records) (level : Log.Level) (target text : String) :
    Lays [] b ((platform inner).log level target text b) :=
  .of_calls hg b.core.calls (account_log level target text b)

theorem withBridge_lays (hg : b.guest.Records) (f : Bridge → Bridge) : Lays [] b (b.withBridge f) :=
  .of_calls hg b.core.calls rfl

variable (inner) in
theorem init_lays (hg : b.guest.Records) (width height : UInt32) :
    Lays [] b ((platform inner).init width height b).2 := by
  by_cases hp : b.core.bridge.phase = .running
  · rw [init_of_running hp]
    exact .refl hg
  · have hcall := callGuest_lays inner hg (.init width height)
    rcases hr : (platform inner).callGuest (.init width height) b with ⟨e | ⟨⟩, b'⟩
    · rw [init_of_error hp hr]
      rwa [hr] at hcall
    · rw [init_of_ok hp hr]
      rw [hr] at hcall
      refine hcall.trans_nil fun hg' => ?_
      exact (withBridge_lays hg' fun bridge => { bridge with phase := .running }).trans_nil
        fun hg'' => log_lays inner hg'' _ _ _

variable (inner) in
theorem animationFrame_lays (hg : b.guest.Records) (timestamp : Ieee.Double) :
    Lays [] b ((platform inner).animationFrame timestamp b).2 := by
  by_cases hp : b.core.bridge.phase = .running
  · cases hs : b.core.bridge.staleAfter? timestamp with
    | some last =>
      rw [animationFrame_of_stale hp hs]
      exact log_lays inner hg _ _ _
    | none =>
      have hframe : Lays [] b (b.withBridge fun bridge =>
          { bridge with lastFrame := some timestamp }) := withBridge_lays hg _
      rw [animationFrame_of_next hp hs rfl]
      exact hframe.trans_nil fun hg' => callGuest_lays inner hg' _
  · rw [animationFrame_of_idle hp]
    exact .refl hg

/-! ## Equations -/

variable (inner) in
theorem submitEquation_lays (hg : b.guest.Records) (ha : b.core.bridge.attached = true)
    (text : String) :
    Lays (if b.core.bridge.phase = .running then [.plain (Text.utf8 text)] else []) b
      ((platform inner).submitEquation text b).2 := by
  have hcopy := copyToGuest_lays inner hg ha (Text.utf8 text)
  by_cases hp : b.core.bridge.phase = .running
  · rw [if_pos hp]
    rcases hr : (platform inner).copyToGuest (Text.utf8 text) b with ⟨e | ⟨ptr, len⟩ | _, b'⟩
    · rw [submitEquation_of_error hp hr]
      rwa [hr] at hcopy
    · rw [submitEquation_of_copied hp hr rfl]
      rw [hr] at hcopy
      exact hcopy.trans_nil fun hg' => callGuest_lays inner hg' _
    · rw [submitEquation_of_empty hp hr]
      rw [hr] at hcopy
      exact hcopy.trans_nil fun hg' => log_lays inner hg' _ _ _
  · rw [if_neg hp, submitEquation_of_idle hp]
    exact .refl hg

variable (inner) in
/-- Below the end of the address space, an equation is copied and the guest is called with it. -/
theorem submitEquation_of_room (hg : b.guest.Records) (ha : b.core.bridge.attached = true)
    (hp : b.core.bridge.phase = .running) {text : String} (he : (Text.utf8 text).isEmpty = false)
    (hn : (b.nextRegion (.plain (Text.utf8 text))).stop < UInt32.size) :
    let r := b.nextRegion (.plain (Text.utf8 text))
    (platform inner).submitEquation text b =
      ((b.guest.fault? "onEquation").elim (.ok (.copied r.ptr r.len)) fun e => .error (.guest e),
        (b.fill (Text.utf8 text)).note (.call (.equation r.ptr r.len))) := by
  intro r
  have hcopy : (platform inner).copyToGuest (Text.utf8 text) b =
      (.ok (.copied r.ptr r.len), b.fill (Text.utf8 text)) := copyToGuest_of_room inner hg ha he hn
  have hg' : (b.fill (Text.utf8 text)).guest.Records := (keeps_allot _ b).records hg
  have hadmits : (b.fill (Text.utf8 text)).core.bridge.admits (.equation r.ptr r.len) = true := by
    show (decide (b.core.bridge.phase = .running) || false) = true
    simp [hp]
  have hcall : (platform inner).callGuest (.equation r.ptr r.len) (b.fill (Text.utf8 text)) =
      ((b.guest.fault? "onEquation").elim (.ok ()) fun e => .error (.guest e),
        (b.fill (Text.utf8 text)).note (.call (.equation r.ptr r.len))) :=
    callGuest_of_records inner hg' ha hadmits
  rw [submitEquation_of_copied hp hcopy hcall]
  cases b.guest.fault? "onEquation" <;> rfl

/-! ## Tasks -/

/-- What a task has to copy: the image that its load has come back with, unless its fetch is
cancelled. -/
def copy? (b : Bench G C) (t : Task) : Option Copy :=
  match b.result? t with
  | some (.ok image) =>
    if b.core.bridge.isCancelled t.fetch.id then none else some (.image t.fetch image)
  | _ => none

theorem copy?_of_image {t : Task} {image : DecodedImage} (hr : b.result? t = some (.ok image)) :
    b.copy? t =
      if b.core.bridge.isCancelled t.fetch.id then none else some (.image t.fetch image) := by
  unfold copy?
  rw [hr]

theorem copy?_eq_some {t : Task} {c : Copy} (h : b.copy? t = some c) :
    ∃ image, c = .image t.fetch image ∧ b.result? t = some (.ok image) ∧
      b.core.bridge.isCancelled t.fetch.id = false := by
  rcases hr : b.result? t with _ | e | image
  · simp [copy?, hr] at h
  · simp [copy?, hr] at h
  · rw [copy?_of_image hr] at h
    cases hc : b.core.bridge.isCancelled t.fetch.id with
    | true =>
      rw [hc] at h
      cases h
    | false =>
      rw [hc] at h
      cases h
      exact ⟨image, rfl, rfl, rfl⟩

/-- The image of a task that has one to copy can be copied if it has bytes, and not too many. -/
theorem image?_of_copy? {t : Task} {image : DecodedImage} (ha : b.core.bridge.attached = true)
    (h : b.copy? t = some (.image t.fetch image)) (hl : image.pixels.length < UInt32.size) :
    b.image? t = if image.pixels.isEmpty then none else some image := by
  obtain ⟨_, ⟨⟩, hr, hc⟩ := copy?_eq_some h
  cases he : image.pixels.isEmpty with
  | true => exact image?_of_ending hr (show _ = some .noBytes by simp [ending?, hc, ha, he])
  | false =>
    exact image?_of_image hr (by simp [ending?, hc, ha, he, Store.guestLen, hl])

theorem image?_of_copy?_eq_none {t : Task} (h : b.copy? t = none) : b.image? t = none := by
  rcases hr : b.result? t with _ | e | image
  · simp [image?, hr]
  · simp [image?, hr]
  · rw [copy?_of_image hr] at h
    cases hc : b.core.bridge.isCancelled t.fetch.id with
    | true => exact image?_of_ending hr (if_pos hc)
    | false =>
      rw [hc] at h
      cases h

theorem TakesUp.lays {t : Task} (h : TakesUp b t b') (hg : b.guest.Records)
    (ha : b.core.bridge.attached = true) : Lays (b.copy? t).toList b b' := by
  intro hn
  refine ⟨h.records hg, ?_⟩
  have haccount := h.account
  cases hc : b.copy? t with
  | none =>
    rw [image?_of_copy?_eq_none hc] at haccount
    exact .of_calls b.core.calls haccount
  | some c =>
    obtain ⟨image, rfl, -, -⟩ := copy?_eq_some hc
    rw [hc] at hn
    cases he : image.pixels.isEmpty with
    | true =>
      have hl : image.pixels.length < UInt32.size := by simp [List.isEmpty_iff.1 he]
      rw [image?_of_copy? ha hc hl, if_pos he] at haccount
      rw [haccount]
      exact .of_isEmpty he
    | false =>
      have hstop := hn
      rw [Option.toList_some, layoutEnd_eq_stop (c := .image t.fetch image) he] at hstop
      have hl : image.pixels.length < UInt32.size := Nat.lt_of_le_of_lt (Nat.le_add_left ..) hstop
      have hnext : (b.account.copy t.fetch image).allocator.next < UInt32.size := by
        rw [Account.allocator_copy, Account.next_allot, UInt32.toNat_ofNat_of_lt' hl]
        exact hstop
      have hplace : b.account.place (.image t.fetch image) = b.account.copy t.fetch image := by
        rw [Account.copy_eq hl hnext]
        exact if_neg (by simp [Copy.bytes, he])
      rw [image?_of_copy? ha hc hl, he] at haccount
      have hcopied : b'.account = b.account.copy t.fetch image := haccount
      rw [hcopied, ← hplace]
      exact Account.laid_place hn

variable (inner) in
/-- Taking up a load settles it at most, as far as the bridge is concerned. -/
theorem resume_bridge (hg : b.guest.Records) (t : Task) :
    ∃ pending, (resume inner b t).core.bridge = { b.core.bridge with pending } := by
  cases hr : b.result? t with
  | none =>
    rw [resume_of_none hr]
    exact ⟨_, rfl⟩
  | some result =>
    rw [resume_of_some hr]
    by_cases hl : b.isAlive = true
    · exact ⟨_, (takeUp_of_records inner hg hl hr).bridge⟩
    · rw [takeUp, if_neg hl]
      exact ⟨_, rfl⟩

variable (inner) in
theorem copy?_resume (hg : b.guest.Records) (t : Task) : (resume inner b t).copy? = b.copy? := by
  obtain ⟨pending, hbridge⟩ := resume_bridge inner hg t
  have hcancelled (id : Nat) : (resume inner b t).core.bridge.isCancelled id =
      b.core.bridge.isCancelled id := by
    rw [hbridge]
    rfl
  funext t'
  unfold copy?
  rw [(keeps_resume inner hg t).result?, hcancelled]

variable (inner) in
theorem resume_lays (hg : b.guest.Records) (ha : b.core.bridge.attached = true)
    (hl : b.isAlive = true) (t : Task) : Lays (b.copy? t).toList b (resume inner b t) := by
  cases hr : b.result? t with
  | none =>
    have hc : b.copy? t = none := by simp [copy?, hr]
    rw [resume_of_none hr, hc]
    exact .refl hg
  | some result =>
    rw [resume_of_some hr]
    exact (takeUp_of_records inner hg hl hr).lays hg ha

variable (inner) in
theorem foldl_resume_lays (hg : b.guest.Records) (ha : b.core.bridge.attached = true)
    (hl : b.isAlive = true) (ts : List Task) :
    Lays (ts.filterMap b.copy?) b (ts.foldl (resume inner) b) := by
  induction ts generalizing b with
  | nil => exact .refl hg
  | cons t rest ih =>
    have hcons : (t :: rest).filterMap b.copy? = (b.copy? t).toList ++ rest.filterMap b.copy? := by
      cases hc : b.copy? t <;> simp [hc]
    have ha' : (resume inner b t).core.bridge.attached = true := by
      obtain ⟨pending, hbridge⟩ := resume_bridge inner hg t
      rw [hbridge]
      exact ha
    have hl' : (resume inner b t).isAlive = true := (keeps_resume inner hg t).isAlive.trans hl
    rw [hcons, List.foldl_cons]
    refine (resume_lays inner hg ha hl t).trans fun hg' => ?_
    rw [← copy?_resume inner hg t]
    exact ih hg' ha' hl'

theorem foldl_resume_of_gone (hl : b.isAlive = false) (ts : List Task) :
    ts.foldl (resume inner) b = b := by
  have hresume (t : Task) : resume inner b t = b := by
    cases hr : b.result? t with
    | none => rw [resume_of_none hr]
    | some result => rw [resume_of_some hr, takeUp, if_neg (by simp [hl])]
  induction ts with
  | nil => rfl
  | cons t rest ih => rw [List.foldl_cons, hresume, ih]

/-- What polling the tasks has to copy. -/
def taskCopies (b : Bench G C) : List Copy :=
  if b.isAlive then b.tasks.filterMap b.copy? else []

variable (inner) in
theorem runTasks_lays (hg : b.guest.Records) (ha : b.core.bridge.attached = true) :
    Lays b.taskCopies b (runTasks inner b) := by
  have hfold : Lays b.taskCopies { b with tasks := [] }
      (b.tasks.foldl (resume inner) { b with tasks := [] }) := by
    unfold taskCopies
    cases hl : b.isAlive with
    | true => exact foldl_resume_lays inner (b := { b with tasks := [] }) hg ha hl b.tasks
    | false =>
      rw [foldl_resume_of_gone (b := { b with tasks := [] }) hl]
      exact .refl (b := { b with tasks := [] }) hg
  rw [(runTasks_of_records inner hg).1]
  exact fun hn => hfold hn

/-! ## Completions -/

theorem Handles.delivers {c : Completion} {rest : List Completion} (hd : b.deferred = c :: rest)
    (h : Handles { b with deferred := rest } c b') :
    ∃ told, Account.Delivers [c] told b.account b'.account := by
  have haccount := h.account
  split at haccount
  · refine ⟨[c], ?_, .refl _, ?_⟩ <;> rw [haccount]
    · exact hd
    · rfl
  · refine ⟨[], ?_, List.nil_sublist _, ?_⟩ <;> rw [haccount]
    · exact hd
    · rw [List.map_nil, List.append_nil]
      rfl

theorem DeliversTo.delivers (h : DeliversTo inner b b') (hg : b.guest.Records) :
    ∃ told, Account.Delivers b.deferred told b.account b'.account := by
  induction h with
  | empty hd =>
    rw [hd]
    exact ⟨[], .refl _⟩
  | next hd next ih =>
    rename_i b b' c rest
    have hhandle := handle_of_records inner (b := { b with deferred := rest }) hg c
    have hrest := (keeps_handle inner hg c rest).2
    obtain ⟨told, hdelivers⟩ := hhandle.delivers hd
    obtain ⟨told', hdelivers'⟩ := ih (hhandle.records hg)
    rw [hrest] at hdelivers'
    rw [hd]
    exact ⟨told ++ told', hdelivers.trans hdelivers'⟩

end

end GuestBridge.Bench
