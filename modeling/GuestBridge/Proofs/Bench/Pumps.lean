import GuestBridge.Proofs.Bench.Recording

/-!
# When the queues are pumped

On a guest that only records, it does not matter when the queues run. What the guest will have been
called with and asked for, once all loads that were started have been taken up and all completions
run, is the bench's `outlook`: a pump brings the bench closer to it and leaves it as it is, and a
fetch adds the same to it wherever it is made (`Kin`). The addresses of images are read from memory,
and stay there, since images are only ever copied to fresh allocations (`Account.Holds.copy`).
-/

set_option autoImplicit false

namespace GuestBridge.Bench

variable {G C : Type}

/-! ## Accounts -/

namespace Account

variable {a a' : Account} {fetch : Accepted} {image : DecodedImage} {text : List UInt8}

/-- The memory begins with a text that lies in what has been allocated. -/
structure Holds (text : List UInt8) (a : Account) : Prop where
  starts : a.memory.bytes.take text.length = text
  next : text.length ≤ a.allocator.next

theorem Holds.le_size (h : a.Holds text) : text.length ≤ a.memory.size := by
  have hl := congrArg List.length h.starts
  rw [List.length_take] at hl
  unfold Memory.size
  omega

/-- Below the end of the address space, images are copied to where nothing was before. -/
theorem Holds.copy (h : a.Holds text) (hl : image.pixels.length < UInt32.size)
    (hn : (a.copy fetch image).allocator.next < UInt32.size) :
    (a.copy fetch image).Holds text := by
  refine ⟨?_, Nat.le_trans h.next (a.next_le_copy fetch image)⟩
  rw [copy_eq hl hn]
  exact (take_fill hl h.next h.le_size).trans h.starts

end Account

/-! ## The outlook -/

/-- The account after a load has been taken up on a bench. -/
def take (s : Bench G C) (a : Account) (t : Task) : Account := (s.image? t).elim a (a.copy t.fetch)

/-- The account after all completions have been run on a bench. -/
def deliverAll (s : Bench G C) (a : Account) : Account :=
  { a with
    calls := a.calls ++
      (a.deferred.filter fun c => !s.core.bridge.isCancelled c.request).map (·.entry)
    deferred := [] }

/-- The account once all loads have been taken up and all completions run. -/
def outlook (s b : Bench G C) : Account := s.deliverAll (b.tasks.foldl s.take b.account)

variable {s a b : Bench G C}

theorem next_le_take (s : Bench G C) (x : Account) (t : Task) :
    x.allocator.next ≤ (s.take x t).allocator.next := by
  unfold take
  cases s.image? t with
  | none => exact Nat.le_refl _
  | some image => exact x.next_le_copy t.fetch image

theorem next_le_foldl_take (s : Bench G C) (ts : List Task) (x : Account) :
    x.allocator.next ≤ (ts.foldl s.take x).allocator.next := by
  induction ts generalizing x with
  | nil => exact Nat.le_refl _
  | cons t rest ih => exact Nat.le_trans (s.next_le_take x t) (ih _)

/-- Whether completions are run before or after an image is copied shows in nothing, once they all
have been run. -/
theorem deliverAll_take (s : Bench G C) (x : Account) (t : Task) :
    s.deliverAll (s.take (s.deliverAll x) t) = s.deliverAll (s.take x t) := by
  unfold take
  cases s.image? t with
  | none => simp [deliverAll]
  | some image =>
    have hallot (len : UInt32) : (s.deliverAll x).allot len = s.deliverAll (x.allot len) := rfl
    have hmemory (len : UInt32) : (s.deliverAll (x.allot len)).memory = (x.allot len).memory := rfl
    have hptr (len : UInt32) : (s.deliverAll x).pointer len = x.pointer len := rfl
    show s.deliverAll ((s.deliverAll x).copy t.fetch image) = s.deliverAll (x.copy t.fetch image)
    cases hw : (x.allot (.ofNat image.pixels.length)).memory.writeBatch
        [.bytes (x.pointer (.ofNat image.pixels.length)) image.pixels] with
    | ok memory =>
      rw [Account.copy_of_ok hw, Account.copy_of_ok (by rw [hallot, hmemory, hptr]; exact hw), hptr]
      simp [deliverAll, Account.allot]
    | error e =>
      rw [Account.copy_of_error hw, Account.copy_of_error (by rw [hallot, hmemory, hptr]; exact hw),
        hallot]
      simp [deliverAll]

theorem deliverAll_take_congr {x y : Account} (h : s.deliverAll x = s.deliverAll y) (t : Task) :
    s.deliverAll (s.take x t) = s.deliverAll (s.take y t) := by
  rw [← s.deliverAll_take x, h, s.deliverAll_take]

theorem deliverAll_foldl_take_congr {x y : Account} (h : s.deliverAll x = s.deliverAll y)
    (ts : List Task) : s.deliverAll (ts.foldl s.take x) = s.deliverAll (ts.foldl s.take y) := by
  induction ts generalizing x y with
  | nil => exact h
  | cons t rest ih => exact ih (deliverAll_take_congr h t)

theorem holds_take {text : List UInt8} {x : Account} (h : x.Holds text) {t : Task}
    (hn : (s.take x t).allocator.next < UInt32.size) : (s.take x t).Holds text := by
  unfold take at hn ⊢
  cases hi : s.image? t with
  | none => exact h
  | some image =>
    rw [hi] at hn
    exact h.copy (length_lt_of_image? hi) hn

theorem holds_foldl_take {text : List UInt8} {x : Account} (h : x.Holds text) {ts : List Task}
    (hn : (ts.foldl s.take x).allocator.next < UInt32.size) : (ts.foldl s.take x).Holds text := by
  induction ts generalizing x with
  | nil => exact h
  | cons t rest ih =>
    have hle := s.next_le_foldl_take rest (s.take x t)
    exact ih (holds_take h (Nat.lt_of_le_of_lt hle hn)) hn

/-! ## Benches on which fetches and pumps are made -/

/-- A bridge that runs, with a guest that only records and images whose loads come back at once. -/
structure Recording (b : Bench G C) : Prop where
  owned : b.owned = true
  running : b.core.bridge.phase = .running
  attached : b.core.bridge.attached = true
  guest : b.guest.Records
  images (url : String) : b.images.lookup url ≠ some .pending
  loads (t : Task) (ht : t ∈ b.tasks) : b.result? t ≠ none

/-- How much of the memory has been allocated. -/
def extent (b : Bench G C) : Nat := min b.guest.allocator.next b.core.memory.size

/-- The bytes that have been allocated. -/
def allotted (b : Bench G C) : List UInt8 := b.core.memory.bytes.take b.extent

theorem length_allotted (b : Bench G C) : b.allotted.length = b.extent := by
  unfold allotted
  rw [List.length_take]
  exact Nat.min_eq_left (Nat.min_le_right _ _)

theorem holds_allotted (b : Bench G C) : b.account.Holds b.allotted where
  starts := by rw [length_allotted]; rfl
  next := by rw [length_allotted]; exact Nat.min_le_left _ _

/-- The bench `b` has come from `s` by fetches and pumps. -/
structure Along (s b : Bench G C) : Prop extends b.Recording where
  images_eq : b.images = s.images
  cancelled (id : Nat) : b.core.bridge.isCancelled id = s.core.bridge.isCancelled id

theorem Recording.along (h : s.Recording) : Along s s := ⟨h, rfl, fun _ => rfl⟩

theorem ending?_congr {r r' : Bridge} {id : Nat} (hc : r.isCancelled id = r'.isCancelled id)
    (ha : r.attached = r'.attached) (result : Except FetchError DecodedImage) :
    ending? r id result = ending? r' id result := by
  unfold ending?
  rw [hc, ha]

namespace Along

theorem image?_eq (h : Along s b) (hs : s.Recording) (t : Task) : b.image? t = s.image? t := by
  have hr : b.result? t = s.result? t := by
    unfold result?
    rw [h.images_eq]
  unfold image?
  simp only [hr, ending?_congr (h.cancelled t.fetch.id) (h.attached.trans hs.attached.symm)]

theorem isAlive (h : Along s b) : b.isAlive = true := by
  simp [Bench.isAlive, h.owned]

/-- What leaves the bridge alone, but for the fetches that are pending. -/
theorem keeps {b' : Bench G C} (h : Along s b) (hk : Keeps b b')
    (hp : b'.core.bridge.phase = b.core.bridge.phase)
    (ha : b'.core.bridge.attached = b.core.bridge.attached)
    (hr : b'.core.bridge.requests = b.core.bridge.requests) : Along s b' where
  owned := hk.owned.trans h.owned
  running := hp.trans h.running
  attached := ha.trans h.attached
  guest := hk.records h.guest
  images url := by rw [hk.images]; exact h.images url
  loads t ht := by rw [hk.result?]; exact h.loads t (hk.tasks ▸ ht)
  images_eq := hk.images.trans h.images_eq
  cancelled id := by rw [← h.cancelled id, Bridge.isCancelled, hr, Bridge.isCancelled]

theorem withTasks (h : Along s b) : Along s { b with tasks := [] } :=
  ⟨⟨h.owned, h.running, h.attached, h.guest, h.images, nofun⟩, h.images_eq, h.cancelled⟩

/-! ## Loads -/

section

variable (inner : Performer G C) (hs : s.Recording)

include hs

theorem resume (h : Along s b) {t : Task} (hr : b.result? t ≠ none) :
    Along s (resume inner b t) ∧ (Bench.resume inner b t).account = s.take b.account t ∧
      (Bench.resume inner b t).core.bridge.requests = b.core.bridge.requests := by
  obtain ⟨result, hr⟩ := Option.ne_none_iff_exists'.1 hr
  have ht := takeUp_of_records inner h.guest h.isAlive hr
  have haccount : (takeUp inner t result b).account = s.take b.account t := by
    rw [ht.account, h.image?_eq hs]
    rfl
  rw [resume_of_some hr]
  refine ⟨h.keeps ht.toKeeps ?_ ?_ ?_, haccount, ?_⟩
  all_goals rw [ht.bridge]; rfl

theorem foldl_resume (h : Along s b) {ts : List Task} (hr : ∀ t ∈ ts, b.result? t ≠ none) :
    Along s (ts.foldl (Bench.resume inner) b) ∧
      (ts.foldl (Bench.resume inner) b).account = ts.foldl s.take b.account ∧
      (ts.foldl (Bench.resume inner) b).core.bridge.requests = b.core.bridge.requests := by
  induction ts generalizing b with
  | nil => exact ⟨h, rfl, rfl⟩
  | cons t rest ih =>
    obtain ⟨h₁, ha, hreq⟩ := h.resume inner hs (hr t (.head _))
    have hk := keeps_resume inner h.guest t
    obtain ⟨h₂, ha₂, hreq₂⟩ := ih h₁ fun t' ht' => by
      rw [hk.result?]
      exact hr t' (.tail _ ht')
    exact ⟨h₂, by rw [List.foldl_cons, ha₂, ha]; rfl, hreq₂.trans hreq⟩

end

end Along

/-- A pump brings a bench closer to its outlook. -/
structure Pumped (s b b' : Bench G C) : Prop where
  along : Along s b'
  outlook : s.outlook b' = s.outlook b
  requests : b'.core.bridge.requests = b.core.bridge.requests
  holds (hn : (s.outlook b).allocator.next < UInt32.size) (hh : b.account.Holds s.allotted) :
    b'.account.Holds s.allotted

theorem Pumped.trans {b' b'' : Bench G C} (h : Pumped s b b') (h' : Pumped s b' b'') :
    Pumped s b b'' where
  along := h'.along
  outlook := h'.outlook.trans h.outlook
  requests := h'.requests.trans h.requests
  holds hn hh := h'.holds (by rw [h.outlook]; exact hn) (h.holds hn hh)

namespace Along

variable (inner : Performer G C) (hs : s.Recording)

include hs

theorem resumeAll (h : Along s b) :
    Pumped s b (resumeAll inner b) ∧ (Bench.resumeAll inner b).tasks = [] := by
  have hready (t : Task) (ht : t ∈ b.tasks) :
      ({ b with tasks := [] } : Bench G C).result? t ≠ none := h.loads t ht
  obtain ⟨ha, haccount, hreq⟩ := h.withTasks.foldl_resume inner hs hready
  have hnone : (b.tasks.filter fun t => (b.result? t).isNone) = [] := by
    rw [List.filter_eq_nil_iff]
    intro t ht
    simpa using h.loads t ht
  have heq : Bench.resumeAll inner b =
      { b.tasks.foldl (Bench.resume inner) { b with tasks := [] } with tasks := [] } := by
    unfold Bench.resumeAll
    rw [hnone]
  rw [heq]
  refine ⟨⟨ha.withTasks, congrArg s.deliverAll haccount, hreq, fun hn hh => ?_⟩, rfl⟩
  show (b.tasks.foldl (Bench.resume inner) { b with tasks := [] }).account.Holds s.allotted
  rw [haccount]
  exact holds_foldl_take hh hn

/-! ## Completions -/

omit hs in
theorem isNone_omission? (h : Along s b) (c : Completion) :
    (omission? b c).isNone = !s.core.bridge.isCancelled c.request := by
  have hl : ¬ b.isAlive = false := by simp [h.isAlive]
  have hadmits : ¬ (b.core.bridge.admits c.entry = false ∨ b.core.bridge.attached = false) := by
    simp [Bridge.admits, h.running, h.attached]
  rw [omission?, if_neg hl, if_neg hadmits, h.cancelled]
  cases s.core.bridge.isCancelled c.request <;> rfl

omit hs in
theorem handle (h : Along s b) {c : Completion} {rest : List Completion}
    (hd : b.deferred = c :: rest) :
    Pumped s b (handle inner c { b with deferred := rest }) := by
  have hb : Along s ({ b with deferred := rest } : Bench G C) :=
    h.keeps ⟨rfl, rfl, rfl, rfl, rfl⟩ rfl rfl rfl
  have hh := handle_of_records inner hb.guest c
  have haccount := hh.account
  rw [hb.isNone_omission?] at haccount
  have hdelivered : s.deliverAll (Bench.handle inner c { b with deferred := rest }).account =
      s.deliverAll b.account := by
    have hb : b.account.deferred = c :: rest := hd
    rw [haccount]
    unfold deliverAll
    rw [hb, List.filter_cons]
    cases s.core.bridge.isCancelled c.request <;> simp [account, Account.call]
  refine ⟨hb.keeps hh.toKeeps ?_ ?_ ?_, ?_, ?_, fun _ hholds => ?_⟩
  · rw [hh.bridge]
  · rw [hh.bridge]
  · rw [hh.bridge]
  · unfold outlook
    rw [hh.tasks]
    exact deliverAll_foldl_take_congr hdelivered b.tasks
  · rw [hh.bridge]
  · rw [haccount]
    split
    · exact ⟨hholds.starts, hholds.next⟩
    · exact ⟨hholds.starts, hholds.next⟩

omit hs in
theorem deliversTo {b' : Bench G C} (h : Along s b) (hd : DeliversTo inner b b') :
    Pumped s b b' := by
  induction hd with
  | empty hd => exact ⟨h, rfl, rfl, fun _ hh => hh⟩
  | next hd next ih =>
    have hp := h.handle inner hd
    exact hp.trans (ih hp.along)

end Along

/-! ## Pumps -/

section

variable [GraphicsContext G] [AdjustableContext G C]

/-- Whether a step lets the host run its queues to the end. -/
def Step.isPump : Step C → Bool
  | .runTasks | .runDeferred | .runAll => true
  | _ => false

/-- The loop that a pump runs comes to an end. -/
def Step.Halts (b b' : Bench G C) : Step C → Prop
  | .runTasks => PollsTo (performFor (b.guest.weight + 1)) b b'
  | .runDeferred => DeliversTo (performFor (b.guest.weight + 1)) b b'
  | .runAll => PumpsTo (performFor (b.guest.weight + 1)) b b'
  | _ => True

omit [GraphicsContext G] [AdjustableContext G C] in
theorem Along.runAll (inner : Performer G C) (hs : s.Recording) (h : Along s b) :
    Pumped s b (runAll inner b) ∧ (Bench.runAll inner b).tasks = [] ∧
      (Bench.runAll inner b).deferred = [] := by
  obtain ⟨hp, htasks⟩ := h.resumeAll inner hs
  have hd := runDeferred_of_records inner hp.along.guest
  obtain ⟨hk, hdeferred⟩ := hd.keeps hp.along.guest
  rw [(runAll_of_records inner h.guest).2, (runTasks_of_records inner h.guest).1]
  exact ⟨hp.trans (hp.along.deliversTo inner hd), hk.tasks.trans htasks, hdeferred⟩

theorem Along.pump (hs : s.Recording) (h : Along s b) {step : Step C} (hp : step.isPump = true) :
    Pumped s b (perform step b).2 ∧ step.Halts b (perform step b).2 := by
  cases step with
  | runTasks =>
    have hr := runTasks_of_records (performFor (b.guest.weight + 1)) h.guest
    have hrun : (perform .runTasks b).2 = Bench.resumeAll (performFor (b.guest.weight + 1)) b :=
      hr.1
    rw [hrun]
    exact ⟨(h.resumeAll _ hs).1, hr.2⟩
  | runDeferred =>
    have hr := runDeferred_of_records (performFor (b.guest.weight + 1)) h.guest
    exact ⟨h.deliversTo _ hr, hr⟩
  | runAll => exact ⟨(h.runAll _ hs).1, (runAll_of_records _ h.guest).1⟩
  | _ => cases hp

/-! ## Fetches -/

/-- The address in a view of the bytes that have been allocated. -/
def address (s : Bench G C) (ptr len : UInt32) : String :=
  Text.latin ((s.allotted.drop ptr.toNat).take len.toNat)

/-- The fetch that is accepted next, of the image at an address. -/
def nextFetch (b : Bench G C) (url : String) (token : UInt32) : Accepted :=
  ⟨b.core.bridge.requests.length, ⟨token, url, false⟩⟩

/-- The bench after a fetch of the image at an address has been accepted. -/
def fetched (b : Bench G C) (url : String) (token : UInt32) : Bench G C :=
  let fetch := b.nextFetch url token
  let core := b.core.log .debug Log.Target.fetch s!"fetching `{url}` for token {token}"
  spawn fetch { b with core := { core with bridge := (b.core.bridge.accept fetch.request).2 } }

/-- The task that waits for its load. -/
def nextTask (b : Bench G C) (url : String) (token : UInt32) : Task :=
  ⟨b.nextFetch url token, (b.images.lookup url).isSome⟩

omit [GraphicsContext G] [AdjustableContext G C] in
theorem readString_address (h : Along s b) (hh : b.account.Holds s.allotted) {ptr len : UInt32}
    (hv : ptr.toNat + len.toNat ≤ s.extent) :
    Core.readString ptr len b.core = (.ok (s.address ptr len), b.core) := by
  have hm : Core.guestMemory b.core = (.ok b.core.memory, b.core) := if_pos h.attached
  have hsize : s.allotted.length ≤ b.core.memory.size := hh.le_size
  have hread := Memory.readString_eq (n := s.allotted.length) (by rwa [length_allotted]) hsize
  have hstarts : b.core.memory.bytes.take s.allotted.length = s.allotted := hh.starts
  unfold Core.readString
  rw [Attempt.bind_of_ok hm, hread, hstarts]
  rfl

/-- A fetch reads the same address wherever it is made, and is accepted if that is of an image. -/
theorem perform_fetchBytes (h : Along s b) (hh : b.account.Holds s.allotted) {ptr len : UInt32}
    (hv : ptr.toNat + len.toNat ≤ s.extent) (token : UInt32) :
    (perform (.bridge (.capability (.fetchBytes ptr len token))) b).2 =
      if isImageUrl (s.address ptr len) then b.fetched (s.address ptr len) token else b := by
  have hread := readString_address h hh hv
  obtain ⟨inner, hinner⟩ := perform_bridge h.owned (.capability (.fetchBytes ptr len token))
  have hrun : (Capability.fetchBytes ptr len token).run b.core =
      (Core.acceptFetch ptr len token >>= fun fetch => pure (.accepted fetch) :
        Action (Core G) Capability.Result) b.core := rfl
  rw [hinner]
  show ((platform inner).perform (.fetchBytes ptr len token) b).2 = _
  unfold Platform.perform
  split
  · rename_i hi
    have haccept : Core.acceptFetch ptr len token b.core =
        (.ok (b.nextFetch (s.address ptr len) token), { b.core.log .debug Log.Target.fetch
          s!"fetching `{s.address ptr len}` for token {token}" with
          bridge := (b.core.bridge.accept ⟨token, s.address ptr len, false⟩).2 }) := by
      unfold Core.acceptFetch
      rw [Attempt.bind_of_ok hread, if_pos hi]
      rfl
    rw [Attempt.bind_of_ok haccept] at hrun
    rw [Attempt.bind_of_ok (onCore_eq hrun)]
    rfl
  · rename_i hi
    have hrefuse : Core.acceptFetch ptr len token b.core =
        (.error (.unimplemented (s.address ptr len)), b.core) := by
      unfold Core.acceptFetch
      rw [Attempt.bind_of_ok hread, if_neg hi]
      rfl
    rw [Attempt.bind_of_error hrefuse] at hrun
    rw [Attempt.bind_of_error (onCore_eq hrun)]

omit [GraphicsContext G] [AdjustableContext G C] in
theorem account_fetched (b : Bench G C) (url : String) (token : UInt32) :
    (b.fetched url token).account = b.account := by
  let record : Log.Record := ⟨.debug, Log.Target.fetch, s!"fetching `{url}` for token {token}"⟩
  have hspawn : (b.fetched url token).account =
      (((b.note (.log record)).note (.load url)).note .spawn).account := rfl
  rw [hspawn, account_note rfl rfl, account_note rfl rfl, account_note rfl rfl]

omit [GraphicsContext G] [AdjustableContext G C] in
theorem result?_nextTask (h : b.Recording) (url : String) (token : UInt32) :
    b.result? (b.nextTask url token) ≠ none := by
  have hpending := h.images url
  unfold result? nextTask nextFetch
  cases hl : b.images.lookup url with
  | none => simp
  | some source =>
    rw [hl] at hpending
    cases source with
    | pending => exact absurd rfl hpending
    | _ => simp [hl, ImageSource.result?]

omit [GraphicsContext G] [AdjustableContext G C] in
/-- A fetch adds its image to the outlook. -/
theorem Along.fetched (h : Along s b) (url : String) (token : UInt32) :
    Along s (b.fetched url token) ∧
      s.outlook (b.fetched url token) = s.deliverAll
        (s.take (b.tasks.foldl s.take b.account) (b.nextTask url token)) := by
  have hcancelled (id : Nat) : (b.fetched url token).core.bridge.isCancelled id =
      s.core.bridge.isCancelled id := by
    rw [← h.cancelled id]
    exact Bridge.isCancelled_accept b.core.bridge rfl id
  refine ⟨⟨⟨h.owned, h.running, h.attached, h.guest, h.images, fun t ht => ?_⟩, h.images_eq,
    hcancelled⟩, ?_⟩
  · rcases List.mem_append.1 ht with ht | ht
    · exact h.loads t ht
    · rw [List.mem_singleton.1 ht]
      exact result?_nextTask h.toRecording url token
  · have htasks : (b.fetched url token).tasks = b.tasks ++ [b.nextTask url token] := rfl
    unfold outlook
    rw [account_fetched, htasks, List.foldl_append]
    rfl

/-! ## Runs -/

/-- Whether a step fetches the image whose address is in a view of the first `n` bytes. -/
def Step.FetchesWithin (n : Nat) : Step C → Prop
  | .bridge (.capability (.fetchBytes ptr len _)) => ptr.toNat + len.toNat ≤ n
  | _ => False

/-- Two benches have come from one by the same fetches. -/
structure Kin (s a b : Bench G C) : Prop where
  left : Along s a
  right : Along s b
  holdsLeft : a.account.Holds s.allotted
  holdsRight : b.account.Holds s.allotted
  outlook : s.outlook a = s.outlook b
  requests : a.core.bridge.requests.length = b.core.bridge.requests.length

omit [GraphicsContext G] [AdjustableContext G C] in
theorem Along.kin (h : Along s a) (hh : a.account.Holds s.allotted) : Kin s a a :=
  ⟨h, h, hh, hh, rfl, rfl⟩

omit [GraphicsContext G] [AdjustableContext G C] in
theorem Kin.nextTask (h : Kin s a b) (url : String) (token : UInt32) :
    a.nextTask url token = b.nextTask url token := by
  unfold Bench.nextTask nextFetch
  rw [h.requests, h.left.images_eq, h.right.images_eq]

/-- The same fetch on both benches. -/
theorem Kin.fetch (h : Kin s a b) {step : Step C} (hf : step.FetchesWithin s.extent) :
    Kin s (perform step a).2 (perform step b).2 ∧
      (s.outlook a).allocator.next ≤ (s.outlook (perform step a).2).allocator.next := by
  obtain ⟨ptr, len, token, rfl⟩ : ∃ ptr len token,
      step = .bridge (.capability (.fetchBytes ptr len token)) := by
    cases step with
    | bridge op =>
      cases op with
      | capability c =>
        cases c with
        | fetchBytes ptr len token => exact ⟨ptr, len, token, rfl⟩
        | _ => exact hf.elim
      | _ => exact hf.elim
    | _ => exact hf.elim
  rw [perform_fetchBytes h.left h.holdsLeft hf, perform_fetchBytes h.right h.holdsRight hf]
  split
  · obtain ⟨hl, hol⟩ := h.left.fetched (s.address ptr len) token
    obtain ⟨hr, hor⟩ := h.right.fetched (s.address ptr len) token
    refine ⟨⟨hl, hr, ?_, ?_, ?_, ?_⟩, ?_⟩
    · rw [account_fetched]
      exact h.holdsLeft
    · rw [account_fetched]
      exact h.holdsRight
    · rw [hol, hor, h.nextTask]
      exact deliverAll_take_congr h.outlook _
    · show (_ ++ [_]).length = (_ ++ [_]).length
      rw [List.length_append, List.length_append, h.requests]
      rfl
    · rw [hol]
      exact s.next_le_take (a.tasks.foldl s.take a.account) _
  · exact ⟨h, Nat.le_refl _⟩

/-- The fetches among the steps. -/
def fetches (steps : List (Step C)) : List (Step C) := steps.filter (!·.isPump)

/-- Fetches bring two benches on alike, whatever they leave to be done. -/
theorem Kin.run_fetches (h : Kin s a b) {steps : List (Step C)}
    (hs : ∀ step ∈ steps, step.FetchesWithin s.extent) :
    Kin s (run steps a) (run steps b) ∧
      (s.outlook a).allocator.next ≤ (s.outlook (run steps a)).allocator.next := by
  induction steps generalizing a b with
  | nil => exact ⟨h, Nat.le_refl _⟩
  | cons step rest ih =>
    obtain ⟨hk, hle⟩ := h.fetch (hs step (.head _))
    obtain ⟨hk', hle'⟩ := ih hk fun step' hm => hs step' (.tail _ hm)
    exact ⟨hk', Nat.le_trans hle hle'⟩

/-- A pump on one of the benches. -/
theorem Kin.pump (hs : s.Recording) (h : Kin s a b)
    (hn : (s.outlook a).allocator.next < UInt32.size) {step : Step C} (hp : step.isPump = true) :
    Kin s a (perform step b).2 := by
  obtain ⟨hpumped, -⟩ := h.right.pump hs hp
  exact ⟨h.left, hpumped.along, h.holdsLeft, hpumped.holds (h.outlook ▸ hn) h.holdsRight,
    h.outlook.trans hpumped.outlook.symm, by rw [hpumped.requests, h.requests]⟩

omit [GraphicsContext G] [AdjustableContext G C] in
theorem fetchesWithin_of_mem {n : Nat} {steps : List (Step C)}
    (hs : ∀ step ∈ steps, step.isPump = true ∨ step.FetchesWithin n) :
    ∀ step ∈ fetches steps, step.FetchesWithin n := by
  intro step hm
  obtain ⟨hmem, hp⟩ := List.mem_filter.1 hm
  exact (hs step hmem).resolve_left (by simpa using hp)

/-- Pumps in between leave no trace in what the fetches lead to. -/
theorem Kin.run (hs : s.Recording) (h : Kin s a b) {steps : List (Step C)}
    (hsteps : ∀ step ∈ steps, step.isPump = true ∨ step.FetchesWithin s.extent)
    (hn : (s.outlook (Bench.run (fetches steps) a)).allocator.next < UInt32.size) :
    Kin s (Bench.run (fetches steps) a) (Bench.run steps b) := by
  induction steps generalizing a b with
  | nil => exact h
  | cons step rest ih =>
    have hrest : ∀ step ∈ rest, step.isPump = true ∨ step.FetchesWithin s.extent :=
      fun step' hm => hsteps step' (.tail _ hm)
    cases hp : step.isPump with
    | true =>
      have hf : fetches (step :: rest) = fetches rest := by simp [fetches, hp]
      rw [hf] at hn ⊢
      have hle := ((h.left.kin h.holdsLeft).run_fetches (fetchesWithin_of_mem hrest)).2
      exact ih (h.pump hs (Nat.lt_of_le_of_lt hle hn) hp) hrest hn
    | false =>
      have hf : fetches (step :: rest) = step :: fetches rest := by simp [fetches, hp]
      rw [hf] at hn ⊢
      have hwithin : step.FetchesWithin s.extent :=
        (hsteps step (.head _)).resolve_left (by simp [hp])
      exact ih (h.fetch hwithin).1 hrest hn

omit [GraphicsContext G] [AdjustableContext G C] in
theorem deliverAll_of_nil {x : Account} (h : x.deferred = []) : s.deliverAll x = x := by
  cases x
  cases h
  simp [deliverAll]

/-- After all has been pumped, nothing of the outlook is left to come. -/
theorem Along.account_runAll (hs : s.Recording) (h : Along s b) :
    (Bench.run [.runAll] b).account = s.outlook b := by
  obtain ⟨hp, ht, hd⟩ := h.runAll (performFor (b.guest.weight + 1)) hs
  have hrun : (Bench.run [.runAll] b) = Bench.runAll (performFor (b.guest.weight + 1)) b := rfl
  rw [← hp.outlook, hrun, outlook, ht]
  exact (deliverAll_of_nil hd).symm

/-- On a bridge that runs over a guest that only records, with images whose loads come back at once,
and with allocations below the end of the address space, it does not matter when the queues are
pumped in the course of fetches whose addresses lie in what had been allocated: the guest is called
alike, asked for the same allocations and left with the same memory as when all fetches are made
first and everything is pumped at the end. Every pump comes to an end, and at the end nothing is
queued or pending. -/
theorem pumps_immaterial {b : Bench G C} (hb : b.Fresh) (setup : List (Step C))
    (hs : (Bench.run setup b).Recording) {steps : List (Step C)}
    (hsteps : ∀ step ∈ steps, step.isPump = true ∨
      step.FetchesWithin (Bench.run setup b).extent)
    (hn : (Bench.run (fetches steps ++ [.runAll]) (Bench.run setup b)).guest.allocator.next <
      UInt32.size) :
    let s := Bench.run setup b
    let pumped := Bench.run (steps ++ [.runAll]) s
    let plain := Bench.run (fetches steps ++ [.runAll]) s
    (pumped.core.calls = plain.core.calls ∧
      pumped.core.allocations = plain.core.allocations ∧
      pumped.core.memory = plain.core.memory) ∧
    (pumped.tasks = [] ∧ pumped.deferred = [] ∧ pumped.core.bridge.pending = []) ∧
    ∀ before pump after, steps ++ [.runAll] = before ++ pump :: after → pump.isPump = true →
      pump.Halts (Bench.run before s) (Bench.run (before ++ [pump]) s) := by
  intro s pumped plain
  have hf := fetchesWithin_of_mem hsteps
  have hkin := hs.along.kin s.holds_allotted
  have hplain : plain.account = s.outlook (Bench.run (fetches steps) s) := by
    rw [← (hkin.run_fetches hf).1.left.account_runAll hs, ← run_append]
  have hbound : (s.outlook (Bench.run (fetches steps) s)).allocator.next < UInt32.size := by
    rw [← hplain]
    exact hn
  have hrun := hkin.run hs hsteps hbound
  have hpumped : pumped.account = plain.account := by
    rw [hplain, hrun.outlook, ← hrun.right.account_runAll hs, ← run_append]
  have hall : pumped = Bench.run [.runAll] (Bench.run steps s) := run_append steps [.runAll] s
  obtain ⟨hp, htasks, hdeferred⟩ : Pumped s (Bench.run steps s) pumped ∧
      pumped.tasks = [] ∧ pumped.deferred = [] := hall ▸
    hrun.right.runAll (performFor ((Bench.run steps s).guest.weight + 1)) hs
  refine ⟨⟨congrArg Account.calls hpumped, congrArg Account.allocations hpumped,
    congrArg Account.memory hpumped⟩, ⟨htasks, hdeferred, ?_⟩, ?_⟩
  · obtain ⟨loads, hh, hperm⟩ := history_of_chronicle hb (setup ++ (steps ++ [.runAll]))
    rw [run_append] at hh hperm
    have hnone : loads = [] := by
      have h : pumped.tasks.Perm loads := hperm
      rw [htasks] at h
      exact h.symm.eq_nil
    refine List.eq_nil_iff_forall_not_mem.2 fun id hid => ?_
    rcases (hh.pending hb.pending).pending id hid with ⟨t, ht, -⟩ | ho
    · rw [hnone] at ht
      cases ht
    · exact absurd (hp.along.owned.symm.trans ho) nofun
  · intro before pump after he hpump
    have hall : ∀ step ∈ steps ++ [.runAll], step.isPump = true ∨ step.FetchesWithin s.extent := by
      intro step hm
      rcases List.mem_append.1 hm with hm | hm
      · exact hsteps step hm
      · exact .inl (by rw [List.mem_singleton.1 hm]; rfl)
    have hfetches : fetches steps = fetches before ++ fetches (pump :: after) := by
      have h := congrArg fetches he
      simpa [fetches, Step.isPump] using h
    have hbefore : ∀ step ∈ before, step.isPump = true ∨ step.FetchesWithin s.extent :=
      fun step hm => hall step (he ▸ List.mem_append_left _ hm)
    have hsplit := (hkin.run_fetches (fetchesWithin_of_mem hbefore)).1
    have hle : (s.outlook (Bench.run (fetches before) s)).allocator.next ≤
        (s.outlook (Bench.run (fetches steps) s)).allocator.next := by
      rw [hfetches, run_append]
      exact (hsplit.run_fetches fun step hm => hf step
        (hfetches ▸ List.mem_append_right _ hm)).2
    have hto := hkin.run hs hbefore (Nat.lt_of_le_of_lt hle hbound)
    rw [run_append]
    exact (hto.right.pump hs hpump).2

theorem lookup_testImages (sizes : List (String × UInt32 × UInt32)) (url : String) :
    (testImages sizes).lookup url ≠ some .pending := by
  induction sizes with
  | nil => nofun
  | cons size rest ih =>
    show List.lookup url ((size.1, _) :: testImages rest) ≠ _
    rw [List.lookup_cons]
    split
    · nofun
    · exact ih

/-- Two fetches of one image, pumped in between and after them. -/
def pumpedFetches : List (Step NumberedContext.Change) :=
  [.bridge (.capability (.fetchBytes 8 8 4)), .runTasks,
    .bridge (.capability (.fetchBytes 8 8 5)), .runDeferred]

/-- The second image is copied after the guest has been told of the first. -/
theorem pumps_immaterial_of_two :
    let s := run [.bridge firstInit, .writeText "late.png"] (numbered 0 [("late.png", 2, 2)])
    (run (pumpedFetches ++ [.runAll]) s).core.calls =
        [.init 640 480, .fetch 2 2 16 16 4, .fetch 2 2 32 16 5] ∧
      (run (fetches pumpedFetches ++ [.runAll]) s).core.calls =
        [.init 640 480, .fetch 2 2 16 16 4, .fetch 2 2 32 16 5] := by
  intro s
  have hplain : (run (fetches pumpedFetches ++ [.runAll]) s).core.calls =
      [.init 640 480, .fetch 2 2 16 16 4, .fetch 2 2 32 16 5] := by decide +kernel
  have hs : s.Recording :=
    ⟨rfl, by decide +kernel, by decide +kernel, ⟨by decide +kernel, rfl⟩,
      lookup_testImages [("late.png", 2, 2)], nofun⟩
  have hwithin (token : UInt32) : Step.FetchesWithin (C := NumberedContext.Change) s.extent
      (.bridge (.capability (.fetchBytes 8 8 token))) := by
    show 16 ≤ s.extent
    decide +kernel
  have hsteps : ∀ step ∈ pumpedFetches, step.isPump = true ∨ step.FetchesWithin s.extent := by
    rintro step (_ | ⟨_, _ | ⟨_, _ | ⟨_, _ | ⟨_, h⟩⟩⟩⟩)
    · exact .inr (hwithin 4)
    · exact .inl rfl
    · exact .inr (hwithin 5)
    · exact .inl rfl
    · cases h
  obtain ⟨⟨hcalls, -⟩, -⟩ := pumps_immaterial (b := numbered 0 [("late.png", 2, 2)])
    ⟨rfl, rfl, rfl, rfl, rfl, rfl⟩ _ hs hsteps (by decide +kernel)
  exact ⟨hcalls.trans hplain, hplain⟩

end

end GuestBridge.Bench
