import GuestBridge.Proofs.Bench.Pending
import GuestBridge.Proofs.Bench.Shutdown
import GuestBridge.Proofs.Bench.Life

/-!
# The number of pending fetches

Fetches are awaited from their acceptance until the guest is told of their image, their load or the
copy of their image fails, or they are cancelled (`awaited`). The bridge counts another thing: the
fetches on its list, which they leave when their load comes back. So it counts those too that were
cancelled on their own before that (`stale`), and not those whose image has gone to the guest
without the guest being told (`astray`). `Counted.balance` says how the two numbers are related,
at every moment of every history, and hence when they agree.
-/

set_option autoImplicit false

namespace GuestBridge.Bench

/-! ## What is awaited -/

namespace Happening

def accepted? : Happening → Option Nat
  | accepted fetch => some fetch.id
  | _ => none

/-- The fetch that has come to its end otherwise than by being cancelled or passed over: the guest
is told of its image, or its load or the copy of its image has failed. -/
def finished? : Happening → Option Nat
  | told c => some c.request
  | failed fetch _ => some fetch.id
  | ended _ .cancelled => none
  | ended fetch _ => some fetch.id
  | _ => none

theorem fetch?_of_accepted? {h : Happening} {id : Nat} (ht : h.accepted? = some id) :
    h.fetch? = some id := by
  cases h <;> first | exact ht | cases ht

theorem fetch?_of_finished? {h : Happening} {id : Nat} (ht : h.finished? = some id) :
    h.fetch? = some id := by
  cases h with
  | ended fetch why => cases why <;> first | exact ht | cases ht
  | _ => first | exact ht | cases ht

end Happening

/-- The fetches accepted that are neither finished nor cancelled. -/
def awaited (hs : List Happening) (b : Bridge) : List Nat :=
  (hs.filterMap Happening.accepted?).filter fun id =>
    !b.isCancelled id && !(hs.filterMap Happening.finished?).contains id

/-- The cancelled fetches that are still on the list of pending ones. -/
def stale (b : Bridge) : List Nat := b.pending.filter b.isCancelled

/-- The awaited fetches that are not on the list any more. -/
def astray (hs : List Happening) (b : Bridge) : List Nat :=
  (awaited hs b).filter fun id => !b.pending.contains id

/-- The image of a fetch is being copied, or is copied and its completion waits, or the completion
was passed over because the guest had not started. -/
def Untold {G C : Type} (hs : List Happening) (m : Moment G C) (id : Nat) : Prop :=
  (∃ x ∈ m.copying, x.1.id = id) ∨ (∃ c ∈ m.bench.deferred, c.request = id) ∨
    ∃ c, c.request = id ∧ .omitted c .refused ∈ hs

/-- How the number of fetches on the list is related to the number of those awaited. -/
structure Counted {G C : Type} (hs : List Happening) (m : Moment G C) : Prop where
  balance : m.bench.core.bridge.pending.length + (astray hs m.bench.core.bridge).length =
    (awaited hs m.bench.core.bridge).length + (stale m.bench.core.bridge).length
  exact_iff : m.bench.core.bridge.pending.length = (awaited hs m.bench.core.bridge).length ↔
    (stale m.bench.core.bridge).length = (astray hs m.bench.core.bridge).length
  /-- What is on the list although it is cancelled was cancelled on its own. -/
  cancelled_of_stale : ∀ id ∈ stale m.bench.core.bridge, .cancelled id ∈ hs
  /-- What is awaited although it is off the list are the fetches with an image that the guest has
  not been told of. -/
  mem_astray_iff : ∀ id, id ∈ astray hs m.bench.core.bridge ↔
    m.bench.core.bridge.isCancelled id = false ∧ Untold hs m id

theorem mem_awaited {hs : List Happening} {b : Bridge} {id : Nat} :
    id ∈ awaited hs b ↔ id ∈ hs.filterMap Happening.accepted? ∧ b.isCancelled id = false ∧
      id ∉ hs.filterMap Happening.finished? := by
  unfold awaited
  rw [List.mem_filter, Bool.and_eq_true, Bool.not_eq_true', Bool.not_eq_true',
    List.contains_eq_mem, decide_eq_false_iff_not]

theorem mem_astray {hs : List Happening} {b : Bridge} {id : Nat} :
    id ∈ astray hs b ↔ id ∈ awaited hs b ∧ id ∉ b.pending := by
  unfold astray
  rw [List.mem_filter, Bool.not_eq_true', List.contains_eq_mem, decide_eq_false_iff_not]

/-! ## The list -/

variable {G C : Type}

/-- What is known of the list of pending fetches. -/
structure Listed (hs : List Happening) (b : Bridge) : Prop where
  nodup : b.pending.Nodup
  lt : ∀ id ∈ b.pending, id < b.requests.length
  cancelled : ∀ id ∈ b.pending, b.isCancelled id = true → .cancelled id ∈ hs

namespace Listed

variable {hs : List Happening} {b : Bridge}

theorem concat (hb : Listed hs b) (h : Happening) : Listed (hs ++ [h]) b :=
  ⟨hb.nodup, hb.lt, fun id hid hc => List.mem_append_left _ (hb.cancelled id hid hc)⟩

/-- Only the list and the requests count. -/
theorem congr {b' : Bridge} (hb : Listed hs b) (hp : b'.pending = b.pending)
    (hr : b'.requests = b.requests) : Listed hs b' := by
  obtain ⟨hnodup, hlt, hcancelled⟩ := hb
  refine ⟨by rwa [hp], by rwa [hp, hr], fun id hid hc => hcancelled id (hp ▸ hid) ?_⟩
  unfold Bridge.isCancelled at hc ⊢
  rwa [hr] at hc

theorem accept (hb : Listed hs b) {request : FetchRequest} (h : request.cancelled = false) :
    Listed hs (b.accept request).2 := by
  refine ⟨?_, fun id hid => ?_, fun id hid hc => ?_⟩
  · have hnew : b.requests.length ∉ b.pending := fun hmem => Nat.lt_irrefl _ (hb.lt _ hmem)
    exact List.nodup_append.2 ⟨hb.nodup, List.nodup_singleton _, by
      intro i hi j hj hij
      rw [List.mem_singleton.1 hj] at hij
      exact hnew (hij ▸ hi)⟩
  · have hlen : (b.accept request).2.requests.length = b.requests.length + 1 :=
      List.length_append
    rw [hlen]
    rcases List.mem_append.1 hid with hold | hnew
    · exact Nat.lt_succ_of_lt (hb.lt id hold)
    · exact Nat.lt_succ_of_le (Nat.le_of_eq (List.mem_singleton.1 hnew))
  · rw [Bridge.isCancelled_accept b h] at hc
    rcases List.mem_append.1 hid with hold | hnew
    · exact hb.cancelled id hold hc
    · -- a fetch that was never accepted is not cancelled
      rw [List.mem_singleton.1 hnew] at hc
      unfold Bridge.isCancelled at hc
      rw [List.getElem?_eq_none (Nat.le_refl _)] at hc
      cases hc

theorem cancel (hb : Listed hs b) (id : Nat) : Listed (hs ++ [.cancelled id]) (b.cancel id) := by
  refine ⟨hb.nodup, fun i hi => ?_, fun i hi hc => ?_⟩
  · rw [Bridge.requests_length_cancel]
    exact hb.lt i hi
  · rw [Bridge.isCancelled_cancel, Bool.or_eq_true, decide_eq_true_iff] at hc
    rcases hc with hc | ⟨rfl, -⟩
    · exact List.mem_append_left _ (hb.cancelled i hi hc)
    · exact List.mem_append_right _ (List.mem_singleton_self _)

theorem settle (hb : Listed hs b) (id : Nat) : Listed hs (b.settle id) := by
  have hsub : ∀ i ∈ (b.settle id).pending, i ∈ b.pending := fun i hi => List.mem_of_mem_filter hi
  exact ⟨hb.nodup.filter _, fun i hi => hb.lt i (hsub i hi),
    fun i hi hc => hb.cancelled i (hsub i hi) hc⟩

variable [GraphicsContext G] {m n : Moment G C} {h : Happening}

theorem step (hm : Listed hs m.bench.core.bridge) (hh : Happens m h n) :
    Listed (hs ++ [h]) n.bench.core.bridge := by
  obtain ⟨registry, hb⟩ := hh.bridge_eq
  have hlisted : Listed (hs ++ [h]) (h.onBridge m.bench.core.bridge) := by
    cases h with
    | accepted fetch => exact (hm.accept hh.of_accepted.1).concat _
    | cancelled id => exact hm.cancel id
    | shutDown => exact ⟨List.nodup_nil, nofun, nofun⟩
    | ended fetch why => exact (hm.settle _).concat _
    | asked fetch image => exact (hm.settle _).concat _
    | _ => exact (hm.concat _).congr rfl rfl
  rw [hb]
  exact hlisted.congr rfl rfl

end Listed

theorem History.listed [GraphicsContext G] {m n : Moment G C} {hs : List Happening}
    (hh : History m hs n) (hm : Listed [] m.bench.core.bridge) : Listed hs n.bench.core.bridge := by
  induction hh with
  | refl => exact hm
  | quiet before hq ih =>
    show Listed _ _
    rw [hq.bridge]
    exact ih
  | snoc before now ih => exact ih.step now

theorem Fresh.listed {b : Bench G C} (hb : b.Fresh) : Listed [] b.core.bridge := by
  rw [hb.bridge]
  exact ⟨List.nodup_nil, nofun, nofun⟩

/-! ## Lives, with a guest or without -/

section

variable {hs : List Happening} {m n : Moment G C} {h : Happening}

/-- What is known of fetches at every moment, before there is a guest as well. -/
structure Known (hs : List Happening) (m : Moment G C) : Prop where
  dropped : m.bench.owned = false ↔ .dropped ∈ hs
  live (id : Nat) (request : FetchRequest) : m.bench.core.bridge.accepted? id = some request →
    Life m.bench.core.bridge hs ⟨id, request⟩ (m.flight id) (about id hs)
  unborn (id : Nat) : m.bench.core.bridge.accepted? id = none →
    m.flight id = [] ∧ about id hs = []

theorem Lives.known (hm : Lives hs m) : Known hs m := ⟨hm.dropped, hm.live, hm.unborn⟩

/-- Nothing is fetched as long as there is no guest. -/
structure Idle (hs : List Happening) (m : Moment G C) : Prop where
  attached : m.bench.core.bridge.attached = false
  phase : m.bench.core.bridge.phase ≠ .running
  requests : m.bench.core.bridge.requests = []
  flights : m.flights = []
  dropped : m.bench.owned = false ↔ .dropped ∈ hs
  started : .started ∉ hs
  about (id : Nat) : about id hs = []

namespace Idle

theorem accepted? (hm : Idle hs m) (id : Nat) : m.bench.core.bridge.accepted? id = none := by
  rw [Bridge.accepted?_eq_none, hm.requests]
  exact Nat.zero_le id

theorem flight (hm : Idle hs m) (id : Nat) : m.flight id = [] := by
  unfold Moment.flight
  rw [hm.flights]
  rfl

theorem known (hm : Idle hs m) : Known hs m where
  dropped := hm.dropped
  live id request hr := by
    rw [hm.accepted? id] at hr
    cases hr
  unborn id _ := ⟨hm.flight id, hm.about id⟩

theorem of_quiet {b : Bench G C} (hm : Idle hs m) (hq : Quiet m.bench b) :
    Idle hs { m with bench := b } := by
  obtain ⟨ha, hp, hr, hf, hd, hst, hab⟩ := hm
  refine ⟨?_, ?_, ?_, ?_, ?_, hst, hab⟩
  · rwa [hq.bridge]
  · rwa [hq.bridge]
  · rwa [hq.bridge]
  · rwa [hq.flights_eq]
  · rwa [hq.owned]

variable [GraphicsContext G]

/-- Without a guest nothing happens that is about a fetch, and the guest does not start. -/
theorem fetch?_eq_none (hm : Idle hs m) (hh : Happens m h n) :
    h.fetch? = none ∧ h ≠ .started ∧ h.reaches = [] := by
  obtain ⟨rest, hp, -⟩ := hh.flights_perm
  have hleaves : h.leaves = [] := by
    rw [hm.flights] at hp
    exact (List.append_eq_nil_iff.1 hp.nil_eq.symm).1
  have hnone := hm.attached
  cases hh with
  | accepted c hr =>
    rw [(Capability.fetchBytes_of_accepted hr).1] at hnone
    cases hnone
  | started ha =>
    rw [ha] at hnone
    cases hnone
  | lost | ended | asked | copied | failed | told | omitted => cases hleaves
  | _ => exact ⟨rfl, nofun, rfl⟩

/-- It stays so until a guest is attached. -/
theorem step (hm : Idle hs m) (hh : Happens m h n) :
    Idle (hs ++ [h]) n ∨ Lives (hs ++ [h]) n := by
  obtain ⟨hfetch, hstart, hreaches⟩ := hm.fetch?_eq_none hh
  obtain ⟨registry, hb⟩ := hh.bridge_eq
  obtain ⟨rest, hp, hp'⟩ := hh.flights_perm
  have hflights : n.flights = [] := by
    rw [hm.flights] at hp
    rw [hreaches, List.nil_append, (List.append_eq_nil_iff.1 hp.nil_eq.symm).2] at hp'
    exact hp'.eq_nil
  have habout : ∀ id, Bench.about id (hs ++ [h]) = [] := by
    intro id
    rw [about_concat, hm.about id, hfetch]
    rfl
  have hdropped : n.bench.owned = false ↔ .dropped ∈ hs ++ [h] := by
    rw [hh.owned_iff, hm.dropped, List.mem_append, List.mem_singleton]
  have hstarted : .started ∉ hs ++ [h] := by
    rw [List.mem_append, List.mem_singleton]
    exact fun hor => hor.elim hm.started fun he => hstart he.symm
  have hphase : n.bench.core.bridge.phase ≠ .running := by
    rw [ne_eq, hh.running_iff]
    exact fun hor => hor.elim hm.phase fun he => hstart he.symm
  have hrequests : n.bench.core.bridge.requests = [] := by
    apply List.eq_nil_of_length_eq_zero
    have hnone : n.bench.core.bridge.accepted? 0 = none := by
      rcases hh.accepted?_eq 0 with ⟨fetch, rfl, -⟩ | ⟨-, he⟩
      · cases hfetch
      · rw [he, hm.accepted? 0]
    exact Nat.le_zero.1 (Bridge.accepted?_eq_none.1 hnone)
  by_cases ha : n.bench.core.bridge.attached = true
  · right
    refine ⟨ha, hdropped, iff_of_false hphase hstarted, ?_, ?_⟩
    · intro id request hr
      unfold Bridge.accepted? at hr
      rw [hrequests] at hr
      cases hr
    · intro id _
      refine ⟨?_, habout id⟩
      unfold Moment.flight
      rw [hflights]
      rfl
  · left
    exact ⟨Bool.eq_false_iff.2 ha, hphase, hrequests, hflights, hdropped, hstarted, habout⟩

end Idle

variable [GraphicsContext G]

/-- Whatever the bench was set up with, every fetch of a history has a life. -/
theorem Fresh.known {b : Bench G C} (hb : b.Fresh) (hh : History ⟨b, [], []⟩ hs m) :
    Known hs m := by
  have hidle : Idle hs m ∨ Lives hs m := by
    induction hh with
    | refl =>
      by_cases ha : b.core.bridge.attached = true
      · exact .inr (hb.lives ha)
      · left
        refine ⟨Bool.eq_false_iff.2 ha, ?_, ?_, ?_, ?_, nofun, fun id => rfl⟩
        · rw [hb.bridge]
          nofun
        · rw [hb.bridge]
        · simp [Moment.flights, hb.deferred]
        · simp [hb.owned]
    | quiet before hq ih => exact ih.imp (·.of_quiet hq) (·.of_quiet hq)
    | snoc before now ih => exact ih.elim (·.step now) fun hl => .inr (hl.step now)
  exact hidle.elim Idle.known Lives.known

end

/-! ## Where a fetch is -/

section

variable {b : Bridge} {hs : List Happening} {fetch : Accepted} {stages : List Stage}
  {path : List Happening}

/-- A fetch has been accepted once. -/
theorem Life.count_accepted (hl : Life b hs fetch stages path) :
    (path.filterMap Happening.accepted?).count fetch.id = 1 := by
  cases hl <;> simp [Happening.accepted?, List.filterMap]

theorem Life.not_finished_of_loading (hl : Life b hs fetch stages path)
    (hload : .loading fetch ∈ stages) : fetch.id ∉ path.filterMap Happening.finished? := by
  cases hl <;> simp_all [Happening.finished?, List.filterMap]

/-- A fetch that is not cancelled waits for its load, or is untold, or finished. -/
theorem Life.untold_iff (hl : Life b hs fetch stages path) (hc : b.isCancelled fetch.id = false)
    (hd : .dropped ∉ hs) :
    ((∃ image, .copying fetch image ∈ stages) ∨ (∃ c, .queued c ∈ stages) ∨
        ∃ c, .omitted c .refused ∈ path) ↔
      .loading fetch ∉ stages ∧ fetch.id ∉ path.filterMap Happening.finished? := by
  have hnot : ∀ {h}, ¬ ComesAfter (.dropped ∈ ·) h hs := by
    rintro h ⟨before, after, rfl, hmem⟩
    exact hd (List.mem_append_left _ hmem)
  cases hl with
  | lost hlost => exact absurd hlost hnot
  | ended why hg hw =>
    have hfinished : (Happening.ended fetch why).finished? = some fetch.id := by
      cases why with
      | cancelled =>
        rw [hw rfl] at hc
        cases hc
      | _ => rfl
    have haccepted : (Happening.accepted fetch).finished? = none := rfl
    simp [hfinished, haccepted]
  | omitted image ptr why he =>
    cases why with
    | gone => exact absurd he hnot
    | cancelled =>
      rw [show b.isCancelled fetch.id = true from he] at hc
      cases hc
    | refused => simp [Happening.finished?]
  | _ => simp [Happening.finished?, completion]

end

section

variable {hs : List Happening} {m : Moment G C}

theorem mem_flight {s : Stage} {id : Nat} : s ∈ m.flight id ↔ s ∈ m.flights ∧ s.id = id := by
  unfold Moment.flight
  rw [List.mem_filter, decide_eq_true_iff]

theorem mem_flights {s : Stage} : s ∈ m.flights ↔
    (∃ t ∈ m.loads, .loading t.fetch = s) ∨ (∃ x ∈ m.copying, .copying x.1 x.2 = s) ∨
      ∃ c ∈ m.bench.deferred, .queued c = s := by
  unfold Moment.flights
  rw [List.mem_append, List.mem_append, List.mem_map, List.mem_map, List.mem_map, or_assoc]

/-- A fetch that something has happened to was accepted, and has a life. -/
theorem Known.exists_life (hm : Known hs m) {h : Happening} {id : Nat} (hmem : h ∈ about id hs) :
    ∃ request, m.bench.core.bridge.accepted? id = some request ∧
      Life m.bench.core.bridge hs ⟨id, request⟩ (m.flight id) (about id hs) := by
  rcases hr : m.bench.core.bridge.accepted? id with _ | request
  · rw [(hm.unborn id hr).2] at hmem
    cases hmem
  · exact ⟨request, rfl, hm.live id request hr⟩

theorem Known.accepted_iff (hm : Known hs m) {id : Nat} :
    m.bench.core.bridge.accepted? id ≠ none ↔ id ∈ hs.filterMap Happening.accepted? := by
  rw [mem_about_iff fun _ _ => Happening.fetch?_of_accepted?]
  rcases hr : m.bench.core.bridge.accepted? id with _ | request
  · rw [(hm.unborn id hr).2]
    exact iff_of_false (fun h => h rfl) List.not_mem_nil
  · have hcount : _ = 1 := (hm.live id request hr).count_accepted
    exact iff_of_true (Option.some_ne_none _) (List.count_pos_iff.1 (by rw [hcount]; decide))

theorem Known.awaited_nodup (hm : Known hs m) : (awaited hs m.bench.core.bridge).Nodup := by
  refine List.Nodup.filter _ (List.nodup_iff_count_le_one.2 fun id => ?_)
  rw [← count_about fun _ _ => Happening.fetch?_of_accepted?]
  rcases hr : m.bench.core.bridge.accepted? id with _ | request
  · rw [(hm.unborn id hr).2]
    exact Nat.zero_le 1
  · exact Nat.le_of_eq (hm.live id request hr).count_accepted

/-- With every fetch cancelled none is awaited. -/
theorem Known.awaited_eq_nil {b : Bench G C} {loads : List Task} (hm : Known hs ⟨b, loads, []⟩)
    (h : ∀ id < b.core.bridge.requests.length, b.core.bridge.isCancelled id = true) :
    awaited hs b.core.bridge = [] := by
  apply List.eq_nil_iff_forall_not_mem.2
  intro id hid
  obtain ⟨haccepted, hc, -⟩ := mem_awaited.1 hid
  have hlt := (not_congr Bridge.accepted?_eq_none).1 (hm.accepted_iff.2 haccepted)
  rw [h id (Nat.lt_of_not_le hlt)] at hc
  cases hc

/-- What is in flight is the request that was accepted. -/
theorem Known.fetch_eq (hm : Known hs m) {id : Nat} {request : FetchRequest}
    (hr : m.bench.core.bridge.accepted? id = some request) {fetch : Accepted}
    (hf : .loading fetch ∈ m.flight id ∨ ∃ image, .copying fetch image ∈ m.flight id) :
    fetch = ⟨id, request⟩ := by
  generalize hstages : m.flight id = stages at hf
  generalize hpath : Bench.about id hs = path
  have hl := hm.live id request hr
  rw [hstages, hpath] at hl
  cases hl <;> simp_all

theorem Known.loading_iff (hm : Known hs m) {id : Nat} {request : FetchRequest}
    (hr : m.bench.core.bridge.accepted? id = some request) :
    .loading ⟨id, request⟩ ∈ m.flight id ↔ ∃ t ∈ m.loads, t.fetch.id = id := by
  constructor
  · intro hmem
    rcases mem_flights.1 (mem_flight.1 hmem).1 with ⟨t, ht, he⟩ | ⟨x, -, he⟩ | ⟨c, -, he⟩
    · exact ⟨t, ht, congrArg Accepted.id (Stage.loading.inj he)⟩
    · cases he
    · cases he
  · rintro ⟨t, ht, hid⟩
    have hmem : .loading t.fetch ∈ m.flight id :=
      mem_flight.2 ⟨mem_flights.2 (.inl ⟨t, ht, rfl⟩), hid⟩
    rwa [hm.fetch_eq hr (.inl hmem)] at hmem

/-- A fetch that is not cancelled is on the list while its load is waited for. -/
theorem Known.mem_pending_iff (hm : Known hs m) (hp : Pending m) (ho : m.bench.owned = true)
    {id : Nat} {request : FetchRequest}
    (hr : m.bench.core.bridge.accepted? id = some request)
    (hc : m.bench.core.bridge.isCancelled id = false) :
    id ∈ m.bench.core.bridge.pending ↔ .loading ⟨id, request⟩ ∈ m.flight id := by
  rw [hm.loading_iff hr]
  constructor
  · intro hid
    refine (hp.pending id hid).resolve_right fun hn => ?_
    rw [ho] at hn
    cases hn
  · rintro ⟨t, ht, rfl⟩
    refine (hp.load t ht).resolve_right fun hcancel => ?_
    rw [hc] at hcancel
    cases hcancel

theorem Known.untold_iff (hm : Known hs m) {id : Nat} {request : FetchRequest}
    (hr : m.bench.core.bridge.accepted? id = some request) :
    Untold hs m id ↔ (∃ image, .copying ⟨id, request⟩ image ∈ m.flight id) ∨
      (∃ c, .queued c ∈ m.flight id) ∨ ∃ c, .omitted c .refused ∈ about id hs := by
  refine or_congr ⟨?_, ?_⟩ (or_congr ⟨?_, ?_⟩ ⟨?_, ?_⟩)
  · rintro ⟨⟨fetch, image⟩, hx, hid⟩
    have hmem : .copying fetch image ∈ m.flight id :=
      mem_flight.2 ⟨mem_flights.2 (.inr (.inl ⟨_, hx, rfl⟩)), hid⟩
    obtain rfl := hm.fetch_eq hr (.inr ⟨image, hmem⟩)
    exact ⟨image, hmem⟩
  · rintro ⟨image, hmem⟩
    rcases mem_flights.1 (mem_flight.1 hmem).1 with ⟨t, -, he⟩ | ⟨x, hx, he⟩ | ⟨c, -, he⟩
    · cases he
    · exact ⟨x, hx, congrArg Accepted.id (Stage.copying.inj he).1⟩
    · cases he
  · rintro ⟨c, hc, hid⟩
    exact ⟨c, mem_flight.2 ⟨mem_flights.2 (.inr (.inr ⟨c, hc, rfl⟩)), hid⟩⟩
  · rintro ⟨c, hmem⟩
    rcases mem_flights.1 (mem_flight.1 hmem).1 with ⟨t, -, he⟩ | ⟨x, -, he⟩ | ⟨c', hc', he⟩
    · cases he
    · cases he
    · obtain rfl := Stage.queued.inj he
      exact ⟨c', hc', (mem_flight.1 hmem).2⟩
  · rintro ⟨c, hid, hmem⟩
    exact ⟨c, mem_about.2 ⟨hmem, congrArg some hid⟩⟩
  · rintro ⟨c, hmem⟩
    obtain ⟨hin, hid⟩ := mem_about.1 hmem
    exact ⟨c, Option.some.inj hid, hin⟩

/-- Nothing is known to be untold of a fetch that was not accepted. -/
theorem Known.accepted_of_untold (hm : Known hs m) {id : Nat} (hu : Untold hs m id) :
    m.bench.core.bridge.accepted? id ≠ none := by
  intro hr
  obtain ⟨hflight, habout⟩ := hm.unborn id hr
  have hnot : ∀ s ∈ m.flights, s.id ≠ id := by
    intro s hs hid
    have hmem : s ∈ m.flight id := mem_flight.2 ⟨hs, hid⟩
    rw [hflight] at hmem
    cases hmem
  rcases hu with ⟨x, hx, hid⟩ | ⟨c, hc, hid⟩ | ⟨c, hid, hmem⟩
  · exact hnot _ (mem_flights.2 (.inr (.inl ⟨x, hx, rfl⟩))) hid
  · exact hnot _ (mem_flights.2 (.inr (.inr ⟨c, hc, rfl⟩))) hid
  · have habout' : .omitted c .refused ∈ about id hs :=
      mem_about.2 ⟨hmem, congrArg some hid⟩
    rw [habout] at habout'
    cases habout'

/-! ## Counting -/

variable (hm : Known hs m) (hp : Pending m) (ho : m.bench.owned = true)

include hm hp ho

/-- What is on the list and not cancelled is awaited. -/
theorem Known.awaited_of_pending {id : Nat} (hid : id ∈ m.bench.core.bridge.pending)
    (hc : m.bench.core.bridge.isCancelled id = false) : id ∈ awaited hs m.bench.core.bridge := by
  have haccepted : m.bench.core.bridge.accepted? id ≠ none := by
    rcases hp.pending id hid with ⟨t, ht, rfl⟩ | hn
    · exact hp.accepted (.loading t.fetch) (mem_flights.2 (.inl ⟨t, ht, rfl⟩))
    · rw [ho] at hn
      cases hn
  obtain ⟨request, hr⟩ := Option.ne_none_iff_exists'.1 haccepted
  have hload := (hm.mem_pending_iff hp ho hr hc).1 hid
  have hfinished := (hm.live id request hr).not_finished_of_loading hload
  rw [← mem_about_iff fun _ _ => Happening.fetch?_of_finished?] at hfinished
  exact mem_awaited.2 ⟨hm.accepted_iff.1 haccepted, hc, hfinished⟩

theorem Known.mem_astray_iff (id : Nat) : id ∈ astray hs m.bench.core.bridge ↔
    m.bench.core.bridge.isCancelled id = false ∧ Untold hs m id := by
  have hd : .dropped ∉ hs := by
    rw [← hm.dropped, ho]
    nofun
  have hsplit : ∀ request, m.bench.core.bridge.accepted? id = some request →
      m.bench.core.bridge.isCancelled id = false →
        (Untold hs m id ↔ id ∉ m.bench.core.bridge.pending ∧
          id ∉ hs.filterMap Happening.finished?) := by
    intro request hr hc
    have hlife := (hm.live id request hr).untold_iff hc hd
    rw [← mem_about_iff fun _ _ => Happening.fetch?_of_finished?] at hlife
    rw [hm.untold_iff hr, hm.mem_pending_iff hp ho hr hc]
    exact hlife
  rw [mem_astray, mem_awaited]
  constructor
  · rintro ⟨⟨haccepted, hc, hfinished⟩, hpending⟩
    obtain ⟨request, hr⟩ := Option.ne_none_iff_exists'.1 (hm.accepted_iff.2 haccepted)
    exact ⟨hc, (hsplit request hr hc).2 ⟨hpending, hfinished⟩⟩
  · rintro ⟨hc, hu⟩
    obtain ⟨request, hr⟩ := Option.ne_none_iff_exists'.1 (hm.accepted_of_untold hu)
    obtain ⟨hpending, hfinished⟩ := (hsplit request hr hc).1 hu
    exact ⟨⟨hm.accepted_iff.1 (hm.accepted_of_untold hu), hc, hfinished⟩, hpending⟩

/-- The two lists agree on what is on the list and not cancelled. -/
theorem Known.balance (hl : Listed hs m.bench.core.bridge) :
    m.bench.core.bridge.pending.length + (astray hs m.bench.core.bridge).length =
      (awaited hs m.bench.core.bridge).length + (stale m.bench.core.bridge).length := by
  have hpending : m.bench.core.bridge.pending.length = (stale m.bench.core.bridge).length +
      (m.bench.core.bridge.pending.filter (!m.bench.core.bridge.isCancelled ·)).length := by
    rw [← List.length_append]
    exact (List.filter_append_perm _ _).length_eq.symm
  have hawaited : (awaited hs m.bench.core.bridge).length =
      ((awaited hs m.bench.core.bridge).filter (m.bench.core.bridge.pending.contains ·)).length +
        (astray hs m.bench.core.bridge).length := by
    rw [← List.length_append]
    exact (List.filter_append_perm _ _).length_eq.symm
  have hshared : (m.bench.core.bridge.pending.filter
      (!m.bench.core.bridge.isCancelled ·)).Perm
      ((awaited hs m.bench.core.bridge).filter (m.bench.core.bridge.pending.contains ·)) := by
    rw [List.perm_ext_iff_of_nodup (hl.nodup.filter _) (hm.awaited_nodup.filter _)]
    intro id
    rw [List.mem_filter, List.mem_filter, Bool.not_eq_true', List.contains_eq_mem,
      decide_eq_true_iff]
    constructor
    · rintro ⟨hid, hc⟩
      exact ⟨hm.awaited_of_pending hp ho hid hc, hid⟩
    · rintro ⟨hid, hin⟩
      exact ⟨hin, (mem_awaited.1 hid).2.1⟩
  have hlen := hshared.length_eq
  omega

theorem Known.counted (hl : Listed hs m.bench.core.bridge) : Counted hs m := by
  have hbalance := hm.balance hp ho hl
  refine ⟨hbalance, by omega, ?_, hm.mem_astray_iff hp ho⟩
  intro id hid
  obtain ⟨hin, hc⟩ := List.mem_filter.1 hid
  exact hl.cancelled id hin hc

end

/-! ## Runs -/

variable [GraphicsContext G] [AdjustableContext G C]

omit [GraphicsContext G] [AdjustableContext G C] in
theorem Counted.mem_astray_of_deferred {b : Bench G C} {hs : List Happening} {loads : List Task}
    (h : Counted hs ⟨b, loads, []⟩) {c : Completion} (hd : c ∈ b.deferred)
    (hc : b.core.bridge.isCancelled c.request = false) :
    c.request ∈ astray hs b.core.bridge :=
  (h.mem_astray_iff c.request).2 ⟨hc, .inr (.inl ⟨c, hd, rfl⟩)⟩

theorem perform_pendingFetches {b : Bench G C} (ho : b.owned = true) :
    (perform (.bridge .pendingFetches) b).1 = .ok (.int b.core.bridge.pending.length) := by
  rw [perform_bridge_eq ho]
  rfl

/-- The number of pending fetches that a bridge answers is that of the fetches accepted and not yet
finished or cancelled exactly if as many cancelled fetches are still on its list as there are
fetches off it whose image the guest has not been told of. -/
theorem pending_exact_iff {b : Bench G C} (hb : b.Fresh) :
    (∀ hs m, History ⟨b, [], []⟩ hs m → m.bench.owned = true → Counted hs m) ∧
      ∀ steps : List (Step C), (run steps b).owned = true →
        ∃ hs loads, History ⟨b, [], []⟩ hs ⟨run steps b, loads, []⟩ ∧
          ((perform (.bridge .pendingFetches) (run steps b)).1 =
              .ok (.int (awaited hs (run steps b).core.bridge).length) ↔
            (stale (run steps b).core.bridge).length =
              (astray hs (run steps b).core.bridge).length) := by
  have hcounted : ∀ hs (m : Moment G C), History ⟨b, [], []⟩ hs m → m.bench.owned = true →
      Counted hs m := fun hs m hh ho =>
    (hb.known hh).counted (hh.pending hb.pending) ho (hh.listed hb.listed)
  refine ⟨hcounted, fun steps ho => ?_⟩
  obtain ⟨loads, hh, -⟩ := history_of_chronicle hb steps
  refine ⟨_, loads, hh, ?_⟩
  rw [perform_pendingFetches ho, ← (hcounted _ _ hh ho).exact_iff]
  constructor
  · intro he
    injection he with he
    injection he with he
    exact Int.ofNat_inj.1 he
  · intro he
    rw [he]

/-- The image is copied and its completion waits: the fetch is awaited, and not counted. -/
theorem pending_exact_iff_of_copied :
    (run (fetchLate ++ [.runTasks]) (scripted 256 true)).owned = true ∧
      (perform (.bridge .pendingFetches) (run (fetchLate ++ [.runTasks]) (scripted 256 true))).1 =
        .ok (.int 0) ∧
      ∃ hs loads,
        History ⟨scripted 256 true, [], []⟩ hs
          ⟨run (fetchLate ++ [.runTasks]) (scripted 256 true), loads, []⟩ ∧
        0 ∈ astray hs (run (fetchLate ++ [.runTasks]) (scripted 256 true)).core.bridge := by
  have hb : (scripted 256 true).Fresh := ⟨rfl, rfl, rfl, rfl, rfl, rfl⟩
  have ho : (run (fetchLate ++ [.runTasks]) (scripted 256 true)).owned = true := by decide +kernel
  have hp : (run (fetchLate ++ [.runTasks]) (scripted 256 true)).core.bridge.pending = [] := by
    decide +kernel
  have hd : (⟨0, .fetch 2 2 8 16 4⟩ : Completion) ∈
    (run (fetchLate ++ [.runTasks]) (scripted 256 true)).deferred := by decide +kernel
  have hc : (run (fetchLate ++ [.runTasks]) (scripted 256 true)).core.bridge.isCancelled 0 =
    false := by decide +kernel
  obtain ⟨hall, hruns⟩ := pending_exact_iff (b := scripted 256 true) hb
  obtain ⟨hs, loads, hh, -⟩ := hruns _ ho
  refine ⟨ho, ?_, hs, loads, hh, ?_⟩
  · rw [perform_pendingFetches ho, hp]
    rfl
  · exact (hall hs _ hh ho).mem_astray_of_deferred hd hc

/-- A fetch that is cancelled on its own is not awaited any more, but counted until its load comes
back. -/
theorem pending_of_cancelled :
    (perform (.bridge .pendingFetches) (run (fetchLate ++ [.cancelRequest 0])
        (scripted 256 true))).1 = .ok (.int 1) ∧
      ∃ hs loads,
        History ⟨scripted 256 true, [], []⟩ hs
          ⟨run (fetchLate ++ [.cancelRequest 0]) (scripted 256 true), loads, []⟩ ∧
        awaited hs (run (fetchLate ++ [.cancelRequest 0]) (scripted 256 true)).core.bridge = [] := by
  have hb : (scripted 256 true).Fresh := ⟨rfl, rfl, rfl, rfl, rfl, rfl⟩
  have ho : (run (fetchLate ++ [.cancelRequest 0]) (scripted 256 true)).owned = true := by
    decide +kernel
  have hp : (run (fetchLate ++ [.cancelRequest 0]) (scripted 256 true)).core.bridge.pending =
    [0] := by decide +kernel
  have hc : ∀ id < (run (fetchLate ++ [.cancelRequest 0])
      (scripted 256 true)).core.bridge.requests.length,
    (run (fetchLate ++ [.cancelRequest 0]) (scripted 256 true)).core.bridge.isCancelled id =
      true := by decide +kernel
  obtain ⟨loads, hh, -⟩ := history_of_chronicle hb (fetchLate ++ [.cancelRequest 0])
  refine ⟨?_, _, loads, hh, (hb.known hh).awaited_eq_nil hc⟩
  rw [perform_pendingFetches ho, hp]
  rfl

end GuestBridge.Bench
