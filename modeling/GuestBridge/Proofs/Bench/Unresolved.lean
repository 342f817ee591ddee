import GuestBridge.Proofs.Bench.Count
import GuestBridge.Proofs.Bench.Deferral
import Mathlib.Data.List.DropRight

/-!
# Unresolved fetches

A fetch is unresolved from its acceptance until the bridge takes up its load, unless the bridge is
shut down before (`unresolved`). The list of pending fetches is that of the unresolved ones, in the
order of their acceptance (`Lists`): taking up a load takes its own fetch off the list and no other
(`TakesOff`), however much alike two fetches are, and a shutdown cancels all that are on the list
and leaves none of them there (`Clears`).
-/

set_option autoImplicit false

namespace GuestBridge.Bench

/-! ## What is unresolved -/

namespace Happening

def isShutDown : Happening → Bool
  | shutDown => true
  | _ => false

/-- The fetch whose load the bridge takes up. -/
def resumed? : Happening → Option Nat
  | ended fetch _ | asked fetch _ => some fetch.id
  | _ => none

theorem fetch?_of_resumed? {h : Happening} {id : Nat} (ht : h.resumed? = some id) :
    h.fetch? = some id := by
  cases h <;> first | exact ht | cases ht

end Happening

/-- What has happened since the last shutdown. -/
def sinceShutdown (hs : List Happening) : List Happening := hs.rtakeWhile fun h => !h.isShutDown

/-- The fetches accepted since the last shutdown whose load the bridge has not taken up, in the
order of their acceptance. -/
def unresolved (hs : List Happening) : List Nat :=
  ((sinceShutdown hs).filterMap Happening.accepted?).filter fun id =>
    !(hs.filterMap Happening.resumed?).contains id

section

variable {hs : List Happening} {h : Happening} {id : Nat}

theorem mem_unresolved : id ∈ unresolved hs ↔
    id ∈ (sinceShutdown hs).filterMap Happening.accepted? ∧
      id ∉ hs.filterMap Happening.resumed? := by
  unfold unresolved
  rw [List.mem_filter, Bool.not_eq_true', List.contains_eq_mem, decide_eq_false_iff_not]

theorem sinceShutdown_concat (hn : h.isShutDown = false) :
    sinceShutdown (hs ++ [h]) = sinceShutdown hs ++ [h] :=
  List.rtakeWhile_concat_pos _ _ _ (by rw [hn]; rfl)

theorem unresolved_shutDown (hs : List Happening) : unresolved (hs ++ [.shutDown]) = [] := by
  have hsince : sinceShutdown (hs ++ [.shutDown]) = [] :=
    List.rtakeWhile_concat_neg _ _ _ (by simp [Happening.isShutDown])
  unfold unresolved
  rw [hsince]
  rfl

/-- What neither accepts a fetch nor takes up a load, nor shuts the bridge down, resolves nothing. -/
theorem unresolved_concat (hn : h.isShutDown = false) (ha : h.accepted? = none)
    (hr : h.resumed? = none) : unresolved (hs ++ [h]) = unresolved hs := by
  unfold unresolved
  rw [sinceShutdown_concat hn, filterMap_concat, filterMap_concat, ha, hr, Option.toList_none,
    List.append_nil, List.append_nil]

theorem unresolved_accepted {fetch : Accepted} (hnew : fetch.id ∉ hs.filterMap Happening.resumed?) :
    unresolved (hs ++ [.accepted fetch]) = unresolved hs ++ [fetch.id] := by
  have haccepted : (Happening.accepted fetch).accepted? = some fetch.id := rfl
  have hresumed : (Happening.accepted fetch).resumed? = none := rfl
  unfold unresolved
  rw [sinceShutdown_concat rfl, filterMap_concat, filterMap_concat, haccepted, hresumed,
    Option.toList_none, List.append_nil, Option.toList_some, List.filter_append,
    List.filter_singleton, List.contains_eq_mem, decide_eq_false hnew]
  rfl

theorem unresolved_resumed (hn : h.isShutDown = false) (ha : h.accepted? = none)
    (hr : h.resumed? = some id) : unresolved (hs ++ [h]) = (unresolved hs).filter (· ≠ id) := by
  unfold unresolved
  rw [sinceShutdown_concat hn, filterMap_concat, filterMap_concat, ha, hr, Option.toList_none,
    List.append_nil, Option.toList_some, List.filter_filter]
  apply List.filter_congr
  intro i _
  simp only [List.contains_eq_mem, List.mem_append, List.mem_singleton, ne_eq]
  by_cases hi : i = id <;> simp [hi]

end

/-! ## The list -/

section

variable {G C : Type} [GraphicsContext G] {m n : Moment G C} {hs : List Happening} {h : Happening}
  {id : Nat}

/-- Whatever happens does the same to the list of pending fetches as to the unresolved ones. -/
theorem Happens.pending_eq_unresolved (hh : Happens m h n) (hm : Known hs m)
    (hp : m.bench.core.bridge.pending = unresolved hs) :
    n.bench.core.bridge.pending = unresolved (hs ++ [h]) := by
  rw [hh.pending_eq]
  cases h with
  | accepted fetch =>
    have hid := hh.of_accepted.2
    have hnew : fetch.id ∉ hs.filterMap Happening.resumed? := by
      -- nothing is known of a fetch before it is accepted
      have hunborn : m.bench.core.bridge.accepted? fetch.id = none :=
        Bridge.accepted?_eq_none.2 (Nat.le_of_eq hid.symm)
      rw [mem_about_iff fun _ _ => Happening.fetch?_of_resumed?, (hm.unborn _ hunborn).2]
      exact List.not_mem_nil
    rw [unresolved_accepted hnew, ← hp, hid]
    rfl
  | shutDown =>
    rw [unresolved_shutDown]
    rfl
  | ended fetch why =>
    have hresumed : (Happening.ended fetch why).resumed? = some fetch.id := rfl
    rw [unresolved_resumed rfl rfl hresumed, ← hp]
    rfl
  | asked fetch image =>
    have hresumed : (Happening.asked fetch image).resumed? = some fetch.id := rfl
    rw [unresolved_resumed rfl rfl hresumed, ← hp]
    rfl
  | _ => rw [unresolved_concat rfl rfl rfl, ← hp]; rfl

theorem History.pending_eq_unresolved {b : Bench G C} (hb : b.Fresh)
    (hh : History ⟨b, [], []⟩ hs m) : m.bench.core.bridge.pending = unresolved hs := by
  induction hh with
  | refl =>
    show b.core.bridge.pending = []
    rw [hb.bridge]
  | quiet before hq ih =>
    show _ = _
    rw [hq.bridge]
    exact ih
  | snoc before now ih => exact now.pending_eq_unresolved (hb.known before) ih

end

/-! ## Loads that are waited for -/

section

variable {b : Bridge} {hs : List Happening} {fetch : Accepted} {stages : List Stage}
  {path : List Happening}

/-- The load of an accepted fetch is taken up unless it is waited for, or came back to no bridge. -/
theorem Life.not_resumed_iff (hl : Life b hs fetch stages path) :
    fetch.id ∉ path.filterMap Happening.resumed? ↔ .loading fetch ∈ stages ∨ .lost fetch ∈ path := by
  cases hl <;> simp [Happening.resumed?, List.filterMap]

theorem Life.accepted_eq (hl : Life b hs fetch stages path) {fetch' : Accepted}
    (h : .accepted fetch' ∈ path) : fetch' = fetch := by
  cases hl <;> simpa using h

theorem Life.dropped_of_lost (hl : Life b hs fetch stages path) {fetch' : Accepted}
    (h : .lost fetch' ∈ path) : .dropped ∈ hs := by
  cases hl with
  | lost hd =>
    obtain ⟨before, after, rfl, hmem⟩ := hd
    exact List.mem_append_left _ hmem
  | _ => simp at h

theorem Life.lost_eq (hl : Life b hs fetch stages path) {fetch' : Accepted}
    (h : .lost fetch' ∈ path) : fetch' = fetch := by
  cases hl <;> simp_all

end

section

variable {G C : Type} {m : Moment G C} {hs : List Happening} {id : Nat} {request : FetchRequest}

/-- The load of an accepted fetch has not been taken up exactly if its task waits for it still, or
ended when the bridge was gone. -/
theorem Known.not_resumed_iff (hm : Known hs m) (ha : id ∈ hs.filterMap Happening.accepted?) :
    id ∉ hs.filterMap Happening.resumed? ↔
      (∃ t ∈ m.loads, t.fetch.id = id) ∨ ∃ fetch, fetch.id = id ∧ .lost fetch ∈ hs := by
  obtain ⟨request, hr⟩ := Option.ne_none_iff_exists'.1 (hm.accepted_iff.2 ha)
  have hlife := hm.live id request hr
  rw [mem_about_iff fun _ _ => Happening.fetch?_of_resumed?]
  refine hlife.not_resumed_iff.trans (or_congr (hm.loading_iff hr) ⟨fun hl => ?_, ?_⟩)
  · exact ⟨_, rfl, (mem_about.1 hl).1⟩
  · rintro ⟨fetch, hid, hl⟩
    have hmem : .lost fetch ∈ about id hs := mem_about.2 ⟨hl, congrArg some hid⟩
    rwa [hlife.lost_eq hmem] at hmem

/-- A fetch that was accepted is on record as it was. -/
theorem Known.accepted?_of_accepted (hm : Known hs m) {fetch : Accepted}
    (ha : .accepted fetch ∈ hs) :
    m.bench.core.bridge.accepted? fetch.id = some fetch.request := by
  have hmem : .accepted fetch ∈ about fetch.id hs := mem_about.2 ⟨ha, rfl⟩
  obtain ⟨request, hr, hlife⟩ := hm.exists_life hmem
  rw [hr, hlife.accepted_eq hmem]

end

/-! ## Taking fetches off the list -/

section

variable {G C : Type} {inner : Performer G C} {b : Bench G C}

theorem bridge_askedFor (h : (b.guest.interludes.take allocatorExport).1 = []) (len : UInt32) :
    (askedFor inner len b).core.bridge = b.core.bridge := by
  have hsteps : ((b.note (.alloc len)).guest.interludes.take allocatorExport).1 = [] := h
  unfold askedFor
  rw [interlude_eq, hsteps]
  rfl

/-- Taking up a load settles its fetch; all else that becomes of the bridge is up to the guest, when
it is asked for room. -/
theorem bridge_complete (inner : Performer G C) (fetch : Accepted)
    (result : Except FetchError DecodedImage) (b : Bench G C) :
    let settled := b.withBridge (·.settle fetch.id)
    let returned := (platform inner).complete fetch result b
    returned.core.bridge = settled.core.bridge ∨
      ∃ len, returned.core.bridge = (askedFor inner len settled).core.bridge := by
  intro settled returned
  rcases he : ending? b.core.bridge fetch.id result with _ | why
  · obtain ⟨image, rfl, hcomplete⟩ := complete_of_image inner he
    obtain ⟨-, ha, hne, hlen⟩ := ending_eq_none he
    refine .inr ⟨.ofNat image.pixels.length, ?_⟩
    rw [show returned = _ from hcomplete]
    obtain ⟨guest, memory, ⟨ptr, hr⟩ | ⟨level, target, text, hr⟩⟩ :=
      copyImage_cases inner fetch (b := settled) ha hne hlen
    · rw [hr]
      rfl
    · rw [hr]
      rfl
  · obtain ⟨level, target, text, hr⟩ := complete_of_ending inner he
    rw [show returned = _ from hr]
    exact .inl rfl

variable [GraphicsContext G] {m n : Moment G C} {hs : List Happening} {h : Happening} {id : Nat}

/-- A fetch leaves the list when its load is taken up, or at a shutdown. -/
theorem Happens.resumed_of_not_pending (hh : Happens m h n)
    (hp : id ∈ m.bench.core.bridge.pending) (hn : id ∉ n.bench.core.bridge.pending) :
    h = .shutDown ∨ h.resumed? = some id := by
  rw [hh.pending_eq] at hn
  have hsettled : ∀ fetch : Accepted, id ∉ (m.bench.core.bridge.settle fetch.id).pending →
      some fetch.id = some id := by
    intro fetch hn
    by_contra hne
    exact hn (List.mem_filter.2 ⟨hp, decide_eq_true fun he => hne (congrArg some he.symm)⟩)
  cases h with
  | accepted fetch => exact absurd (List.mem_append_left _ hp) hn
  | shutDown => exact .inl rfl
  | ended fetch why => exact .inr (hsettled fetch hn)
  | asked fetch image => exact .inr (hsettled fetch hn)
  | _ => exact absurd hp hn

/-- Whether a fetch was accepted and is not pending any more. -/
structure OffList (id : Nat) (m : Moment G C) : Prop where
  accepted : m.bench.core.bridge.accepted? id ≠ none
  notPending : id ∉ m.bench.core.bridge.pending

theorem OffList.step (hm : OffList id m) (hh : Happens m h n) : OffList id n := by
  refine ⟨hh.accepted?_ne_none hm.accepted, ?_⟩
  rw [hh.pending_eq]
  have hnot := hm.notPending
  cases h with
  | accepted fetch =>
    intro hid
    rcases List.mem_append.1 hid with hid | hid
    · exact hnot hid
    · -- what is put on the list was not accepted before
      refine hm.accepted (Bridge.accepted?_eq_none.2 ?_)
      rw [List.mem_singleton.1 hid]
  | shutDown => exact List.not_mem_nil
  | ended fetch why => exact fun hid => hnot (List.mem_of_mem_filter hid)
  | asked fetch image => exact fun hid => hnot (List.mem_of_mem_filter hid)
  | _ => exact hnot

/-- A fetch does not get back on the list. -/
theorem History.offList (hh : History m hs n) (hm : OffList id m) : OffList id n := by
  refine hh.keeps (fun t b hq ht => ?_) (fun _ _ _ now ht => ht.step now) hm
  obtain ⟨ha, hn⟩ := ht
  exact ⟨by rwa [hq.bridge], by rwa [hq.bridge]⟩

end

/-! ## Moments -/

section

variable {G C : Type}

/-- The list of pending fetches at a moment to which a history has led. -/
structure Lists (hs : List Happening) (m : Moment G C) : Prop where
  /-- It is that of the unresolved fetches, in the order of their acceptance, -/
  exact : m.bench.core.bridge.pending = unresolved hs
  /-- with each of them once; -/
  nodup : m.bench.core.bridge.pending.Nodup
  /-- of each the task waits for its load still, or ended when the bridge was gone. -/
  mem_iff (id : Nat) : id ∈ m.bench.core.bridge.pending ↔
    id ∈ (sinceShutdown hs).filterMap Happening.accepted? ∧
      ((∃ t ∈ m.loads, t.fetch.id = id) ∨ ∃ fetch, fetch.id = id ∧ .lost fetch ∈ hs)
  /-- The record of each is that with which it was accepted. -/
  record (id : Nat) (hid : id ∈ m.bench.core.bridge.pending) :
    ∃ fetch, .accepted fetch ∈ sinceShutdown hs ∧ fetch.id = id ∧
      m.bench.core.bridge.accepted? id = some fetch.request

/-- How fetches leave the list, whether or not others are like them. -/
structure TakesOff [GraphicsContext G] (m : Moment G C) : Prop where
  /-- Settling a fetch takes this one off the list, and changes nothing else, -/
  settles (id : Nat) : m.bench.core.bridge.settle id =
    { m.bench.core.bridge with pending := m.bench.core.bridge.pending.erase id }
  /-- nor anything at all if the fetch is not there. -/
  absent (id : Nat) (hid : id ∉ m.bench.core.bridge.pending) :
    m.bench.core.bridge.settle id = m.bench.core.bridge
  /-- Taking up a load does this to the bridge first, and the rest is what the guest does if it is
  asked for room, -/
  completes (inner : Performer G C) (fetch : Accepted) (result : Except FetchError DecodedImage) :
    let settled := m.bench.withBridge (·.settle fetch.id)
    let returned := (platform inner).complete fetch result m.bench
    returned.core.bridge = settled.core.bridge ∨
      ∃ len, returned.core.bridge = (askedFor inner len settled).core.bridge
  /-- which is nothing unless it has steps in store for that. -/
  alone (inner : Performer G C) (fetch : Accepted) (result : Except FetchError DecodedImage)
    (hg : (m.bench.guest.interludes.take allocatorExport).1 = []) :
    ((platform inner).complete fetch result m.bench).core.bridge =
      m.bench.core.bridge.settle fetch.id
  /-- In no other way but by a shutdown does a fetch leave the list. -/
  only (h : Happening) (n : Moment G C) (hh : Happens m h n) (id : Nat)
    (hid : id ∈ m.bench.core.bridge.pending) (hn : id ∉ n.bench.core.bridge.pending) :
    h = .shutDown ∨ h.resumed? = some id

/-- What a shutdown makes of the list. -/
structure Clears [GraphicsContext G] (m : Moment G C) : Prop where
  empties (inner : Performer G C) : ((platform inner).shutdown m.bench).core.bridge.pending = []
  cancels (inner : Performer G C) (id : Nat) (hid : id ∈ m.bench.core.bridge.pending) :
    ∃ request, ((platform inner).shutdown m.bench).core.bridge.requests[id]? = some request ∧
      request.cancelled = true
  /-- However long after it the load of an earlier fetch is taken up, there is nothing to settle. -/
  drained (inner : Performer G C) (hs : List Happening) (n : Moment G C)
    (hh : History { m with bench := (platform inner).shutdown m.bench } hs n) (id : Nat)
    (hid : id < m.bench.core.bridge.requests.length) :
    n.bench.withBridge (·.settle id) = n.bench

variable [GraphicsContext G] {b : Bench G C} {hs : List Happening} {m : Moment G C}

theorem History.lists (hb : b.Fresh) (hh : History ⟨b, [], []⟩ hs m) : Lists hs m := by
  have hm := hb.known hh
  have hexact := hh.pending_eq_unresolved hb
  have hsuffix : sinceShutdown hs <:+ hs := List.rtakeWhile_suffix _ _
  refine ⟨hexact, (hh.listed hb.listed).nodup, fun id => ?_, fun id hid => ?_⟩
  · rw [hexact, mem_unresolved]
    exact and_congr_right fun ha => hm.not_resumed_iff ((hsuffix.sublist.filterMap _).subset ha)
  · rw [hexact, mem_unresolved] at hid
    obtain ⟨h, hmem, ha⟩ := List.mem_filterMap.1 hid.1
    cases h with
    | accepted fetch =>
      obtain rfl := Option.some.inj ha
      exact ⟨fetch, hmem, rfl, hm.accepted?_of_accepted (hsuffix.subset hmem)⟩
    | _ => cases ha

theorem Listed.takesOff (hl : Listed hs m.bench.core.bridge) : TakesOff m := by
  have hcomplete := fun inner fetch result => bridge_complete inner fetch result m.bench
  refine ⟨Bridge.settle_eq hl.nodup, fun _ => Bridge.settle_of_not_mem, hcomplete, ?_,
    fun h n hh id => hh.resumed_of_not_pending⟩
  intro inner fetch result hg
  rcases hcomplete inner fetch result with he | ⟨len, he⟩
  · exact he
  · exact he.trans (bridge_askedFor (b := m.bench.withBridge (·.settle fetch.id)) hg len)

theorem Listed.clears (hl : Listed hs m.bench.core.bridge) : Clears m := by
  refine ⟨fun _ => rfl, fun inner id hid => ?_, fun inner hs' n hh id hid => ?_⟩
  · apply Bridge.exists_of_isCancelled
    show m.bench.core.bridge.cancelPending.isCancelled id = true
    rw [Bridge.isCancelled_cancelPending]
    simp [hid, hl.lt id hid]
  · have hoff : OffList id { m with bench := (platform inner).shutdown m.bench } := by
      refine ⟨?_, List.not_mem_nil⟩
      show m.bench.core.bridge.cancelPending.accepted? id ≠ none
      rw [Bridge.accepted?_cancelPending]
      exact (not_congr Bridge.accepted?_eq_none).2 (Nat.not_le.2 hid)
    show { n.bench with core.bridge := n.bench.core.bridge.settle id } = n.bench
    rw [Bridge.settle_of_not_mem (hh.offList hoff).notPending]

omit [GraphicsContext G] in
/-- As long as the bridge is owned, no load has come back to no bridge. -/
theorem Known.not_lost (hm : Known hs m) (ho : m.bench.owned = true) (fetch : Accepted) :
    .lost fetch ∉ hs := by
  intro hl
  have hmem : .lost fetch ∈ about fetch.id hs := mem_about.2 ⟨hl, rfl⟩
  obtain ⟨request, -, hlife⟩ := hm.exists_life hmem
  have hd := hm.dropped.2 (hlife.dropped_of_lost hmem)
  rw [ho] at hd
  cases hd

end

/-! ## Runs -/

variable {G C : Type} [GraphicsContext G] [AdjustableContext G C]

/-- At every moment of every history the list of pending fetches is that of the unresolved ones,
which leave it one by one as their loads are taken up, and all at once, cancelled, at a shutdown.
On a run of a bridge that is still owned, they are the fetches accepted since the last shutdown
whose tasks are on the queue. -/
theorem pending_unresolved {b : Bench G C} (hb : b.Fresh) :
    (∀ hs m, History ⟨b, [], []⟩ hs m → Lists hs m ∧ TakesOff m ∧ Clears m) ∧
      ∀ steps : List (Step C), ∃ hs loads, History ⟨b, [], []⟩ hs ⟨run steps b, loads, []⟩ ∧
        (run steps b).core.bridge.pending = unresolved hs ∧
          ((run steps b).owned = true → ∀ id, id ∈ (run steps b).core.bridge.pending ↔
            id ∈ (sinceShutdown hs).filterMap Happening.accepted? ∧
              ∃ t ∈ (run steps b).tasks, t.fetch.id = id) := by
  refine ⟨fun hs m hh => ?_, fun steps => ?_⟩
  · have hl := hh.listed hb.listed
    exact ⟨hh.lists hb, hl.takesOff, hl.clears⟩
  · obtain ⟨loads, hh, hp⟩ := history_of_chronicle hb steps
    have hlists := hh.lists hb
    refine ⟨_, loads, hh, hlists.exact, fun ho id => (hlists.mem_iff id).trans ?_⟩
    have hlost : ¬ ∃ fetch : Accepted, fetch.id = id ∧ .lost fetch ∈ chronicle steps b :=
      fun ⟨fetch, _, hl⟩ => (hb.known hh).not_lost ho fetch hl
    rw [or_iff_left hlost]
    simp only [hp.mem_iff]

/-- Two fetches of one address with one token, the first of an image that is not known. -/
def fetchAlike : List (Step ScriptedContext.Change) :=
  [.bridge firstInit, .poke 0 (Text.utf8 "late.png"),
    .bridge (.capability (.fetchBytes 0 8 4)), .setImage "late.png" .pending,
    .bridge (.capability (.fetchBytes 0 8 4))]

/-- The load of the first comes to nothing, and the second stays on the list until a shutdown. -/
theorem pending_unresolved_of_twins :
    (scripted 256 true).Fresh ∧
      (run fetchAlike (scripted 256 true)).core.bridge.requests =
        [⟨4, "late.png", false⟩, ⟨4, "late.png", false⟩] ∧
      (run fetchAlike (scripted 256 true)).core.bridge.pending = [0, 1] ∧
      (run (fetchAlike ++ [.runTasks]) (scripted 256 true)).core.bridge.pending = [1] ∧
      (run (fetchAlike ++ [.runTasks, .bridge .shutdown]) (scripted 256 true)).core.bridge.requests =
        [⟨4, "late.png", false⟩, ⟨4, "late.png", true⟩] ∧
      ∃ hs loads, History ⟨scripted 256 true, [], []⟩ hs
          ⟨run (fetchAlike ++ [.runTasks]) (scripted 256 true), loads, []⟩ ∧
        unresolved hs = [1] := by
  have hb : (scripted 256 true).Fresh := ⟨rfl, rfl, rfl, rfl, rfl, rfl⟩
  have hp : (run (fetchAlike ++ [.runTasks]) (scripted 256 true)).core.bridge.pending = [1] := by
    decide +kernel
  obtain ⟨-, hruns⟩ := pending_unresolved (b := scripted 256 true) hb
  obtain ⟨hs, loads, hh, hexact, -⟩ := hruns (fetchAlike ++ [.runTasks])
  refine ⟨hb, by decide +kernel, by decide +kernel, hp, by decide +kernel, hs, loads, hh, ?_⟩
  rw [← hexact, hp]

end GuestBridge.Bench
