import GuestBridge.Proofs.Bench.Flight

/-!
# The life of a fetch

`Life b hs fetch stages path` says what can become of an accepted fetch: where it is in flight,
and what of the history is about it. Every fetch has a life at every moment of every history
(`History.lives`): no happening loses one, or carries on with one that has come to its end.
-/

set_option autoImplicit false

namespace GuestBridge.Bench

/-! ## Lives -/

/-- Whether something happens after what satisfies `p`. -/
def ComesAfter (p : List Happening → Prop) (h : Happening) (hs : List Happening) : Prop :=
  ∃ before after, hs = before ++ h :: after ∧ p before

theorem comesAfter_concat {p : List Happening → Prop} {hs : List Happening} (hp : p hs)
    (h : Happening) : ComesAfter p h (hs ++ [h]) :=
  ⟨hs, [], rfl, hp⟩

theorem ComesAfter.concat {p : List Happening → Prop} {h : Happening} {hs : List Happening}
    (hc : ComesAfter p h hs) (next : Happening) : ComesAfter p h (hs ++ [next]) := by
  obtain ⟨before, after, rfl, hp⟩ := hc
  exact ⟨before, after ++ [next], by rw [List.append_assoc, List.cons_append], hp⟩

/-- What excuses that the guest is not told of an image: the bridge had been let go before, the
fetch is cancelled, or the guest had not started before. -/
def Omission.Excused (b : Bridge) (hs : List Happening) (c : Completion) : Omission → Prop
  | gone => ComesAfter (.dropped ∈ ·) (.omitted c .gone) hs
  | cancelled => b.isCancelled c.request = true
  | refused => ComesAfter (.started ∉ ·) (.omitted c .refused) hs

/-- What can become of a fetch. -/
inductive Life (b : Bridge) (hs : List Happening) (fetch : Accepted) :
    List Stage → List Happening → Prop
  /-- Its load has not been taken up. -/
  | loading : Life b hs fetch [.loading fetch] [.accepted fetch]
  | copying (image : DecodedImage) :
    Life b hs fetch [.copying fetch image] [.accepted fetch, .asked fetch image]
  /-- Its image is copied and its completion waits. -/
  | queued (image : DecodedImage) (ptr : UInt32) :
    Life b hs fetch [.queued (completion fetch image ptr)]
      [.accepted fetch, .asked fetch image, .copied fetch image ptr]
  /-- Its load came back after the bridge had been let go. -/
  | lost (hd : ComesAfter (.dropped ∈ ·) (.lost fetch) hs) :
    Life b hs fetch [] [.accepted fetch, .lost fetch]
  /-- There was nothing to copy. -/
  | ended (why : Ending) (hg : why ≠ .noGuest)
    (hc : why = .cancelled → b.isCancelled fetch.id = true) :
    Life b hs fetch [] [.accepted fetch, .ended fetch why]
  | failed (image : DecodedImage) :
    Life b hs fetch [] [.accepted fetch, .asked fetch image, .failed fetch image]
  | told (image : DecodedImage) (ptr : UInt32) :
    Life b hs fetch [] [.accepted fetch, .asked fetch image, .copied fetch image ptr,
      .told (completion fetch image ptr)]
  | omitted (image : DecodedImage) (ptr : UInt32) (why : Omission)
    (he : why.Excused b hs (completion fetch image ptr)) :
    Life b hs fetch [] [.accepted fetch, .asked fetch image, .copied fetch image ptr,
      .omitted (completion fetch image ptr) why]

variable {b b' : Bridge} {hs : List Happening} {fetch : Accepted} {stages : List Stage}
  {path : List Happening}

theorem Omission.Excused.mono {c : Completion} {why : Omission} (he : why.Excused b hs c)
    (hb : b.isCancelled c.request = true → b'.isCancelled c.request = true) (h : Happening) :
    why.Excused b' (hs ++ [h]) c := by
  cases why with
  | gone => exact ComesAfter.concat he h
  | cancelled => exact hb he
  | refused => exact ComesAfter.concat he h

theorem Life.mono (hl : Life b hs fetch stages path)
    (hb : b.isCancelled fetch.id = true → b'.isCancelled fetch.id = true) (h : Happening) :
    Life b' (hs ++ [h]) fetch stages path := by
  cases hl with
  | loading => exact .loading
  | copying image => exact .copying image
  | queued image ptr => exact .queued image ptr
  | lost hd => exact .lost (hd.concat h)
  | ended why hg hc => exact .ended why hg fun he => hb (hc he)
  | failed image => exact .failed image
  | told image ptr => exact .told image ptr
  | omitted image ptr why he => exact .omitted image ptr why (he.mono hb h)

theorem Life.length_le (hl : Life b hs fetch stages path) : stages.length ≤ 1 := by
  cases hl <;> simp

/-! ## What happens to a life -/

/-- What has to hold for some happenings to be a fetch's next. -/
def Happening.Warranted (b : Bridge) (hs : List Happening) : Happening → Prop
  | lost _ => .dropped ∈ hs
  | ended fetch why => why ≠ .noGuest ∧ (why = .cancelled → b.isCancelled fetch.id = true)
  | omitted _ .gone => .dropped ∈ hs
  | omitted c .cancelled => b.isCancelled c.request = true
  | omitted _ .refused => .started ∉ hs
  | _ => True

theorem Happening.Warranted.excused {c : Completion} {why : Omission}
    (hw : (Happening.omitted c why).Warranted b hs) :
    why.Excused b (hs ++ [.omitted c why]) c := by
  cases why with
  | gone => exact comesAfter_concat hw _
  | cancelled => exact hw
  | refused => exact comesAfter_concat hw _

theorem Life.step {s : Stage} {h : Happening} (hl : Life b hs fetch [s] path)
    (hs' : h.leaves = [s]) (hw : h.Warranted b' hs) :
    Life b' (hs ++ [h]) fetch h.reaches (path ++ [h]) := by
  cases h with
  | lost fetch' =>
    cases hs'
    cases hl
    exact .lost (comesAfter_concat hw _)
  | ended fetch' why =>
    cases hs'
    cases hl
    exact .ended why hw.1 hw.2
  | asked fetch' image =>
    cases hs'
    cases hl
    exact .copying image
  | copied fetch' image ptr =>
    cases hs'
    cases hl
    exact .queued image ptr
  | failed fetch' image =>
    cases hs'
    cases hl
    exact .failed image
  | told c =>
    cases hs'
    cases hl
    exact .told _ _
  | omitted c why =>
    cases hs'
    cases hl
    exact .omitted _ _ why hw.excused
  | _ => cases hs'

/-! ## Lives along a history -/

theorem of_ending {b : Bridge} {id : Nat} {r : Except FetchError DecodedImage} {why : Ending}
    (he : ending? b id r = some why) :
    (why = .noGuest → b.attached = false) ∧ (why = .cancelled → b.isCancelled id = true) := by
  unfold ending? at he
  split at he
  · cases he
    exact ⟨nofun, fun _ => ‹_›⟩
  · refine ⟨?_, ?_⟩ <;>
    · rintro rfl
      repeat' split at he
      all_goals cases he
      try assumption

variable {G C : Type}

theorem of_omission {b : Bench G C} {c : Completion} {why : Omission}
    (ho : omission? b c = some why) :
    (why = .gone → b.owned = false) ∧
      (why = .cancelled → b.core.bridge.isCancelled c.request = true) ∧
      (why = .refused → b.core.bridge.attached = true → b.core.bridge.phase ≠ .running) := by
  unfold omission? at ho
  split at ho
  · rename_i hl
    cases ho
    exact ⟨fun _ => (by simpa [isAlive] using hl : _ ∧ _).1, nofun, nofun⟩
  · split at ho
    · cases ho
      exact ⟨nofun, fun _ => ‹_›, nofun⟩
    · split at ho
      · rename_i hr
        cases ho
        refine ⟨nofun, nofun, fun _ ha hp => ?_⟩
        rcases hr with hr | hr
        · simp [Bridge.admits, hp] at hr
        · rw [ha] at hr
          cases hr
      · cases ho

variable [GraphicsContext G] {m n : Moment G C} {h : Happening}

/-- What is known at a moment to which a history has led. -/
structure Lives (hs : List Happening) (m : Moment G C) : Prop where
  attached : m.bench.core.bridge.attached = true
  dropped : m.bench.owned = false ↔ .dropped ∈ hs
  started : m.bench.core.bridge.phase = .running ↔ .started ∈ hs
  live (id : Nat) (request : FetchRequest) : m.bench.core.bridge.accepted? id = some request →
    Life m.bench.core.bridge hs ⟨id, request⟩ (m.flight id) (about id hs)
  unborn (id : Nat) : m.bench.core.bridge.accepted? id = none →
    m.flight id = [] ∧ about id hs = []

theorem Lives.warranted (hm : Lives hs m) (hh : Happens m h n) :
    h.Warranted n.bench.core.bridge hs := by
  cases hh with
  | lost ht hl => exact hm.dropped.1 (by simpa [isAlive] using hl : _ ∧ _).1
  | ended ht hl hr he =>
    obtain ⟨hg, hc⟩ := of_ending he
    refine ⟨?_, hc⟩
    rintro rfl
    rw [hm.attached] at hg
    cases hg rfl
  | omitted hd ho =>
    rename_i why
    obtain ⟨hg, hc, hr⟩ := of_omission ho
    cases why with
    | gone => exact hm.dropped.1 (hg rfl)
    | cancelled => exact hc rfl
    | refused => exact fun hs => hr rfl hm.attached (hm.started.2 hs)
  | _ => trivial

/-- Whatever happens next, every fetch has a life. -/
theorem Lives.life (hm : Lives hs m) (hh : Happens m h n) {id : Nat} {request : FetchRequest}
    (hr : n.bench.core.bridge.accepted? id = some request) :
    Life n.bench.core.bridge (hs ++ [h]) ⟨id, request⟩ (n.flight id) (about id (hs ++ [h])) := by
  rw [about_concat]
  rcases hh.accepted?_eq id with ⟨fetch, rfl, hid, hm', hn⟩ | ⟨hne, hn⟩
  · -- The fetch is new.
    obtain rfl : fetch.request = request := Option.some.inj (hn.symm.trans hr)
    obtain ⟨hflight, habout⟩ := hm.unborn id hm'
    rw [(hh.flight_eq (congrArg some hid) (by simp [hflight])).2, habout]
    subst hid
    rw [if_pos (by rfl), List.nil_append]
    exact .loading
  · have hl := hm.live id request (hn ▸ hr)
    by_cases hid : h.fetch? = some id
    · obtain ⟨s, hs⟩ := Happening.leaves_eq hid hne
      obtain ⟨hflight, hflight'⟩ := hh.flight_eq hid (by rw [hs]; exact hl.length_le)
      rw [hflight, hs] at hl
      rw [hflight', if_pos hid]
      exact hl.step hs (hm.warranted hh)
    · rw [if_neg hid, List.append_nil,
        eq_of_perm_of_length_le (hh.flight_perm_of_ne hid) hl.length_le]
      exact hl.mono hh.isCancelled_of_isCancelled h

theorem Happens.unborn (hh : Happens m h n) (hm : Lives hs m) {id : Nat}
    (hn : n.bench.core.bridge.accepted? id = none) :
    n.flight id = [] ∧ about id (hs ++ [h]) = [] := by
  rcases hh.accepted?_eq id with ⟨fetch, rfl, hid, -, hs⟩ | ⟨hne, he⟩
  · rw [hs] at hn
    cases hn
  · obtain ⟨hflight, habout⟩ := hm.unborn id (he ▸ hn)
    have hid : h.fetch? ≠ some id := by
      intro hid
      obtain ⟨s, hs⟩ := Happening.leaves_eq hid hne
      have hfl := (hh.flight_eq hid (by simp [hflight])).1
      rw [hflight, hs] at hfl
      cases hfl
    refine ⟨(hflight ▸ hh.flight_perm_of_ne hid).eq_nil, ?_⟩
    rw [about_concat, habout, if_neg hid]
    rfl

theorem Happens.running_iff (hh : Happens m h n) :
    n.bench.core.bridge.phase = .running ↔
      m.bench.core.bridge.phase = .running ∨ .started = h := by
  obtain ⟨registry, hb⟩ := hh.bridge_eq
  rw [hb]
  cases h with
  | started => exact iff_of_true rfl (.inr rfl)
  | shutDown =>
    obtain ⟨requests, he, -⟩ := Bridge.cancelPending_eq m.bench.core.bridge
    rw [Happening.onBridge, he]
    exact (or_iff_left (by simp)).symm
  | _ => exact (or_iff_left (by simp)).symm

theorem Lives.step (hm : Lives hs m) (hh : Happens m h n) : Lives (hs ++ [h]) n where
  attached := hh.attached_of_attached hm.attached
  dropped := by rw [hh.owned_iff, hm.dropped, List.mem_append, List.mem_singleton]
  started := by rw [hh.running_iff, hm.started, List.mem_append, List.mem_singleton]
  live _ _ := hm.life hh
  unborn _ := hh.unborn hm

omit [GraphicsContext G] in
theorem Lives.of_quiet {b : Bench G C} (hm : Lives hs m) (hq : Quiet m.bench b) :
    Lives hs { m with bench := b } := by
  have hf : ∀ id, ({ m with bench := b } : Moment G C).flight id = m.flight id := by
    intro id
    unfold Moment.flight
    rw [hq.flights_eq]
  obtain ⟨ha, hd, hst, hl, hu⟩ := hm
  constructor
  · rwa [hq.bridge]
  · rwa [hq.owned]
  · rwa [hq.bridge]
  · intro id request hr
    rw [hf, hq.bridge]
    exact hl id request (hq.bridge ▸ hr)
  · intro id hr
    rw [hf]
    exact hu id (hq.bridge ▸ hr)

theorem History.lives (hh : History m hs n) (hm : Lives [] m) : Lives hs n := by
  induction hh with
  | refl => exact hm
  | quiet before hq ih => exact ih.of_quiet hq
  | snoc before now ih => exact ih.step now

omit [GraphicsContext G] in
theorem Fresh.lives {b : Bench G C} (hb : b.Fresh) (ha : b.core.bridge.attached = true) :
    Lives [] (⟨b, [], []⟩ : Moment G C) where
  attached := ha
  dropped := by simp [hb.owned]
  started := by
    rw [hb.bridge]
    simp
  live id request hr := by
    rw [hb.bridge] at hr
    cases hr
  unborn id _ := ⟨by simp [Moment.flight, Moment.flights, hb.deferred], rfl⟩

/-! ## What a history tells of a fetch -/

theorem mem_about {h : Happening} {id : Nat} :
    h ∈ about id hs ↔ h ∈ hs ∧ h.fetch? = some id := by
  unfold about
  rw [List.mem_filter, decide_eq_true_iff]

/-- What a history tells of a fetch, by whatever tells of it, is told by the part that is about it.
-/
theorem count_about {f : Happening → Option Nat}
    (hf : ∀ h i, f h = some i → h.fetch? = some i) (id : Nat) (hs : List Happening) :
    ((about id hs).filterMap f).count id = (hs.filterMap f).count id := by
  induction hs with
  | nil => rfl
  | cons h hs ih =>
    unfold about at ih ⊢
    by_cases hid : h.fetch? = some id
    · rw [List.filter_cons_of_pos (by simpa using hid)]
      rcases ht : f h with _ | i <;> simp [ht, ih, List.count_cons]
    · rw [List.filter_cons_of_neg (by simpa using hid), ih]
      rcases ht : f h with _ | i
      · simp [ht]
      · have hne : i ≠ id := by
          rintro rfl
          exact hid (hf h i ht)
        simp [ht, hne]

theorem mem_about_iff {f : Happening → Option Nat}
    (hf : ∀ h i, f h = some i → h.fetch? = some i) {id : Nat} {hs : List Happening} :
    id ∈ hs.filterMap f ↔ id ∈ (about id hs).filterMap f := by
  rw [← List.count_pos_iff, ← List.count_pos_iff, count_about hf]

end GuestBridge.Bench
