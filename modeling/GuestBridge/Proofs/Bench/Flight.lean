import GuestBridge.Proofs.Bench.Chronicle

/-!
# Fetches in flight

An accepted fetch is in flight while its load is waited for, while its image is being copied, and
while its completion is queued (`Stage`). `Moment.flights` lists the stages of all fetches in
flight; a happening takes at most one stage out of it and puts at most one in
(`Happens.flights_perm`). What became of a fetch is told by the part of the history that is about
it, `about`.
-/

set_option autoImplicit false

namespace GuestBridge

namespace Bench

/-- How far a fetch in flight has come. -/
inductive Stage
  | loading (fetch : Accepted)
  | copying (fetch : Accepted) (image : DecodedImage)
  | queued (c : Completion)

def Stage.id : Stage → Nat
  | loading fetch | copying fetch _ => fetch.id
  | queued c => c.request

namespace Happening

/-- The identity of the fetch that a happening is about. -/
def fetch? : Happening → Option Nat
  | accepted fetch | lost fetch | ended fetch _ | asked fetch _ | copied fetch _ _
  | failed fetch _ => some fetch.id
  | told c | omitted c _ => some c.request
  | _ => none

/-- The stage that a fetch leaves. -/
def leaves : Happening → List Stage
  | lost fetch | ended fetch _ | asked fetch _ => [.loading fetch]
  | copied fetch image _ | failed fetch image => [.copying fetch image]
  | told c | omitted c _ => [.queued c]
  | _ => []

/-- The stage that a fetch comes to. -/
def reaches : Happening → List Stage
  | accepted fetch => [.loading fetch]
  | asked fetch image => [.copying fetch image]
  | copied fetch image ptr => [.queued (completion fetch image ptr)]
  | _ => []

end Happening

/-- The part of a history that is about a fetch. -/
def about (id : Nat) (hs : List Happening) : List Happening := hs.filter (·.fetch? = some id)

theorem about_concat (id : Nat) (hs : List Happening) (h : Happening) :
    about id (hs ++ [h]) = about id hs ++ if h.fetch? = some id then [h] else [] := by
  unfold about
  rw [List.filter_append, List.filter_singleton]
  simp

end Bench

namespace Moment

variable {G C : Type}

/-- The stages of the fetches in flight. -/
def flights (m : Moment G C) : List Bench.Stage :=
  m.loads.map (.loading ·.fetch) ++ m.copying.map (fun x => .copying x.1 x.2) ++
    m.bench.deferred.map .queued

/-- The stages at which a fetch is. -/
def flight (m : Moment G C) (id : Nat) : List Bench.Stage := m.flights.filter (·.id = id)

end Moment

namespace Bench

variable {G C : Type} [GraphicsContext G] {m n : Moment G C} {h : Happening}

/-! ## Stages -/

omit [GraphicsContext G] in
theorem Quiet.flights_eq {b : Bench G C} (hq : Quiet m.bench b) :
    ({ m with bench := b } : Moment G C).flights = m.flights := by
  unfold Moment.flights
  rw [hq.deferred]

omit [GraphicsContext G] in
theorem flights_perm_of_load {t : Task} (ht : t ∈ m.loads) : m.flights.Perm
    (.loading t.fetch :: ({ m with loads := m.loads.erase t } : Moment G C).flights) :=
  (((List.perm_cons_erase ht).map _).append_right _).append_right _

omit [GraphicsContext G] in
theorem flights_perm_of_copying {fetch : Accepted} {image : DecodedImage}
    {rest : List (Accepted × DecodedImage)} (hc : m.copying = (fetch, image) :: rest) :
    m.flights.Perm
      (.copying fetch image :: ({ m with copying := rest } : Moment G C).flights) := by
  unfold Moment.flights
  rw [hc]
  simp only [List.map_cons, List.append_assoc, List.cons_append]
  exact List.perm_middle

omit [GraphicsContext G] in
theorem flights_perm_of_deferred {c : Completion} {rest : List Completion}
    (hd : m.bench.deferred = c :: rest) : m.flights.Perm
      (.queued c :: ({ m with bench.deferred := rest } : Moment G C).flights) := by
  unfold Moment.flights
  rw [hd]
  exact List.perm_middle

theorem Happens.flights_perm (hh : Happens m h n) :
    ∃ rest, m.flights.Perm (h.leaves ++ rest) ∧ n.flights.Perm (h.reaches ++ rest) := by
  cases hh with
  | accepted c hr =>
    refine ⟨m.flights, .refl _, ?_⟩
    unfold Moment.flights
    simp only [List.map_append, List.map_cons, List.map_nil, List.append_assoc,
      Happening.reaches]
    exact List.perm_middle
  | lost ht hl => exact ⟨_, flights_perm_of_load ht, .refl _⟩
  | ended ht hl hr he => exact ⟨_, flights_perm_of_load ht, .refl _⟩
  | asked ht hl hr he =>
    refine ⟨_, flights_perm_of_load ht, ?_⟩
    unfold Moment.flights
    simp only [List.map_cons, List.append_assoc, List.cons_append, Happening.reaches]
    exact List.perm_middle
  | copied hc hg hs =>
    obtain ⟨guest, memory, rfl, -⟩ := of_grant hg
    refine ⟨_, flights_perm_of_copying hc, ?_⟩
    unfold Moment.flights defer note
    simp only [List.map_append, List.map_cons, List.map_nil, Happening.reaches]
    rw [← List.append_assoc]
    exact List.perm_append_singleton _ _
  | failed hc hg hs =>
    obtain ⟨guest, memory, rfl, -⟩ := of_grant hg
    exact ⟨_, flights_perm_of_copying hc, .refl _⟩
  | told hd ho => exact ⟨_, flights_perm_of_deferred hd, .refl _⟩
  | omitted hd ho => exact ⟨_, flights_perm_of_deferred hd, .refl _⟩
  | _ => exact ⟨m.flights, .refl _, .refl _⟩

theorem Happening.fetch?_eq {s : Stage} (hs : s ∈ h.leaves ++ h.reaches) :
    h.fetch? = some s.id := by
  cases h <;> simp only [leaves, reaches, List.cons_append, List.nil_append, List.mem_cons,
    List.not_mem_nil, or_false] at hs
  case asked | copied => rcases hs with rfl | rfl <;> rfl
  all_goals
    subst hs
    rfl

theorem Happening.leaves_eq {id : Nat} (hid : h.fetch? = some id)
    (hne : ∀ fetch, h = .accepted fetch → fetch.id ≠ id) : ∃ s, h.leaves = [s] := by
  cases h with
  | accepted fetch => exact absurd (Option.some.inj hid) (hne fetch rfl)
  | lost | ended | asked | copied | failed | told | omitted => exact ⟨_, rfl⟩
  | _ => cases hid

theorem Happening.length_le (h : Happening) : h.leaves.length ≤ 1 ∧ h.reaches.length ≤ 1 := by
  cases h <;> simp [leaves, reaches]

theorem Happening.filter_eq_self {id : Nat} (hid : h.fetch? = some id) {stages : List Stage}
    (hs : ∀ s ∈ stages, s ∈ h.leaves ++ h.reaches) : stages.filter (·.id = id) = stages := by
  refine List.filter_eq_self.2 fun s hm => ?_
  have he := (Happening.fetch?_eq (hs s hm)).symm.trans hid
  simpa using Option.some.inj he

theorem Happening.filter_eq_nil {id : Nat} (hid : h.fetch? ≠ some id) {stages : List Stage}
    (hs : ∀ s ∈ stages, s ∈ h.leaves ++ h.reaches) : stages.filter (·.id = id) = [] := by
  refine List.filter_eq_nil_iff.2 fun s hm => ?_
  have hne : s.id ≠ id := fun he => hid (he ▸ Happening.fetch?_eq (hs s hm))
  simpa using hne

theorem eq_of_perm_of_length_le {α : Type} {l l' : List α} (hp : l'.Perm l) (hl : l.length ≤ 1) :
    l' = l := by
  match l, hl with
  | [], _ => exact hp.eq_nil
  | [_], _ => exact hp.eq_singleton

theorem Happens.flight_perm_of_ne (hh : Happens m h n) {id : Nat} (hid : h.fetch? ≠ some id) :
    (n.flight id).Perm (m.flight id) := by
  obtain ⟨rest, hm, hn⟩ := hh.flights_perm
  have hm' := hm.filter (·.id = id)
  have hn' := hn.filter (·.id = id)
  rw [List.filter_append, Happening.filter_eq_nil hid fun _ => List.mem_append_left _] at hm'
  rw [List.filter_append, Happening.filter_eq_nil hid fun _ => List.mem_append_right _] at hn'
  exact hn'.trans hm'.symm

/-- A fetch that is at no other stage leaves the one at which it was and comes to the next. -/
theorem Happens.flight_eq (hh : Happens m h n) {id : Nat} (hid : h.fetch? = some id)
    (hm : (m.flight id).length ≤ h.leaves.length) :
    m.flight id = h.leaves ∧ n.flight id = h.reaches := by
  obtain ⟨rest, hp, hp'⟩ := hh.flights_perm
  have hm' := hp.filter (·.id = id)
  have hn' := hp'.filter (·.id = id)
  rw [List.filter_append, Happening.filter_eq_self hid fun _ => List.mem_append_left _] at hm'
  rw [List.filter_append, Happening.filter_eq_self hid fun _ => List.mem_append_right _] at hn'
  have hrest : rest.filter (·.id = id) = [] := by
    have hlen := hm'.length_eq
    rw [List.length_append] at hlen
    unfold Moment.flight at hm
    exact List.length_eq_zero_iff.1 (by omega)
  rw [hrest, List.append_nil] at hm' hn'
  exact ⟨eq_of_perm_of_length_le hm' h.length_le.1, eq_of_perm_of_length_le hn' h.length_le.2⟩

/-! ## Requests -/

theorem Happens.of_accepted {fetch : Accepted} (hh : Happens m (.accepted fetch) n) :
    fetch.request.cancelled = false ∧ fetch.id = m.bench.core.bridge.requests.length := by
  cases hh with
  | accepted c hr =>
    rcases c.run_cases m.bench.core with ⟨request, text, hn, hr'⟩ | ⟨hn, -⟩
    · rw [hr] at hr'
      simp only [Prod.mk.injEq, Except.ok.injEq, Capability.Result.accepted.injEq] at hr'
      rw [hr'.1]
      exact ⟨hn, rfl⟩
    · exact absurd (by rw [hr]) (hn _)

/-- A request stays as it was accepted, and only an acceptance adds one. -/
theorem Happens.accepted?_eq (hh : Happens m h n) (id : Nat) :
    (∃ fetch, h = .accepted fetch ∧ fetch.id = id ∧
      m.bench.core.bridge.accepted? id = none ∧
      n.bench.core.bridge.accepted? id = some fetch.request) ∨
    (∀ fetch, h = .accepted fetch → fetch.id ≠ id) ∧
      n.bench.core.bridge.accepted? id = m.bench.core.bridge.accepted? id := by
  obtain ⟨registry, hb⟩ := hh.bridge_eq
  have hn : n.bench.core.bridge.accepted? id =
      (h.onBridge m.bench.core.bridge).accepted? id := by
    rw [hb]
    rfl
  rw [hn]
  cases h with
  | accepted fetch =>
    obtain ⟨hc, hid⟩ := hh.of_accepted
    rw [Happening.onBridge, Bridge.accepted?_accept _ hc]
    by_cases h : id = m.bench.core.bridge.requests.length
    · refine .inl ⟨fetch, rfl, by rw [hid, h], ?_, if_pos h⟩
      exact Bridge.accepted?_eq_none.2 (Nat.le_of_eq h.symm)
    · refine .inr ⟨?_, if_neg h⟩
      rintro _ ⟨⟩ rfl
      exact h hid
  | cancelled i => exact .inr ⟨by simp, Bridge.accepted?_cancel _ i id⟩
  | shutDown => exact .inr ⟨by simp, Bridge.accepted?_cancelPending _ id⟩
  | _ => exact .inr ⟨by simp, rfl⟩

theorem Happens.isCancelled_of_isCancelled (hh : Happens m h n) {id : Nat}
    (hc : m.bench.core.bridge.isCancelled id = true) :
    n.bench.core.bridge.isCancelled id = true := by
  obtain ⟨registry, hb⟩ := hh.bridge_eq
  have hn : n.bench.core.bridge.isCancelled id =
      (h.onBridge m.bench.core.bridge).isCancelled id := by
    rw [hb]
    rfl
  rw [hn]
  cases h with
  | accepted fetch =>
    rw [Happening.onBridge, Bridge.isCancelled_accept _ hh.of_accepted.1]
    exact hc
  | cancelled i =>
    rw [Happening.onBridge, Bridge.isCancelled_cancel, hc, Bool.true_or]
  | shutDown =>
    rw [Happening.onBridge, Bridge.isCancelled_cancelPending, hc, Bool.true_or]
  | _ => exact hc

theorem Happens.owned_iff (hh : Happens m h n) :
    n.bench.owned = false ↔ m.bench.owned = false ∨ .dropped = h := by
  cases hh with
  | dropped => simp
  | copied hc hg hs =>
    obtain ⟨guest, memory, rfl, -⟩ := of_grant hg
    exact (or_iff_left (by simp)).symm
  | failed hc hg hs =>
    obtain ⟨guest, memory, rfl, -⟩ := of_grant hg
    exact (or_iff_left (by simp)).symm
  | _ => exact (or_iff_left (by simp)).symm

end Bench

end GuestBridge
