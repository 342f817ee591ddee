import GuestBridge.Proofs.Bench.Flight

/-!
# Pending fetches

`Pending m` is what is known of the fetches in flight at every moment of a history: each is at one
stage only, and the fetches that the bridge holds pending are those whose load has not been taken
up (`History.pending`). Two things make an exception: a load whose fetch is cancelled may not be
pending any more, and nobody settles what is taken up when the bridge is gone.
-/

set_option autoImplicit false

namespace GuestBridge.Bench

variable {G C : Type} [GraphicsContext G] {m n : Moment G C} {h : Happening}

structure Pending (m : Moment G C) : Prop where
  /-- Each fetch is at one stage only. -/
  distinct : (m.flights.map Stage.id).Nodup
  accepted (s : Stage) (hs : s ∈ m.flights) : m.bench.core.bridge.accepted? s.id ≠ none
  load (t : Task) (ht : t ∈ m.loads) : t.fetch.id ∈ m.bench.core.bridge.pending ∨
    m.bench.core.bridge.isCancelled t.fetch.id = true
  pending (id : Nat) (hid : id ∈ m.bench.core.bridge.pending) :
    (∃ t ∈ m.loads, t.fetch.id = id) ∨ m.bench.owned = false

/-! ## Stages -/

theorem Happening.reaches_sublist (hn : ∀ fetch, h ≠ .accepted fetch) :
    (h.reaches.map Stage.id).Sublist (h.leaves.map Stage.id) := by
  cases h with
  | accepted fetch => exact absurd rfl (hn fetch)
  | asked | copied => exact .refl _
  | _ => exact List.nil_sublist _

theorem Happens.accepted?_ne_none (hh : Happens m h n) {id : Nat}
    (hid : m.bench.core.bridge.accepted? id ≠ none) : n.bench.core.bridge.accepted? id ≠ none := by
  rcases hh.accepted?_eq id with ⟨_, -, -, hm, -⟩ | ⟨-, hn⟩
  · exact absurd hm hid
  · rwa [hn]

theorem Pending.distinct_step (hm : Pending m) (hh : Happens m h n) :
    (n.flights.map Stage.id).Nodup ∧
      ∀ s ∈ n.flights, n.bench.core.bridge.accepted? s.id ≠ none := by
  obtain ⟨rest, hp, hp'⟩ := hh.flights_perm
  have hids := (hp.map Stage.id).nodup_iff.1 hm.distinct
  have hin : ∀ s ∈ h.leaves ++ rest, n.bench.core.bridge.accepted? s.id ≠ none := fun s hs =>
    hh.accepted?_ne_none (hm.accepted s (hp.mem_iff.2 hs))
  have hperm := hp'.map Stage.id
  rw [List.map_append] at hids hperm
  by_cases hnew : ∃ fetch, h = .accepted fetch
  · obtain ⟨fetch, rfl⟩ := hnew
    rcases hh.accepted?_eq fetch.id with ⟨_, ⟨⟩, -, hnone, hsome⟩ | ⟨hne, -⟩
    · have hrest : fetch.id ∉ rest.map Stage.id := by
        intro hmem
        obtain ⟨s, hs, hid⟩ := List.mem_map.1 hmem
        exact hm.accepted s (hp.mem_iff.2 (List.mem_append_right _ hs)) (hid ▸ hnone)
      refine ⟨hperm.nodup_iff.2 (List.nodup_cons.2 ⟨hrest, hids⟩), fun s hs => ?_⟩
      rcases List.mem_cons.1 (hp'.mem_iff.1 hs) with rfl | hs
      · rw [show Stage.id (.loading fetch) = fetch.id from rfl, hsome]
        exact Option.some_ne_none _
      · exact hin s (List.mem_append_right _ hs)
    · exact absurd rfl (hne fetch rfl)
  · have hsub := Happening.reaches_sublist fun fetch he => hnew ⟨fetch, he⟩
    refine ⟨hperm.nodup_iff.2 (hids.sublist (hsub.append_right _)), fun s hs => ?_⟩
    have hmem : s.id ∈ (h.leaves ++ rest).map Stage.id := by
      rw [List.map_append]
      refine (hsub.append_right (rest.map Stage.id)).subset (hperm.mem_iff.1 ?_)
      exact List.mem_map_of_mem hs
    obtain ⟨s', hs', hid⟩ := List.mem_map.1 hmem
    exact hid ▸ hin s' hs'

/-! ## Loads -/

theorem ne_of_mem_erase {t t' : Task} {loads : List Task}
    (hd : (loads.map (·.fetch.id)).Nodup) (ht : t ∈ loads) (ht' : t' ∈ loads.erase t) :
    t'.fetch.id ≠ t.fetch.id := by
  have hc := ((List.perm_cons_erase ht).map (·.fetch.id)).nodup_iff.1 hd
  intro he
  exact (List.nodup_cons.1 hc).1 (List.mem_map.2 ⟨t', ht', he⟩)

omit [GraphicsContext G] in
theorem Pending.loads_nodup (hm : Pending m) : (m.loads.map (·.fetch.id)).Nodup := by
  have hs : (m.loads.map (·.fetch.id)).Sublist (m.flights.map Stage.id) := by
    unfold Moment.flights
    rw [List.append_assoc, List.map_append, List.map_map]
    exact List.sublist_append_left _ _
  exact hm.distinct.sublist hs

omit [GraphicsContext G] in
theorem Pending.accepted_of_load (hm : Pending m) {t : Task} (ht : t ∈ m.loads) :
    m.bench.core.bridge.accepted? t.fetch.id ≠ none := by
  refine hm.accepted (.loading t.fetch) ?_
  unfold Moment.flights
  exact List.mem_append_left _ (List.mem_append_left _ (List.mem_map_of_mem ht))

omit [GraphicsContext G] in
/-- A load that is taken up is settled. -/
theorem Pending.settle (hm : Pending m) {t : Task} (ht : t ∈ m.loads) :
    (∀ t' ∈ m.loads.erase t, t'.fetch.id ∈ (m.bench.core.bridge.settle t.fetch.id).pending ∨
      m.bench.core.bridge.isCancelled t'.fetch.id = true) ∧
    ∀ id ∈ (m.bench.core.bridge.settle t.fetch.id).pending,
      (∃ t' ∈ m.loads.erase t, t'.fetch.id = id) ∨ m.bench.owned = false := by
  refine ⟨fun t' ht' => ?_, fun id hid => ?_⟩
  · refine (hm.load t' (List.mem_of_mem_erase ht')).imp_left fun hp => ?_
    exact List.mem_filter.2 ⟨hp, by simpa using ne_of_mem_erase hm.loads_nodup ht ht'⟩
  · obtain ⟨hp, hne⟩ := List.mem_filter.1 hid
    refine (hm.pending id hp).imp_left ?_
    rintro ⟨t', ht', rfl⟩
    have htt : t' ≠ t := by
      rintro rfl
      simp at hne
    exact ⟨t', (List.mem_erase_of_ne htt).2 ht', rfl⟩

omit [GraphicsContext G] in
theorem Pending.accept (hm : Pending m) {t : Task}
    (hid : t.fetch.id = m.bench.core.bridge.requests.length) :
    (∀ t' ∈ m.loads ++ [t], t'.fetch.id ∈
        m.bench.core.bridge.pending ++ [m.bench.core.bridge.requests.length] ∨
      m.bench.core.bridge.isCancelled t'.fetch.id = true) ∧
    ∀ id ∈ m.bench.core.bridge.pending ++ [m.bench.core.bridge.requests.length],
      (∃ t' ∈ m.loads ++ [t], t'.fetch.id = id) ∨ m.bench.owned = false := by
  refine ⟨fun t' ht' => ?_, fun id hp => ?_⟩
  · rcases List.mem_append.1 ht' with ht' | ht'
    · exact (hm.load t' ht').imp_left (List.mem_append_left _)
    · rw [List.mem_singleton.1 ht', hid]
      exact .inl (List.mem_append_right _ (.head _))
  · rcases List.mem_append.1 hp with hp | hp
    · refine (hm.pending id hp).imp_left ?_
      exact fun ⟨t', ht', he⟩ => ⟨t', List.mem_append_left _ ht', he⟩
    · rw [List.mem_singleton.1 hp]
      exact .inl ⟨t, List.mem_append_right _ (.head _), hid⟩

omit [GraphicsContext G] in
/-- Cancelling all pending fetches cancels all whose load has not been taken up. -/
theorem Pending.isCancelled_of_load (hm : Pending m) {t : Task} (ht : t ∈ m.loads) :
    m.bench.core.bridge.cancelPending.isCancelled t.fetch.id = true := by
  have hlt := (not_congr Bridge.accepted?_eq_none).1 (hm.accepted_of_load ht)
  rw [Bridge.isCancelled_cancelPending]
  rcases hm.load t ht with hp | hc
  · simp [hp, Nat.lt_of_not_le hlt]
  · simp [hc]

theorem Happens.pending_eq (hh : Happens m h n) :
    n.bench.core.bridge.pending = (h.onBridge m.bench.core.bridge).pending := by
  obtain ⟨registry, hb⟩ := hh.bridge_eq
  rw [hb]

theorem Pending.loads_step (hm : Pending m) (hh : Happens m h n) :
    (∀ t ∈ n.loads, t.fetch.id ∈ n.bench.core.bridge.pending ∨
      n.bench.core.bridge.isCancelled t.fetch.id = true) ∧
    ∀ id ∈ n.bench.core.bridge.pending,
      (∃ t ∈ n.loads, t.fetch.id = id) ∨ n.bench.owned = false := by
  have hcancel : ∀ id, m.bench.core.bridge.isCancelled id = true →
    n.bench.core.bridge.isCancelled id = true := fun _ => hh.isCancelled_of_isCancelled
  have howned : m.bench.owned = false → n.bench.owned = false := fun ho =>
    hh.owned_iff.2 (.inl ho)
  have hpending := hh.pending_eq
  have hnew : ∀ fetch, h = .accepted fetch →
      fetch.id = m.bench.core.bridge.requests.length := by
    rintro fetch rfl
    exact hh.of_accepted.2
  have same : n.loads = m.loads → n.bench.core.bridge.pending = m.bench.core.bridge.pending →
      (∀ t ∈ n.loads, t.fetch.id ∈ n.bench.core.bridge.pending ∨
        n.bench.core.bridge.isCancelled t.fetch.id = true) ∧
      ∀ id ∈ n.bench.core.bridge.pending,
        (∃ t ∈ n.loads, t.fetch.id = id) ∨ n.bench.owned = false := by
    intro hl hp
    rw [hl, hp]
    exact ⟨fun t ht => (hm.load t ht).imp_right (hcancel _),
      fun id hid => (hm.pending id hid).imp_right howned⟩
  cases hh with
  | accepted c hr =>
    obtain ⟨hload, hpend⟩ := hm.accept (t := ⟨_, _⟩) (hnew _ rfl)
    rw [hpending]
    exact ⟨fun t ht => (hload t ht).imp_right (hcancel _), hpend⟩
  | shutDown =>
    refine ⟨fun t ht => .inr (hm.isCancelled_of_load ht), fun id hid => ?_⟩
    rw [hpending] at hid
    cases hid
  | lost ht hl =>
    refine ⟨fun t' ht' => hm.load t' (List.mem_of_mem_erase ht'), fun id hid => .inr ?_⟩
    exact (by simpa [isAlive] using hl : _ ∧ _).1
  | ended ht hl hr he | asked ht hl hr he =>
    obtain ⟨hload, hpend⟩ := hm.settle ht
    exact ⟨fun t' ht' => (hload t' ht').imp_right (hcancel _), hpend⟩
  | _ => exact same rfl hpending

omit [GraphicsContext G] in
theorem Pending.not_pending_of_deferred (hm : Pending m) (ho : m.bench.owned = true)
    {c : Completion} (hc : c ∈ m.bench.deferred) : c.request ∉ m.bench.core.bridge.pending := by
  intro hp
  rcases hm.pending _ hp with ⟨t, ht, hid⟩ | hn
  · have hd := hm.distinct
    unfold Moment.flights at hd
    rw [List.map_append, List.nodup_append] at hd
    refine hd.2.2 t.fetch.id ?_ c.request ?_ hid
    · exact List.mem_map_of_mem (f := Stage.id)
        (List.mem_append_left _ (List.mem_map_of_mem ht))
    · exact List.mem_map_of_mem (f := Stage.id) (List.mem_map_of_mem hc)
  · rw [ho] at hn
    cases hn

/-! ## Histories -/

theorem Pending.step (hm : Pending m) (hh : Happens m h n) : Pending n where
  distinct := (hm.distinct_step hh).1
  accepted := (hm.distinct_step hh).2
  load := (hm.loads_step hh).1
  pending := (hm.loads_step hh).2

omit [GraphicsContext G] in
theorem Pending.of_quiet {b : Bench G C} (hm : Pending m) (hq : Quiet m.bench b) :
    Pending { m with bench := b } := by
  obtain ⟨hd, ha, hl, hp⟩ := hm
  constructor
  · rwa [hq.flights_eq]
  · rwa [hq.flights_eq, hq.bridge]
  · rwa [hq.bridge]
  · rwa [hq.bridge, hq.owned]

theorem History.pending {hs : List Happening} (hh : History m hs n) (hm : Pending m) :
    Pending n :=
  hh.keeps (fun _ _ hq ht => ht.of_quiet hq) (fun _ _ _ now ht => ht.step now) hm

omit [GraphicsContext G] in
theorem Fresh.pending {b : Bench G C} (hb : b.Fresh) : Pending (⟨b, [], []⟩ : Moment G C) where
  distinct := by simp [Moment.flights, hb.deferred]
  accepted := by simp [Moment.flights, hb.deferred]
  load := by simp
  pending := by
    rw [hb.bridge]
    simp

end GuestBridge.Bench
