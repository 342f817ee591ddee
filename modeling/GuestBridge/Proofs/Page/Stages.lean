import GuestBridge.Proofs.Memory.Regions
import GuestBridge.Proofs.Page.Apart

/-!
# The fetches of a page

A fetch goes through three stages, each at a time of its own: the guest asks for an image, the
pixels are copied into the guest's memory, and the guest is told of them. `Page.Takes q stage r`
says what a stage does to a page, and all else that happens is `Aside`: no bridge accepts a fetch
meanwhile, no timer is set and no guest is told. A `Trail` is a way from page to page with the
stages that are taken on it. What was accepted, what the timers are set for and what the guests
were told can be read off the stages (`Trail.accounted`), and hence a guest is told only of what
was copied before, for what it had asked before that (`Trail.copied_of_told`,
`Trail.asked_of_copied`).
-/

set_option autoImplicit false

namespace GuestBridge

/-- The call of a guest that tells it of an image. -/
def Event.fetchCall? : Event → Option EntryPoint
  | .call entry => if entry.exportName = "onFetch" then some entry else none
  | _ => none

theorem Event.fetchCall?_of_not_entry {e : Event} (h : e.isEntry = false) :
    e.fetchCall? = none := by
  cases e <;> first | rfl | cases h

namespace Page

variable {p q r : Page} {inner : Performer} {owner : Nat}

/-- The calls that have told guests of images, in order. -/
def fetchCalls (p : Page) : List EntryPoint := p.journal.toList.filterMap Event.fetchCall?

theorem fetchCalls_of_silent (h : Event.Silent p.journal q.journal) :
    q.fetchCalls = p.fetchCalls := by
  obtain ⟨events, he, hs⟩ := h
  unfold fetchCalls
  rw [he, List.filterMap_append, List.filterMap_eq_nil_iff.2 fun e hm =>
    Event.fetchCall?_of_not_entry (hs e hm), List.append_nil]

theorem fetchCalls_note (p : Page) (e : Event) :
    (p.note e).fetchCalls = p.fetchCalls ++ e.fetchCall?.toList := by
  unfold fetchCalls note
  rw [Array.toList_push, filterMap_concat]

/-! ## Aside -/

/-- What happens to no fetch. -/
structure Aside (q r : Page) : Prop where
  accepted (owner id : Nat) : r.accepted? owner id = q.accepted? owner id
  timers : r.timers ⊆ q.timers
  calls : r.fetchCalls = q.fetchCalls

namespace Aside

theorem of_eq (hi : r.installations = q.installations) (ht : r.timers = q.timers)
    (hj : r.journal = q.journal) : Aside q r where
  accepted owner id := by
    unfold accepted? core
    rw [hi]
  timers := ht ▸ List.Subset.refl _
  calls := by
    unfold fetchCalls
    rw [hj]

theorem of_apart (h : Apart q r) : Aside q r where
  accepted := h.accepted
  timers := h.timers ▸ List.Subset.refl _
  calls := fetchCalls_of_silent h.silent

theorem note {e : Event} (he : e.fetchCall? = none) (q : Page) : Aside q (q.note e) where
  accepted _ _ := rfl
  timers := List.Subset.refl _
  calls := by
    rw [fetchCalls_note, he]
    exact List.append_nil _

theorem withCore {c : Core ScriptedContext}
    (ha : ∀ id, c.bridge.accepted? id = q.accepted? owner id)
    (hj : Event.Silent q.journal c.journal) : Aside q (q.withCore owner c) where
  accepted o id := by
    unfold accepted?
    rw [bridge_withCore]
    split
    · rename_i ho
      rw [ha, ho.1]
      rfl
    · rfl
  timers := List.Subset.refl _
  calls := fetchCalls_of_silent hj

end Aside

/-! ## Stages -/

inductive Stage
  /-- The guest of a bridge asks for an image with these arguments. -/
  | asked (owner : Nat) (args : Arguments) (fetch : Accepted)
  /-- The pixels of an image are copied to `ptr`, after which the memory is this. -/
  | copied (owner : Nat) (fetch : Accepted) (image : DecodedImage) (ptr : UInt32)
    (memory : Memory)
  /-- The guest is called for an image. -/
  | told (owner : Nat) (c : Completion)

/-- The call that a stage consists of. -/
def Stage.call? : Stage → Option EntryPoint
  | told _ c => some c.entry
  | _ => none

inductive Takes : Page → Stage → Page → Prop
  /-- The guest calls an import, for which a load is queued. -/
  | asked {q r : Page} {inner : Performer} {args : Arguments} {owner : Nat} {fetch : Accepted}
    (h : callImport inner "fetchBytes" args q = (.ok (.page .undefined), r))
    (hl : r.loads = q.loads ++ [⟨owner, fetch, .fresh⟩]) : Takes q (.asked owner args fetch) r
  /-- The allocator has answered a pointer. The pixels are stored there, and a timer is set for the
  call. -/
  | copied {t q : Page} {inner : Performer} {owner : Nat} {fetch : Accepted} {image : DecodedImage}
    {ptr : UInt32} {memory : Memory} (ha : q.HasAccepted owner fetch)
    (hb : image.pixels.length < UInt32.size)
    (hal : alloc inner owner (.ofNat image.pixels.length) t = (.ok ptr, q))
    (hm : q.memory.writeBatch [.bytes ptr image.pixels] = .ok memory) :
    Takes q (.copied owner fetch image ptr memory)
      (defer owner (Bench.completion fetch image ptr) { q with memory })
  /-- The first timer goes off, and the guest is called. -/
  | told {q : Page} {owner : Nat} {c : Completion} {rest : List Timer}
    (ht : q.timers = ⟨owner, c⟩ :: rest) :
    Takes q (.told owner c) ({ q with timers := rest }.note (.call c.entry))

section

variable (owner : Nat) (c : Completion) (q : Page)

@[simp] theorem accepted?_defer (o id : Nat) :
    (defer owner c q).accepted? o id = q.accepted? o id := by
  unfold defer
  split <;> rfl

@[simp] theorem loads_defer : (defer owner c q).loads = q.loads := by
  unfold defer
  split <;> rfl

@[simp] theorem fetchCalls_defer : (defer owner c q).fetchCalls = q.fetchCalls := by
  unfold defer
  split <;> exact (Aside.note rfl q).calls

/-- The timer may be refused, but no other one is set. -/
theorem mem_timers_defer {t : Timer} (h : t ∈ (defer owner c q).timers) :
    t ∈ q.timers ∨ t = ⟨owner, c⟩ := by
  unfold defer at h
  split at h
  · exact .inl h
  · exact (List.mem_append.1 h).imp_right List.mem_singleton.1

end

/-- The load of a fetch is queued only if its bridge has accepted it, and has not before. -/
theorem Takes.accept_of_asked {args : Arguments} {fetch : Accepted}
    (h : Takes q (.asked owner args fetch) r) :
    ∃ text, r = q.accept owner fetch text ∧ owner < q.installations.length ∧
      fetch.id = (q.core owner).bridge.requests.length ∧ fetch.request.cancelled = false ∧
      fetch.request.token = args.word 2 := by
  cases h with
  | asked h hl =>
    rename_i inner
    rcases callImport_cases inner "fetchBytes" args q with
      ⟨owner', fetch', text, -, ho, hid, hc, ht, hcall⟩ | hapart
    · obtain rfl : q.accept owner' fetch' text = r := congrArg Prod.snd (hcall.symm.trans h)
      have hload : q.loads ++ [⟨owner', fetch', .fresh⟩] = q.loads ++ [⟨owner, fetch, .fresh⟩] := hl
      obtain ⟨rfl, rfl⟩ : owner' = owner ∧ fetch' = fetch := by
        simpa using List.append_cancel_left hload
      exact ⟨text, rfl, ho, hid, hc, ht⟩
    · rw [h] at hapart
      exact absurd (hapart.loads.symm.trans hl) (by simp)

theorem Takes.hasAccepted {s : Stage} (h : Takes q s r) {o : Nat} {fetch : Accepted}
    (ha : q.HasAccepted o fetch) : r.HasAccepted o fetch := by
  cases s with
  | asked owner args fetch' =>
    obtain ⟨text, rfl, ho, hid, hc, -⟩ := h.accept_of_asked
    unfold HasAccepted
    rw [accepted?_accept ho hid hc, if_neg ?_]
    · exact ha
    · rintro ⟨rfl, hf⟩
      have hnone : q.accepted? o fetch.id = none :=
        Bridge.accepted?_eq_none.2 (Nat.le_of_eq (hf.trans hid).symm)
      rw [ha] at hnone
      cases hnone
  | copied owner fetch' image ptr memory =>
    cases h with
    | copied =>
      unfold HasAccepted
      rw [accepted?_defer]
      exact ha
  | told owner c =>
    cases h with
    | told => exact ha

/-! ## Trails -/

/-- A way from page to page, with the stages that are taken on it. -/
inductive Trail (p : Page) : List Stage → Page → Prop
  | refl : Trail p [] p
  | aside {stages : List Stage} {q r : Page} (before : Trail p stages q) (now : Aside q r) :
    Trail p stages r
  | snoc {stages : List Stage} {stage : Stage} {q r : Page} (before : Trail p stages q)
    (now : Takes q stage r) : Trail p (stages ++ [stage]) r

/-- What a page says of its fetches can be read off the stages that were taken. -/
structure Accounted (stages : List Stage) (q : Page) : Prop where
  accepted : ∀ owner id request, q.accepted? owner id = some request ↔
    ∃ args, .asked owner args ⟨id, request⟩ ∈ stages
  timers : ∀ t ∈ q.timers, ∃ fetch image ptr memory,
    .copied t.owner fetch image ptr memory ∈ stages ∧
      t.completion = Bench.completion fetch image ptr
  calls : q.fetchCalls = stages.filterMap Stage.call?

namespace Accounted

variable {stages : List Stage} {stage : Stage}

theorem fresh (memory : Nat) : Accounted [] (fresh memory) where
  accepted owner id request := by
    have hnone : (Page.fresh memory).accepted? owner id = none := rfl
    simp [hnone]
  timers := nofun
  calls := rfl

theorem aside (h : Accounted stages q) (ha : Aside q r) : Accounted stages r where
  accepted owner id request := by
    rw [ha.accepted]
    exact h.accepted owner id request
  timers t ht := h.timers t (ha.timers ht)
  calls := ha.calls.trans h.calls

/-- Only to ask for an image is to have a fetch accepted. -/
theorem step (h : Accounted stages q) (ht : Takes q stage r) : Accounted (stages ++ [stage]) r := by
  have hkept : ∀ t ∈ q.timers, ∃ fetch image ptr memory,
      .copied t.owner fetch image ptr memory ∈ stages ++ [stage] ∧
        t.completion = Bench.completion fetch image ptr := by
    intro t hm
    obtain ⟨fetch, image, ptr, memory, hmem, he⟩ := h.timers t hm
    exact ⟨fetch, image, ptr, memory, List.mem_append_left _ hmem, he⟩
  cases stage with
  | asked owner args fetch =>
    obtain ⟨text, rfl, ho, hid, hc, -⟩ := ht.accept_of_asked
    refine ⟨fun o id request => ?_, hkept, ?_⟩
    · have hmem : (∃ args', .asked o args' ⟨id, request⟩ ∈ stages ++ [.asked owner args fetch]) ↔
          (∃ args', .asked o args' ⟨id, request⟩ ∈ stages) ∨ o = owner ∧ ⟨id, request⟩ = fetch := by
        simp [exists_or]
      rw [hmem, ← h.accepted, accepted?_accept ho hid hc]
      by_cases hnew : o = owner ∧ id = fetch.id
      · obtain ⟨rfl, rfl⟩ := hnew
        have hnone : q.accepted? o fetch.id = none :=
          Bridge.accepted?_eq_none.2 (Nat.le_of_eq hid.symm)
        rw [if_pos ⟨rfl, rfl⟩, hnone]
        constructor
        · rintro ⟨⟩
          exact .inr ⟨rfl, rfl⟩
        · rintro (⟨⟨⟩⟩ | ⟨-, hf⟩)
          rw [← hf]
      · rw [if_neg hnew, or_iff_left fun ⟨ho', hf⟩ => hnew ⟨ho', hf ▸ rfl⟩]
    · have hcalls : (q.accept owner fetch text).fetchCalls = q.fetchCalls :=
        fetchCalls_of_silent (.trans (.push rfl _) (.push rfl _))
      rw [hcalls, h.calls, List.filterMap_append]
      exact (List.append_nil _).symm
  | copied owner fetch image ptr memory =>
    cases ht with
    | copied =>
      refine ⟨fun o id request => ?_, fun t hm => ?_, ?_⟩
      · rw [accepted?_defer]
        show q.accepted? o id = some request ↔ _
        simpa using h.accepted o id request
      · rcases mem_timers_defer _ _ _ hm with hm | rfl
        · exact hkept t hm
        · exact ⟨fetch, image, ptr, memory, by simp, rfl⟩
      · rw [fetchCalls_defer, List.filterMap_append]
        exact h.calls.trans (List.append_nil _).symm
  | told owner c =>
    cases ht with
    | told htimers =>
      refine ⟨fun o id request => ?_, fun t hm => hkept t ?_, ?_⟩
      · show q.accepted? o id = some request ↔ _
        simpa using h.accepted o id request
      · rw [htimers]
        exact .tail _ hm
      · obtain ⟨fetch, image, ptr, memory, -, he⟩ := h.timers ⟨owner, c⟩ (htimers ▸ .head _)
        have hcall : (Event.call c.entry).fetchCall? = some c.entry := by
          show (if c.entry.exportName = "onFetch" then some c.entry else none) = _
          rw [show c = Bench.completion fetch image ptr from he]
          rfl
        rw [fetchCalls_note, hcall, List.filterMap_append]
        exact congrArg (· ++ [c.entry]) h.calls

end Accounted

namespace Trail

variable {stages before after : List Stage} {stage : Stage} {fetch : Accepted}

theorem accounted {size : Nat} (h : Trail (fresh size) stages q) : Accounted stages q := by
  induction h with
  | refl => exact .fresh size
  | aside _ now ih => exact ih.aside now
  | snoc _ now ih => exact ih.step now

/-- A trail can be taken up again at any of its stages. -/
theorem exists_takes (h : Trail p stages q) (he : stages = before ++ stage :: after) :
    ∃ t u, Trail p before t ∧ Takes t stage u := by
  induction h generalizing after with
  | refl => simp at he
  | aside _ _ ih => exact ih he
  | snoc earlier now ih =>
    rcases List.eq_nil_or_concat after with rfl | ⟨after', last, rfl⟩
    · obtain ⟨rfl, hlast⟩ := List.append_inj' he rfl
      obtain rfl := List.singleton_inj.1 hlast
      exact ⟨_, _, earlier, now⟩
    · rw [List.concat_eq_append, ← List.cons_append, ← List.append_assoc] at he
      exact ih (List.append_inj' he rfl).1

variable {size : Nat}

/-- A guest is told only of what was copied before. -/
theorem copied_of_told {c : Completion}
    (h : Trail (fresh size) (before ++ .told owner c :: after) q) :
    ∃ fetch image ptr memory, .copied owner fetch image ptr memory ∈ before ∧
      c = Bench.completion fetch image ptr := by
  obtain ⟨t, u, earlier, now⟩ := h.exists_takes rfl
  cases now with
  | told ht => exact earlier.accounted.timers ⟨owner, c⟩ (ht ▸ .head _)

/-- Only that is copied for which the guest has asked before. -/
theorem asked_of_copied {image : DecodedImage} {ptr : UInt32} {memory : Memory}
    (h : Trail (fresh size) (before ++ .copied owner fetch image ptr memory :: after) q) :
    ∃ args, .asked owner args fetch ∈ before := by
  obtain ⟨t, u, earlier, now⟩ := h.exists_takes rfl
  cases now with
  | copied ha => exact (earlier.accounted.accepted owner fetch.id fetch.request).1 ha

/-- A guest asks for no image twice. -/
theorem not_asked_before {args args' : Arguments} {fetch' : Accepted}
    (h : Trail (fresh size) (before ++ .asked owner args fetch :: after) q)
    (hm : .asked owner args' fetch' ∈ before) : fetch'.id ≠ fetch.id := by
  intro hid
  obtain ⟨t, u, earlier, now⟩ := h.exists_takes rfl
  obtain ⟨-, -, -, hlength, -⟩ := now.accept_of_asked
  have hnone : t.accepted? owner fetch'.id = none :=
    Bridge.accepted?_eq_none.2 (Nat.le_of_eq (hid.trans hlength).symm)
  have hsome : t.accepted? owner fetch'.id = some fetch'.request :=
    (earlier.accounted.accepted owner fetch'.id fetch'.request).2 ⟨args', hm⟩
  rw [hnone] at hsome
  cases hsome

theorem asked_unique {args args' : Arguments} {fetch' : Accepted} (h : Trail (fresh size) stages q)
    (hm : .asked owner args fetch ∈ stages) (hm' : .asked owner args' fetch' ∈ stages)
    (hid : fetch'.id = fetch.id) : args' = args ∧ fetch' = fetch := by
  obtain ⟨before, after, rfl⟩ := List.append_of_mem hm
  rcases List.mem_append.1 hm' with hm' | hm'
  · exact absurd hid (h.not_asked_before hm')
  · rcases List.mem_cons.1 hm' with heq | hm'
    · cases heq
      exact ⟨rfl, rfl⟩
    · obtain ⟨between, rest, rfl⟩ := List.append_of_mem hm'
      rw [← List.cons_append, ← List.append_assoc] at h
      exact absurd hid.symm (h.not_asked_before (List.mem_append_right _ (.head _)))

/-- The token of a fetch is the third argument with which the guest asks for it. -/
theorem token_eq {args : Arguments} (h : Trail p stages q)
    (hm : .asked owner args fetch ∈ stages) : fetch.request.token = args.word 2 := by
  obtain ⟨before, after, rfl⟩ := List.append_of_mem hm
  obtain ⟨t, u, -, now⟩ := h.exists_takes rfl
  obtain ⟨-, -, -, -, -, htoken⟩ := now.accept_of_asked
  exact htoken

/-- What was copied is in the memory where it was copied to. -/
theorem readBytes_of_copied {image : DecodedImage} {ptr : UInt32} {memory : Memory}
    (h : Trail p stages q) (hm : .copied owner fetch image ptr memory ∈ stages) :
    image.pixels.length < UInt32.size ∧
      memory.readBytes ptr (.ofNat image.pixels.length) = .ok image.pixels := by
  obtain ⟨before, after, rfl⟩ := List.append_of_mem hm
  obtain ⟨t, u, -, now⟩ := h.exists_takes rfl
  cases now with
  | copied _ hb _ hw => exact ⟨hb, Memory.readBytes_of_writeBatch hb hw⟩

end Trail

end Page

end GuestBridge
