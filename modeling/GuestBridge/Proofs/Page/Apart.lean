import GuestBridge.Proofs.Page.Boundary

/-!
# Apart from fetches and frames

Most of what happens on a page has to do neither with the fetches of its bridges nor with its frame
loops. `Page.Apart q r` says so of a page that goes on from `q` to `r`: the bridges have accepted
the fetches and seen the frames that they had, loads, timers, loops and requests are what they were,
no guest was entered, and no bridge has warned of anything. The call of an import is such a change,
unless a fetch is accepted (`Page.callImport_cases`).
-/

set_option autoImplicit false

namespace GuestBridge

/-- Only one import asks for an image, with its third argument for a token. -/
theorem Import.eq_fetchBytes {i : Import} (hi : i ∈ all) {args : Arguments}
    {urlPtr urlLen token : UInt32} (h : i.capability args = .fetchBytes urlPtr urlLen token) :
    i.name = "fetchBytes" ∧ token = args.word 2 := by
  revert i
  simp only [all, hostImports, programImports, uniformImports, objectImports, forwardImports,
    List.forall_mem_append, List.forall_mem_cons, List.not_mem_nil, false_imp_iff,
    implies_true, and_true]
  and_intros <;> intro h <;> cases h
  exact ⟨rfl, rfl⟩

namespace Page

variable {p q r : Page} {inner : Performer} {owner : Nat}

/-! ## Bridges -/

/-- A request of a bridge as it was accepted. -/
def accepted? (p : Page) (owner id : Nat) : Option FetchRequest :=
  (p.core owner).bridge.accepted? id

/-- The bridge has accepted the fetch. -/
def HasAccepted (p : Page) (owner : Nat) (fetch : Accepted) : Prop :=
  p.accepted? owner fetch.id = some fetch.request

theorem bridge_withCore (p : Page) (owner o : Nat) (c : Core ScriptedContext) :
    ((p.withCore owner c).core o).bridge =
      if o = owner ∧ o < p.installations.length then c.bridge else (p.core o).bridge := by
  unfold core withCore
  simp only [List.getElem?_modify]
  rcases hi : p.installations[o]? with _ | i
  · have hlen : ¬ o < p.installations.length := by
      simpa using hi
    simp [hlen]
  · have hlen : o < p.installations.length := (List.getElem?_eq_some_iff.1 hi).1
    by_cases ho : owner = o
    · simp [ho, hlen]
    · simp [ho, Ne.symm ho]

/-- The bridges are not changed by what marks their installations. -/
theorem core_bridge_modify {f : Installation → Installation} (hf : ∀ i, (f i).bridge = i.bridge)
    (o : Nat) :
    (({ q with installations := q.installations.modify owner f } : Page).core o).bridge =
      (q.core o).bridge := by
  unfold core
  simp only [List.getElem?_modify]
  rcases q.installations[o]? with _ | i
  · rfl
  · by_cases ho : owner = o
    · simp [ho, hf]
    · simp [ho]

/-- The last frame that was delivered to a bridge. -/
def lastFrame (p : Page) (owner : Nat) : Option Ieee.Double := (p.core owner).bridge.lastFrame

/-! ## The relation -/

/-- The tasks, timers and frames of a page. -/
def queues (p : Page) : List ImageLoad × List Timer × List FrameLoop × List FrameRequest × Nat :=
  (p.loads, p.timers, p.loops, p.frames, p.nextFrame)

theorem filter_isWarning_push {e : Event} (he : e.isWarning = false) (journal : Array Event) :
    (journal.push e).toList.filter Event.isWarning = journal.toList.filter Event.isWarning := by
  rw [Array.toList_push, List.filter_append, List.filter_singleton, he]
  exact List.append_nil _

/-- The warnings that bridges have logged on their own account, in order. -/
def warnings (p : Page) : List Event := p.journal.toList.filter Event.isWarning

structure Apart (q r : Page) : Prop where
  queues : r.queues = q.queues
  accepted (owner id : Nat) : r.accepted? owner id = q.accepted? owner id
  lastFrame (owner : Nat) : r.lastFrame owner = q.lastFrame owner
  silent : Event.Silent q.journal r.journal
  warnings : r.warnings = q.warnings

namespace Apart

theorem loads (h : Apart q r) : r.loads = q.loads := congrArg (·.1) h.queues

theorem timers (h : Apart q r) : r.timers = q.timers := congrArg (·.2.1) h.queues

theorem loops (h : Apart q r) : r.loops = q.loops := congrArg (·.2.2.1) h.queues

theorem frames (h : Apart q r) : r.frames = q.frames := congrArg (·.2.2.2.1) h.queues

theorem nextFrame (h : Apart q r) : r.nextFrame = q.nextFrame := congrArg (·.2.2.2.2) h.queues

theorem trans (h : Apart p q) (h' : Apart q r) : Apart p r where
  queues := h'.queues.trans h.queues
  accepted owner id := (h'.accepted owner id).trans (h.accepted owner id)
  lastFrame owner := (h'.lastFrame owner).trans (h.lastFrame owner)
  silent := h.silent.trans h'.silent
  warnings := h'.warnings.trans h.warnings

/-- The bridges are what they were, whatever becomes of their installations. -/
theorem of_bridges (hb : ∀ o, (r.core o).bridge = (q.core o).bridge) (hq : r.queues = q.queues)
    (hj : r.journal = q.journal) : Apart q r where
  queues := hq
  accepted o id := congrArg (Bridge.accepted? · id) (hb o)
  lastFrame o := congrArg Bridge.lastFrame (hb o)
  silent := hj ▸ .refl _
  warnings := by
    unfold Page.warnings
    rw [hj]

theorem of_eq (hi : r.installations = q.installations) (hq : r.queues = q.queues)
    (hj : r.journal = q.journal) : Apart q r :=
  of_bridges (fun o => by simp only [core, hi]) hq hj

theorem note {e : Event} (he : e.isEntry = false) (hw : e.isWarning = false) (q : Page) :
    Apart q (q.note e) where
  queues := rfl
  accepted _ _ := rfl
  lastFrame _ := rfl
  silent := .push he _
  warnings := filter_isWarning_push hw q.journal

theorem withCore {c : Core ScriptedContext}
    (ha : ∀ id, c.bridge.accepted? id = q.accepted? owner id)
    (hl : c.bridge.lastFrame = q.lastFrame owner) (hs : Event.Silent q.journal c.journal)
    (hw : c.journal.toList.filter Event.isWarning = q.warnings) : Apart q (q.withCore owner c) where
  queues := rfl
  accepted o id := by
    unfold accepted?
    rw [bridge_withCore]
    split
    · rename_i ho
      rw [ha, ho.1]
      rfl
    · rfl
  lastFrame o := by
    unfold Page.lastFrame
    rw [bridge_withCore]
    split
    · rename_i ho
      rw [hl, ho.1]
      rfl
    · rfl
  silent := hs
  warnings := hw

/-- What a capability does to a core, unless it accepts a fetch. -/
theorem worked (q : Page) (owner : Nat) {c : Core ScriptedContext}
    (hw : Core.Worked (q.core owner) .buffer [] c) : Apart q (q.withCore owner c) := by
  obtain ⟨registry, hb⟩ := hw.bridge_eq
  obtain ⟨events, he, hq⟩ := hw.journal_eq
  refine withCore (fun id => by rw [hb]; rfl) (by rw [hb]; rfl) ⟨events, he, fun e hm => ?_⟩ ?_
  · rcases (hq e hm).1 with ⟨call, a, rfl⟩ | hquiet
    · rfl
    · exact Bench.isEntry_of_isQuiet hquiet
  · have hnone : events.filter Event.isWarning = [] :=
      List.filter_eq_nil_iff.2 fun e hm => by simp [(hq e hm).2]
    rw [he, List.filter_append, hnone, List.append_nil]
    rfl

end Apart

/-! ## Imports -/

/-- The page once a bridge has accepted a fetch. -/
def accept (owner : Nat) (fetch : Accepted) (text : String) (q : Page) : Page :=
  spawn owner fetch (q.withCore owner
    { (q.core owner).log .debug Log.Target.fetch text with
      bridge := ((q.core owner).bridge.accept fetch.request).2 })

theorem accepted?_accept {fetch : Accepted} (ho : owner < q.installations.length)
    (hid : fetch.id = (q.core owner).bridge.requests.length)
    (hc : fetch.request.cancelled = false) (text : String) (o id : Nat) :
    (q.accept owner fetch text).accepted? o id =
      if o = owner ∧ id = fetch.id then some fetch.request else q.accepted? o id := by
  show ((q.withCore owner _).core o).bridge.accepted? id = _
  rw [bridge_withCore]
  by_cases h : o = owner
  · subst h
    rw [if_pos ⟨rfl, ho⟩, Bridge.accepted?_accept _ hc, ← hid]
    simp only [true_and]
    rfl
  · rw [if_neg fun h' => h h'.1, if_neg fun h' => h h'.1]
    rfl

/-- The call of an import is the acceptance of a fetch, or concerns none. -/
theorem callImport_cases (inner : Performer) (name : String) (args : Arguments) (q : Page) :
    (∃ owner fetch text, name = "fetchBytes" ∧ owner < q.installations.length ∧
      fetch.id = (q.core owner).bridge.requests.length ∧ fetch.request.cancelled = false ∧
      fetch.request.token = args.word 2 ∧
      callImport inner name args q = (.ok (.page .undefined), q.accept owner fetch text)) ∨
    Apart q (callImport inner name args q).2 := by
  have hself : Apart q q := .of_eq rfl rfl rfl
  unfold callImport
  rcases ho : q.importer.filter q.isOwned with _ | owner
  · exact .inr hself
  · rcases hf : Import.find? name with _ | i
    · exact .inr hself
    · simp only
      rcases (i.capability args).run_cases (q.core owner) with ⟨request, text, hc, hr⟩ | ⟨hn, hw⟩
      · obtain ⟨-, urlPtr, urlLen, hfetch⟩ := Capability.fetchBytes_of_accepted hr
        obtain ⟨hname, htoken⟩ := Import.eq_fetchBytes (List.mem_of_find?_eq_some hf) hfetch
        have howned : q.isOwned owner = true := (Option.filter_eq_some_iff.1 ho).2
        have hlt : owner < q.installations.length := by
          have := (isOwned_iff.1 howned).lt
          rwa [length_standing] at this
        refine .inl ⟨owner, ((q.core owner).bridge.accept request).1, text, ?_, hlt, rfl, hc,
          htoken, ?_⟩
        · rw [← hname, eq_comm]
          simpa using List.find?_some hf
        · unfold runImport
          rw [Platform.perform_of_accepted (p := platform inner owner) hr]
          rfl
      · have hperformed : Apart q ((platform inner owner).perform (i.capability args) q).2 := by
          rw [Platform.snd_perform hn]
          exact .worked q owner (hw .buffer)
        refine .inr ?_
        unfold runImport
        rcases hr : (platform inner owner).perform (i.capability args) q with ⟨e | result, r⟩ <;>
          rw [hr] at hperformed
        · simp only
          split
          · exact hperformed
          · exact hperformed.trans (.note rfl (Event.isWarning_of_target (by decide)) r)
        · exact hperformed

end Page

end GuestBridge
