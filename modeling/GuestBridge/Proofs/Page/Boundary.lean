import GuestBridge.Proofs.Page.Session
import GuestBridge.Proofs.Capability.Purge

/-!
# The import boundary

What a guest is answered by an import, for every import that there is (`callImport_boundary`). A
failed call is told apart by its error alone: the misuse of a handle is logged once and answered
with what is neutral to the import, and anything else is thrown and has left the registry and the
guest's memory as they were.
-/

set_option autoImplicit false

namespace GuestBridge

namespace Import

/-- What is neutral to an import: zero, or -1 for the location of an attribute, if the import
answers a number. -/
def neutral (i : Import) (args : Arguments) : PageValue :=
  if (i.capability args).answersNumber then
    .number (if i.name = "glGetAttribLocation" then .ofInt (-1) else .zero)
  else .undefined

/-- The fallback of every import is what is neutral to it. -/
theorem fallback_eq_neutral {i : Import} (hi : i ∈ all) (args : Arguments) :
    i.fallback = i.neutral args := by
  revert i
  simp only [all, hostImports, programImports, uniformImports, objectImports, forwardImports,
    List.forall_mem_append, List.forall_mem_cons, List.not_mem_nil, false_imp_iff,
    implies_true, and_true]
  and_intros <;> rfl

theorem names_nodup : (all.map (·.name)).Nodup := by decide +kernel

/-- Every import is found under its name. -/
theorem find?_name {i : Import} (hi : i ∈ all) : find? i.name = some i := by
  obtain ⟨m, hm⟩ := List.mem_iff_getElem?.1 hi
  rcases hf : find? i.name with _ | j
  · exact absurd (List.find?_eq_none.1 hf i hi) (by simp)
  · obtain ⟨n, hn⟩ := List.mem_iff_getElem?.1 (List.mem_of_find?_eq_some hf)
    have hname : j.name = i.name := by simpa using List.find?_some hf
    have hi' : (all.map (·.name))[m]? = some i.name := by rw [List.getElem?_map, hm]; rfl
    have hj' : (all.map (·.name))[n]? = some i.name := by rw [List.getElem?_map, hn, ← hname]; rfl
    have hlt : m < (all.map (·.name)).length := (List.getElem?_eq_some_iff.1 hi').1
    obtain rfl := (List.getElem?_inj hlt names_nodup).1 (hi'.trans hj'.symm)
    exact hn.symm.trans hm

end Import

namespace Page

variable {p q : Page} {owner : Nat} {i : Import} {args : Arguments} {inner : Performer}

/-- Native calls are all that has happened, as far as the journal tells. -/
def OnlyNative (p q : Page) : Prop :=
  ∃ events, q.journal.toList = p.journal.toList ++ events ∧ ∀ e ∈ events, ∃ call a, e = .gl call a

/-- What an import comes to that is called on the page `p`, where the module was last instantiated
with the imports of the bridge `owner`. -/
structure Crosses (inner : Performer) (owner : Nat) (i : Import) (args : Arguments) (p : Page) :
    Prop where
  /-- What the bridge answers, the guest is answered, if it is a number. -/
  answered : ∀ result q, (platform inner owner).perform (i.capability args) p = (.ok result, q) →
    performWith inner (.importCall i.name args) p = (.ok (.page result.pageValue), q) ∧
      if (i.capability args).answersNumber then ∃ n, result = .number n
      else result.pageValue = .undefined
  /-- The misuse of a handle is logged, once, and answered with what is neutral to the import. -/
  misused : ∀ (e : RegistryError) q,
    (platform inner owner).perform (i.capability args) p = (.error (.registry e), q) →
      performWith inner (.importCall i.name args) p = (.ok (.page (i.neutral args)),
        q.log .warn Log.Target.imports (i.name ++ ": " ++ e.message)) ∧ OnlyNative p q
  /-- Any other error is thrown, and neither a bridge nor the guest's memory has changed. -/
  thrown : ∀ (e : BridgeError) q, e.isFatal = true →
    (platform inner owner).perform (i.capability args) p = (.error e, q) →
      performWith inner (.importCall i.name args) p =
        (.thrown (.text (i.name ++ ": " ++ e.message)), q) ∧ OnlyNative p q ∧
        ∃ gl host journal, q = { p with gl, host, journal }
  /-- As long as imports can be called there is a guest whose memory they read and write. -/
  guest : ∀ st, p.standing.Sound st → (p.core owner).bridge.attached = true
  /-- To delete many objects throws exactly if their handles cannot be read. -/
  bulk : ∀ b count ptr, i.capability args = .deleteMany b count ptr →
    match (p.core owner).memoryFault? (p.memory.readWords ptr count) with
    | some e => performWith inner (.importCall i.name args) p =
        (.thrown (.text (i.name ++ ": " ++ e.message)), p)
    | none => (performWith inner (.importCall i.name args) p).1 = .ok (.page .undefined)

theorem withCore_eq {c : Core ScriptedContext} (h : c.bridge = (p.core owner).bridge) :
    p.withCore owner c = { p with
      gl := c.gl, memory := c.memory, host := c.host, journal := c.journal } := by
  have hi : p.installations.modify owner (fun i => { i with bridge := c.bridge }) =
      p.installations := by
    refine List.ext_getElem? fun o => ?_
    rw [List.getElem?_modify]
    rcases hp : p.installations[o]? with _ | j
    · rfl
    · by_cases ho : owner = o
      · subst ho
        simp [h, core, hp]
      · simp [ho]
  unfold withCore
  rw [hi]

theorem performWith_importCall (inner : Performer)
    (ho : p.importer.filter p.isOwned = some owner) (hi : i ∈ Import.all) (args : Arguments) :
    performWith inner (.importCall i.name args) p = runImport inner owner i args p := by
  show callImport inner i.name args p = _
  unfold callImport
  rw [ho, Import.find?_name hi]

theorem attached_of_importer {st : List Nat} (hs : p.standing.Sound st)
    (ho : p.importer.filter p.isOwned = some owner) : (p.core owner).bridge.attached = true := by
  obtain ⟨him, howned⟩ := Option.filter_eq_some_iff.1 ho
  obtain ⟨j, hj, ha⟩ := hs.importer owner him (isOwned_iff.1 howned)
  simp only [standing, List.getElem?_map, Option.map_eq_some_iff] at hj
  obtain ⟨i, hi, rfl⟩ := hj
  have hb : (p.core owner).bridge = i.bridge := by simp [core, hi]
  rw [hb]
  exact ha

/-- What has failed has failed on the core, and that tells what has become of the page. -/
theorem perform_failed {c : Capability} {e : BridgeError}
    (h : (platform inner owner).perform c p = (.error e, q)) :
    ∃ core, c.run (p.core owner) = (.error e, core) ∧ q = p.withCore owner core := by
  have hr := (Platform.fst_perform (platform inner owner) c p).symm
  rw [h] at hr
  have hq := congrArg Prod.snd ((Platform.perform_of_error hr).symm.trans h)
  exact ⟨_, Prod.ext hr rfl, hq.symm⟩

theorem runImport_deleteMany (inner : Performer) (hi : i ∈ Import.all) {b : BulkClass}
    {count ptr : UInt32} (hb : i.capability args = .deleteMany b count ptr) :
    match (p.core owner).memoryFault? (p.memory.readWords ptr count) with
    | some e => runImport inner owner i args p =
        (.thrown (.text (i.name ++ ": " ++ e.message)), p)
    | none => (runImport inner owner i args p).1 = .ok (.page .undefined) := by
  have hrun := Capability.deleteMany_run b count ptr (p.core owner)
  have hfst := Platform.fst_perform (platform inner owner) (.deleteMany b count ptr) p
  have hneutral : i.fallback = .undefined := by
    rw [Import.fallback_eq_neutral hi args, Import.neutral, hb]
    rfl
  rw [show (Capability.deleteMany b count ptr).fault? (p.core owner) =
    (p.core owner).memoryFault? (p.memory.readWords ptr count) from rfl] at hrun
  unfold runImport
  rw [hb]
  rcases hm : (p.core owner).memoryFault? (p.memory.readWords ptr count) with _ | e <;>
    rw [hm] at hrun
  · rcases hr : (platform inner owner).perform (.deleteMany b count ptr) p with ⟨e | result, q⟩ <;>
      rw [hr] at hfst
    · have hfatal := hrun.2 e hfst.symm
      simp only [hfatal, hneutral]
      rfl
    · have hok : result.pageValue = .undefined := Capability.run_ok (Prod.ext hfst.symm rfl)
      exact congrArg (fun v => Reply.ok (.page v)) hok
  · have hr : (platform inner owner).perform (.deleteMany b count ptr) p = (.error e, p) := by
      rw [Platform.perform_of_error (congrArg Prod.fst hrun.2)]
      refine congrArg (Prod.mk _) (Eq.trans ?_ (withCore_eq rfl : p.withCore owner _ = p))
      exact congrArg (fun x => p.withCore owner x.2) hrun.2
    rw [hr]
    simp only [hrun.1, if_true]

/-- Whatever arguments an import is called with, it comes to what it should. -/
theorem callImport_boundary (inner : Performer) (ho : p.importer.filter p.isOwned = some owner)
    (hi : i ∈ Import.all) (args : Arguments) : Crosses inner owner i args p := by
  have hcall := performWith_importCall inner ho hi args
  constructor
  · intro result q h
    have hr := (Platform.fst_perform (platform inner owner) (i.capability args) p).symm
    rw [h] at hr
    refine ⟨?_, Capability.run_ok (Prod.ext hr rfl)⟩
    rw [hcall, runImport, h]
  · intro e q h
    obtain ⟨c, hr, rfl⟩ := perform_failed h
    obtain ⟨registry, hp⟩ := (Capability.run_error hr).1
    refine ⟨?_, hp.journal⟩
    have hf : (BridgeError.registry e).isFatal = false := rfl
    rw [hcall, runImport, h, ← Import.fallback_eq_neutral hi args]
    simp only [hf]
    rfl
  · intro e q he h
    obtain ⟨c, hr, rfl⟩ := perform_failed h
    have ha := (Capability.run_error hr).2 he
    refine ⟨?_, ha.journal, c.gl, c.host, c.journal, ?_⟩
    · rw [hcall, runImport, h]
      simp only [he, if_true]
    · rw [withCore_eq ha.bridge, ha.memory]
      rfl
  · exact fun st hs => attached_of_importer hs ho
  · intro b count ptr hb
    rw [hcall]
    exact runImport_deleteMany inner hi hb

/-- What stands in memory is no handle, and is misused; past the end of memory nothing can be
read. -/
theorem callImport_boundary_of_no_handle :
    let i := Import.silent "glDeleteBuffers" fun a => .deleteMany .buffer (a.word 0) (a.word 1)
    let p := run [.start, .poke 0 [1]] (fresh 64)
    i ∈ Import.all ∧ p.importer.filter p.isOwned = some 0 ∧
      (p.core 0).memoryFault? (p.memory.readWords 0 1) = none ∧
      Crosses (performFor 0) 0 i [.number (.ofInt 1), .number .zero] p ∧
      (p.core 0).memoryFault? (p.memory.readWords 64 1) =
        some (.memory (.outOfBounds 64 4 64)) ∧
      Crosses (performFor 0) 0 i [.number (.ofInt 1), .number (.ofInt 64)] p := by
  intro i p
  have hi : i ∈ Import.all := by simp [Import.all, Import.objectImports, i]
  have ho : p.importer.filter p.isOwned = some 0 := by decide +kernel
  exact ⟨hi, ho, by decide +kernel, callImport_boundary (performFor 0) ho hi _,
    by decide +kernel, callImport_boundary (performFor 0) ho hi _⟩

/-- A page on which a bridge runs whose guest holds the text of a document. -/
def documented : Page := run [.start, .poke 0 (Text.utf8 "true")] (fresh 64)

/-- The text of the document that a capability has handed back. -/
def documentText? : Except BridgeError Capability.Result → Option String
  | .ok (.document value) => some value.print
  | _ => none

/-- The value that an import has answered. -/
def answered? : Reply → Option PageValue
  | .ok (.page value) => some value
  | _ => none

/-- The bridge answers the document that it has read, and the guest is answered nothing. -/
theorem document_not_returned :
    documentText? ((platform (performFor 0) 0).perform (.logEquationResult 0 4) documented).1 =
        some "true" ∧
      answered? (perform (.importCall "onEquationResultJSON" [.number .zero, .number (.ofInt 4)])
        documented).1 = some .undefined := by
  constructor <;> decide +kernel

end Page

end GuestBridge
