import GuestBridge.Proofs.Capability.Handles
import GuestBridge.Proofs.Handle.Slots

/-!
# Classes of handles keep apart

A capability changes at most one of the six tables (`Capability.isolated`): those that create put
what they have made into new slots and hand out the next handles, those that delete empty slots, and
all others leave the registry as it is.
-/

set_option autoImplicit false

namespace GuestBridge

namespace Capability

/-- The class that a capability hands out handles of. -/
def issues? : Capability → Option ResourceClass
  | initShader _ _ _ => some .shader
  | linkProgram _ _ => some .program
  | uniformLocation _ _ _ => some .uniformLocation
  | create b | generate b _ _ => some b.objectClass.resource
  | _ => none

/-- How many handles a capability hands out if it succeeds. -/
def issueCount : Capability → Nat
  | initShader _ _ _ | linkProgram _ _ | uniformLocation _ _ _ | create _ => 1
  | generate _ count _ => count.toNat
  | _ => 0

/-- The class that a capability deletes objects of. -/
def empties? : Capability → Option ObjectClass
  | delete c _ => some c
  | deleteMany b _ _ => some b.objectClass
  | _ => none

theorem empties?_of_issues? {c : Capability} {k : ResourceClass} (h : c.issues? = some k) :
    c.empties? = none := by
  cases c <;> first | rfl | cases h

theorem issues?_of_empties? {c : Capability} {d : ObjectClass} (h : c.empties? = some d) :
    c.issues? = none := by
  cases c <;> first | rfl | cases h

theorem issueCount_of_issues? {c : Capability} (h : c.issues? = none) : c.issueCount = 0 := by
  cases c <;> first | rfl | cases h

theorem returned_of_issues? {G : Type} {c : Capability} (h : c.issues? = none)
    (result : Except BridgeError Result) (t : Core G) : c.returned result t = [] := by
  cases c <;> first | rfl | cases h

variable {G : Type} [GraphicsContext G] {s : Core G} {c : Capability}

/-- The handles that a capability hands out. -/
def handed (c : Capability) (s : Core G) : List UInt32 := c.returned (c.run s).1 (c.run s).2

/-- What a capability has made, if it succeeds. -/
def made (c : Capability) (s : Core G) : List Resource :=
  match (c.run s).1 with
  | .ok _ => (s.since (c.run s).2).flatMap Event.made
  | .error _ => []

/-- What a capability does to the tables, in any state, whether it succeeds or fails. -/
structure Isolated (c : Capability) (s : Core G) : Prop where
  /-- One that creates puts what it has made into new slots of its class; if it fails, none. -/
  issued : ∀ k, c.issues? = some k →
    s.bridge.registry.Appended k (c.made s) (c.handed s) (c.run s).2.bridge.registry
  count : ∀ r, (c.run s).1 = .ok r → (c.handed s).length = c.issueCount
  /-- One that deletes empties slots of its class. -/
  emptied : ∀ d, c.empties? = some d →
    s.bridge.registry.Emptied d (c.run s).2.bridge.registry
  /-- Any other leaves all tables as they are. -/
  untouched : c.issues? = none → c.empties? = none →
    (c.run s).2.bridge.registry = s.bridge.registry ∧ c.handed s = []

end Capability

namespace Core

open Attempt

variable {G : Type} {s : Core G} {d : ObjectClass}

/-! ## Issuing one handle -/

/-- Since `s` one thing was made, and it has got the next handle of its class. -/
def Issued (s : Core G) (k : ResourceClass) (handle : UInt32) (t : Core G) : Prop :=
  ∃ x, (s.since t).flatMap Event.made = [x] ∧
    s.bridge.registry.Appended k [x] [handle] t.bridge.registry

theorem Noted.issued {events : List Event} {t u : Core G} {x : Resource} (h : Noted s events t)
    (hm : events.flatMap Event.made = [x]) (hj : u.journal = t.journal)
    (hR : u.bridge.registry = (t.bridge.registry.add x).2) :
    Issued s x.kind (t.bridge.registry.add x).1 u := by
  refine ⟨x, ?_, ?_⟩
  · rw [since_eq (hj ▸ h.journal), hm]
  · rw [hR, h.registry]
    exact s.bridge.registry.appended_add x

theorem register_issued {E : BridgeError → Core G → Prop} {events : List Event} {o : Native d}
    (hm : events.flatMap Event.made = [.object d o]) :
    Meets (Noted s events) (register d o) (Issued s d.resource) E :=
  meets_state fun t ht => ht.issued (u := (register d o t).2) hm rfl rfl

variable [GraphicsContext G]

theorem register_or_delete_issued {events : List Event} (good : Bool) {o : Native d}
    (hm : events.flatMap Event.made = [.object d o]) (log : GlCall)
    (e : log.Answer → BridgeError) :
    Meets (Noted s events)
      (if good then register d o
        else do
          let info ← native log
          native (.delete d o)
          .fail (e info) : Action (Core G) UInt32)
      (Issued s d.resource) fun _ _ => True := by
  cases good with
  | true => exact register_issued hm
  | false =>
    exact native_noted fun _ => native_noted fun _ => meets_fail fun _ _ => trivial

theorem initShader_issued (sourcePtr sourceLen kind : UInt32) :
    Meets (Noted s []) (initShader sourcePtr sourceLen kind) (Issued s .shader)
      fun _ _ => True := by
  refine ((keeps_readString _ _).meets_of fun _ _ _ => trivial).bind fun source => ?_
  refine native_noted fun a => created_noted (fun _ _ _ => trivial) fun o ha => ?_
  subst ha
  refine native_noted fun _ => native_noted fun _ => native_noted fun good => ?_
  exact register_or_delete_issued good rfl (.shaderInfoLog o)
    fun info => .shaderCompilation (info.getD "")

theorem linkProgram_issued (vertex fragment : UInt32) :
    Meets (Noted s []) (linkProgram vertex fragment) (Issued s .program) fun _ _ => True := by
  refine ((keeps_object _ _).meets_of fun _ _ _ => trivial).bind fun vertex => ?_
  refine ((keeps_object _ _).meets_of fun _ _ _ => trivial).bind fun fragment => ?_
  refine native_noted fun a => created_noted (fun _ _ _ => trivial) fun o ha => ?_
  subst ha
  refine native_noted fun _ => native_noted fun _ => native_noted fun _ =>
    native_noted fun good => ?_
  exact register_or_delete_issued good rfl (.programInfoLog o)
    fun info => .shaderLinking (info.getD "")

theorem uniformLocation_issued (program ptr len : UInt32) :
    Meets (Noted s []) (uniformLocation program ptr len) (Issued s .uniformLocation)
      fun _ _ => True := by
  refine ((keeps_readString _ _).meets_of fun _ _ _ => trivial).bind fun name => ?_
  refine ((keeps_object _ _).meets_of fun _ _ _ => trivial).bind fun program => ?_
  refine native_noted fun l => meets_state fun t ht => ?_
  exact ht.issued (x := .location l) (u := (registerLocation l t).2) rfl rfl rfl

theorem createObject_issued (b : BulkClass) :
    Meets (Noted s []) (createObject b) (Issued s b.objectClass.resource) fun _ _ => True := by
  refine native_noted fun a => created_noted (fun _ _ _ => trivial) fun o ha => ?_
  subst ha
  exact register_issued rfl

/-! ## Emptying slots -/

omit [GraphicsContext G] in
theorem release_cases (c : ObjectClass) (handle : UInt32) (s : Core G) :
    (∃ e, release c handle s = (.error (.registry e), s)) ∨
      ∃ o, release c handle s = (.ok o, s.withRegistry (s.bridge.registry.discard c handle)) := by
  have hd := (s.bridge.registry.table c).delete_eq handle
  unfold release
  rcases hg : (s.bridge.registry.table c).get handle with e | o <;> rw [hg] at hd
  · exact .inl ⟨e, by simp only [hd, Except.map]⟩
  · exact .inr ⟨o, by simp only [hd, Except.map]; rfl⟩

section

variable {R : Registry}

theorem keeps_deleteObject_emptied (handle : UInt32) :
    Keeps (fun t => R.Emptied d t.bridge.registry)
      (deleteObject d handle : Action (Core G) Unit) := by
  refine Keeps.bind (fun t ht => ?_) fun o => keeps_state fun t ht => ht
  rcases release_cases d handle t with ⟨e, hr⟩ | ⟨o, hr⟩ <;> rw [hr]
  · exact ht
  · exact ht.discard handle

theorem keeps_deleteEach_emptied (handles : List UInt32) :
    Keeps (fun t => R.Emptied d t.bridge.registry)
      (deleteEach d handles : Action (Core G) (Option BridgeError)) := by
  induction handles with
  | nil => exact keeps_pure _
  | cons handle handles ih =>
    refine (keeps_outcome (keeps_deleteObject_emptied handle)).bind fun first =>
      ih.bind fun later => ?_
    cases first with
    | ok => exact keeps_pure _
    | error e => exact keeps_pure _

theorem keeps_deleteMany_emptied (b : BulkClass) (count ptr : UInt32) :
    Keeps (fun t => R.Emptied b.objectClass t.bridge.registry)
      (deleteMany b count ptr : Action (Core G) Unit) := by
  refine keeps_guestMemory.bind fun memory => (Action.keeps_liftMemory _).bind fun handles =>
    (keeps_deleteEach_emptied handles).bind fun first => ?_
  cases first with
  | none => exact keeps_pure _
  | some e => exact keeps_fail _

end

end Core

namespace Capability

open GuestBridge.Core Attempt

variable {G : Type} [GraphicsContext G] {s : Core G} {c : Capability}

/-! ## One capability -/

theorem made_of_ok {r : Result} (h : (c.run s).1 = .ok r) :
    c.made s = (s.since (c.run s).2).flatMap Event.made := by
  rw [made, h]

/-- A capability that fails has made and handed out nothing. -/
theorem nothing_of_error {e : BridgeError} (h : (c.run s).1 = .error e) :
    c.made s = [] ∧ c.handed s = [] := by
  rw [made, handed, h]
  exact ⟨rfl, c.returned_error _ _⟩

theorem isolated_of_error {k : ResourceClass} {e : BridgeError} (hk : c.issues? = some k)
    (h : (c.run s).1 = .error e) : c.Isolated s := by
  have hc : ∀ b n p, c ≠ .deleteMany b n p := by
    rintro b n p rfl
    cases hk
  have hR : (c.run s).2.bridge.registry = s.bridge.registry := by
    rw [(aside_of_error hc (Prod.ext h rfl : c.run s = (.error e, _))).bridge]
  obtain ⟨hmade, hhanded⟩ := nothing_of_error h
  refine ⟨fun k _ => ?_, fun r hr => ?_, fun d hd => ?_, fun hn _ => ?_⟩
  · rw [hmade, hhanded, hR]
    exact .refl _ k
  · cases h.symm.trans hr
  · cases (empties?_of_issues? hk).symm.trans hd
  · cases hn.symm.trans hk

/-- A capability that makes one thing and answers its handle. -/
theorem isolated_of_issued {k : ResourceClass} {x : Action (Core G) UInt32}
    (hx : Meets (Noted s []) x (Issued s k) fun _ _ => True) (hrun : c.run = word x)
    (hk : c.issues? = some k) (hcount : c.issueCount = 1)
    (hr : ∀ n (t : Core G), c.returned (.ok (.number n)) t = [.ofNat n.toNat]) :
    c.Isolated s := by
  have hrun : c.run s = ((x s).1.map fun h => .number h.toNat, (x s).2) := by
    rw [hrun]
    exact bind_pure_apply x (fun h => Result.number h.toNat) s
  have hx := hx s (noted_refl s)
  rcases hs : x s with ⟨e | h, t⟩ <;> rw [hs] at hx hrun
  · exact isolated_of_error hk (congrArg Prod.fst hrun)
  · obtain ⟨y, hmade, happ⟩ := hx
    have hhanded : c.handed s = [h] := by
      rw [handed, hrun]
      simp [Except.map, hr]
    refine ⟨fun k' hk' => ?_, fun _ _ => ?_, fun d' hd' => ?_, fun hn => ?_⟩
    · cases hk.symm.trans hk'
      rw [made_of_ok (congrArg Prod.fst hrun), hhanded, hrun, hmade]
      exact happ
    · rw [hhanded, hcount]
      rfl
    · cases (empties?_of_issues? hk).symm.trans hd'
    · cases hn.symm.trans hk

theorem isolated_generate (b : BulkClass) (count outPtr : UInt32) :
    (generate b count outPtr).Isolated s := by
  rcases generate_made b count outPtr s with
    ⟨e, t, hr, -⟩ | ⟨os, t, events, hr, hlen, hj, hmade, hwords, hR⟩
  · exact isolated_of_error rfl (congrArg Prod.fst hr)
  · have hhanded : (generate b count outPtr).handed s =
        ((s.bridge.registry.table b.objectClass).createMany os).1 := by
      rw [handed, hr]
      exact hwords
    refine ⟨fun k hk => ?_, fun _ _ => ?_, nofun, nofun⟩
    · cases hk
      rw [made_of_ok (congrArg Prod.fst hr), hhanded, hr, since_eq hj, hmade, hR]
      exact s.bridge.registry.appended_createMany b.objectClass os
    · rw [hhanded, HandleTable.length_createMany, hlen]
      rfl

theorem isolated_of_emptied {d : ObjectClass} (hd : c.empties? = some d)
    (h : s.bridge.registry.Emptied d (c.run s).2.bridge.registry) : c.Isolated s := by
  have hi := issues?_of_empties? hd
  refine ⟨fun k hk => ?_, fun r _ => ?_, fun d' hd' => ?_, fun _ hn => ?_⟩
  · cases hi.symm.trans hk
  · rw [handed, returned_of_issues? hi, issueCount_of_issues? hi]
    rfl
  · cases hd.symm.trans hd'
    exact h
  · cases hn.symm.trans hd

/-- What no native call and no fetch touches. -/
theorem keeps_registry {R : Registry} (c : Capability) (hi : c.issues? = none)
    (hd : c.empties? = none) :
    Keeps (fun t => t.bridge.registry = R) (c.run : Action (Core G) Result) := by
  have steady : Steady fun t : Core G => t.bridge.registry = R :=
    ⟨fun _ _ ht => ht, fun _ _ ht => ht, fun _ ht => ht, fun _ ht => ht⟩
  have call (call : GlCall) : Keeps (fun t : Core G => t.bridge.registry = R) (native call) :=
    keeps_state fun _ ht => ht
  by_cases hplain : c.isPlain = true
  · exact c.keeps_of_isPlain steady hplain
  cases c with
  | fetchBytes urlPtr urlLen token =>
    refine keeps_answer fun t ht => ?_
    rcases acceptFetch_cases urlPtr urlLen token t with ⟨e, hr⟩ | ⟨request, text, -, hr⟩ <;>
      rw [hr] <;> exact ht
  | detachShader program shader =>
    exact keeps_answer ((keeps_object _ _).bind fun _ => (keeps_object _ _).bind fun _ => call _)
  | programParameter program name =>
    exact keeps_answer ((keeps_object _ _).bind fun _ => (call _).bind fun _ => keeps_pure _)
  | attribLocation program ptr len =>
    exact keeps_answer <| (keeps_readString _ _).bind fun _ =>
      (keeps_object _ _).bind fun _ => call _
  | activeUniform program index capacity lengthPtr sizePtr typePtr namePtr =>
    refine keeps_answer ((keeps_object _ _).bind fun program => (call _).bind fun info => ?_)
    cases info with
    | none => exact keeps_fail _
    | some info =>
      exact keeps_guestMemory.bind fun _ => (Action.keeps_liftMemory _).bind fun _ =>
        steady.keeps_store _
  | uniformMatrix4fv l count transpose ptr =>
    refine keeps_answer ?_
    unfold Core.uniformMatrix4fv
    split
    · exact keeps_guestMemory.bind fun _ => (Action.keeps_liftMemory _).bind fun _ =>
        (keeps_location _).bind fun _ => call _
    · exact keeps_fail _
  | useProgram | bindBuffer | bindTexture | bindVertexArray =>
    exact keeps_answer ((keeps_object _ _).bind fun _ => call _)
  | uniform1f | uniform1i | uniform2fv | uniform3fv | uniform4fv =>
    exact keeps_answer ((keeps_location _).bind fun _ => call _)
  | initShader | linkProgram | uniformLocation | create | generate => cases hi
  | delete | deleteMany => cases hd
  | _ => exact absurd rfl hplain

theorem isolated_of_untouched (hi : c.issues? = none) (hd : c.empties? = none) :
    c.Isolated s := by
  have hhanded : c.handed s = [] := returned_of_issues? hi _ _
  refine ⟨fun k hk => ?_, fun r _ => ?_, fun d hd' => ?_, fun _ _ => ⟨?_, hhanded⟩⟩
  · cases hi.symm.trans hk
  · rw [hhanded, issueCount_of_issues? hi]
    rfl
  · cases hd.symm.trans hd'
  · exact c.keeps_registry hi hd s rfl

/-- Every capability, in any state, changes at most the table of its own class. -/
theorem isolated (c : Capability) (s : Core G) : c.Isolated s := by
  cases c with
  | initShader sourcePtr sourceLen kind =>
    exact isolated_of_issued (initShader_issued _ _ _) rfl rfl rfl fun _ _ => rfl
  | linkProgram vertex fragment =>
    exact isolated_of_issued (linkProgram_issued _ _) rfl rfl rfl fun _ _ => rfl
  | uniformLocation program ptr len =>
    exact isolated_of_issued (uniformLocation_issued _ _ _) rfl rfl rfl fun _ _ => rfl
  | create b => exact isolated_of_issued (createObject_issued b) rfl rfl rfl fun _ _ => rfl
  | generate b count outPtr => exact isolated_generate b count outPtr
  | delete d handle =>
    exact isolated_of_emptied rfl (keeps_answer (keeps_deleteObject_emptied handle) s (.refl _ d))
  | deleteMany b count ptr =>
    exact isolated_of_emptied rfl
      (keeps_answer (keeps_deleteMany_emptied b count ptr) s (.refl _ _))
  | _ => exact isolated_of_untouched rfl rfl

end Capability

end GuestBridge
