import GuestBridge.Proofs.Capability.Plain
import GuestBridge.Proofs.Core.Ledger

/-!
# What a capability does with handles

Which handles a capability takes (`Capability.refs`) and what it does before it looks at them
(`Capability.fault?`), what it passes to the native context on their behalf (`Capability.given`),
and what the guest knows of its handles afterwards (`Capability.deeds`): which it has asked to
delete, and which it was handed, as a result or in memory, for what the native context has made.
-/

set_option autoImplicit false

namespace GuestBridge

/-! ## Native calls -/

namespace Event

/-- The object that a native call has created, or the location that it has found. -/
def made : Event → List Resource
  | .gl (.create what) answer => answer.toList.map (.object what.objectClass)
  | .gl (.uniformLocation _ _) answer => [.location answer]
  | _ => []

end Event

namespace Core

variable {G : Type}

/-- What has happened between two states. -/
def since (s t : Core G) : List Event := t.journal.toList.drop s.journal.size

theorem since_eq {s t : Core G} {events : List Event}
    (h : t.journal.toList = s.journal.toList ++ events) : s.since t = events := by
  rw [since, h, ← Array.length_toList, List.drop_left]

/-- The words in the guest's memory, if they can be read. -/
def words (s : Core G) (ptr count : UInt32) : List UInt32 :=
  if s.bridge.attached then
    match s.memory.readWords ptr count with
    | .ok words => words
    | .error _ => []
  else []

theorem words_of_readWords {s : Core G} {ptr count : UInt32} {ws : List UInt32}
    (ha : s.bridge.attached = true) (h : s.memory.readWords ptr count = .ok ws) :
    s.words ptr count = ws := by
  rw [words, if_pos ha, h]

theorem words_of_fault {s : Core G} {ptr count : UInt32} {e : BridgeError}
    (h : s.memoryFault? (s.memory.readWords ptr count) = some e) : s.words ptr count = [] := by
  unfold memoryFault? at h
  unfold words
  split
  · next ha =>
    rw [if_pos ha] at h
    rcases hr : s.memory.readWords ptr count with e | ws
    · rfl
    · rw [hr] at h
      cases h
  · rfl

theorem readWords_of_no_fault {s : Core G} {ptr count : UInt32}
    (h : s.memoryFault? (s.memory.readWords ptr count) = none) :
    s.memory.readWords ptr count = .ok (s.words ptr count) := by
  unfold memoryFault? at h
  unfold words
  by_cases ha : s.bridge.attached = true
  · rw [if_pos ha] at h ⊢
    rcases hr : s.memory.readWords ptr count with e | ws
    · rw [hr] at h
      cases h
    · rfl
  · rw [if_neg ha] at h
    cases h

end Core

namespace Capability

variable {G : Type}

/-! ## Handles taken -/

/-- The handles that a capability takes, in the order in which it looks them up. -/
def refs (c : Capability) (s : Core G) : List Ref :=
  match c with
  | .linkProgram vertex fragment => [.object .shader vertex, .object .shader fragment]
  | .detachShader program shader => [.object .program program, .object .shader shader]
  | .useProgram program | .programParameter program _ | .attribLocation program _ _
  | .uniformLocation program _ _ | .activeUniform program _ _ _ _ _ _ => [.object .program program]
  | .uniform1f l _ | .uniform1i l _ | .uniform2fv l _ _ | .uniform3fv l _ _ _
  | .uniform4fv l _ _ _ _ | .uniformMatrix4fv l _ _ _ => [.location l]
  | .delete c handle => [.object c handle]
  | .deleteMany b count ptr => (s.words ptr count).map (.object b.objectClass)
  | .bindBuffer _ buffer => [.object .buffer buffer]
  | .bindTexture _ texture => [.object .texture texture]
  | .bindVertexArray vertexArray => [.object .vertexArray vertexArray]
  | _ => []

/-- What keeps a capability from looking at its handles: it reads the memory first, and counts
what it is to read. -/
def fault? (c : Capability) (s : Core G) : Option BridgeError :=
  match c with
  | .attribLocation _ ptr len | .uniformLocation _ ptr len =>
    s.memoryFault? (s.memory.readString ptr len)
  | .uniformMatrix4fv _ count _ ptr =>
    if count.toNat * 16 < UInt32.size then
      s.memoryFault? (s.memory.readSingles ptr (count * 16))
    else some (.memory (.tooLarge count.toNat))
  | .deleteMany _ count ptr => s.memoryFault? (s.memory.readWords ptr count)
  | _ => none

/-- The objects and locations that a native call is given on behalf of a handle. What a capability
has just created it works on without one. -/
def given : Capability → GlCall → List Resource
  | .initShader _ _ _, _ | .create _, _ | .generate _ _ _, _ => []
  | .linkProgram _ _, call => call.resources.filter fun x => x.kind = .shader
  | _, call => call.resources

theorem given_sublist (c : Capability) (call : GlCall) :
    (c.given call).Sublist call.resources := by
  cases c <;> first
    | exact List.Sublist.refl _
    | exact List.nil_sublist _
    | exact List.filter_sublist

/-- What a capability asks to delete by a handle. -/
def discards : Capability → Ref → List Deed
  | .delete _ _, .object c handle | .deleteMany _ _ _, .object c handle => [.discarded c handle]
  | _, _ => []

/-- What handles resolve to, each when its turn comes. -/
def turns (c : Capability) (ds : List Deed) : List Ref → List (Except RegistryError Resource)
  | [] => []
  | r :: rs => Deed.resolve r ds :: c.turns (ds ++ c.discards r) rs

variable {c : Capability} {ds : List Deed} {rs : List Ref}

theorem turns_append (c : Capability) (ds : List Deed) (rs rs' : List Ref) :
    c.turns ds (rs ++ rs') = c.turns ds rs ++ c.turns (ds ++ rs.flatMap c.discards) rs' := by
  induction rs generalizing ds with
  | nil => simp [turns]
  | cons r rs ih => simp [turns, ih]

theorem turns_of_discards (h : ∀ r, c.discards r = []) :
    c.turns ds rs = rs.map fun r => Deed.resolve r ds := by
  induction rs generalizing ds with
  | nil => rfl
  | cons r rs ih => rw [turns, h, List.append_nil, ih, List.map_cons]

theorem discards_cases (c : Capability) (r : Ref) :
    c.discards r = [] ∨ ∃ d handle, c.discards r = [.discarded d handle] := by
  cases c <;> cases r <;> first | exact .inl rfl | exact .inr ⟨_, _, rfl⟩

theorem issue?_of_mem_discards (c : Capability) {r : Ref} {d : Deed} (h : d ∈ c.discards r) :
    d.issue? = none := by
  rcases c.discards_cases r with hd | ⟨o, handle, hd⟩ <;> rw [hd] at h
  · cases h
  · rw [List.mem_singleton.1 h]
    rfl

/-- What resolves in its turn resolved all along. -/
theorem resolve_of_mem_turns {x : Resource} (h : .ok x ∈ c.turns ds rs) :
    ∃ r, Deed.resolve r ds = .ok x := by
  induction rs generalizing ds with
  | nil => cases h
  | cons r rs ih =>
    rcases List.mem_cons.1 h with h | h
    · exact ⟨r, h.symm⟩
    · obtain ⟨r', hr'⟩ := ih h
      rcases c.discards_cases r with hd | ⟨d, handle, hd⟩ <;> rw [hd] at hr'
      · exact ⟨r', List.append_nil ds ▸ hr'⟩
      · exact ⟨r', Deed.resolve_of_concat_discarded hr'⟩

/-! ## Handles handed out -/

/-- The handles that a capability hands out, as its result or in the memory it leaves. -/
def returned (c : Capability) (result : Except BridgeError Result) (t : Core G) : List UInt32 :=
  match c, result with
  | .initShader _ _ _, .ok (.number n) | .linkProgram _ _, .ok (.number n)
  | .uniformLocation _ _ _, .ok (.number n) | .create _, .ok (.number n) => [.ofNat n.toNat]
  | .generate _ count outPtr, .ok _ => t.words outPtr count
  | _, _ => []

/-- What the guest comes to know of its handles when a capability has led from `s` to `t`: those
that it has asked to delete, and those that it was handed, for what was made. -/
def deedsTo (c : Capability) (s : Core G) (result : Except BridgeError Result) (t : Core G) :
    List Deed :=
  (c.refs s).flatMap c.discards ++
    List.zipWith .issued (c.returned result t) ((s.since t).flatMap Event.made)

theorem returned_error (c : Capability) (e : BridgeError) (t : Core G) :
    c.returned (.error e) t = [] := by
  cases c <;> rfl

theorem deedsTo_of_discards (c : Capability) (h : ∀ r, c.discards r = []) (s t : Core G)
    (result : Except BridgeError Result) :
    c.deedsTo s result t =
      List.zipWith .issued (c.returned result t) ((s.since t).flatMap Event.made) := by
  rw [deedsTo, List.flatMap_eq_nil_iff.2 fun r _ => h r, List.nil_append]

variable [GraphicsContext G]

def deeds (c : Capability) (s : Core G) : List Deed := c.deedsTo s (c.run s).1 (c.run s).2

end Capability

/-- What an event gives to the native context on behalf of a handle of the capability. -/
def Event.given (c : Capability) : Event → List Resource
  | .gl glCall _ => c.given glCall
  | _ => []

theorem Capability.given_of_resources (c : Capability) {e : Event} (h : e.resources = []) :
    e.given c = [] := by
  cases e with
  | gl call a =>
    have h : call.resources = [] := h
    cases c <;> simp [Event.given, given, h]
  | _ => rfl

end GuestBridge
