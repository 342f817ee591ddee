import GuestBridge.Proofs.Core.Contract
import GuestBridge.Proofs.Handle.Objects

/-!
# What a capability can do to the core

`Core.Worked s d loose t` says that the steps a capability is made of lead from `s` to `t`, and
that `loose` are the objects of class `d` then in hand: created or released, and neither
registered nor deleted yet. The contracts of the steps, `native_meets` to
`keeps_registerLocation`, are the rules by which the actions of the core are taken apart. None of
the steps touches anything of the bridge but its registry (`Worked.bridge_eq`).
-/

set_option autoImplicit false

namespace GuestBridge

/-! ## Objects by class -/

/-- The objects as ones of class `d`, if that is their class. -/
def Native.ofClass {c : ObjectClass} (d : ObjectClass) (os : List (Native c)) : List (Native d) :=
  if c = d then os.map fun o => ⟨o.id⟩ else []

namespace Native

variable {c d : ObjectClass}

@[simp] theorem ofClass_self (os : List (Native c)) : ofClass c os = os := by
  simp [ofClass]

theorem ofClass_of_ne (os : List (Native c)) (h : c ≠ d) : ofClass d os = [] := if_neg h

@[simp] theorem ofClass_nil : ofClass d ([] : List (Native c)) = [] := by
  simp [ofClass]

theorem ofClass_append (os ps : List (Native c)) :
    ofClass d (os ++ ps) = ofClass d os ++ ofClass d ps := by
  unfold ofClass
  split
  · exact List.map_append
  · rfl

end Native

/-- Whether a call creates or deletes an object. -/
def GlCall.movesObject : GlCall → Bool
  | .create _ | .delete _ _ => true
  | _ => false

/-- Whether an event is one that the bridge's own code notes: neither a native call nor an entry
into the guest. -/
def Event.isQuiet : Event → Bool
  | .gl _ _ | .call _ | .alloc _ => false
  | _ => true

/-- Whether an event is a warning that the bridge logs on its own account. -/
def Event.isWarning : Event → Bool
  | .log r => r.level = .warn && r.target = Log.Target.bridge
  | _ => false

theorem Event.isWarning_of_target {level : Log.Level} {target text : String}
    (h : target ≠ Log.Target.bridge) : (Event.log ⟨level, target, text⟩).isWarning = false := by
  simp [isWarning, h]

theorem Event.isWarning_of_level {level : Log.Level} {target text : String} (h : level ≠ .warn) :
    (Event.log ⟨level, target, text⟩).isWarning = false := by
  simp [isWarning, h]

namespace Core

open Attempt

variable {G : Type} [GraphicsContext G] {c d : ObjectClass} {loose : List (Native d)}

/-! ## Steps -/

/-- From `s`, with nothing in hand, a capability has come to the state of the last argument, with
`loose` in hand. -/
inductive Worked (s : Core G) (d : ObjectClass) : List (Native d) → Core G → Prop
  | refl : Worked s d [] s
  | call {loose t} (call : GlCall) (h : call.movesObject = false) (before : Worked s d loose t) :
    Worked s d loose (t.perform call).2
  | create {loose t} (what : Blueprint) (before : Worked s d loose t) :
    Worked s d (loose ++ Native.ofClass d (t.perform (.create what)).1.toList)
      (t.perform (.create what)).2
  | delete {loose t c} (o : Native c) (before : Worked s d (Native.ofClass d [o] ++ loose) t) :
    Worked s d loose (t.perform (.delete c o)).2
  /-- A table exchanges the objects in hand for others; none is lost or made up. -/
  | table {t c os} (table : HandleTable (Native c)) (ps : List (Native c))
    (before : Worked s d (Native.ofClass d os) t)
    (h : ((t.bridge.registry.table c).objects ++ os).Perm (table.objects ++ ps)) :
    Worked s d (Native.ofClass d ps) (t.withRegistry (t.bridge.registry.withTable c table))
  | locations {loose t} (locations : HandleTable (Option Location)) (before : Worked s d loose t) :
    Worked s d loose (t.withRegistry { t.bridge.registry with locations })
  | memory {loose t} (memory : Memory) (before : Worked s d loose t) :
    Worked s d loose { t with memory }
  | host {loose t} (host : Host) (before : Worked s d loose t) : Worked s d loose { t with host }
  | note {loose t} (e : Event) (h : e.isQuiet) (hw : e.isWarning = false)
    (before : Worked s d loose t) : Worked s d loose (t.note e)

/-- Of the bridge, only the registry changes. -/
theorem Worked.bridge_eq {s t : Core G} (h : Worked s d loose t) :
    ∃ registry, t.bridge = { s.bridge with registry } := by
  induction h with
  | refl => exact ⟨s.bridge.registry, rfl⟩
  | call call h before ih => exact ih
  | create what before ih => exact ih
  | delete o before ih => exact ih
  | table table ps before h ih =>
    obtain ⟨registry, ih⟩ := ih
    exact ⟨_, by rw [withRegistry, ih]⟩
  | locations locations before ih =>
    obtain ⟨registry, ih⟩ := ih
    exact ⟨_, by rw [withRegistry, ih]⟩
  | memory memory before ih => exact ih
  | host host before ih => exact ih
  | note e h hw before ih => exact ih

/-- The journal only grows, and neither an entry into the guest nor a warning is added. -/
theorem Worked.journal_eq {s t : Core G} (h : Worked s d loose t) :
    ∃ events, t.journal.toList = s.journal.toList ++ events ∧
      ∀ e ∈ events, ((∃ call a, e = .gl call a) ∨ e.isQuiet) ∧ e.isWarning = false := by
  have more : ∀ {u : Core G} (e : Event), (∃ call a, e = .gl call a) ∨ e.isQuiet →
      e.isWarning = false →
      (∃ events, u.journal.toList = s.journal.toList ++ events ∧
        ∀ e ∈ events, ((∃ call a, e = .gl call a) ∨ e.isQuiet) ∧ e.isWarning = false) →
      ∃ events, (u.journal.push e).toList = s.journal.toList ++ events ∧
        ∀ e ∈ events, ((∃ call a, e = .gl call a) ∨ e.isQuiet) ∧ e.isWarning = false := by
    rintro u e hq hw ⟨events, he, hall⟩
    refine ⟨events ++ [e], by simp [he], fun e' h' => ?_⟩
    rcases List.mem_append.1 h' with h' | h'
    · exact hall e' h'
    · rw [List.mem_singleton.1 h']
      exact ⟨hq, hw⟩
  induction h with
  | refl => exact ⟨[], by simp, by simp⟩
  | call call h before ih => exact more _ (.inl ⟨_, _, rfl⟩) rfl ih
  | create what before ih => exact more _ (.inl ⟨_, _, rfl⟩) rfl ih
  | delete o before ih => exact more _ (.inl ⟨_, _, rfl⟩) rfl ih
  | table table ps before h ih => exact ih
  | locations locations before ih => exact ih
  | memory memory before ih => exact ih
  | host host before ih => exact ih
  | note e h hw before ih => exact more e (.inr h) hw ih

/-! ## Contracts of native calls -/

section

variable {s : Core G} {E : BridgeError → Core G → Prop}

/-- A native call that neither creates nor deletes leaves in hand what was. -/
theorem native_meets {call : GlCall} (h : call.movesObject = false) :
    Meets (Worked s d loose) (native call : Action (Core G) call.Answer)
      (fun _ => Worked s d loose) E :=
  meets_state fun _ ht => .call call h ht

theorem keeps_native {call : GlCall} (h : call.movesObject = false) :
    Keeps (Worked s d loose) (native call : Action (Core G) call.Answer) :=
  (native_meets h).keeps

theorem native_create_meets (what : Blueprint) :
    Meets (Worked s d loose) (native (.create what) : Action (Core G) _)
      (fun a => Worked s d (loose ++ Native.ofClass d a.toList)) E :=
  meets_state fun _ ht => .create what ht

theorem native_delete_meets (loose : List (Native d)) (o : Native c) :
    Meets (Worked s d (Native.ofClass d [o] ++ loose))
      (native (.delete c o) : Action (Core G) _) (fun _ => Worked s d loose) E :=
  meets_state fun _ ht => .delete o ht

/-! ## Contracts of the other steps -/

theorem register_meets (o : Native c) :
    Meets (Worked s d (Native.ofClass d [o])) (register c o : Action (Core G) UInt32)
      (fun _ => Worked s d []) E := by
  refine meets_state fun t ht => ?_
  have h := ht.table ((t.bridge.registry.table c).create o).2 []
    (by rw [HandleTable.objects_create, List.append_nil])
  rwa [Native.ofClass_nil] at h

theorem registerMany_meets (os : List (Native c)) :
    Meets (Worked s d (Native.ofClass d os))
      (registerMany c os : Action (Core G) (List UInt32)) (fun _ => Worked s d []) E := by
  refine meets_state fun t ht => ?_
  have h := ht.table ((t.bridge.registry.table c).createMany os).2 []
    (by rw [HandleTable.objects_createMany, List.append_nil])
  rwa [Native.ofClass_nil] at h

theorem release_meets (handle : UInt32) :
    Meets (Worked s d []) (release c handle : Action (Core G) (Native c))
      (fun o => Worked s d (Native.ofClass d [o])) (fun _ => Worked s d []) := by
  intro t ht
  unfold release
  rcases hd : (t.bridge.registry.table c).delete handle with e | ⟨o, table⟩
  · simpa only [hd] using ht
  · simp only [hd]
    rw [← Native.ofClass_nil (c := c)] at ht
    refine ht.table table [o] ?_
    rw [List.append_nil]
    exact (HandleTable.objects_delete_perm hd).trans (List.perm_append_singleton o _).symm

theorem keeps_registerLocation (l : Option Location) :
    Keeps (Worked s d loose) (registerLocation l : Action (Core G) UInt32) :=
  keeps_state fun _ ht => ht.locations _

end

end Core

end GuestBridge
