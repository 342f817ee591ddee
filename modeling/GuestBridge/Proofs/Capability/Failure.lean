import GuestBridge.Bench.Setup
import GuestBridge.Proofs.Capability.Work
import GuestBridge.Proofs.Memory.Words

/-!
# Capabilities that fail

`Core.Aside s t` says that nothing sets `t` apart from `s` but native calls and what they and the
host answer next. A capability that fails has done no more (`Capability.undone`), with the exception
of deleting many objects, which goes on past a failure. So the bridge and the guest's memory are as
they were, and neither the guest nor the host's queues have been asked for anything
(`Platform.perform_error`).
-/

set_option autoImplicit false

namespace GuestBridge

namespace Core

open Attempt

variable {G α : Type} {s t : Core G}

/-- What a core may have come to without its bridge or the guest's memory being touched. -/
structure Aside (s t : Core G) : Prop where
  bridge : t.bridge = s.bridge
  memory : t.memory = s.memory
  journal : ∃ events, t.journal.toList = s.journal.toList ++ events ∧
    ∀ e ∈ events, ∃ call a, e = .gl call a

namespace Aside

theorem refl (s : Core G) : Aside s s := ⟨rfl, rfl, [], by simp, by simp⟩

theorem of_eq (h : Aside s t) {u : Core G} (hb : u.bridge = t.bridge) (hm : u.memory = t.memory)
    (hj : u.journal = t.journal) : Aside s u where
  bridge := hb.trans h.bridge
  memory := hm.trans h.memory
  journal := hj ▸ h.journal

theorem trans (h : Aside s t) {u : Core G} (h' : Aside t u) : Aside s u := by
  obtain ⟨events, he, hg⟩ := h.journal
  obtain ⟨events', he', hg'⟩ := h'.journal
  refine ⟨h'.bridge.trans h.bridge, h'.memory.trans h.memory, events ++ events', ?_, fun e hm => ?_⟩
  · rw [he', he, List.append_assoc]
  · exact (List.mem_append.1 hm).elim (hg e) (hg' e)

theorem native [GraphicsContext G] (h : Aside s t) (call : GlCall) :
    Aside s (t.perform call).2 := by
  obtain ⟨events, he, hg⟩ := h.journal
  refine ⟨h.bridge, h.memory, events ++ [.gl call (t.perform call).1], ?_, fun e hm => ?_⟩
  · simp [perform, Core.note, he]
  · rcases List.mem_append.1 hm with hm | hm
    · exact hg e hm
    · exact ⟨_, _, List.mem_singleton.1 hm⟩

end Aside

/-- From a state aside of `s`, the action succeeds, or it fails and leaves one. -/
def Undone (s : Core G) (x : Action (Core G) α) : Prop :=
  Meets (Aside s) x (fun _ _ => True) fun _ => Aside s

section

variable {β : Type} {x : Action (Core G) α} {f : α → Action (Core G) β}

theorem undone_of_keeps (h : Keeps (Aside s) x) : Undone s x := by
  intro t ht
  have h := h t ht
  rcases hr : x t with ⟨e | a, u⟩
  · rwa [hr] at h
  · trivial

/-- An action that only fails where nothing has changed yet. -/
theorem undone_of_cases (h : ∀ t, (∃ a u, x t = (.ok a, u)) ∨ ∃ e, x t = (.error e, t)) :
    Undone s x := by
  intro t ht
  rcases h t with ⟨a, u, hr⟩ | ⟨e, hr⟩
  · rw [hr]
    trivial
  · rw [hr]
    exact ht

theorem undone_of_ok (h : ∀ t, ∃ a u, x t = (.ok a, u)) : Undone s x :=
  undone_of_cases fun t => .inl (h t)

/-- What only native calls go before. -/
theorem undone_bind (hx : Keeps (Aside s) x) (hf : ∀ a, Undone s (f a)) : Undone s (x >>= f) :=
  hx.meets.bind hf

/-- What nothing goes after that can fail. -/
theorem Undone.bind_of_ok (hx : Undone s x) (hf : ∀ a t, ∃ b u, f a t = (.ok b, u)) :
    Undone s (x >>= f) := by
  refine hx.bind fun a t _ => ?_
  obtain ⟨b, u, hr⟩ := hf a t
  rw [hr]
  trivial

end

/-! ## Steps -/

theorem undone_store (stores : List Store) : Undone s (store stores) := by
  refine undone_of_cases fun t => ?_
  rcases store_cases stores t with ⟨memory, hr⟩ | ⟨e, hr⟩
  · exact .inl ⟨_, _, hr⟩
  · exact .inr ⟨e, hr⟩

theorem undone_release (c : ObjectClass) (handle : UInt32) :
    Undone s (release c handle : Action (Core G) (Native c)) := by
  refine undone_of_cases fun t => ?_
  unfold release
  rcases hd : (t.bridge.registry.table c).delete handle with e | ⟨o, table⟩
  · exact .inr ⟨.registry e, by simp only [hd]⟩
  · exact .inl ⟨o, t.withRegistry (t.bridge.registry.withTable c table), by simp only [hd]⟩

theorem undone_say (level : Log.Level) (target text : String) :
    Undone s (say level target text : Action (Core G) Unit) :=
  undone_of_ok fun _ => ⟨_, _, rfl⟩

theorem undone_register (c : ObjectClass) (o : Native c) :
    Undone s (register c o : Action (Core G) UInt32) :=
  undone_of_ok fun _ => ⟨_, _, rfl⟩

theorem undone_registerLocation (l : Option Location) :
    Undone s (registerLocation l : Action (Core G) UInt32) :=
  undone_of_ok fun _ => ⟨_, _, rfl⟩

theorem keeps_created (call : String) {c : ObjectClass} (a : Option (Native c)) :
    Keeps (Aside s) (created call a : Action (Core G) (Native c)) := by
  cases a with
  | none => exact keeps_fail _
  | some o => exact keeps_pure o

variable [GraphicsContext G]

theorem keeps_native_aside (call : GlCall) :
    Keeps (Aside s) (native call : Action (Core G) call.Answer) :=
  keeps_state fun _ ht => ht.native call

/-! ## Shaders and programs -/

theorem undone_register_or_delete (good : Bool) {c : ObjectClass} (o : Native c) (log : GlCall)
    (e : log.Answer → BridgeError) :
    Undone s (if good then register c o
      else do
        let info ← native log
        native (.delete c o)
        .fail (e info) : Action (Core G) UInt32) := by
  cases good with
  | true => exact undone_register c o
  | false =>
    exact undone_of_keeps ((keeps_native_aside _).bind fun _ =>
      (keeps_native_aside _).bind fun _ => keeps_fail _)

theorem undone_initShader (sourcePtr sourceLen kind : UInt32) :
    Undone s (initShader sourcePtr sourceLen kind : Action (Core G) UInt32) := by
  unfold initShader
  refine undone_bind (keeps_readString _ _) fun source => undone_bind (keeps_native_aside _)
    fun a => undone_bind (keeps_created _ a) fun shader => undone_bind (keeps_native_aside _)
    fun _ => undone_bind (keeps_native_aside _) fun _ => undone_bind (keeps_native_aside _)
    fun good => ?_
  exact undone_register_or_delete good shader (.shaderInfoLog shader)
    fun info => .shaderCompilation (info.getD "")

theorem undone_linkProgram (vertex fragment : UInt32) :
    Undone s (linkProgram vertex fragment : Action (Core G) UInt32) := by
  unfold linkProgram
  refine undone_bind (keeps_object _ _) fun vertex => undone_bind (keeps_object _ _)
    fun fragment => undone_bind (keeps_native_aside _) fun a => undone_bind (keeps_created _ a)
    fun program => undone_bind (keeps_native_aside _) fun _ => undone_bind (keeps_native_aside _)
    fun _ => undone_bind (keeps_native_aside _) fun _ => undone_bind (keeps_native_aside _)
    fun good => ?_
  exact undone_register_or_delete good program (.programInfoLog program)
    fun info => .shaderLinking (info.getD "")

theorem undone_activeUniform (program index capacity lengthPtr sizePtr typePtr namePtr : UInt32) :
    Undone s (activeUniform program index capacity lengthPtr sizePtr typePtr namePtr :
      Action (Core G) Unit) := by
  unfold activeUniform
  refine undone_bind (keeps_object _ _) fun program => undone_bind (keeps_native_aside _)
    fun info => ?_
  cases info with
  | none => exact undone_of_keeps (keeps_fail _)
  | some info =>
    exact undone_bind keeps_guestMemory fun _ => undone_bind (Action.keeps_liftMemory _)
      fun _ => undone_store _

/-! ## Creation -/

section

variable {b : BulkClass} {os : List (Native b.objectClass)}

/-- One native creation after another answers an object. -/
inductive Creations (b : BulkClass) : Core G → List (Native b.objectClass) → Core G → Prop
  | nil (s : Core G) : Creations b s [] s
  | cons {s t : Core G} {o : Native b.objectClass} {os : List (Native b.objectClass)}
    (answer : (s.perform (.create b.blueprint)).1 = some o)
    (rest : Creations b (s.perform (.create b.blueprint)).2 os t) : Creations b s (o :: os) t

/-- Deletes native objects, one after another. -/
def deleteAll (c : ObjectClass) (os : List (Native c)) (s : Core G) : Core G :=
  os.foldl (fun s o => (s.perform (.delete c o)).2) s

theorem journal_perform (s : Core G) (call : GlCall) :
    (s.perform call).2.journal.toList = s.journal.toList ++ [.gl call (s.perform call).1] :=
  Array.toList_push

theorem Creations.aside (h : Creations b s os t) : Aside s t := by
  induction h with
  | nil s => exact .refl s
  | cons answer rest ih => exact ((Aside.refl _).native _).trans ih

theorem Creations.journal (h : Creations b s os t) :
    t.journal.toList =
      s.journal.toList ++ os.map fun o => .gl (.create b.blueprint) (some o) := by
  induction h with
  | nil s => simp
  | cons answer rest ih =>
    rw [ih, journal_perform, answer, List.append_assoc]
    rfl

theorem deleteAll_aside (c : ObjectClass) (os : List (Native c)) (s : Core G) :
    Aside s (s.deleteAll c os) := by
  induction os generalizing s with
  | nil => exact .refl s
  | cons o os ih => exact ((Aside.refl s).native _).trans (ih _)

theorem journal_deleteAll (c : ObjectClass) (os : List (Native c)) (s : Core G) :
    (s.deleteAll c os).journal.toList =
      s.journal.toList ++ os.map fun o => .gl (.delete c o) () := by
  induction os generalizing s with
  | nil => simp [deleteAll]
  | cons o os ih =>
    show ((s.perform (.delete c o)).2.deleteAll c os).journal.toList = _
    rw [ih, journal_perform, List.append_assoc]
    rfl

theorem forM_delete (c : ObjectClass) (os : List (Native c)) (s : Core G) :
    (os.forM fun o => native (.delete c o)) s = (.ok (), s.deleteAll c os) := by
  induction os generalizing s with
  | nil => rfl
  | cons o os ih => exact ih (s.perform (.delete c o)).2

/-- The creations all answer, or one of them does not and the objects are deleted again. -/
theorem createObjects_cases (b : BulkClass) (n : Nat) (done : List (Native b.objectClass))
    (s : Core G) :
    (∃ os t, Creations b s os t ∧ os.length = n ∧
        createObjects b n done s = (.ok (done ++ os), t)) ∨
      ∃ os t, Creations b s os t ∧ os.length < n ∧
        (t.perform (.create b.blueprint)).1 = none ∧
        createObjects b n done s =
          (.error (.native (createCall b.objectClass) "returned null"),
            (t.perform (.create b.blueprint)).2.deleteAll b.objectClass (done ++ os)) := by
  induction n generalizing done s with
  | zero => exact .inl ⟨[], s, .nil s, rfl, by rw [List.append_nil]; rfl⟩
  | succ n ih =>
    have hnative : native (.create b.blueprint) s =
        (.ok (s.perform (.create b.blueprint)).1, (s.perform (.create b.blueprint)).2) := rfl
    rw [createObjects, bind_of_ok hnative]
    rcases ha : (s.perform (.create b.blueprint)).1 with _ | o
    · refine .inr ⟨[], s, .nil s, Nat.succ_pos n, ha, ?_⟩
      rw [List.append_nil]
      exact bind_of_ok (forM_delete _ done _)
    · rcases ih (done ++ [o]) (s.perform (.create b.blueprint)).2 with
        ⟨os, t, hos, hlen, hr⟩ | ⟨os, t, hos, hlen, hnone, hr⟩
      · refine .inl ⟨o :: os, t, .cons ha hos, congrArg (· + 1) hlen, ?_⟩
        rw [List.append_cons]
        exact hr
      · refine .inr ⟨o :: os, t, .cons ha hos, Nat.succ_lt_succ hlen, hnone, ?_⟩
        rw [List.append_cons]
        exact hr

/-- A creation that fails and the deletions after it are native calls. -/
theorem Creations.aside_deleteAll (h : Creations b s os t) :
    Aside s ((t.perform (.create b.blueprint)).2.deleteAll b.objectClass os) :=
  (h.aside.native _).trans (deleteAll_aside _ os _)

end

end Core

theorem HandleTable.length_createMany {α : Type} (t : HandleTable α) (os : List α) :
    (t.createMany os).1.length = os.length := by
  induction os generalizing t with
  | nil => rfl
  | cons o os ih => simp [createMany, ih]

namespace Core

open Attempt

variable {G : Type} [GraphicsContext G] {s t : Core G}

omit [GraphicsContext G] in
/-- Once all objects are created nothing fails: the guest is there, and so is the room for their
handles. -/
theorem registerMany_write {c : ObjectClass} {count outPtr : UInt32} {range : ByteRange}
    (ha : t.bridge.attached = true) (hc : t.memory.check ⟨.u32, outPtr, count⟩ = .ok range)
    {os : List (Native c)} (hl : os.length = count.toNat) :
    (do
      let handles ← registerMany c os
      let memory ← guestMemory
      let memory ← Action.liftMemory (memory.writeWords outPtr handles)
      .modify fun s => { s with memory } : Action (Core G) Unit) t =
    (.ok (), { t.withRegistry (t.bridge.registry.withTable c
        ((t.bridge.registry.table c).createMany os).2) with
      memory := t.memory.write range.start
        (((t.bridge.registry.table c).createMany os).1.flatMap wordBytes) }) := by
  let made := (t.bridge.registry.table c).createMany os
  let u := t.withRegistry (t.bridge.registry.withTable c made.2)
  have hreg : registerMany c os t = (.ok made.1, u) := rfl
  have hmem : guestMemory u = (.ok t.memory, u) := if_pos ha
  have hlen : made.1.length = count.toNat := by rw [HandleTable.length_createMany, hl]
  have hwords := Memory.writeWords_of_check hc hlen
  have hwrite : (Action.liftMemory (t.memory.writeWords outPtr made.1) : Action (Core G) Memory) u =
      (.ok (t.memory.write range.start (made.1.flatMap wordBytes)), u) := by
    rw [hwords]
    rfl
  rw [Attempt.bind_of_ok hreg, Attempt.bind_of_ok hmem, Attempt.bind_of_ok hwrite]
  rfl

/-- What creating many objects comes to: nothing where there is no room for the handles, and else
all objects with their handles in memory, or none of them any more. -/
theorem generate_cases (b : BulkClass) (count outPtr : UInt32) (s : Core G) :
    (∃ e, s.arrayFault? outPtr count = some e ∧ generate b count outPtr s = (.error e, s)) ∨
      s.arrayFault? outPtr count = none ∧
        ((∃ range os t, s.bridge.attached = true ∧
            s.memory.check ⟨.u32, outPtr, count⟩ = .ok range ∧
            Creations b s os t ∧ os.length = count.toNat ∧
            generate b count outPtr s =
              (.ok (), { t.withRegistry (t.bridge.registry.withTable _
                  ((t.bridge.registry.table b.objectClass).createMany os).2) with
                memory := t.memory.write range.start
                  (((t.bridge.registry.table b.objectClass).createMany os).1.flatMap
                    wordBytes) })) ∨
          ∃ os t, Creations b s os t ∧ os.length < count.toNat ∧
            (t.perform (.create b.blueprint)).1 = none ∧
            generate b count outPtr s =
              (.error (.native (createCall b.objectClass) "returned null"),
                (t.perform (.create b.blueprint)).2.deleteAll b.objectClass os)) := by
  rw [← memoryFault?_check]
  unfold generate
  rcases access_cases (fun memory => memory.check ⟨.u32, outPtr, count⟩) (fun _ => _) s with
    ⟨e, hf, hr⟩ | ⟨range, ha, hc, hf, hr⟩ <;> rw [hr]
  · exact .inl ⟨e, hf, rfl⟩
  · refine .inr ⟨hf, ?_⟩
    rcases createObjects_cases b count.toNat [] s with
      ⟨os, t, hos, hlen, hr⟩ | ⟨os, t, hos, hlen, hnone, hr⟩
    · have ha' : t.bridge.attached = true := by rw [hos.aside.bridge, ha]
      have hc' : t.memory.check ⟨.u32, outPtr, count⟩ = .ok range := by rw [hos.aside.memory, hc]
      refine .inl ⟨range, os, t, ha, hc, hos, hlen, ?_⟩
      rw [bind_of_ok hr]
      exact registerMany_write ha' hc' hlen
    · exact .inr ⟨os, t, hos, hlen, hnone, bind_of_error hr⟩

theorem undone_generate (b : BulkClass) (count outPtr : UInt32) :
    Undone s (generate b count outPtr : Action (Core G) Unit) := by
  intro t ht
  rcases generate_cases b count outPtr t with
    ⟨e, -, hr⟩ | ⟨-, ⟨_, _, _, _, _, _, _, hr⟩ | ⟨os, u, hos, -, -, hr⟩⟩ <;> rw [hr]
  · exact ht
  · trivial
  · exact ht.trans hos.aside_deleteAll

/-! ## The rest -/

theorem undone_texImage (image : TexImage) (ptr len : UInt32) :
    Undone s (texImage image ptr len : Action (Core G) Unit) := by
  have hdata : Keeps (Aside s) (uploadData ptr len : Action (Core G) _) := by
    unfold uploadData
    split
    · exact keeps_pure _
    · exact keeps_guestMemory.bind fun _ => (Action.keeps_liftMemory _).bind fun _ => keeps_pure _
  refine undone_of_keeps (hdata.bind fun data => (keeps_native_aside _).bind fun answer => ?_)
  cases answer with
  | ok => exact keeps_pure _
  | error message => exact keeps_fail _

theorem undone_uniformMatrix4fv (l count : UInt32) (transpose : Bool) (ptr : UInt32) :
    Undone s (uniformMatrix4fv l count transpose ptr : Action (Core G) Unit) := by
  unfold uniformMatrix4fv
  split
  · exact undone_of_keeps (keeps_guestMemory.bind fun _ => (Action.keeps_liftMemory _).bind
      fun _ => (keeps_location _).bind fun _ => keeps_native_aside _)
  · exact undone_of_keeps (keeps_fail _)

omit [GraphicsContext G] in
theorem drawDigits_aside (n : Nat) (h : Aside s t) : Aside s (drawDigits n t).2 := by
  obtain ⟨host, he⟩ := drawDigits_eq n t
  rw [he]
  exact h.of_eq rfl rfl rfl

omit [GraphicsContext G] in
theorem undone_randomString (ptr capacity : UInt32) :
    Undone s (randomString ptr capacity : Action (Core G) Nat) :=
  undone_bind (keeps_state fun _ ht => drawDigits_aside _ ht) fun _ =>
    (undone_store _).bind_of_ok fun _ _ => ⟨_, _, rfl⟩

omit [GraphicsContext G] in
theorem undone_logEquationResult (ptr len : UInt32) :
    Undone s (logEquationResult ptr len : Action (Core G) Json.Value) := by
  unfold logEquationResult
  refine undone_bind (keeps_readString _ _) fun text => ?_
  cases Json.Value.read text with
  | ok value => exact (undone_say _ _ _).bind_of_ok fun _ _ => ⟨_, _, rfl⟩
  | error fault => exact undone_of_keeps (keeps_fail _)

omit [GraphicsContext G] in
theorem undone_acceptFetch (urlPtr urlLen token : UInt32) :
    Undone s (acceptFetch urlPtr urlLen token : Action (Core G) Accepted) := by
  refine undone_of_cases fun t => ?_
  rcases acceptFetch_cases urlPtr urlLen token t with ⟨e, hr⟩ | ⟨request, text, -, hr⟩
  · exact .inr ⟨e, hr⟩
  · exact .inl ⟨_, _, hr⟩

end Core

namespace Capability

open GuestBridge.Core Attempt

variable {G α β : Type} [GraphicsContext G] {s t : Core G}

omit [GraphicsContext G] in
theorem undone_answer {x : Action (Core G) α} {f : α → β} (hx : Undone s x) :
    Undone s (do return f (← x) : Action (Core G) β) :=
  hx.bind_of_ok fun _ _ => ⟨_, _, rfl⟩

/-- A capability that fails has made native calls at most, if it does not delete many objects. -/
theorem undone (c : Capability) (hc : ∀ b n p, c ≠ .deleteMany b n p) :
    Undone s (c.run : Action (Core G) Result) := by
  cases c with
  | consoleLog value => exact undone_answer (undone_say _ _ _)
  | consoleLogText ptr len =>
    exact undone_answer (undone_bind (keeps_readString _ _) fun _ => undone_say _ _ _)
  | randomSeed => exact undone_of_ok fun _ => ⟨_, _, rfl⟩
  | randomString ptr capacity => exact undone_answer (undone_randomString _ _)
  | debugBreak => exact undone_of_ok fun _ => ⟨_, _, rfl⟩
  | logEquationResult ptr len => exact undone_answer (undone_logEquationResult _ _)
  | fetchBytes urlPtr urlLen token => exact undone_answer (undone_acceptFetch _ _ _)
  | initShader sourcePtr sourceLen kind => exact undone_answer (undone_initShader _ _ _)
  | linkProgram vertex fragment => exact undone_answer (undone_linkProgram _ _)
  | detachShader program shader =>
    exact undone_of_keeps (keeps_answer ((keeps_object _ _).bind fun _ =>
      (keeps_object _ _).bind fun _ => keeps_native_aside _))
  | programParameter program name =>
    exact undone_of_keeps (keeps_answer ((keeps_object _ _).bind fun _ =>
      (keeps_native_aside _).bind fun _ => keeps_pure _))
  | attribLocation program ptr len =>
    exact undone_of_keeps (keeps_answer ((keeps_readString _ _).bind fun _ =>
      (keeps_object _ _).bind fun _ => keeps_native_aside _))
  | uniformLocation program ptr len =>
    exact undone_answer (undone_bind (keeps_readString _ _) fun _ =>
      undone_bind (keeps_object _ _) fun _ => undone_bind (keeps_native_aside _) fun _ =>
        undone_registerLocation _)
  | activeUniform program index capacity lengthPtr sizePtr typePtr namePtr =>
    exact undone_answer (undone_activeUniform _ _ _ _ _ _ _)
  | useProgram | bindBuffer | bindTexture | bindVertexArray =>
    exact undone_of_keeps (keeps_answer ((keeps_object _ _).bind fun _ => keeps_native_aside _))
  | uniform1f | uniform1i | uniform2fv | uniform3fv | uniform4fv =>
    exact undone_of_keeps (keeps_answer ((keeps_location _).bind fun _ => keeps_native_aside _))
  | uniformMatrix4fv location count transpose ptr =>
    exact undone_answer (undone_uniformMatrix4fv _ _ _ _)
  | create b =>
    exact undone_answer (undone_bind (keeps_native_aside _) fun a =>
      undone_bind (keeps_created _ a) fun o => undone_register _ o)
  | generate b count outPtr => exact undone_answer (undone_generate _ _ _)
  | delete c handle =>
    exact undone_answer ((undone_release c handle).bind_of_ok fun _ _ => ⟨_, _, rfl⟩)
  | deleteMany b count ptr => exact absurd rfl (hc b count ptr)
  | bufferData target count ptr usage =>
    exact undone_of_keeps (keeps_answer (keeps_guestMemory.bind fun _ =>
      (Action.keeps_liftMemory _).bind fun _ => keeps_native_aside _))
  | texImage image ptr len => exact undone_answer (undone_texImage _ _ _)
  | forward p =>
    exact undone_of_keeps (keeps_answer ((keeps_native_aside _).bind fun _ => keeps_pure _))
  | getError => exact undone_of_keeps (keeps_answer (keeps_native_aside _))

theorem aside_of_error {c : Capability} (hc : ∀ b n p, c ≠ .deleteMany b n p) {e : BridgeError}
    (h : c.run s = (.error e, t)) : Aside s t := by
  have hu := c.undone (s := s) hc s (.refl s)
  rwa [h] at hu

end Capability

/-! ## Platforms -/

/-- On any platform, a capability that fails has asked neither the guest nor the queues for
anything, and what it leaves of the core is aside of what it found. -/
theorem Platform.perform_error {σ G : Type} [GraphicsContext G] (p : Platform σ G)
    {c : Capability} (hc : ∀ b n ptr, c ≠ .deleteMany b n ptr) {e : BridgeError} {s s' : σ}
    (h : p.perform c s = (.error e, s')) :
    ∃ core, s' = p.withCore core s ∧ Core.Aside (p.core s) core := by
  unfold perform at h
  have hr : p.onCore c.run s = ((c.run (p.core s)).1, p.withCore (c.run (p.core s)).2 s) := rfl
  rcases hrun : c.run (p.core s) with ⟨e' | result, core⟩
  · rw [hrun] at hr
    rw [Attempt.bind_of_error hr] at h
    exact ⟨core, (Prod.mk.inj h).2.symm, Capability.aside_of_error hc hrun⟩
  · rw [hrun] at hr
    rw [Attempt.bind_of_ok hr] at h
    cases result <;> cases (Prod.mk.inj h).1

namespace Bench

variable {G C : Type} [GraphicsContext G]

/-- A capability that fails is atomic, unless it deletes many objects: the handle tables, the
requests and pending fetches, the phase, the last frame and the guest's memory are as they were, and
so are the guest and both queues. All that the journal has more is native calls, so that the guest
and its allocator were not entered, no load was started and no task was spawned. -/
theorem perform_atomic (inner : Performer G C) {c : Capability}
    (hc : ∀ b n ptr, c ≠ .deleteMany b n ptr) {e : BridgeError} {b b' : Bench G C}
    (h : (platform inner).perform c b = (.error e, b')) :
    b'.core.bridge = b.core.bridge ∧ b'.core.memory = b.core.memory ∧
      (∃ gl host journal, b' = { b with core := { b.core with gl, host, journal } }) ∧
      ∃ events, b'.core.journal.toList = b.core.journal.toList ++ events ∧
        ∀ e ∈ events, ∃ call a, e = .gl call a := by
  obtain ⟨⟨bridge, gl, memory, host, journal⟩, rfl, ha⟩ := Platform.perform_error _ hc h
  obtain rfl : bridge = b.core.bridge := ha.bridge
  obtain rfl : memory = b.core.memory := ha.memory
  exact ⟨rfl, rfl, ⟨gl, host, journal, rfl⟩, ha.journal⟩

/-- The third buffer of a series cannot be created: the first two are deleted again, and that is
all that there is to see of it. -/
theorem perform_atomic_of_short_supply :
    let b : ScriptedBench := { scripted 64 true with core.gl.supply.remaining := some 2 }
    let c : Capability := .generate .buffer 3 0
    let r := (platform (performFor 0)).perform c b
    (∀ b n ptr, c ≠ .deleteMany b n ptr) ∧
      r.1 = .error (.native "createBuffer" "returned null") ∧
      r.2.core.journal.size = 5 ∧ r.2.core.bridge = b.core.bridge := by
  intro b c r
  have hc : ∀ b n ptr, c ≠ .deleteMany b n ptr := fun _ _ _ => nofun
  have hr : r = (.error (.native "createBuffer" "returned null"), r.2) := rfl
  exact ⟨hc, rfl, rfl, (perform_atomic (performFor 0) hc hr).1⟩

end Bench

end GuestBridge
