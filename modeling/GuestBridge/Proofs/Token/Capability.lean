import GuestBridge.Proofs.Capability.Work
import GuestBridge.Proofs.Token.Basic

/-!
# Capabilities with other tokens

No capability looks at the token of a fetch: in cores that differ in their tokens it answers the
same and leaves cores that do (`Capability.mirrors`).
-/

set_option autoImplicit false

namespace GuestBridge

namespace Core

open Attempt

variable {G α β : Type} {f : UInt32 → UInt32} {named : EntryPoint → Prop}

/-- An action that is the same in cores that differ in their tokens. -/
def Tokenless (f : UInt32 → UInt32) (named : EntryPoint → Prop) (x : Action (Core G) α) : Prop :=
  Mirrors (Retokened f named) Eq x x

theorem Tokenless.bind {x : Action (Core G) α} {g : α → Action (Core G) β}
    (hx : Tokenless f named x) (hg : ∀ a, Tokenless f named (g a)) :
    Tokenless f named (x >>= g) :=
  Mirrors.bind_eq hx hg

theorem tokenless_pure (a : α) : Tokenless f named (pure a : Action (Core G) α) :=
  mirrors_pure rfl

theorem tokenless_fail (e : BridgeError) : Tokenless f named (.fail e : Action (Core G) α) :=
  mirrors_fail e

/-- Making something of the answer. -/
theorem tokenless_answer {x : Action (Core G) α} {g : α → β} (hx : Tokenless f named x) :
    Tokenless f named (do return g (← x)) :=
  hx.bind fun _ => tokenless_pure _

/-! ## Steps -/

theorem tokenless_say (level : Log.Level) {target text : String} (ht : target ≠ Log.Target.fetch) :
    Tokenless f named (say level target text : Action (Core G) Unit) :=
  mirrors_modify fun _ _ h => h.note (.same (Event.isTokenless_of_target ht))

theorem tokenless_guestMemory :
    Tokenless f named (guestMemory : Action (Core G) Memory) := by
  intro s s' h
  unfold guestMemory
  rw [h.attached, h.memory]
  split
  · exact ⟨.ok rfl, h⟩
  · exact ⟨.error _, h⟩

theorem tokenless_liftMemory (x : Except MemoryError α) :
    Tokenless f named (Action.liftMemory x : Action (Core G) α) :=
  mirrors_lift _

theorem tokenless_setMemory (memory : Memory) :
    Tokenless f named (.modify fun s => { s with memory } : Action (Core G) Unit) :=
  mirrors_modify fun _ _ h => ⟨h.bridge, h.gl, rfl, h.host, h.journal⟩

theorem tokenless_store (stores : List Store) :
    Tokenless f named (store stores : Action (Core G) Unit) :=
  tokenless_guestMemory.bind fun _ => (tokenless_liftMemory _).bind fun _ => tokenless_setMemory _

theorem tokenless_readString (ptr len : UInt32) :
    Tokenless f named (readString ptr len : Action (Core G) String) :=
  tokenless_guestMemory.bind fun _ => tokenless_liftMemory _

theorem tokenless_object (c : ObjectClass) (handle : UInt32) :
    Tokenless f named (object c handle : Action (Core G) (Native c)) := by
  intro s s' h
  unfold object
  rw [h.registry]
  exact ⟨matches_eq _, h⟩

theorem tokenless_location (handle : UInt32) :
    Tokenless f named (location handle : Action (Core G) (Option Location)) := by
  intro s s' h
  unfold location
  rw [h.registry]
  exact ⟨matches_eq _, h⟩

theorem tokenless_register (c : ObjectClass) (o : Native c) :
    Tokenless f named (register c o : Action (Core G) UInt32) :=
  mirrors_state fun s s' h => by
    rw [h.registry]
    exact ⟨rfl, h.withRegistry _⟩

theorem tokenless_registerMany (c : ObjectClass) (os : List (Native c)) :
    Tokenless f named (registerMany c os : Action (Core G) (List UInt32)) :=
  mirrors_state fun s s' h => by
    rw [h.registry]
    exact ⟨rfl, h.withRegistry _⟩

theorem tokenless_registerLocation (l : Option Location) :
    Tokenless f named (registerLocation l : Action (Core G) UInt32) :=
  mirrors_state fun s s' h => by
    rw [h.registry]
    exact ⟨rfl, h.withRegistry _⟩

theorem tokenless_release (c : ObjectClass) (handle : UInt32) :
    Tokenless f named (release c handle : Action (Core G) (Native c)) := by
  intro s s' h
  unfold release
  simp only [h.registry]
  rcases (s.bridge.registry.table c).delete handle with e | ⟨o, table⟩
  · exact ⟨.error _, h⟩
  · exact ⟨.ok rfl, h.withRegistry _⟩

theorem tokenless_created {c : ObjectClass} (call : String) (a : Option (Native c)) :
    Tokenless f named (created call a : Action (Core G) (Native c)) := by
  cases a with
  | none => exact tokenless_fail _
  | some o => exact tokenless_pure _

theorem tokenless_outcome {x : Action (Core G) α} (hx : Tokenless f named x) :
    Tokenless f named x.outcome :=
  mirrors_outcome hx

theorem tokenless_drawDigits (n : Nat) :
    Tokenless f named (.state (drawDigits n) : Action (Core G) (List UInt8)) := by
  refine mirrors_state ?_
  induction n with
  | zero => exact fun s s' h => ⟨rfl, h⟩
  | succ n ih =>
    intro s s' h
    obtain ⟨hx, ht⟩ := h.draw
    obtain ⟨hrest, hu⟩ := ih _ _ ht
    exact ⟨congrArg₂ (fun x rest => digitOf x :: rest) hx hrest, hu⟩

variable [GraphicsContext G]

theorem tokenless_native (call : GlCall) :
    Tokenless f named (native call : Action (Core G) call.Answer) :=
  mirrors_state fun _ _ h => h.perform call

/-! ## Actions -/

theorem tokenless_register_or_delete (good : Bool) {c : ObjectClass} (o : Native c) (log : GlCall)
    (e : log.Answer → BridgeError) :
    Tokenless f named (if good then register c o
      else do
        let info ← native log
        native (.delete c o)
        .fail (e info) : Action (Core G) UInt32) := by
  cases good with
  | true => exact tokenless_register c o
  | false =>
    exact (tokenless_native _).bind fun _ => (tokenless_native _).bind fun _ => tokenless_fail _

theorem tokenless_initShader (sourcePtr sourceLen kind : UInt32) :
    Tokenless f named (initShader sourcePtr sourceLen kind : Action (Core G) UInt32) :=
  (tokenless_readString _ _).bind fun _ => (tokenless_native _).bind fun a =>
    (tokenless_created _ a).bind fun shader => (tokenless_native _).bind fun _ =>
      (tokenless_native _).bind fun _ => (tokenless_native _).bind fun good =>
        tokenless_register_or_delete good shader (.shaderInfoLog shader)
          fun info => .shaderCompilation (info.getD "")

theorem tokenless_linkProgram (vertex fragment : UInt32) :
    Tokenless f named (linkProgram vertex fragment : Action (Core G) UInt32) :=
  (tokenless_object _ _).bind fun _ => (tokenless_object _ _).bind fun _ =>
    (tokenless_native _).bind fun a => (tokenless_created _ a).bind fun program =>
      (tokenless_native _).bind fun _ => (tokenless_native _).bind fun _ =>
        (tokenless_native _).bind fun _ => (tokenless_native _).bind fun good =>
          tokenless_register_or_delete good program (.programInfoLog program)
            fun info => .shaderLinking (info.getD "")

theorem tokenless_activeUniform
    (program index capacity lengthPtr sizePtr typePtr namePtr : UInt32) :
    Tokenless f named (activeUniform program index capacity lengthPtr sizePtr typePtr namePtr :
      Action (Core G) Unit) := by
  refine (tokenless_object _ _).bind fun program => (tokenless_native _).bind fun info => ?_
  cases info with
  | none => exact tokenless_fail _
  | some info =>
    exact tokenless_guestMemory.bind fun _ => (tokenless_liftMemory _).bind fun _ =>
      tokenless_store _

theorem tokenless_uniformMatrix4fv (l count : UInt32) (transpose : Bool) (ptr : UInt32) :
    Tokenless f named (uniformMatrix4fv l count transpose ptr : Action (Core G) Unit) := by
  unfold uniformMatrix4fv
  split
  · exact tokenless_guestMemory.bind fun _ => (tokenless_liftMemory _).bind fun _ =>
      (tokenless_location _).bind fun _ => tokenless_native _
  · exact tokenless_fail _

theorem tokenless_forM_delete {c : ObjectClass} (os : List (Native c)) :
    Tokenless f named (os.forM fun o => native (.delete c o) : Action (Core G) Unit) := by
  induction os with
  | nil => exact tokenless_pure _
  | cons o os ih => exact (tokenless_native (.delete c o)).bind fun _ => ih

theorem tokenless_createObjects (b : BulkClass) (n : Nat) (done : List (Native b.objectClass)) :
    Tokenless f named (createObjects b n done : Action (Core G) _) := by
  induction n generalizing done with
  | zero => exact tokenless_pure _
  | succ n ih =>
    refine (tokenless_native (.create b.blueprint)).bind fun a => ?_
    cases a with
    | some o => exact ih _
    | none => exact (tokenless_forM_delete done).bind fun _ => tokenless_fail _

theorem tokenless_generate (b : BulkClass) (count outPtr : UInt32) :
    Tokenless f named (generate b count outPtr : Action (Core G) Unit) :=
  tokenless_guestMemory.bind fun _ => (tokenless_liftMemory _).bind fun _ =>
    (tokenless_createObjects b _ []).bind fun _ => (tokenless_registerMany _ _).bind fun _ =>
      tokenless_guestMemory.bind fun _ => (tokenless_liftMemory _).bind fun _ =>
        tokenless_setMemory _

theorem tokenless_deleteObject (c : ObjectClass) (handle : UInt32) :
    Tokenless f named (deleteObject c handle : Action (Core G) Unit) :=
  (tokenless_release c handle).bind fun o => tokenless_native (.delete c o)

theorem tokenless_deleteEach (c : ObjectClass) (handles : List UInt32) :
    Tokenless f named (deleteEach c handles : Action (Core G) (Option BridgeError)) := by
  induction handles with
  | nil => exact tokenless_pure _
  | cons handle handles ih =>
    refine (tokenless_outcome (tokenless_deleteObject c handle)).bind fun first =>
      ih.bind fun later => ?_
    cases first with
    | ok => exact tokenless_pure _
    | error e => exact tokenless_pure _

theorem tokenless_deleteMany (b : BulkClass) (count ptr : UInt32) :
    Tokenless f named (deleteMany b count ptr : Action (Core G) Unit) := by
  refine tokenless_guestMemory.bind fun _ => (tokenless_liftMemory _).bind fun handles =>
    (tokenless_deleteEach _ handles).bind fun first => ?_
  cases first with
  | none => exact tokenless_pure _
  | some e => exact tokenless_fail _

theorem tokenless_texImage (image : TexImage) (ptr len : UInt32) :
    Tokenless f named (texImage image ptr len : Action (Core G) Unit) := by
  have hdata : Tokenless f named (uploadData ptr len : Action (Core G) _) := by
    unfold uploadData
    split
    · exact tokenless_pure _
    · exact tokenless_guestMemory.bind fun _ => tokenless_answer (tokenless_liftMemory _)
  refine hdata.bind fun data => (tokenless_native _).bind fun answer => ?_
  cases answer with
  | ok => exact tokenless_pure _
  | error message => exact tokenless_fail _

omit [GraphicsContext G] in
theorem tokenless_debugBreak : Tokenless f named (debugBreak : Action (Core G) Unit) := by
  refine mirrors_modify fun s s' h => ?_
  have hb := h.note (e := .debugBreak) (.same trivial)
  have hf : (s'.note .debugBreak).host.breakFault = (s.note .debugBreak).host.breakFault := by
    rw [hb.host]
  simp only [hf]
  cases (s.note .debugBreak).host.breakFault with
  | none => exact hb
  | some thrown => exact hb.note (.same (Event.isTokenless_of_level (by decide)))

omit [GraphicsContext G] in
theorem tokenless_logEquationResult (ptr len : UInt32) :
    Tokenless f named (logEquationResult ptr len : Action (Core G) Json.Value) := by
  refine (tokenless_readString _ _).bind fun text => ?_
  cases Json.Value.read text with
  | ok value => exact tokenless_answer (tokenless_say _ (by decide))
  | error fault => exact tokenless_fail _

omit [GraphicsContext G] in
/-- A fetch is accepted with another token where it was accepted, and is logged with it. -/
theorem mirrors_acceptFetch (urlPtr urlLen token : UInt32) :
    Mirrors (Retokened f named) (fun fetch fetch' => fetch' = fetch.retoken f)
      (acceptFetch urlPtr urlLen token : Action (Core G) Accepted)
      (acceptFetch urlPtr urlLen (f token)) := by
  refine Mirrors.bind_eq (tokenless_readString _ _) fun url => ?_
  split
  · refine Mirrors.bind_eq (mirrors_modify fun s s' h => ?_) fun _ => mirrors_state fun s s' h => ?_
    · exact h.note (.fetching url token)
    · have hacc : s'.bridge.accept ⟨f token, url, false⟩ = _ :=
        h.bridge ▸ s.bridge.accept_retoken f ⟨token, url, false⟩
      rw [hacc]
      exact ⟨rfl, rfl, h.gl, h.memory, h.host, h.journal⟩
  · exact mirrors_fail _

end Core

namespace Capability

open GuestBridge.Core Attempt

variable {G : Type} [GraphicsContext G] {f : UInt32 → UInt32} {named : EntryPoint → Prop}

theorem tokenless (c : Capability) (hc : ∀ u l t, c ≠ .fetchBytes u l t) :
    Tokenless f named (c.run : Action (Core G) Result) := by
  cases c with
  | consoleLog value => exact tokenless_answer (tokenless_say _ (by decide))
  | consoleLogText ptr len =>
    exact tokenless_answer ((tokenless_readString _ _).bind fun _ => tokenless_say _ (by decide))
  | randomSeed => exact tokenless_answer (Mirrors.answer (mirrors_state fun _ _ h => h.draw) _)
  | randomString ptr capacity =>
    exact tokenless_answer ((tokenless_drawDigits _).bind fun _ => (tokenless_store _).answer _)
  | debugBreak => exact tokenless_answer tokenless_debugBreak
  | logEquationResult ptr len => exact tokenless_answer (tokenless_logEquationResult _ _)
  | fetchBytes urlPtr urlLen token => exact absurd rfl (hc _ _ _)
  | initShader sourcePtr sourceLen kind => exact tokenless_answer (tokenless_initShader _ _ _)
  | linkProgram vertex fragment => exact tokenless_answer (tokenless_linkProgram _ _)
  | detachShader program shader =>
    exact tokenless_answer <| (tokenless_object _ _).bind fun _ =>
      (tokenless_object _ _).bind fun _ => tokenless_native _
  | programParameter program name =>
    exact tokenless_answer ((tokenless_object _ _).bind fun _ => (tokenless_native _).answer _)
  | attribLocation program ptr len =>
    exact tokenless_answer <| (tokenless_readString _ _).bind fun _ =>
      (tokenless_object _ _).bind fun _ => tokenless_native _
  | uniformLocation program ptr len =>
    exact tokenless_answer <| (tokenless_readString _ _).bind fun _ =>
      (tokenless_object _ _).bind fun _ => (tokenless_native _).bind fun _ =>
        tokenless_registerLocation _
  | activeUniform program index capacity lengthPtr sizePtr typePtr namePtr =>
    exact tokenless_answer (tokenless_activeUniform _ _ _ _ _ _ _)
  | useProgram | bindBuffer | bindTexture | bindVertexArray =>
    exact tokenless_answer ((tokenless_object _ _).bind fun _ => tokenless_native _)
  | uniform1f | uniform1i | uniform2fv | uniform3fv | uniform4fv =>
    exact tokenless_answer ((tokenless_location _).bind fun _ => tokenless_native _)
  | uniformMatrix4fv l count transpose ptr =>
    exact tokenless_answer (tokenless_uniformMatrix4fv _ _ _ _)
  | create b =>
    exact tokenless_answer ((tokenless_native _).bind fun a => (tokenless_created _ a).bind fun o =>
      tokenless_register _ o)
  | generate b count outPtr => exact tokenless_answer (tokenless_generate _ _ _)
  | delete c handle => exact tokenless_answer (tokenless_deleteObject _ _)
  | deleteMany b count ptr => exact tokenless_answer (tokenless_deleteMany _ _ _)
  | bufferData target count ptr usage =>
    exact tokenless_answer <| tokenless_guestMemory.bind fun _ =>
      (tokenless_liftMemory _).bind fun _ => tokenless_native _
  | texImage image ptr len => exact tokenless_answer (tokenless_texImage _ _ _)
  | forward p => exact tokenless_answer ((tokenless_native p.call).answer _)
  | getError => exact tokenless_answer (tokenless_native _)

/-- No capability looks at a token; one that accepts a fetch answers it with the other token. -/
theorem mirrors (c : Capability) :
    Mirrors (Retokened f named) (fun r r' => r' = r.retoken f)
      (c.run : Action (Core G) Result) (c.retoken f).run := by
  by_cases hc : ∃ u l t, c = .fetchBytes u l t
  · obtain ⟨u, l, t, rfl⟩ := hc
    exact (mirrors_acceptFetch u l t).bind fun fetch fetch' h =>
      mirrors_pure (congrArg Result.accepted h)
  · simp only [not_exists] at hc
    have hsame : c.retoken f = c := by
      cases c <;> first | rfl | exact absurd rfl (hc _ _ _)
    rw [hsame]
    refine (c.tokenless hc).mono fun s r r' hr he => ?_
    subst he
    cases r with
    | accepted fetch => exact absurd hr (run_ne_accepted hc s fetch)
    | _ => rfl

end Capability

end GuestBridge
