import GuestBridge.Capability.Run
import GuestBridge.Proofs.Core.Work
import GuestBridge.Proofs.Handle.Deeds

/-!
# Plain capabilities

The capabilities that neither take a handle nor hand one out, and accept no fetch. What all of
their steps keep they keep (`Capability.keeps_of_isPlain`).
-/

set_option autoImplicit false

namespace GuestBridge

/-- The objects and locations that a native call is about. -/
def GlCall.resources : GlCall → List Resource
  | .delete c o => [.object c o]
  | .shaderSource s _ | .compileShader s | .shaderCompiled s | .shaderInfoLog s =>
    [.object .shader s]
  | .attachShader p s | .detachShader p s => [.object .program p, .object .shader s]
  | .linkProgram p | .programLinked p | .programInfoLog p | .programParameter p _
  | .useProgram p | .attribLocation p _ | .uniformLocation p _ | .activeUniform p _ =>
    [.object .program p]
  | .uniform1f l _ | .uniform1i l _ | .uniform2fv l _ _ | .uniform3fv l _ _ _
  | .uniform4fv l _ _ _ _ | .uniformMatrix4fv l _ _ => [.location l]
  | .bindBuffer _ b => [.object .buffer b]
  | .bindTexture _ t => [.object .texture t]
  | .bindVertexArray v => [.object .vertexArray v]
  | .create _ | .bufferData _ _ _ | .texImage2D _ _ | .texParameteri _ _ _ | .activeTexture _
  | .enableVertexAttribArray _ | .vertexAttribPointer _ _ _ _ _ _ | .drawArrays _ _ _
  | .viewport _ _ _ _ | .clearColor _ _ _ _ | .clear _ | .enable _ | .disable _ | .depthFunc _
  | .blendFunc _ _ | .pixelStorei _ _ | .getError => []

namespace Event

def resources : Event → List Resource
  | .gl glCall _ => glCall.resources
  | _ => []

theorem resources_of_isQuiet {e : Event} (h : e.isQuiet) : e.resources = [] := by
  cases e <;> first | rfl | cases h

end Event

namespace Core

open Attempt

variable {G : Type} [GraphicsContext G] {P : Core G → Prop}

/-- What is kept by native calls about nothing in particular, by what the bridge notes on its own,
and by whatever becomes of the memory and the host. -/
structure Steady (P : Core G → Prop) : Prop where
  call : ∀ {t : Core G} {call : GlCall}, call.resources = [] → call.movesObject = false → P t →
    P (t.perform call).2
  note : ∀ {t : Core G} {e : Event}, e.isQuiet → e.isWarning = false → P t → P (t.note e)
  memory : ∀ {t : Core G} (memory : Memory), P t → P { t with memory }
  host : ∀ {t : Core G} (host : Host), P t → P { t with host }

omit [GraphicsContext G] in
/-- Drawing changes nothing but the host. -/
theorem drawDigits_eq (n : Nat) (t : Core G) : ∃ host, (drawDigits n t).2 = { t with host } := by
  induction n generalizing t with
  | zero => exact ⟨t.host, rfl⟩
  | succ n ih =>
    obtain ⟨host, h⟩ := ih t.draw.2
    exact ⟨host, h⟩

namespace Steady

variable (hP : Steady P)

include hP

theorem keeps_native {call : GlCall} (h : call.resources = []) (hm : call.movesObject = false) :
    Keeps P (native call : Action (Core G) call.Answer) :=
  keeps_state fun _ ht => hP.call h hm ht

theorem keeps_say (level : Log.Level) (text : String) :
    Keeps P (say level Log.Target.guest text : Action (Core G) Unit) :=
  keeps_modify fun _ ht => hP.note rfl (Event.isWarning_of_target (by decide)) ht

theorem keeps_store (stores : List Store) :
    Keeps P (store stores : Action (Core G) Unit) :=
  keeps_guestMemory.bind fun _ => (Action.keeps_liftMemory _).bind fun _ =>
    keeps_modify fun _ ht => hP.memory _ ht

theorem keeps_randomString (ptr capacity : UInt32) :
    Keeps P (randomString ptr capacity : Action (Core G) Nat) := by
  refine (keeps_state fun t ht => ?_).bind fun _ => (hP.keeps_store _).bind fun _ => keeps_pure _
  obtain ⟨host, h⟩ := drawDigits_eq (min randomStringLen capacity.toNat) t
  rw [h]
  exact hP.host host ht

theorem keeps_debugBreak : Keeps P (debugBreak : Action (Core G) Unit) := by
  refine keeps_modify fun t ht => ?_
  have h : P (t.note .debugBreak) := hP.note rfl rfl ht
  simp only
  split
  · exact hP.note rfl (Event.isWarning_of_target (by decide)) h
  · exact h

theorem keeps_logEquationResult (ptr len : UInt32) :
    Keeps P (logEquationResult ptr len : Action (Core G) Json.Value) := by
  unfold logEquationResult
  refine (keeps_readString _ _).bind fun text => ?_
  cases Json.Value.read text with
  | ok value => exact (hP.keeps_say _ _).bind fun _ => keeps_pure _
  | error fault => exact keeps_fail _

theorem keeps_bufferData (target count ptr usage : UInt32) :
    Keeps P (bufferData target count ptr usage : Action (Core G) Unit) :=
  keeps_guestMemory.bind fun _ => (Action.keeps_liftMemory _).bind fun _ =>
    hP.keeps_native rfl rfl

theorem keeps_texImage (image : TexImage) (ptr len : UInt32) :
    Keeps P (texImage image ptr len : Action (Core G) Unit) := by
  have hdata : Keeps P (uploadData ptr len : Action (Core G) _) := by
    unfold uploadData
    split
    · exact keeps_pure _
    · exact keeps_guestMemory.bind fun _ => (Action.keeps_liftMemory _).bind fun _ => keeps_pure _
  unfold texImage
  refine hdata.bind fun data => (hP.keeps_native rfl rfl).bind fun answer => ?_
  cases answer with
  | ok => exact keeps_pure _
  | error message => exact keeps_fail _

theorem keeps_forward (p : Passthrough) : Keeps P (forward p : Action (Core G) Unit) :=
  (hP.keeps_native (by cases p <;> rfl) (by cases p <;> rfl)).bind fun _ => keeps_pure _

end Steady

end Core

namespace Capability

open GuestBridge.Core Attempt

variable {G α β : Type} [GraphicsContext G] {P : Core G → Prop}

def isPlain : Capability → Bool
  | consoleLog _ | consoleLogText _ _ | randomSeed | randomString _ _ | debugBreak
  | logEquationResult _ _ | bufferData _ _ _ _ | texImage _ _ _ | forward _ | getError => true
  | _ => false

omit [GraphicsContext G] in
theorem keeps_answer {x : Action (Core G) α} {f : α → β} (hx : Keeps P x) :
    Keeps P (do return f (← x) : Action (Core G) β) :=
  hx.bind fun _ => keeps_pure _

theorem keeps_of_isPlain (hP : Steady P) (c : Capability) (hc : c.isPlain) :
    Keeps P (c.run : Action (Core G) Result) := by
  cases c with
  | consoleLog value => exact keeps_answer (hP.keeps_say _ _)
  | consoleLogText ptr len =>
    exact keeps_answer ((keeps_readString _ _).bind fun _ => hP.keeps_say _ _)
  | randomSeed =>
    exact keeps_answer (Keeps.bind (keeps_state fun _ ht => hP.host _ ht) fun _ => keeps_pure _)
  | randomString ptr capacity => exact keeps_answer (hP.keeps_randomString _ _)
  | debugBreak => exact keeps_answer hP.keeps_debugBreak
  | logEquationResult ptr len => exact keeps_answer (hP.keeps_logEquationResult _ _)
  | bufferData target count ptr usage => exact keeps_answer (hP.keeps_bufferData _ _ _ _)
  | texImage image ptr len => exact keeps_answer (hP.keeps_texImage _ _ _)
  | forward p => exact keeps_answer (hP.keeps_forward p)
  | getError => exact keeps_answer (hP.keeps_native rfl rfl)
  | _ => cases hc

end Capability

end GuestBridge
