import GuestBridge.Bench.Run
import GuestBridge.Proofs.Bench.Cause
import GuestBridge.Proofs.Core.Bridge
import GuestBridge.Proofs.Core.Mirror

/-!
# Other tokens

What becomes of requests, steps, replies and benches when every fetch is given another token: `f t`
where it was given `t`. `Event.Retokens` says which events of a run answer each other then. All are
the same but those that show a token: the line that a fetch is logged with, and the call that tells
the guest of its image.
-/

set_option autoImplicit false

namespace GuestBridge

variable (f : UInt32 → UInt32)

/-! ## Records of fetches -/

def FetchRequest.retoken (r : FetchRequest) : FetchRequest := { r with token := f r.token }

def Accepted.retoken (a : Accepted) : Accepted := { a with request := a.request.retoken f }

def EntryPoint.retoken : EntryPoint → EntryPoint
  | .fetch width height ptr len token => .fetch width height ptr len (f token)
  | entry => entry

def Completion.retoken (c : Completion) : Completion := { c with entry := c.entry.retoken f }

def Bridge.retoken (b : Bridge) : Bridge := { b with requests := b.requests.map (·.retoken f) }

@[simp] theorem EntryPoint.exportName_retoken (entry : EntryPoint) :
    (entry.retoken f).exportName = entry.exportName := by
  cases entry <;> rfl

@[simp] theorem EntryPoint.isInit_retoken (entry : EntryPoint) :
    (entry.retoken f).isInit = entry.isInit := by
  cases entry <;> rfl

namespace Bridge

variable (b : Bridge)

theorem accept_retoken (request : FetchRequest) :
    (b.retoken f).accept (request.retoken f) =
      ((b.accept request).1.retoken f, (b.accept request).2.retoken f) := by
  simp [accept, retoken, Accepted.retoken]

theorem getElem?_requests_retoken (id : Nat) :
    (b.retoken f).requests[id]? = (b.requests[id]?).map (·.retoken f) :=
  List.getElem?_map

@[simp] theorem isCancelled_retoken (id : Nat) :
    (b.retoken f).isCancelled id = b.isCancelled id := by
  unfold isCancelled
  rw [getElem?_requests_retoken]
  cases b.requests[id]? <;> rfl

theorem cancel_retoken (id : Nat) : (b.retoken f).cancel id = (b.cancel id).retoken f := by
  have h : (b.requests.map (·.retoken f)).modify id (fun r => { r with cancelled := true }) =
      (b.requests.modify id fun r => { r with cancelled := true }).map (·.retoken f) := by
    refine List.ext_getElem? fun i => ?_
    simp only [List.getElem?_modify, List.getElem?_map]
    cases b.requests[i]? with
    | none => rfl
    | some r => by_cases hi : id = i <;> simp [hi, FetchRequest.retoken]
  simp only [cancel, retoken, h]

theorem foldl_cancel_retoken (ids : List Nat) :
    ids.foldl cancel (b.retoken f) = (ids.foldl cancel b).retoken f := by
  induction ids generalizing b with
  | nil => rfl
  | cons id ids ih => rw [List.foldl_cons, cancel_retoken, ih, List.foldl_cons]

theorem cancelPending_retoken : (b.retoken f).cancelPending = b.cancelPending.retoken f := by
  have h : (b.retoken f).pending = b.pending := rfl
  rw [cancelPending, h, foldl_cancel_retoken]
  rfl

end Bridge

/-! ## Steps and replies -/

def Capability.retoken : Capability → Capability
  | .fetchBytes urlPtr urlLen token => .fetchBytes urlPtr urlLen (f token)
  | c => c

def Capability.Result.retoken : Capability.Result → Capability.Result
  | .accepted fetch => .accepted (fetch.retoken f)
  | result => result

def Operation.retoken : Operation → Operation
  | .capability c => .capability (c.retoken f)
  | op => op

def Value.retoken : Value → Value
  | .request r => .request (r.retoken f)
  | value => value

def Reply.retoken : Reply → Reply
  | .ok value => .ok (value.retoken f)
  | reply => reply

namespace Bench

variable {C G : Type}

mutual

/-- The step that gives every fetch another token, those of the guest's steps in store included. -/
def Step.retoken (f : UInt32 → UInt32) : Step C → Step C
  | .bridge op => .bridge (op.retoken f)
  | .interlude name steps => .interlude name (Step.retokenAll f steps)
  | step => step

def Step.retokenAll (f : UInt32 → UInt32) : List (Step C) → List (Step C)
  | [] => []
  | step :: rest => step.retoken f :: Step.retokenAll f rest

end

mutual

theorem Step.weight_retoken (step : Step C) : (step.retoken f).weight = step.weight := by
  cases step with
  | interlude name steps =>
    exact congrArg (1 + ·) (Step.totalWeight_retokenAll steps)
  | _ => rfl

theorem Step.totalWeight_retokenAll (steps : List (Step C)) :
    Step.totalWeight (Step.retokenAll f steps) = Step.totalWeight steps := by
  cases steps with
  | nil => rfl
  | cons step rest =>
    exact congrArg₂ (· + ·) (Step.weight_retoken step) (Step.totalWeight_retokenAll rest)

end

def Task.retoken (t : Task) : Task := { t with fetch := t.fetch.retoken f }

def Guest.retoken (g : Guest C) : Guest C :=
  { g with interludes.queue := g.interludes.queue.map fun (name, steps) =>
    (name, Step.retokenAll f steps) }

variable (g : Guest C)

@[simp] theorem Guest.weight_retoken : (g.retoken f).weight = g.weight := by
  unfold Guest.weight Interludes.weight Guest.retoken
  simp only
  induction g.interludes.queue with
  | nil => rfl
  | cons entry queue ih =>
    rw [List.map_cons, List.foldr_cons, List.foldr_cons, ih, Step.totalWeight_retokenAll]

/-- The steps taken first are those taken first before. -/
theorem Guest.take_retoken (name : String) :
    (g.retoken f).interludes.take name =
      (Step.retokenAll f (g.interludes.take name).1,
        (Guest.retoken f { g with interludes := (g.interludes.take name).2 }).interludes) := by
  have hfind : ((g.retoken f).interludes.queue.find? (·.1 = name)) =
      (g.interludes.queue.find? (·.1 = name)).map fun (name, steps) =>
        (name, Step.retokenAll f steps) :=
    List.find?_map ..
  have herase : (g.retoken f).interludes.queue.eraseP (·.1 = name) =
      (g.interludes.queue.eraseP (·.1 = name)).map fun (name, steps) =>
        (name, Step.retokenAll f steps) :=
    List.eraseP_map ..
  unfold Interludes.take
  rw [hfind, herase]
  cases g.interludes.queue.find? (·.1 = name) <;> rfl

end Bench

/-! ## Events -/

/-- The line that a fetch is logged with. -/
def Log.Record.fetching (url : String) (token : UInt32) : Log.Record :=
  ⟨.debug, Log.Target.fetch, s!"fetching `{url}` for token {token}"⟩

/-- Whether an event is the same with other tokens. -/
def Event.IsTokenless : Event → Prop
  | .call _ | .nested _ => False
  | .log r => ∀ url token, r ≠ .fetching url token
  | _ => True

/-- The event that answers another one when every fetch is given another token. An entry point that
a step names is called as before. -/
inductive Event.Retokens (f : UInt32 → UInt32) (named : EntryPoint → Prop) : Event → Event → Prop
  | same {e : Event} (h : e.IsTokenless) : Retokens f named e e
  | fetching (url : String) (token : UInt32) :
    Retokens f named (.log (.fetching url token)) (.log (.fetching url (f token)))
  | called (entry : EntryPoint) : Retokens f named (.call entry) (.call (entry.retoken f))
  | named {entry : EntryPoint} (h : named entry) : Retokens f named (.call entry) (.call entry)
  | nested (reply : Reply) : Retokens f named (.nested reply) (.nested (reply.retoken f))

theorem Event.isTokenless_of_target {level : Log.Level} {target text : String}
    (h : target ≠ Log.Target.fetch) : (Event.log ⟨level, target, text⟩).IsTokenless :=
  fun _ _ hr => h (congrArg Log.Record.target hr)

theorem Event.isTokenless_of_level {level : Log.Level} {target text : String}
    (h : level ≠ .debug) : (Event.log ⟨level, target, text⟩).IsTokenless :=
  fun _ _ hr => h (congrArg Log.Record.level hr)

/-- The line that the drop of a cancelled fetch is logged with is no line of an accepted one. -/
theorem Event.isTokenless_dropping (url : String) :
    IsTokenless
      (.log ⟨.debug, Log.Target.fetch, s!"dropping cancelled fetch of `{url}`"⟩) := by
  intro url' token h
  have hd : (toString "dropping cancelled fetch of `").toList.head? = some 'd' := rfl
  have hf : (toString "fetching `").toList.head? = some 'f' := rfl
  have h := congrArg (fun r => r.text.toList.head?) h
  simp [Log.Record.fetching, String.toList_append, hd, hf] at h

/-! ## Cores -/

/-- The core `s'` comes with other tokens to where `s` has come. -/
structure Core.Retokened {G : Type} (f : UInt32 → UInt32) (named : EntryPoint → Prop)
    (s s' : Core G) : Prop where
  bridge : s'.bridge = s.bridge.retoken f
  gl : s'.gl = s.gl
  memory : s'.memory = s.memory
  host : s'.host = s.host
  journal : List.Forall₂ (Event.Retokens f named) s.journal.toList s'.journal.toList

namespace Core.Retokened

variable {f} {named : EntryPoint → Prop} {G : Type} {s s' : Core G}

theorem note (h : Retokened f named s s') {e e' : Event} (he : e.Retokens f named e') :
    Retokened f named (s.note e) (s'.note e') where
  bridge := h.bridge
  gl := h.gl
  memory := h.memory
  host := h.host
  journal := by
    simp only [Core.note, Array.toList_push]
    exact List.rel_append h.journal (.cons he .nil)

theorem registry (h : Retokened f named s s') : s'.bridge.registry = s.bridge.registry := by
  rw [h.bridge]
  rfl

theorem attached (h : Retokened f named s s') : s'.bridge.attached = s.bridge.attached := by
  rw [h.bridge]
  rfl

theorem withRegistry (h : Retokened f named s s') (r : Registry) :
    Retokened f named (s.withRegistry r) (s'.withRegistry r) :=
  ⟨by simp only [Core.withRegistry, h.bridge]; rfl, h.gl, h.memory, h.host, h.journal⟩

theorem perform [GraphicsContext G] (h : Retokened f named s s') (call : GlCall) :
    (s.perform call).1 = (s'.perform call).1 ∧
      Retokened f named (s.perform call).2 (s'.perform call).2 := by
  have hgl (gl : G) : Retokened f named { s with gl } { s' with gl } :=
    ⟨h.bridge, rfl, h.memory, h.host, h.journal⟩
  unfold Core.perform
  rw [h.gl]
  exact ⟨rfl, (hgl _).note (.same trivial)⟩

theorem draw (h : Retokened f named s s') :
    s.draw.1 = s'.draw.1 ∧ Retokened f named s.draw.2 s'.draw.2 := by
  unfold Core.draw
  rw [h.host]
  exact ⟨rfl, h.bridge, h.gl, h.memory, rfl, h.journal⟩

end Core.Retokened

end GuestBridge
