import GuestBridge.Proofs.Capability.Deeds
import GuestBridge.Proofs.Capability.Work

/-!
# How capabilities resolve their handles

`Core.Obeys` is the contract of an action that takes handles: with all of them resolved it leads to
what is promised of their objects, and otherwise it fails with the first that does not resolve and
leaves everything as it was. `Core.Passed` is what is promised, for every capability that deletes
nothing by a handle (`Capability.obeys`).
-/

set_option autoImplicit false

namespace GuestBridge

namespace Core

open Attempt

variable {G α β : Type} {s t : Core G} {ds : List Deed}
  {turns : List (Except RegistryError Resource)}
  {Q : List Resource → Except BridgeError α × Core G → Prop}

/-! ## Resolving -/

/-- From `s`, the action fails with the fault if there is one, and with the first of its handles
that does not resolve if there is one. Then it has done nothing; and otherwise it leads to what is
promised of the resources of its handles. -/
def Obeys (s : Core G) (fault : Option BridgeError)
    (turns : List (Except RegistryError Resource)) (x : Action (Core G) α)
    (Q : List Resource → Except BridgeError α × Core G → Prop) : Prop :=
  match fault with
  | some e => x s = (.error e, s)
  | none =>
    match turns.mapM id with
    | .error e => x s = (.error (.registry e), s)
    | .ok xs => Q xs (x s)

theorem obeys_done {x : Action (Core G) α} (h : Q [] (x s)) : Obeys s none [] x Q := h

/-- Making something of the answer. -/
theorem Obeys.answer {fault : Option BridgeError} {x : Action (Core G) β} {f : β → α}
    (h : Obeys s fault turns x fun xs p => Q xs (p.1.map f, p.2)) :
    Obeys s fault turns (do return f (← x)) Q := by
  have hrun := bind_pure_apply x f s
  unfold Obeys at h ⊢
  cases fault with
  | some e => rw [hrun, h]; rfl
  | none =>
    rcases hm : turns.mapM id with e | xs <;> rw [hm] at h
    · show _ = _
      rw [hrun, h]
      rfl
    · show Q xs _
      rw [hrun]
      exact h

theorem obeys_lookup {γ : Type} {x : Action (Core G) γ} {found : Except RegistryError γ}
    (hx : x s = (found.mapError .registry, s)) (kind : γ → Resource)
    {f : γ → Action (Core G) α} (h : ∀ o, Obeys s none turns (f o) fun xs => Q (kind o :: xs)) :
    Obeys s none (found.map kind :: turns) (x >>= f) Q := by
  unfold Obeys
  rw [List.mapM_cons]
  cases found with
  | error e => exact bind_of_error hx
  | ok o =>
    rw [bind_of_ok hx]
    have h := h o
    unfold Obeys at h
    rcases hm : turns.mapM id with e | xs <;> rw [hm] at h <;> exact h

theorem obeys_object (hs : s.bridge.registry.Tells ds) {c : ObjectClass} {handle : UInt32}
    {f : Native c → Action (Core G) α}
    (h : ∀ o, Obeys s none turns (f o) fun xs => Q (.object c o :: xs)) :
    Obeys s none (Deed.resolve (.object c handle) ds :: turns) (object c handle >>= f) Q := by
  rw [← hs.find]
  exact obeys_lookup rfl _ h

theorem obeys_location (hs : s.bridge.registry.Tells ds) {handle : UInt32}
    {f : Option Location → Action (Core G) α}
    (h : ∀ l, Obeys s none turns (f l) fun xs => Q (.location l :: xs)) :
    Obeys s none (Deed.resolve (.location handle) ds :: turns) (location handle >>= f) Q := by
  rw [← hs.find]
  exact obeys_lookup rfl _ h

/-- What is read from memory is read before any handle is looked up. -/
theorem obeys_read (access : Memory → Except MemoryError β) {f : β → Action (Core G) α}
    (h : ∀ a, Obeys s none turns (f a) Q) :
    Obeys s (s.memoryFault? (access s.memory)) turns
      (do
        let memory ← guestMemory
        f (← Action.liftMemory (access memory))) Q := by
  rcases access_cases access f s with ⟨e, hf, hr⟩ | ⟨a, -, -, hf, hr⟩ <;> rw [hf]
  · exact hr
  · unfold Obeys
    rw [hr]
    exact h a

theorem obeys_readString {ptr len : UInt32} {f : String → Action (Core G) α}
    (h : ∀ text, Obeys s none turns (f text) Q) :
    Obeys s (s.memoryFault? (s.memory.readString ptr len)) turns (readString ptr len >>= f) Q := by
  rw [readString, bind_assoc]
  exact obeys_read (fun memory => memory.readString ptr len) h

/-! ## What is promised -/

/-- Up to `t`, these events happened and no table was touched. -/
structure Noted (s : Core G) (events : List Event) (t : Core G) : Prop where
  registry : t.bridge.registry = s.bridge.registry
  journal : t.journal.toList = s.journal.toList ++ events

theorem noted_refl (s : Core G) : Noted s [] s := ⟨rfl, (List.append_nil _).symm⟩

/-- What a capability has done with the resources of its handles: it has given them to the native
context, in order, or none of them and it failed. It has deleted nothing before that, and the
tables record what it has issued. -/
structure Passed (c : Capability) (s : Core G) (xs : List Resource)
    (p : Except BridgeError Capability.Result × Core G) : Prop where
  journal : ∃ first last, p.2.journal.toList = s.journal.toList ++ (first ++ last) ∧
    (first.flatMap (Event.given c) = xs ∨
      first.flatMap (Event.given c) = [] ∧ ∃ e, p.1 = .error e) ∧
    (∀ e ∈ first, ∀ d, e.deleted d = []) ∧ last.flatMap (Event.given c) = []
  recorded : s.bridge.registry.Recorded (c.deedsTo s p.1 p.2) p.2.bridge.registry

section

variable {c : Capability} {xs : List Resource} {first : List Event}
  {result : Except BridgeError Capability.Result}

/-- A capability that issues nothing. -/
theorem Noted.passed (first last : List Event) (h : Noted s (first ++ last) t)
    (hg : first.flatMap (Event.given c) = xs ∨
      first.flatMap (Event.given c) = [] ∧ ∃ e, result = .error e)
    (hd : ∀ e ∈ first, ∀ d, e.deleted d = []) (hl : last.flatMap (Event.given c) = [])
    (hc : ∀ r, c.discards r = []) (hr : c.returned result t = []) :
    Passed c s xs (result, t) := by
  refine ⟨⟨first, last, h.journal, hg, hd, hl⟩, ?_⟩
  rw [c.deedsTo_of_discards hc, hr, h.registry]
  exact .nil

/-- A capability that makes one native call, about what its handles stand for. -/
theorem Noted.passed_call {call : GlCall} {a : call.Answer} (h : Noted s [.gl call a] t)
    (hg : c.given call = xs) (hm : call.movesObject = false) (hc : ∀ r, c.discards r = [])
    (hr : c.returned result t = []) : Passed c s xs (result, t) := by
  refine Noted.passed [.gl call a] [] h (.inl ?_) ?_ rfl hc hr
  · rw [List.flatMap_singleton]
    exact hg
  · rintro e he d
    rw [List.mem_singleton.1 he]
    exact Event.deleted_of_movesObject hm a

/-- A capability that issues one handle, for the one thing that was made. -/
theorem Noted.passed_issued (h : Noted s first t) {x : Resource} {u : Core G}
    (hj : u.journal = t.journal) (hR : u.bridge.registry = (t.bridge.registry.add x).2)
    (hg : first.flatMap (Event.given c) = xs) (hd : ∀ e ∈ first, ∀ d, e.deleted d = [])
    (hm : first.flatMap Event.made = [x]) (hc : ∀ r, c.discards r = [])
    (hr : ∀ n (t : Core G), c.returned (.ok (.number n)) t = [.ofNat n.toNat]) :
    Passed c s xs (.ok (.number (t.bridge.registry.add x).1.toNat), u) := by
  have hj : u.journal.toList = s.journal.toList ++ (first ++ []) := by
    rw [hj, h.journal, List.append_nil]
  refine ⟨⟨first, [], hj, .inl hg, hd, rfl⟩, ?_⟩
  have hdeeds : c.deedsTo s (.ok (.number (t.bridge.registry.add x).1.toNat)) u =
      [.issued (t.bridge.registry.add x).1 x] := by
    rw [c.deedsTo_of_discards hc, hr, since_eq hj, List.append_nil, hm]
    simp
  rw [hdeeds, hR, h.registry]
  exact .issued x .nil

end

/-! ## Steps -/

section

variable [GraphicsContext G] {events : List Event} {R : α → Core G → Prop}
  {E : BridgeError → Core G → Prop}

theorem native_noted {call : GlCall} {f : call.Answer → Action (Core G) α}
    (h : ∀ a, Meets (Noted s (events ++ [.gl call a])) (f a) R E) :
    Meets (Noted s events) (native call >>= f) R E := by
  refine Meets.bind (Q := fun a => Noted s (events ++ [.gl call a])) ?_ h
  refine meets_state fun t ht => ⟨ht.registry, ?_⟩
  show (t.journal.push _).toList = _
  rw [Array.toList_push, ht.journal, List.append_assoc]
  rfl

theorem noted_perform (s : Core G) (call : GlCall) :
    Noted s [.gl call (s.perform call).1] (s.perform call).2 :=
  ⟨rfl, Array.toList_push ..⟩

theorem obeys_native {call : GlCall}
    {Q : List Resource → Except BridgeError call.Answer × Core G → Prop}
    (h : ∀ a t, Noted s [.gl call a] t → Q [] (.ok a, t)) : Obeys s none [] (native call) Q :=
  obeys_done (h _ _ (noted_perform s call))

theorem obeys_native_bind {call : GlCall} {f : call.Answer → Action (Core G) α}
    (h : ∀ a t, Noted s [.gl call a] t → Q [] (f a t)) :
    Obeys s none [] (native call >>= f) Q :=
  obeys_done (h _ _ (noted_perform s call))

omit [GraphicsContext G] in
theorem created_noted {c : ObjectClass} {call : String} {a : Option (Native c)}
    {f : Native c → Action (Core G) α}
    (hnone : a = none → ∀ t, Noted s events t → E (.native call "returned null") t)
    (h : ∀ o, a = some o → Meets (Noted s events) (f o) R E) :
    Meets (Noted s events) (created call a >>= f) R E := by
  cases a with
  | none => exact fun t ht => hnone rfl t ht
  | some o => exact h o rfl

variable {c : Capability} {xs : List Resource}

omit [GraphicsContext G] in
theorem register_passed {d : ObjectClass} {o : Native d}
    (hg : events.flatMap (Event.given c) = xs) (hd : ∀ e ∈ events, ∀ d, e.deleted d = [])
    (hm : events.flatMap Event.made = [.object d o]) (hc : ∀ r, c.discards r = [])
    (hr : ∀ n (t : Core G), c.returned (.ok (.number n)) t = [.ofNat n.toNat]) :
    Meets (Noted s events) (register d o)
      (fun h t => Passed c s xs (.ok (.number h.toNat), t)) E :=
  meets_state fun t ht =>
    ht.passed_issued (x := .object d o) (u := (register d o t).2) rfl rfl hg hd hm hc hr

/-- An object that turned out well is issued; another is deleted, on no handle's behalf. -/
theorem register_or_delete_passed (good : Bool) {d : ObjectClass} {o : Native d} (log : GlCall)
    (e : log.Answer → BridgeError) (hg : events.flatMap (Event.given c) = xs)
    (hd : ∀ e ∈ events, ∀ d, e.deleted d = []) (hm : events.flatMap Event.made = [.object d o])
    (hc : ∀ r, c.discards r = [])
    (hr : ∀ n (t : Core G), c.returned (.ok (.number n)) t = [.ofNat n.toNat])
    (hlog : c.given log = []) (hdel : c.given (.delete d o) = []) :
    Meets (Noted s events)
      (if good then register d o
        else do
          let info ← native log
          native (.delete d o)
          .fail (e info) : Action (Core G) UInt32)
      (fun h t => Passed c s xs (.ok (.number h.toNat), t))
      (fun e t => Passed c s xs (.error e, t)) := by
  cases good with
  | true => exact register_passed hg hd hm hc hr
  | false =>
    refine native_noted fun info => native_noted fun a => meets_fail fun t ht => ?_
    rw [List.append_assoc] at ht
    refine ht.passed events _ (.inl hg) hd ?_ hc (c.returned_error _ _)
    simp [Event.given, hlog, hdel]

omit [GraphicsContext G] in
theorem obeys_of_meets {x : Action (Core G) α}
    (h : Meets (Noted s []) x (fun a t => Q [] (.ok a, t)) fun e t => Q [] (.error e, t)) :
    Obeys s none [] x Q := by
  have h := h s (noted_refl s)
  refine obeys_done ?_
  rcases hx : x s with ⟨e | a, t⟩ <;> rw [hx] at h <;> exact h

end

/-! ## Plain capabilities -/

/-- No table was touched, and no native call was about an object or a location. -/
def Plain (s t : Core G) : Prop :=
  ∃ events, Noted s events t ∧ ∀ e ∈ events, e.resources = []

namespace Plain

theorem refl (s : Core G) : Plain s s := ⟨[], noted_refl s, by simp⟩

theorem of_eq (h : Plain s t) {u : Core G} (hR : u.bridge.registry = t.bridge.registry)
    (hj : u.journal = t.journal) : Plain s u := by
  obtain ⟨events, hn, he⟩ := h
  exact ⟨events, ⟨hR.trans hn.registry, hj ▸ hn.journal⟩, he⟩

theorem note (h : Plain s t) {e : Event} (he : e.resources = []) : Plain s (t.note e) := by
  obtain ⟨events, hn, hes⟩ := h
  refine ⟨events ++ [e], ⟨hn.registry, ?_⟩, fun e' hm => ?_⟩
  · simp [Core.note, hn.journal]
  · rcases List.mem_append.1 hm with hm | hm
    · exact hes e' hm
    · rw [List.mem_singleton.1 hm, he]

theorem passed (h : Plain s t) {c : Capability} {result : Except BridgeError Capability.Result}
    (hc : ∀ r, c.discards r = []) (hr : c.returned result t = []) :
    Passed c s [] (result, t) := by
  obtain ⟨events, hn, he⟩ := h
  refine hn.passed [] events (.inl rfl) (by simp) ?_ hc hr
  exact List.flatMap_eq_nil_iff.2 fun e hm => c.given_of_resources (he e hm)

end Plain

theorem steady_plain [GraphicsContext G] : Steady (Plain s) where
  call {t call} h _ ht := (ht.note (e := .gl call (t.perform call).1) h).of_eq rfl rfl
  note h _ ht := ht.note (Event.resources_of_isQuiet h)
  memory _ ht := ht.of_eq rfl rfl
  host _ ht := ht.of_eq rfl rfl

theorem plain_acceptFetch (urlPtr urlLen token : UInt32) :
    Keeps (Plain s) (acceptFetch urlPtr urlLen token) := by
  intro t ht
  rcases acceptFetch_cases urlPtr urlLen token t with ⟨e, hr⟩ | ⟨request, text, -, hr⟩
  · rw [hr]
    exact ht
  · rw [hr]
    exact (ht.note (e := .log _) rfl).of_eq rfl rfl

/-! ## Creations and queries -/

section

variable [GraphicsContext G]

theorem initShader_obeys (sourcePtr sourceLen kind : UInt32) :
    Obeys s none [] (initShader sourcePtr sourceLen kind) fun xs p =>
      Passed (.initShader sourcePtr sourceLen kind) s xs
        (p.1.map fun h => .number h.toNat, p.2) := by
  have failed : ∀ e events t, Noted s events t →
      Passed (.initShader sourcePtr sourceLen kind) s [] (.error e, t) := fun e events t ht =>
    ht.passed [] events (.inl rfl) (by simp)
      (List.flatMap_eq_nil_iff.2 fun e _ => by cases e <;> rfl) (fun _ => rfl)
      (Capability.returned_error _ _ _)
  refine obeys_of_meets ?_
  refine ((keeps_readString _ _).meets_of fun e => failed e []).bind fun source => ?_
  refine native_noted fun a => created_noted (fun ha t ht => failed _ _ t ht) fun o ha => ?_
  subst ha
  refine native_noted fun _ => native_noted fun _ => native_noted fun good => ?_
  exact register_or_delete_passed good (.shaderInfoLog o)
    (fun info => .shaderCompilation (info.getD "")) rfl (by simp [Event.deleted]) rfl
    (fun _ => rfl) (fun _ _ => rfl) rfl rfl

theorem createObject_obeys (b : BulkClass) :
    Obeys s none [] (createObject b) fun xs p =>
      Passed (.create b) s xs (p.1.map fun h => .number h.toNat, p.2) := by
  refine obeys_of_meets ?_
  refine native_noted fun a => created_noted (fun ha t ht => ?_) fun o ha => ?_
  · exact ht.passed [] _ (.inl rfl) (by simp) rfl (fun _ => rfl) (Capability.returned_error _ _ _)
  · subst ha
    exact register_passed rfl (by simp [Event.deleted]) rfl (fun _ => rfl) fun _ _ => rfl

theorem uniformLocation_obeys (hs : s.bridge.registry.Tells ds) (program ptr len : UInt32) :
    Obeys s (s.memoryFault? (s.memory.readString ptr len))
      [Deed.resolve (.object .program program) ds] (uniformLocation program ptr len) fun xs p =>
        Passed (.uniformLocation program ptr len) s xs (p.1.map fun h => .number h.toNat, p.2) := by
  refine obeys_readString fun name => obeys_object hs fun p => obeys_of_meets ?_
  refine native_noted fun l => meets_state fun t ht => ?_
  exact ht.passed_issued (x := .location l) (u := (registerLocation l t).2) rfl rfl rfl
    (by simp [Event.deleted]) rfl (fun _ => rfl) fun _ _ => rfl

theorem linkProgram_obeys (hs : s.bridge.registry.Tells ds) (vertex fragment : UInt32) :
    Obeys s none
      [Deed.resolve (.object .shader vertex) ds, Deed.resolve (.object .shader fragment) ds]
      (linkProgram vertex fragment) fun xs p =>
        Passed (.linkProgram vertex fragment) s xs (p.1.map fun h => .number h.toNat, p.2) := by
  refine obeys_object hs fun v => obeys_object hs fun f => obeys_of_meets ?_
  refine native_noted fun a => created_noted (fun ha t ht => ?_) fun o ha => ?_
  · exact ht.passed [] _ (.inr ⟨rfl, _, rfl⟩) (by simp) rfl (fun _ => rfl)
      (Capability.returned_error _ _ _)
  · subst ha
    refine native_noted fun _ => native_noted fun _ => native_noted fun _ =>
      native_noted fun good => ?_
    exact register_or_delete_passed good (.programInfoLog o)
      (fun info => .shaderLinking (info.getD "")) rfl (by simp [Event.deleted]) rfl
      (fun _ => rfl) (fun _ _ => rfl) rfl rfl

theorem uniformMatrix4fv_obeys (hs : s.bridge.registry.Tells ds) (l count : UInt32)
    (transpose : Bool) (ptr : UInt32) :
    Obeys s (Capability.fault? (.uniformMatrix4fv l count transpose ptr) s)
      [Deed.resolve (.location l) ds] (uniformMatrix4fv l count transpose ptr) fun xs p =>
        Passed (.uniformMatrix4fv l count transpose ptr) s xs
          (p.1.map fun _ => .nothing, p.2) := by
  show Obeys s (if count.toNat * 16 < UInt32.size then _ else _) _ _ _
  unfold uniformMatrix4fv
  split
  · exact obeys_read (fun memory => memory.readSingles ptr (count * 16)) fun values =>
      obeys_location hs fun l => obeys_native fun a t ht =>
        ht.passed_call rfl rfl (fun _ => rfl) rfl
  · rfl

theorem activeUniform_obeys (hs : s.bridge.registry.Tells ds)
    (program index capacity lengthPtr sizePtr typePtr namePtr : UInt32) :
    Obeys s none [Deed.resolve (.object .program program) ds]
      (activeUniform program index capacity lengthPtr sizePtr typePtr namePtr) fun xs p =>
        Passed (.activeUniform program index capacity lengthPtr sizePtr typePtr namePtr) s xs
          (p.1.map fun _ => .nothing, p.2) := by
  refine obeys_object hs fun p => obeys_native_bind fun a t ht => ?_
  have passed : ∀ {x : Action (Core G) Unit}, Keeps (Noted s [.gl (.activeUniform p index) a]) x →
      Passed (.activeUniform program index capacity lengthPtr sizePtr typePtr namePtr) s
        [.object .program p] ((x t).1.map fun _ => .nothing, (x t).2) := fun hx =>
    (hx t ht).passed_call rfl rfl (fun _ => rfl) rfl
  cases a with
  | none => exact passed (keeps_fail _)
  | some info =>
    exact passed (keeps_guestMemory.bind fun _ => (Action.keeps_liftMemory _).bind fun _ =>
      keeps_guestMemory.bind fun _ => (Action.keeps_liftMemory _).bind fun _ =>
        keeps_modify fun _ h => ⟨h.registry, h.journal⟩)

end

end Core

namespace Capability

open GuestBridge.Core Attempt

variable {G : Type} [GraphicsContext G] {s : Core G} {ds : List Deed}

theorem obeys_of_isPlain (c : Capability) (hc : c.isPlain) :
    Obeys s (c.fault? s) ((c.refs s).map fun r => Deed.resolve r ds) c.run (Passed c s) := by
  have hk := c.keeps_of_isPlain steady_plain hc s (.refl s)
  cases c <;> first
    | exact obeys_done (hk.passed (fun _ => rfl) rfl)
    | cases hc

/-- What becomes of the handles of every capability that neither deletes by a handle nor creates
many objects. -/
theorem obeys (hs : s.bridge.registry.Tells ds) (c : Capability)
    (hdelete : ∀ r, c.discards r = []) (hgenerate : ∀ b n p, c ≠ .generate b n p) :
    Obeys s (c.fault? s) ((c.refs s).map fun r => Deed.resolve r ds) c.run (Passed c s) := by
  by_cases hplain : c.isPlain = true
  · exact obeys_of_isPlain c hplain
  cases c with
  | fetchBytes urlPtr urlLen token =>
    refine obeys_done (Plain.passed ?_ (fun _ => rfl) rfl)
    exact keeps_answer (plain_acceptFetch urlPtr urlLen token) s (.refl s)
  | initShader sourcePtr sourceLen kind => exact Obeys.answer (initShader_obeys _ _ _)
  | linkProgram vertex fragment => exact Obeys.answer (linkProgram_obeys hs _ _)
  | create b => exact Obeys.answer (createObject_obeys b)
  | uniformLocation program ptr len => exact Obeys.answer (uniformLocation_obeys hs _ _ _)
  | activeUniform program index capacity lengthPtr sizePtr typePtr namePtr =>
    exact Obeys.answer (activeUniform_obeys hs _ _ _ _ _ _ _)
  | generate b count outPtr => exact absurd rfl (hgenerate b count outPtr)
  | delete c handle => cases hdelete (.object c handle)
  | deleteMany b count ptr => cases hdelete (.object .buffer 0)
  | detachShader program shader =>
    exact Obeys.answer (obeys_object hs fun p => obeys_object hs fun o =>
      obeys_native fun a t ht => ht.passed_call rfl rfl (fun _ => rfl) rfl)
  | programParameter program name =>
    exact Obeys.answer (obeys_object hs fun o => obeys_native_bind fun a t ht =>
      ht.passed_call rfl rfl (fun _ => rfl) rfl)
  | attribLocation program ptr len =>
    exact Obeys.answer (obeys_readString fun name => obeys_object hs fun o =>
      obeys_native fun a t ht => ht.passed_call rfl rfl (fun _ => rfl) rfl)
  | useProgram | bindBuffer | bindTexture | bindVertexArray =>
    exact Obeys.answer (obeys_object hs fun o => obeys_native fun a t ht =>
      ht.passed_call rfl rfl (fun _ => rfl) rfl)
  | uniform1f | uniform1i | uniform2fv | uniform3fv | uniform4fv =>
    exact Obeys.answer (obeys_location hs fun l => obeys_native fun a t ht =>
      ht.passed_call rfl rfl (fun _ => rfl) rfl)
  | uniformMatrix4fv l count transpose ptr =>
    exact Obeys.answer (uniformMatrix4fv_obeys hs _ _ _ _)
  | _ => exact absurd rfl hplain

end Capability

end GuestBridge
