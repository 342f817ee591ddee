import GuestBridge.Proofs.Capability.Plain

/-!
# The work of the capabilities

Every capability but the one that accepts fetches is made of the steps of `Core.Worked`, and ends
with empty hands whether it succeeds or fails (`Capability.works`). A fetch is accepted at once or
nothing changes (`Core.acceptFetch_cases`).
-/

set_option autoImplicit false

namespace GuestBridge

namespace Core

open Attempt

variable {G : Type} [GraphicsContext G] {s : Core G} {c d : ObjectClass}
  {loose : List (Native d)}

theorem steady_worked : Steady (Worked s d loose) where
  call _ hm ht := .call _ hm ht
  note h hw ht := .note _ h hw ht
  memory memory ht := .memory memory ht
  host host ht := .host host ht

/-- A creation that has answered an object has handed it out loose; one that has not fails. -/
theorem created_meets (call : String) (a : Option (Native c)) :
    Meets (Worked s d (Native.ofClass d a.toList))
      (created call a : Action (Core G) (Native c)) (fun o => Worked s d (Native.ofClass d [o]))
      (fun _ => Worked s d []) := by
  cases a with
  | none => exact meets_fail fun t ht => by simpa using ht
  | some o => exact meets_pure fun t ht => ht

theorem delete_meets (o : Native c) {E : BridgeError → Core G → Prop} :
    Meets (Worked s d (Native.ofClass d [o])) (native (.delete c o) : Action (Core G) Unit)
      (fun _ => Worked s d []) E := by
  have h := native_delete_meets (s := s) (d := d) (E := E) [] o
  rwa [List.append_nil] at h

/-! ## Shaders and programs -/

/-- An object that is registered if it turned out well, and deleted if not, is not loose any
more. -/
theorem register_or_delete_meets (good : Bool) (o : Native c) (log : GlCall)
    (h : log.movesObject = false) (e : log.Answer → BridgeError) :
    Meets (Worked s d (Native.ofClass d [o]))
      (if good then register c o
        else do
          let info ← native log
          native (.delete c o)
          .fail (e info) : Action (Core G) UInt32)
      (fun _ => Worked s d []) (fun _ => Worked s d []) := by
  cases good with
  | true => exact register_meets o
  | false =>
    exact (native_meets h).bind fun info => (delete_meets o).bind fun _ => meets_fail fun t ht => ht

theorem keeps_initShader (sourcePtr sourceLen kind : UInt32) :
    Keeps (Worked s d []) (initShader sourcePtr sourceLen kind : Action (Core G) UInt32) := by
  unfold initShader
  refine (keeps_readString _ _).bind fun source => Meets.keeps ?_
  refine (native_create_meets _).bind fun a => (created_meets _ a).bind fun shader => ?_
  refine (native_meets rfl).bind fun _ => (native_meets rfl).bind fun _ => ?_
  refine (native_meets rfl).bind fun good => ?_
  exact register_or_delete_meets good shader (.shaderInfoLog shader) rfl
    fun info => .shaderCompilation (info.getD "")

theorem keeps_linkProgram (vertex fragment : UInt32) :
    Keeps (Worked s d []) (linkProgram vertex fragment : Action (Core G) UInt32) := by
  unfold linkProgram
  refine (keeps_object _ _).bind fun vertex => (keeps_object _ _).bind fun fragment =>
    Meets.keeps ?_
  refine (native_create_meets _).bind fun a => (created_meets _ a).bind fun program => ?_
  refine (native_meets rfl).bind fun _ => (native_meets rfl).bind fun _ => ?_
  refine (native_meets rfl).bind fun _ => (native_meets rfl).bind fun good => ?_
  exact register_or_delete_meets good program (.programInfoLog program) rfl
    fun info => .shaderLinking (info.getD "")

/-! ## Creation and deletion -/

theorem keeps_createObject (b : BulkClass) :
    Keeps (Worked s d []) (createObject b : Action (Core G) UInt32) :=
  ((native_create_meets _).bind fun a => (created_meets _ a).bind fun o => register_meets o).keeps

theorem forM_delete_meets (os : List (Native c)) {E : BridgeError → Core G → Prop} :
    Meets (Worked s d (Native.ofClass d os))
      (os.forM fun o => native (.delete c o) : Action (Core G) Unit)
      (fun _ => Worked s d []) E := by
  induction os with
  | nil => exact meets_pure fun t ht => by simpa using ht
  | cons o os ih =>
    have h := native_delete_meets (s := s) (E := E) (Native.ofClass d os) o
    rw [← Native.ofClass_append, List.singleton_append] at h
    exact h.bind fun _ => ih

/-- However far a series of creations comes, its objects are all in hand or all deleted. -/
theorem createObjects_meets (b : BulkClass) (n : Nat) (done : List (Native b.objectClass)) :
    Meets (Worked s d (Native.ofClass d done)) (createObjects b n done : Action (Core G) _)
      (fun os => Worked s d (Native.ofClass d os)) (fun _ => Worked s d []) := by
  induction n generalizing done with
  | zero => exact meets_pure fun t ht => ht
  | succ n ih =>
    unfold createObjects
    refine (native_create_meets b.blueprint).bind fun a => ?_
    cases a with
    | some o =>
      simp only [Option.toList_some, ← Native.ofClass_append]
      exact ih (done ++ [o])
    | none =>
      simp only [Option.toList_none, Native.ofClass_nil, List.append_nil]
      exact (forM_delete_meets done).bind fun _ => meets_fail fun t ht => ht

theorem keeps_generate (b : BulkClass) (count outPtr : UInt32) :
    Keeps (Worked s d []) (generate b count outPtr : Action (Core G) Unit) := by
  unfold generate
  refine keeps_guestMemory.bind fun memory => (Action.keeps_liftMemory _).bind fun _ => ?_
  have h := createObjects_meets (s := s) (d := d) b count.toNat []
  rw [Native.ofClass_nil] at h
  refine (h.bind fun objects => (registerMany_meets objects).bind fun handles => ?_).keeps
  refine Keeps.meets (keeps_guestMemory.bind fun memory => ?_)
  exact (Action.keeps_liftMemory _).bind fun memory =>
    keeps_modify fun t ht => ht.memory _

theorem keeps_deleteObject (c : ObjectClass) (handle : UInt32) :
    Keeps (Worked s d []) (deleteObject c handle : Action (Core G) Unit) :=
  ((release_meets handle).bind fun o => delete_meets o).keeps

theorem keeps_deleteEach (c : ObjectClass) (handles : List UInt32) :
    Keeps (Worked s d []) (deleteEach c handles : Action (Core G) (Option BridgeError)) := by
  induction handles with
  | nil => exact keeps_pure _
  | cons handle handles ih =>
    unfold deleteEach
    refine (keeps_outcome (keeps_deleteObject c handle)).bind fun first => ih.bind fun later => ?_
    cases first with
    | ok => exact keeps_pure _
    | error e => exact keeps_pure _

theorem keeps_deleteMany (b : BulkClass) (count ptr : UInt32) :
    Keeps (Worked s d []) (deleteMany b count ptr : Action (Core G) Unit) := by
  unfold deleteMany
  refine keeps_guestMemory.bind fun memory => (Action.keeps_liftMemory _).bind fun handles => ?_
  refine (keeps_deleteEach _ handles).bind fun first => ?_
  cases first with
  | none => exact keeps_pure _
  | some e => exact keeps_fail _

/-! ## Queries and uniform variables -/

theorem keeps_programParameter (program name : UInt32) :
    Keeps (Worked s d []) (programParameter program name : Action (Core G) Int32) :=
  (keeps_object _ _).bind fun _ => (keeps_native rfl).bind fun _ => keeps_pure _

theorem keeps_attribLocation (program ptr len : UInt32) :
    Keeps (Worked s d []) (attribLocation program ptr len : Action (Core G) Int32) :=
  (keeps_readString _ _).bind fun _ => (keeps_object _ _).bind fun _ => keeps_native rfl

theorem keeps_uniformLocation (program ptr len : UInt32) :
    Keeps (Worked s d []) (uniformLocation program ptr len : Action (Core G) UInt32) :=
  (keeps_readString _ _).bind fun _ => (keeps_object _ _).bind fun _ =>
    (keeps_native rfl).bind fun _ => keeps_registerLocation _

theorem keeps_activeUniform (program index capacity lengthPtr sizePtr typePtr namePtr : UInt32) :
    Keeps (Worked s d []) (activeUniform program index capacity lengthPtr sizePtr typePtr namePtr :
      Action (Core G) Unit) := by
  unfold activeUniform
  refine (keeps_object _ _).bind fun program => (keeps_native rfl).bind fun info => ?_
  cases info with
  | none => exact keeps_fail _
  | some info =>
    exact keeps_guestMemory.bind fun _ => (Action.keeps_liftMemory _).bind fun _ =>
      steady_worked.keeps_store _

theorem keeps_uniformMatrix4fv (l count : UInt32) (transpose : Bool) (ptr : UInt32) :
    Keeps (Worked s d []) (uniformMatrix4fv l count transpose ptr : Action (Core G) Unit) := by
  unfold uniformMatrix4fv
  split
  · exact keeps_guestMemory.bind fun _ => (Action.keeps_liftMemory _).bind fun _ =>
      (keeps_location _).bind fun _ => keeps_native rfl
  · exact keeps_fail _

/-! ## Fetches -/

omit [GraphicsContext G] in
/-- A fetch is refused and nothing changes, or it is accepted with a line in the log. -/
theorem acceptFetch_cases (urlPtr urlLen token : UInt32) (s : Core G) :
    (∃ e, acceptFetch urlPtr urlLen token s = (.error e, s)) ∨
      ∃ request text, request.cancelled = false ∧
        acceptFetch urlPtr urlLen token s = (.ok (s.bridge.accept request).1,
          { s.log .debug Log.Target.fetch text with bridge := (s.bridge.accept request).2 }) := by
  unfold acceptFetch
  obtain ⟨r, hr⟩ : ∃ r, readString urlPtr urlLen s = (r, s) :=
    ⟨_, Prod.ext rfl (keeps_readString (P := (· = s)) urlPtr urlLen s rfl)⟩
  cases r with
  | error e => exact .inl ⟨e, Attempt.bind_of_error hr⟩
  | ok url =>
    rw [Attempt.bind_of_ok hr]
    split
    · exact .inr ⟨⟨token, url, false⟩, _, rfl, rfl⟩
    · exact .inl ⟨_, rfl⟩

omit [GraphicsContext G] in
/-- There is no text to read without a guest. -/
theorem attached_of_readString {ptr len : UInt32} {text : String} {s t : Core G}
    (h : readString ptr len s = (.ok text, t)) : s.bridge.attached = true ∧ t = s := by
  by_cases ha : s.bridge.attached = true
  · have ht : (readString ptr len s).2 = s := keeps_readString (P := (· = s)) ptr len s rfl
    rw [h] at ht
    exact ⟨ha, ht⟩
  · have hm : guestMemory s = (.error .noGuest, s) := if_neg ha
    unfold readString at h
    rw [bind_of_error hm] at h
    cases h

omit [GraphicsContext G] in
/-- A fetch is accepted with the token that was asked for, and only with a guest. -/
theorem acceptFetch_of_ok {urlPtr urlLen token : UInt32} {fetch : Accepted} {s t : Core G}
    (h : acceptFetch urlPtr urlLen token s = (.ok fetch, t)) :
    s.bridge.attached = true ∧ fetch.request.token = token := by
  obtain ⟨url, u, hread, hrest⟩ := bind_eq_ok_iff.1 h
  obtain ⟨ha, rfl⟩ := attached_of_readString hread
  refine ⟨ha, ?_⟩
  by_cases himage : isImageUrl url = true
  · rw [if_pos himage] at hrest
    cases hrest
    rfl
  · rw [if_neg himage] at hrest
    cases hrest

end Core

namespace Capability

open GuestBridge.Core Attempt

variable {G α β : Type} [GraphicsContext G] {s : Core G} {d : ObjectClass}

/-- Every capability that accepts no fetch ends with empty hands, whether it succeeds or fails. -/
theorem works (c : Capability) (hc : ∀ u l t, c ≠ .fetchBytes u l t) :
    Keeps (Worked s d []) (c.run : Action (Core G) Result) := by
  by_cases hplain : c.isPlain = true
  · exact c.keeps_of_isPlain steady_worked hplain
  cases c with
  | fetchBytes urlPtr urlLen token =>
    exact absurd rfl (hc urlPtr urlLen token)
  | initShader sourcePtr sourceLen kind =>
    exact keeps_answer (keeps_initShader _ _ _)
  | linkProgram vertex fragment => exact keeps_answer (keeps_linkProgram _ _)
  | detachShader program shader =>
    exact keeps_answer ((keeps_object _ _).bind fun _ => (keeps_object _ _).bind fun _ =>
      keeps_native rfl)
  | useProgram program =>
    exact keeps_answer ((keeps_object _ _).bind fun _ => keeps_native rfl)
  | programParameter program name =>
    exact keeps_answer (keeps_programParameter _ _)
  | attribLocation program ptr len =>
    exact keeps_answer (keeps_attribLocation _ _ _)
  | uniformLocation program ptr len =>
    exact keeps_answer (keeps_uniformLocation _ _ _)
  | activeUniform program index capacity lengthPtr sizePtr typePtr namePtr =>
    exact keeps_answer (keeps_activeUniform _ _ _ _ _ _ _)
  | uniform1f location x =>
    exact keeps_answer ((keeps_location _).bind fun _ => keeps_native rfl)
  | uniform1i location x =>
    exact keeps_answer ((keeps_location _).bind fun _ => keeps_native rfl)
  | uniform2fv location x y =>
    exact keeps_answer ((keeps_location _).bind fun _ => keeps_native rfl)
  | uniform3fv location x y z =>
    exact keeps_answer ((keeps_location _).bind fun _ => keeps_native rfl)
  | uniform4fv location x y z w =>
    exact keeps_answer ((keeps_location _).bind fun _ => keeps_native rfl)
  | uniformMatrix4fv location count transpose ptr =>
    exact keeps_answer (keeps_uniformMatrix4fv _ _ _ _)
  | create b => exact keeps_answer (keeps_createObject b)
  | generate b count outPtr => exact keeps_answer (keeps_generate _ _ _)
  | delete c handle => exact keeps_answer (keeps_deleteObject _ _)
  | deleteMany b count ptr => exact keeps_answer (keeps_deleteMany _ _ _)
  | bindBuffer target buffer =>
    exact keeps_answer ((keeps_object _ _).bind fun _ => keeps_native rfl)
  | bindTexture target texture =>
    exact keeps_answer ((keeps_object _ _).bind fun _ => keeps_native rfl)
  | bindVertexArray vertexArray =>
    exact keeps_answer ((keeps_object _ _).bind fun _ => keeps_native rfl)
  | _ => exact absurd rfl hplain

omit [GraphicsContext G] in
theorem answer_ne_accepted {x : Action (Core G) α} {f : α → Result} {s : Core G} {fetch : Accepted}
    (hf : ∀ a, f a ≠ .accepted fetch) :
    ((do return f (← x) : Action (Core G) Result) s).1 ≠ .ok (.accepted fetch) := by
  rw [Attempt.bind_apply]
  rcases x s with ⟨e | a, t⟩
  · simp
  · simpa using hf a

theorem run_ne_accepted {c : Capability} (hc : ∀ u l t, c ≠ .fetchBytes u l t) (s : Core G)
    (fetch : Accepted) : (c.run s).1 ≠ .ok (.accepted fetch) := by
  cases c <;>
    first
    | exact absurd rfl (hc _ _ _)
    | exact answer_ne_accepted fun _ => nofun

/-- What a capability does: it accepts a fetch, or it works on the core and accepts none. -/
theorem run_cases (c : Capability) (s : Core G) :
    (∃ request text, request.cancelled = false ∧
      c.run s = (.ok (.accepted (s.bridge.accept request).1),
        { s.log .debug Log.Target.fetch text with bridge := (s.bridge.accept request).2 })) ∨
      (∀ fetch, (c.run s).1 ≠ .ok (.accepted fetch)) ∧ ∀ d, Worked s d [] (c.run s).2 := by
  by_cases hc : ∃ u l t, c = .fetchBytes u l t
  · obtain ⟨u, l, t, rfl⟩ := hc
    have hr : (fetchBytes u l t).run s =
      (Core.acceptFetch u l t >>= fun f => pure (.accepted f) : Action (Core G) Result) s := rfl
    rcases Core.acceptFetch_cases u l t s with ⟨e, he⟩ | ⟨request, text, hn, ha⟩
    · rw [hr, Attempt.bind_of_error he]
      exact .inr ⟨fun _ => nofun, fun _ => .refl⟩
    · rw [hr, Attempt.bind_of_ok ha]
      exact .inl ⟨request, text, hn, rfl⟩
  · simp only [not_exists] at hc
    exact .inr ⟨run_ne_accepted hc s, fun d => c.works hc s .refl⟩

/-- Only a request for bytes is accepted as a fetch, with its token, and only with a guest. -/
theorem fetchBytes_of_accepted {c : Capability} {s t : Core G} {fetch : Accepted}
    (h : c.run s = (.ok (.accepted fetch), t)) :
    s.bridge.attached = true ∧
      ∃ urlPtr urlLen, c = .fetchBytes urlPtr urlLen fetch.request.token := by
  by_cases hc : ∃ u l k, c = .fetchBytes u l k
  · obtain ⟨u, l, k, rfl⟩ := hc
    have hr : (fetchBytes u l k).run s =
      (Core.acceptFetch u l k >>= fun f => pure (.accepted f) : Action (Core G) Result) s := rfl
    obtain ⟨fetch', u', haccept, hret⟩ := Attempt.bind_eq_ok_iff.1 (hr.symm.trans h)
    cases hret
    obtain ⟨ha, htoken⟩ := Core.acceptFetch_of_ok haccept
    exact ⟨ha, u, l, by rw [htoken]⟩
  · have hne := run_ne_accepted (fun u l k he => hc ⟨u, l, k, he⟩) s fetch
    rw [h] at hne
    exact absurd rfl hne

end Capability

end GuestBridge
