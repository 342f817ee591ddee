import GuestBridge.Proofs.Bench.Leads
import GuestBridge.Proofs.Platform.Copy

/-!
# Ways through the guest

Entering the guest, copying bytes into it and performing a capability are ways between benches, if
the steps that the guest takes meanwhile are.
-/

set_option autoImplicit false

namespace GuestBridge.Bench

variable {G C : Type} [GraphicsContext G] {p : Step C → Prop} {top : Happening → Prop}
  {inner : Performer G C} {tell : Teller G C}

/-! ## Entries -/

omit [GraphicsContext G] in
theorem callGuest_eq (entry : EntryPoint) (b : Bench G C) :
    (platform inner).callGuest entry b =
      if b.core.bridge.admits entry = false then (.error .notRunning, b)
      else if b.core.bridge.attached = false then (.error .noGuest, b)
      else ((call inner entry b).1.mapError .guest, (call inner entry b).2) := by
  have hb : (platform inner).bridge b = (.ok b.core.bridge, b) := rfl
  unfold Platform.callGuest
  rw [Attempt.bind_of_ok hb]
  simp only [Bool.not_eq_true']
  split
  · rfl
  · split <;> rfl

omit [GraphicsContext G] in
theorem attached_of_callGuest_eq_ok {entry : EntryPoint} {b b' : Bench G C}
    (h : (platform inner).callGuest entry b = (.ok (), b')) : b.core.bridge.attached = true := by
  rw [callGuest_eq] at h
  split at h
  · cases h
  · split at h
    · cases h
    · rename_i ha
      simpa using ha

/-! ## Operations in which the guest is entered -/

section

omit [GraphicsContext G]

variable {b b' : Bench G C} {width height : UInt32} {timestamp : Ieee.Double} {text : String}

theorem init_of_running (hp : b.core.bridge.phase = .running) :
    (platform inner).init width height b = (.error .alreadyRunning, b) := by
  have hb : (platform inner).bridge b = (.ok b.core.bridge, b) := rfl
  unfold Platform.init
  rw [Attempt.bind_of_ok hb, if_pos hp]
  rfl

theorem init_of_error (hp : b.core.bridge.phase ≠ .running) {e : BridgeError}
    (hc : (platform inner).callGuest (.init width height) b = (.error e, b')) :
    (platform inner).init width height b = (.error e, b') := by
  have hb : (platform inner).bridge b = (.ok b.core.bridge, b) := rfl
  unfold Platform.init
  rw [Attempt.bind_of_ok hb, if_neg hp, Attempt.bind_of_error hc]

theorem init_of_ok (hp : b.core.bridge.phase ≠ .running)
    (hc : (platform inner).callGuest (.init width height) b = (.ok (), b')) :
    (platform inner).init width height b =
      (.ok (), (platform inner).log .debug Log.Target.bridge
        s!"guest initialized at {width}x{height}"
        (b'.withBridge fun bridge => { bridge with phase := .running })) := by
  have hb : (platform inner).bridge b = (.ok b.core.bridge, b) := rfl
  unfold Platform.init
  rw [Attempt.bind_of_ok hb, if_neg hp, Attempt.bind_of_ok hc]
  rfl

theorem animationFrame_of_idle (hp : b.core.bridge.phase ≠ .running) :
    (platform inner).animationFrame timestamp b = (.error .notRunning, b) := by
  have hb : (platform inner).bridge b = (.ok b.core.bridge, b) := rfl
  unfold Platform.animationFrame
  rw [Attempt.bind_of_ok hb, if_pos hp]
  rfl

/-- What is logged of a frame that is dropped. -/
def staleRecord (timestamp last : Ieee.Double) : Log.Record :=
  let now := timestamp.text .plain
  let before := last.text .plain
  ⟨.warn, Log.Target.bridge, s!"dropping frame at {now} (previous frame at {before})"⟩

theorem animationFrame_of_stale (hp : b.core.bridge.phase = .running) {last : Ieee.Double}
    (hs : b.core.bridge.staleAfter? timestamp = some last) :
    (platform inner).animationFrame timestamp b =
      (.ok false, b.note (.log (staleRecord timestamp last))) := by
  have hb : (platform inner).bridge b = (.ok b.core.bridge, b) := rfl
  unfold Platform.animationFrame
  rw [Attempt.bind_of_ok hb, if_neg (by simp [hp]), hs]
  rfl

/-- The guest is called once the bridge has remembered the frame. -/
theorem animationFrame_of_next (hp : b.core.bridge.phase = .running)
    (hs : b.core.bridge.staleAfter? timestamp = none) {r : Except BridgeError Unit}
    (hc : (platform inner).callGuest (.animationFrame timestamp)
      (b.withBridge fun bridge => { bridge with lastFrame := some timestamp }) = (r, b')) :
    (platform inner).animationFrame timestamp b = (r.map fun _ => true, b') := by
  have hb : (platform inner).bridge b = (.ok b.core.bridge, b) := rfl
  have hm : (.modify ((platform inner).onBridge fun bridge =>
      { bridge with lastFrame := some timestamp }) : Action (Bench G C) Unit) b =
        (.ok (), b.withBridge fun bridge => { bridge with lastFrame := some timestamp }) := rfl
  unfold Platform.animationFrame
  rw [Attempt.bind_of_ok hb, if_neg (by simp [hp]), hs]
  simp only
  rw [Attempt.bind_of_ok hm, Attempt.bind_pure_apply, hc]

theorem submitEquation_of_idle (hp : b.core.bridge.phase ≠ .running) :
    (platform inner).submitEquation text b = (.error .notRunning, b) := by
  have hb : (platform inner).bridge b = (.ok b.core.bridge, b) := rfl
  unfold Platform.submitEquation
  rw [Attempt.bind_of_ok hb, if_pos hp]
  rfl

theorem submitEquation_of_error (hp : b.core.bridge.phase = .running) {e : BridgeError}
    (hcopy : (platform inner).copyToGuest (Text.utf8 text) b = (.error e, b')) :
    (platform inner).submitEquation text b = (.error e, b') := by
  have hb : (platform inner).bridge b = (.ok b.core.bridge, b) := rfl
  unfold Platform.submitEquation
  rw [Attempt.bind_of_ok hb, if_neg (by simp [hp]), Attempt.bind_of_error hcopy]

theorem submitEquation_of_empty (hp : b.core.bridge.phase = .running)
    (hcopy : (platform inner).copyToGuest (Text.utf8 text) b = (.ok .empty, b')) :
    (platform inner).submitEquation text b =
      (.ok .empty, (platform inner).log .error Log.Target.bridge
        "error copying equation to the guest: empty input" b') := by
  have hb : (platform inner).bridge b = (.ok b.core.bridge, b) := rfl
  unfold Platform.submitEquation
  rw [Attempt.bind_of_ok hb, if_neg (by simp [hp]), Attempt.bind_of_ok hcopy]
  rfl

/-- The guest is called with the region that the text has been copied to. -/
theorem submitEquation_of_copied (hp : b.core.bridge.phase = .running) {ptr len : UInt32}
    {b'' : Bench G C} {r : Except BridgeError Unit}
    (hcopy : (platform inner).copyToGuest (Text.utf8 text) b = (.ok (.copied ptr len), b'))
    (hc : (platform inner).callGuest (.equation ptr len) b' = (r, b'')) :
    (platform inner).submitEquation text b = (r.map fun _ => .copied ptr len, b'') := by
  have hb : (platform inner).bridge b = (.ok b.core.bridge, b) := rfl
  unfold Platform.submitEquation
  rw [Attempt.bind_of_ok hb, if_neg (by simp [hp]), Attempt.bind_of_ok hcopy]
  simp only
  rw [Attempt.bind_pure_apply, hc]

end

/-! ## Entries as ways -/

theorem callGuest_leads (hi : Follows p inner tell) (entry : EntryPoint) (b : Bench G C)
    (ht : top (.called entry)) :
    Leads p top [] b (Teller.callGuest inner tell entry b) []
      ((platform inner).callGuest entry b).2 := by
  unfold Teller.callGuest
  rw [callGuest_eq]
  cases hp : b.core.bridge.admits entry with
  | false => exact .refl
  | true =>
    cases ha : b.core.bridge.attached with
    | false => exact .refl
    | true =>
      have h : Leads p top [] b [.called entry] [] (b.note (.call entry)) :=
        .happens (fun _ _ => .called hp ha) ht id rfl rfl
      simp only [Bool.true_eq_false, if_false, Bool.and_self, if_true, call_eq]
      exact h.trans (interlude_leads hi _ _)

theorem leads_log (level : Log.Level) (target text : String) (b : Bench G C) :
    Leads p top [] b [] [] ((platform inner).log level target text b) :=
  leads_note (e := .log ⟨level, target, text⟩) b rfl

omit [GraphicsContext G] in
theorem attachGuest_eq (inner : Performer G C) (b : Bench G C) :
    ((platform inner).attachGuest b).2 = { b with core.bridge.attached := true } := by
  have hb : (platform inner).bridge b = (.ok b.core.bridge, b) := rfl
  unfold Platform.attachGuest
  rw [Attempt.bind_of_ok hb]
  split
  · rename_i ha
    rw [← ha]
    rfl
  · rfl

theorem attachGuest_leads (b : Bench G C) (ht : top .attached) :
    Leads p top [] b (Teller.attachGuest b) [] ((platform inner).attachGuest b).2 := by
  have hb : (platform inner).bridge b = (.ok b.core.bridge, b) := rfl
  unfold Teller.attachGuest Platform.attachGuest
  rw [Attempt.bind_of_ok hb]
  split
  · exact .refl
  · exact .happens (fun _ _ => .attached) ht id rfl rfl

theorem init_leads (hi : Follows p inner tell) (width height : UInt32) (b : Bench G C)
    (hc : top (.called (.init width height))) (hs : top .started) :
    Leads p top [] b (Teller.init inner tell width height b) []
      ((platform inner).init width height b).2 := by
  unfold Teller.init
  by_cases hp : b.core.bridge.phase = .running
  · rw [if_pos hp, init_of_running hp]
    exact .refl
  · have h := callGuest_leads hi (.init width height) b hc
    rw [if_neg hp]
    rcases hr : (platform inner).callGuest (.init width height) b with ⟨e | ⟨⟩, b'⟩
    · rw [init_of_error hp hr]
      rw [hr] at h
      exact h.trans .refl
    · rw [init_of_ok hp hr]
      rw [hr] at h
      have ha := attached_of_callGuest_eq_ok hr
      refine h.trans_attached fun hb' => ?_
      have h₁ : Leads p top [] b' [.started] []
          (b'.withBridge fun b => { b with phase := .running }) :=
        .happens (fun _ _ => .started (hb' ha)) hs id rfl rfl
      exact h₁.before (leads_log _ _ _ _)

theorem animationFrame_leads (hi : Follows p inner tell) (timestamp : Ieee.Double) (b : Bench G C)
    (ht : top (.frame timestamp)) :
    Leads p top [] b (Teller.animationFrame inner tell timestamp b) []
      ((platform inner).animationFrame timestamp b).2 := by
  unfold Teller.animationFrame
  by_cases hp : b.core.bridge.phase = .running
  · cases hs : b.core.bridge.staleAfter? timestamp with
    | some last =>
      rw [animationFrame_of_stale hp hs, if_neg (by simp)]
      exact leads_note _ rfl
    | none =>
      refine .of_sound fun hsound => ?_
      -- The bridge runs, so it has a guest, and the call goes through.
      let b₁ := b.withBridge fun b => { b with lastFrame := some timestamp }
      have hcall : (platform inner).callGuest (.animationFrame timestamp) b₁ =
          ((call inner (.animationFrame timestamp) b₁).1.mapError .guest,
            (call inner (.animationFrame timestamp) b₁).2) := by
        have hp₁ : b₁.core.bridge.admits (.animationFrame timestamp) = true := by
          show (decide (b.core.bridge.phase = .running) || false) = true
          simp [hp]
        have ha₁ : b₁.core.bridge.attached = true := hsound hp
        rw [callGuest_eq]
        simp [hp₁, ha₁]
      have h : Leads p top [] b [.frame timestamp] []
          (b₁.note (.call (.animationFrame timestamp))) :=
        .happens (fun _ _ => .frame hp (hsound hp) hs) ht id rfl rfl
      rw [animationFrame_of_next hp hs hcall, call_eq, if_pos ⟨hp, hsound hp, rfl⟩]
      exact h.trans (interlude_leads hi _ _)
  · rw [animationFrame_of_idle hp, if_neg (hp ·.1)]
    exact .refl

/-! ## Copies -/

omit [GraphicsContext G] in
theorem onCore_eq {α : Type} {x : Action (Core G) α} {b : Bench G C} {core : Core G}
    {r : Except BridgeError α} (h : x b.core = (r, core)) :
    (platform inner).onCore x b = (r, { b with core }) :=
  Platform.onCore_eq (p := platform inner) h

omit [GraphicsContext G] in
/-- A copy for which the allocator is asked. -/
theorem copyToGuest_eq (inner : Performer G C) {bytes : List UInt8} {len : UInt32} {b : Bench G C}
    (ha : b.core.bridge.attached = true) (he : bytes.isEmpty = false)
    (hl : Store.guestLen bytes = .ok len) :
    (platform inner).copyToGuest bytes b =
      match alloc inner len b with
      | (.error e, b') => (.error (.guest e), b')
      | (.ok ptr, b') =>
        match Core.store [.bytes ptr bytes] b'.core with
        | (.ok (), core) => (.ok (.copied ptr len), { b' with core })
        | (.error e, core) => (.error e, { b' with core }) := by
  have hal : (platform inner).alloc len b = alloc inner len b := rfl
  rw [Platform.copyToGuest_eq (p := platform inner) ha he hl, hal]
  rcases alloc inner len b with ⟨e | ptr, b'⟩
  · rfl
  · have hcore : (platform inner).core b' = b'.core := rfl
    simp only [hcore]
    rcases Core.store [.bytes ptr bytes] b'.core with ⟨e | ⟨⟩, core⟩ <;> rfl

omit [GraphicsContext G] in
/-- A copy for which the allocator is not asked. -/
theorem copyToGuest_of_not (inner : Performer G C) {bytes : List UInt8} {b : Bench G C}
    (h : b.core.bridge.attached = false ∨ bytes.isEmpty = true ∨
      ∃ e, Store.guestLen bytes = .error e) :
    ∃ r, (platform inner).copyToGuest bytes b = (r, b) ∧ ∀ ptr len, r ≠ .ok (.copied ptr len) :=
  Platform.copyToGuest_of_not (p := platform inner) h

omit [GraphicsContext G] in
theorem Teller.copyToGuest_eq {bytes : List UInt8} {len : UInt32} {b : Bench G C}
    (ha : b.core.bridge.attached = true) (he : bytes.isEmpty = false)
    (hl : Store.guestLen bytes = .ok len) :
    Teller.copyToGuest inner tell bytes b = Teller.alloc inner tell len b := by
  simp [Teller.copyToGuest, ha, he, hl]

omit [GraphicsContext G] in
theorem Teller.copyToGuest_of_not {bytes : List UInt8} {b : Bench G C}
    (h : b.core.bridge.attached = false ∨ bytes.isEmpty = true ∨
      ∃ e, Store.guestLen bytes = .error e) : Teller.copyToGuest inner tell bytes b = [] := by
  unfold Teller.copyToGuest
  rcases h with ha | he | ⟨e, hl⟩
  · simp [ha]
  · simp [he]
  · simp [hl]

theorem copyToGuest_leads (hi : Follows p inner tell) (bytes : List UInt8) (b : Bench G C)
    (ht : ∀ len, top (.allocated len)) :
    Leads p top [] b (Teller.copyToGuest inner tell bytes b) []
      ((platform inner).copyToGuest bytes b).2 := by
  by_cases h : b.core.bridge.attached = false ∨ bytes.isEmpty = true ∨
      ∃ e, Store.guestLen bytes = .error e
  · obtain ⟨r, hr, -⟩ := copyToGuest_of_not inner h
    rw [hr, Teller.copyToGuest_of_not h]
    exact .refl
  · simp only [not_or, not_exists, Bool.not_eq_false, Bool.not_eq_true] at h
    obtain ⟨ha, he, hl⟩ := h
    rcases hlen : Store.guestLen bytes with e | len
    · exact absurd hlen (hl e)
    have halloc := alloc_leads (p := p) hi len b (ht len)
    rw [copyToGuest_eq inner ha he hlen, Teller.copyToGuest_eq ha he hlen]
    rcases hal : alloc inner len b with ⟨e | ptr, b'⟩
    · rwa [hal] at halloc
    · rw [hal] at halloc
      refine halloc.before ?_
      rcases Core.store_cases [.bytes ptr bytes] b'.core with ⟨memory, hst⟩ | ⟨e, hst⟩
      · simp only [hst]
        exact .quiet (.of_eq rfl rfl rfl rfl) (.refl _) id
      · simp only [hst]
        exact .refl

theorem submitEquation_leads (hi : Follows p inner tell) (text : String) (b : Bench G C)
    (ha : ∀ len, top (.allocated len)) (hc : ∀ ptr len, top (.called (.equation ptr len))) :
    Leads p top [] b (Teller.submitEquation inner tell text b) []
      ((platform inner).submitEquation text b).2 := by
  unfold Teller.submitEquation
  by_cases hp : b.core.bridge.phase = .running
  · have hcopy := copyToGuest_leads (p := p) hi (Text.utf8 text) b ha
    rw [if_pos hp]
    rcases hr : (platform inner).copyToGuest (Text.utf8 text) b with ⟨e | ⟨ptr, len⟩ | _, b'⟩
    · rw [submitEquation_of_error hp hr]
      rw [hr] at hcopy
      exact hcopy.trans .refl
    · rw [submitEquation_of_copied hp hr rfl]
      rw [hr] at hcopy
      exact hcopy.trans (callGuest_leads hi _ _ (hc ptr len))
    · rw [submitEquation_of_empty hp hr]
      rw [hr] at hcopy
      simp only [List.append_nil]
      exact hcopy.before (leads_log _ _ _ _)
  · rw [if_neg hp, submitEquation_of_idle hp]
    exact .refl

/-! ## Capabilities -/

theorem onCore_leads {α : Type} {x : Action (Core G) α} (h : ∀ c, (x c).2 = c) (b : Bench G C) :
    Leads p top [] b [] [] ((platform inner).onCore x b).2 := by
  have hb : ((platform inner).onCore x b).2 = { b with core := (x b.core).2 } := rfl
  rw [hb, h]
  exact .refl

theorem performCapability_leads (c : Capability) (b : Bench G C) (hp : top (.performed c))
    (ha : ∀ fetch, top (.accepted fetch)) :
    Leads p top [] b (Teller.capability c b) [] ((platform inner).perform c b).2 := by
  unfold Teller.capability Platform.perform
  rcases hr : c.run b.core with ⟨r, core⟩
  by_cases hf : ∃ fetch, r = .ok (.accepted fetch)
  · obtain ⟨fetch, rfl⟩ := hf
    rw [Attempt.bind_of_ok (onCore_eq hr)]
    intro held loads copying hg _ hperm
    refine ⟨_, .single (.accepted c hr), .one (ha fetch) id, ?_, hg⟩
    have h := hperm.append_right [⟨fetch, (b.images.lookup fetch.request.url).isSome⟩]
    rwa [List.append_assoc (held ++ [])] at h
  · have hcore : Leads p top [] b [.performed c] [] ({ b with core } : Bench G C) := by
      refine .happens (h := .performed c) (fun loads copying => ?_) hp id rfl rfl
      have h := Happens.performed (m := ⟨b, loads, copying⟩) c
        fun fetch he => hf ⟨fetch, by rwa [hr] at he⟩
      rwa [hr] at h
    cases r with
    | error e =>
      rw [Attempt.bind_of_error (onCore_eq hr)]
      exact hcore
    | ok result =>
      rw [Attempt.bind_of_ok (onCore_eq hr)]
      cases result with
      | accepted fetch => exact absurd ⟨fetch, rfl⟩ hf
      | _ => exact hcore

end GuestBridge.Bench
