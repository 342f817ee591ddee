import GuestBridge.Proofs.Bench.Entries

/-!
# Ways along the queues

Letting the host poll its tasks and run its completions are ways between benches: each load that
is taken up either ends there or is copied (`complete_leads`), and each completion either tells
the guest or is dropped (`handle_leads`).
-/

set_option autoImplicit false

namespace GuestBridge.Bench

variable {G C : Type} [GraphicsContext G] {p : Step C → Prop} {top : Happening → Prop}
  {inner : Performer G C} {tell : Teller G C}

/-! ## Loads -/

omit [GraphicsContext G] in
theorem complete_eq (fetch : Accepted) (result : Except FetchError DecodedImage) (b : Bench G C) :
    (platform inner).complete fetch result b =
      let b₁ := b.withBridge (·.settle fetch.id)
      if b.core.bridge.isCancelled fetch.id then
        (platform inner).log .debug Log.Target.fetch
          s!"dropping cancelled fetch of `{fetch.request.url}`" b₁
      else
        match result with
        | .ok image => (platform inner).copyImage fetch image b₁
        | .error e => (platform inner).log .error Log.Target.fetch e.message b₁ := rfl

omit [GraphicsContext G] in
/-- A load that has come back and leaves nothing to copy is only logged. -/
theorem complete_of_ending (inner : Performer G C) {fetch : Accepted}
    {result : Except FetchError DecodedImage} {b : Bench G C} {why : Ending}
    (h : ending? b.core.bridge fetch.id result = some why) :
    ∃ level target text, (platform inner).complete fetch result b =
      (platform inner).log level target text (b.withBridge (·.settle fetch.id)) := by
  rw [complete_eq]
  simp only
  unfold ending? at h
  by_cases hcan : b.core.bridge.isCancelled fetch.id
  · rw [if_pos hcan]
    exact ⟨_, _, _, rfl⟩
  · rw [if_neg hcan] at h ⊢
    cases result with
    | error e => exact ⟨_, _, _, rfl⟩
    | ok image =>
      have hno : (b.withBridge (·.settle fetch.id)).core.bridge.attached = false ∨
          image.pixels.isEmpty = true ∨ ∃ e, Store.guestLen image.pixels = .error e := by
        simp only at h
        split at h
        · exact .inl ‹_›
        · split at h
          · exact .inr (.inl ‹_›)
          · split at h
            · exact .inr (.inr ⟨_, ‹_›⟩)
            · cases h
      obtain ⟨r, hr, hn⟩ := copyToGuest_of_not inner hno
      simp only [Platform.copyImage, hr]
      rcases r with e | ⟨ptr, len⟩ | _
      · exact ⟨_, _, _, rfl⟩
      · exact absurd rfl (hn ptr len)
      · exact ⟨_, _, _, rfl⟩

omit [GraphicsContext G] in
theorem guestLen_eq_ok {bytes : List UInt8} {len : UInt32} (h : Store.guestLen bytes = .ok len) :
    len = .ofNat bytes.length := by
  unfold Store.guestLen at h
  split at h
  · exact (Except.ok.inj h).symm
  · cases h

omit [GraphicsContext G] in
theorem ending_eq_none {b : Bridge} {id : Nat} {image : DecodedImage}
    (h : ending? b id (.ok image) = none) :
    b.isCancelled id = false ∧ b.attached = true ∧ image.pixels.isEmpty = false ∧
      Store.guestLen image.pixels = .ok (.ofNat image.pixels.length) := by
  by_cases hc : b.isCancelled id = true
  · simp [ending?, hc] at h
  by_cases ha : b.attached = false
  · simp [ending?, hc, ha] at h
  by_cases he : image.pixels.isEmpty = true
  · simp [ending?, hc, ha, he] at h
  cases hl : Store.guestLen image.pixels with
  | error e => simp [ending?, hc, ha, he, hl] at h
  | ok len =>
    refine ⟨by simpa using hc, by simpa using ha, by simpa using he, ?_⟩
    rw [guestLen_eq_ok hl]

omit [GraphicsContext G] in
/-- Where nothing ends a fetch whose load has come back, its image is copied. -/
theorem complete_of_image (inner : Performer G C) {fetch : Accepted}
    {result : Except FetchError DecodedImage} {b : Bench G C}
    (h : ending? b.core.bridge fetch.id result = none) :
    ∃ image, result = .ok image ∧ (platform inner).complete fetch result b =
      (platform inner).copyImage fetch image (b.withBridge (·.settle fetch.id)) := by
  cases result with
  | ok image =>
    refine ⟨image, rfl, ?_⟩
    rw [complete_eq]
    simp [(ending_eq_none h).1]
  | error e =>
    unfold ending? at h
    split at h <;> cases h

theorem copyImage_of_error {fetch : Accepted} {image : DecodedImage} {b b' : Bench G C}
    {e : BridgeError} (h : (platform inner).copyToGuest image.pixels b = (.error e, b')) :
    Leads p top [] b' [] [] ((platform inner).copyImage fetch image b) := by
  simp only [Platform.copyImage, h]
  exact leads_log _ _ _ _

/-- Once the guest has taken its steps in the allocator, the copy is made or fails. -/
theorem copyImage_ends (inner : Performer G C) (fetch : Accepted) {image : DecodedImage}
    {b : Bench G C} (ha : b.core.bridge.attached = true) (he : image.pixels.isEmpty = false)
    (hl : Store.guestLen image.pixels = .ok (.ofNat image.pixels.length)) :
    let b₁ := interlude inner allocatorExport (b.note (.alloc (.ofNat image.pixels.length)))
    ∃ b₂, (∀ loads copying, Happens (⟨b₁, loads, (fetch, image) :: copying⟩ : Moment G C)
        (Teller.endOfCopy fetch image ((platform inner).copyToGuest image.pixels b).1)
        ⟨b₂, loads, copying⟩) ∧
      b₂.tasks = b₁.tasks ∧ b₂.guest.interludes = b₁.guest.interludes ∧
      Leads p top [] b₂ [] [] ((platform inner).copyImage fetch image b) := by
  intro b₁
  have hal : alloc inner (.ofNat image.pixels.length) b =
    grant (.ofNat image.pixels.length) b₁ := rfl
  have hcopy := copyToGuest_eq inner ha he hl
  rw [hal] at hcopy
  rcases hgr : grant (.ofNat image.pixels.length) b₁ with ⟨r, b₂⟩
  obtain ⟨guest, memory, hb, hguest⟩ := of_grant hgr
  have htasks : b₂.tasks = b₁.tasks := by rw [hb]
  have hguest : b₂.guest.interludes = b₁.guest.interludes := by rw [hb, hguest]
  rw [hgr] at hcopy
  cases r with
  | error e =>
    refine ⟨b₂, fun _ _ => ?_, htasks, hguest, copyImage_of_error hcopy⟩
    rw [hcopy]
    exact .failed rfl hgr nofun
  | ok ptr =>
    rcases Core.store_cases [.bytes ptr image.pixels] b₂.core with ⟨memory, hs⟩ | ⟨e, hs⟩
    · simp only [hs] at hcopy
      let stored : Bench G C := { b₂ with core.memory := memory }
      refine ⟨stored.defer (completion fetch image ptr), fun _ _ => ?_, htasks, hguest, ?_⟩
      · rw [hcopy]
        exact .copied rfl hgr hs
      · simp only [Platform.copyImage, hcopy]
        exact .refl
    · simp only [hs] at hcopy
      refine ⟨b₂, fun _ _ => ?_, htasks, hguest, copyImage_of_error hcopy⟩
      rw [hcopy]
      refine .failed rfl hgr ?_
      rintro ptr' ⟨⟩
      exact ⟨e, hs⟩

theorem complete_leads_of_image (hi : Follows p inner tell) {t : Task}
    {result : Except FetchError DecodedImage} {b : Bench G C} (hl : b.isAlive = true)
    (hr : b.result? t = some result) (he : ending? b.core.bridge t.fetch.id result = none)
    (ht : ∀ h, h.IsLoad → top h) :
    Leads p top [t] b (Teller.complete inner tell t.fetch result b) []
      ((platform inner).complete t.fetch result b) := by
  obtain ⟨image, rfl, hcomplete⟩ := complete_of_image inner he
  obtain ⟨-, ha, hne, hlen⟩ := ending_eq_none he
  obtain ⟨b₂, hlast, htasks, hguest, hcopy⟩ :=
    copyImage_ends inner t.fetch (b := b.withBridge (·.settle t.fetch.id)) ha hne hlen
  have hends := Teller.endsCopy_endOfCopy t.fetch image
    ((platform inner).copyToGuest image.pixels (b.withBridge (·.settle t.fetch.id))).1
  unfold Teller.complete
  rw [hcomplete, he]
  refine Leads.before ?_ hcopy
  exact .copy (fun _ _ hmem => .asked hmem hl hr he) (interlude_leads hi allocatorExport _) hlast
    hends (ht _ trivial) (ht _ (Happening.isLoad_of_endsCopy hends)) ⟨rfl, htasks⟩ ⟨rfl, hguest⟩

theorem complete_leads_of_ending {t : Task} {result : Except FetchError DecodedImage}
    {b : Bench G C} {why : Ending} (hl : b.isAlive = true) (hr : b.result? t = some result)
    (he : ending? b.core.bridge t.fetch.id result = some why) (ht : ∀ h, h.IsLoad → top h) :
    Leads p top [t] b (Teller.complete inner tell t.fetch result b) []
      ((platform inner).complete t.fetch result b) := by
  obtain ⟨level, target, text, hc⟩ := complete_of_ending inner he
  have h : Leads p top [t] b [.ended t.fetch why] [] (b.withBridge (·.settle t.fetch.id)) :=
    .takenUp (fun _ _ hmem => .ended hmem hl hr he) (ht _ trivial) id rfl rfl
  unfold Teller.complete
  rw [hc, he]
  exact h.before (leads_log _ _ _ _)

theorem complete_leads (hi : Follows p inner tell) {t : Task}
    {result : Except FetchError DecodedImage} {b : Bench G C} (hl : b.isAlive = true)
    (hr : b.result? t = some result) (ht : ∀ h, h.IsLoad → top h) :
    Leads p top [t] b (Teller.complete inner tell t.fetch result b) []
      ((platform inner).complete t.fetch result b) := by
  rcases he : ending? b.core.bridge t.fetch.id result with _ | why
  · exact complete_leads_of_image hi hl hr he ht
  · exact complete_leads_of_ending hl hr he ht

theorem takeUp_leads (hi : Follows p inner tell) {t : Task}
    {result : Except FetchError DecodedImage} {b : Bench G C} (hr : b.result? t = some result)
    (ht : ∀ h, h.IsLoad → top h) :
    Leads p top [t] b (Teller.takeUp inner tell t result b) [] (takeUp inner t result b) := by
  unfold Teller.takeUp takeUp
  by_cases hl : b.isAlive = true
  · rw [if_pos hl, if_pos hl]
    exact complete_leads hi hl hr ht
  · rw [if_neg hl, if_neg hl]
    exact .takenUp (fun _ _ hmem => .lost hmem (by simpa using hl)) (ht _ trivial) id rfl rfl

theorem pollEach_leads (hi : Follows p inner tell) (ht : ∀ h, h.IsLoad → top h) (ts : List Task)
    (b : Bench G C) :
    Leads p top ts b (Teller.pollEach inner tell ts b) (pollEach inner ts b).1
      (pollEach inner ts b).2.2 := by
  induction ts generalizing b with
  | nil => exact .refl
  | cons t rest ih =>
    rcases hr : b.result? t with _ | result
    · rw [pollEach_cons_of_none hr, Teller.pollEach]
      simp only [hr]
      exact (ih b).frame [t]
    · rw [pollEach_cons_of_some hr, Teller.pollEach]
      simp only [hr]
      have h : Leads p top ([t] ++ rest) b (Teller.takeUp inner tell t result b) rest
          (takeUp inner t result b) := by
        have ho : ([t] ++ rest).Perm (rest ++ [t]) := List.perm_append_comm
        have ho' : rest.Perm (rest ++ []) := by rw [List.append_nil]
        exact ((takeUp_leads hi hr ht).frame rest).perm ho ho'
      exact h.trans (ih _)

theorem poll_leads (hi : Follows p inner tell) (ht : ∀ h, h.IsLoad → top h) (b : Bench G C) :
    Leads p top [] b (Teller.pollEach inner tell b.tasks { b with tasks := [] }) []
      (poll inner b).2 := by
  have h₁ : Leads p top [] b [] b.tasks { b with tasks := [] } :=
    .quiet (.of_eq rfl rfl rfl rfl) (by simp) id
  have h₂ := pollEach_leads (p := p) hi ht b.tasks { b with tasks := [] }
  unfold poll
  rcases hp : pollEach inner b.tasks { b with tasks := [] } with ⟨waiting, ended, b'⟩
  rw [hp] at h₂
  have h₃ : Leads p top waiting b' [] [] { b' with tasks := waiting ++ b'.tasks } :=
    .quiet (.of_eq rfl rfl rfl rfl) (.refl _) id
  exact (h₁.after h₂).before h₃

theorem runTasksFor_leads (hi : Follows p inner tell) (ht : ∀ h, h.IsLoad → top h) (n : Nat)
    (b : Bench G C) :
    Leads p top [] b (Teller.runTasksFor inner tell n b) [] (runTasksFor inner n b) := by
  induction n generalizing b with
  | zero => exact .refl
  | succ n ih =>
    have h := poll_leads (p := p) hi ht b
    rw [runTasksFor_succ, Teller.runTasksFor]
    rcases hp : poll inner b with ⟨_ | _, b'⟩
    · rw [hp] at h
      exact h.trans .refl
    · rw [hp] at h
      exact h.trans (ih b')

theorem runTasks_leads (hi : Follows p inner tell) (ht : ∀ h, h.IsLoad → top h) (b : Bench G C) :
    Leads p top [] b (Teller.runTasks inner tell b) [] (runTasks inner b) :=
  runTasksFor_leads hi ht _ b

/-! ## Completions -/

omit [GraphicsContext G] in
theorem omission_eq_none {b : Bench G C} {c : Completion} (h : omission? b c = none) :
    b.isAlive = true ∧ b.core.bridge.isCancelled c.request = false ∧
      b.core.bridge.admits c.entry = true ∧ b.core.bridge.attached = true := by
  by_cases hl : b.isAlive = false
  · simp [omission?, hl] at h
  by_cases hc : b.core.bridge.isCancelled c.request = true
  · simp [omission?, hl, hc] at h
  by_cases hr : b.core.bridge.admits c.entry = false ∨ b.core.bridge.attached = false
  · rw [omission?, if_neg hl, if_neg hc, if_pos hr] at h
    cases h
  · exact ⟨by simpa using hl, by simpa using hc, by simpa [not_or] using hr⟩

omit [GraphicsContext G] in
theorem deliver_of_isCancelled {c : Completion} {b : Bench G C}
    (hc : b.core.bridge.isCancelled c.request = true) : (platform inner).deliver c b = b :=
  if_pos hc

omit [GraphicsContext G] in
theorem deliver_eq (c : Completion) (b : Bench G C) :
    (platform inner).deliver c b =
      if b.core.bridge.isCancelled c.request then b
      else
        let called := (platform inner).callGuest c.entry b
        match called.1 with
        | .ok _ => called.2
        | .error e =>
          let url := ((b.core.bridge.requests[c.request]?).map (·.url)).getD ""
          (platform inner).log .error Log.Target.fetch
            s!"fetch completion for `{url}` failed: {e.message}" called.2 := by
  unfold Platform.deliver
  rcases (platform inner).callGuest c.entry b with ⟨_ | _, _⟩ <;> rfl

omit [GraphicsContext G] in
/-- What a completion does is what its call does, and perhaps a line in the log. -/
theorem deliver_of_callGuest (inner : Performer G C) {c : Completion} {b b' : Bench G C}
    (hc : b.core.bridge.isCancelled c.request = false)
    (h : ((platform inner).callGuest c.entry b).2 = b') :
    (platform inner).deliver c b = b' ∨ ∃ level target text,
      (platform inner).deliver c b = (platform inner).log level target text b' := by
  have hn : ¬ ((platform inner).core b).bridge.isCancelled c.request = true := by
    show ¬ b.core.bridge.isCancelled c.request = true
    simp [hc]
  subst h
  unfold Platform.deliver
  simp only [if_neg hn]
  rcases (platform inner).callGuest c.entry b with ⟨r, b'⟩
  cases r with
  | ok => exact .inl rfl
  | error e => exact .inr ⟨_, _, _, rfl⟩

omit [GraphicsContext G] in
/-- A completion that is dropped though its fetch is not cancelled does not enter the guest. -/
theorem callGuest_of_omission {c : Completion} {b : Bench G C} {why : Omission}
    (hl : b.isAlive = true) (hc : ¬ b.core.bridge.isCancelled c.request = true)
    (ho : omission? b c = some why) : ((platform inner).callGuest c.entry b).2 = b := by
  have hr : b.core.bridge.admits c.entry = false ∨ b.core.bridge.attached = false := by
    by_contra hn
    rw [omission?, if_neg (by simp [hl]), if_neg hc, if_neg hn] at ho
    cases ho
  rw [callGuest_eq]
  rcases hr with hr | hr
  · rw [if_pos hr]
  · split
    · rfl
    · rfl

/-- Of a completion that is dropped nothing is left but a line in the log. -/
theorem deliver_of_omission {c : Completion} {b : Bench G C} {why : Omission}
    (hl : b.isAlive = true) (ho : omission? b c = some why) :
    Leads p top [] b [] [] ((platform inner).deliver c b) := by
  by_cases hc : b.core.bridge.isCancelled c.request = true
  · rw [deliver_of_isCancelled hc]
    exact .refl
  · rcases deliver_of_callGuest inner (by simpa using hc) (callGuest_of_omission hl hc ho) with
      hd | ⟨level, target, text, hd⟩
    · rw [hd]
      exact .refl
    · rw [hd]
      exact leads_log _ _ _ _

theorem deliver_of_told (hi : Follows p inner tell) {c : Completion} {b : Bench G C}
    (ho : omission? b c = none) :
    Leads p top [] (b.note (.call c.entry))
      (Teller.interlude inner tell c.entry.exportName (b.note (.call c.entry))) []
      ((platform inner).deliver c b) := by
  obtain ⟨-, hc, hp, ha⟩ := omission_eq_none ho
  have hcall : ((platform inner).callGuest c.entry b).2 =
      interlude inner c.entry.exportName (b.note (.call c.entry)) := by
    rw [callGuest_eq, if_neg (by simp [hp]), if_neg (by simp [ha]), call_eq]
  have h : Leads p top [] (b.note (.call c.entry)) _ [] _ :=
    interlude_leads hi c.entry.exportName _
  rcases deliver_of_callGuest inner hc hcall with hd | ⟨level, target, text, hd⟩
  · rw [hd]
    exact h
  · rw [hd]
    exact h.before (leads_log _ _ _ _)

theorem handle_leads (hi : Follows p inner tell) (ht : ∀ h, h.IsDelivery → top h) {c : Completion}
    {rest : List Completion} {b : Bench G C} (hd : b.deferred = c :: rest) :
    Leads p top [] b (Teller.handle inner tell c { b with deferred := rest }) []
      (handle inner c { b with deferred := rest }) := by
  unfold Teller.handle handle
  rcases ho : omission? { b with deferred := rest } c with _ | why
  · have h : Leads p top [] b [.told c] []
        (({ b with deferred := rest } : Bench G C).note (.call c.entry)) :=
      .happens (fun _ _ => .told hd ho) (ht _ trivial) id rfl rfl
    rw [if_pos (omission_eq_none ho).1]
    exact h.trans (deliver_of_told hi ho)
  · have h : Leads p top [] b [.omitted c why] [] { b with deferred := rest } :=
      .happens (fun _ _ => .omitted hd ho) (ht _ trivial) id rfl rfl
    by_cases hl : ({ b with deferred := rest } : Bench G C).isAlive = true
    · rw [if_pos hl]
      exact h.before (deliver_of_omission hl ho)
    · rw [if_neg hl]
      exact h

theorem runOneDeferred_leads (hi : Follows p inner tell) (ht : ∀ h, h.IsDelivery → top h)
    (b : Bench G C) :
    Leads p top [] b (Teller.runOneDeferred inner tell b) [] (runOneDeferred inner b).2 := by
  unfold Teller.runOneDeferred
  cases hd : b.deferred with
  | nil =>
    rw [runOneDeferred_of_nil hd]
    exact .refl
  | cons c rest =>
    rw [runOneDeferred_of_cons hd]
    exact handle_leads hi ht hd

theorem runDeferredFor_leads (hi : Follows p inner tell) (ht : ∀ h, h.IsDelivery → top h) (n : Nat)
    (b : Bench G C) :
    Leads p top [] b (Teller.runDeferredFor inner tell n b) [] (runDeferredFor inner n b) := by
  induction n generalizing b with
  | zero => exact .refl
  | succ n ih =>
    have h := runOneDeferred_leads (p := p) hi ht b
    unfold Teller.runDeferredFor runDeferredFor
    rcases hr : runOneDeferred inner b with ⟨_ | _, b'⟩
    · rw [hr] at h
      exact h.trans .refl
    · rw [hr] at h
      exact h.trans (ih b')

theorem runDeferred_leads (hi : Follows p inner tell) (ht : ∀ h, h.IsDelivery → top h)
    (b : Bench G C) :
    Leads p top [] b (Teller.runDeferred inner tell b) [] (runDeferred inner b) :=
  runDeferredFor_leads hi ht _ b

theorem runAllFor_leads (hi : Follows p inner tell) (hl : ∀ h, h.IsLoad → top h)
    (hd : ∀ h, h.IsDelivery → top h) (n : Nat) (b : Bench G C) :
    Leads p top [] b (Teller.runAllFor inner tell n b) [] (runAllFor inner n b) := by
  induction n generalizing b with
  | zero => exact .refl
  | succ n ih =>
    have h := runTasks_leads (p := p) hi hl b
    unfold Teller.runAllFor runAllFor
    simp only
    split
    · exact h.trans .refl
    · exact h.trans ((runDeferred_leads hi hd _).trans (ih _))

theorem runAll_leads (hi : Follows p inner tell) (hl : ∀ h, h.IsLoad → top h)
    (hd : ∀ h, h.IsDelivery → top h) (b : Bench G C) :
    Leads p top [] b (Teller.runAll inner tell b) [] (runAll inner b) :=
  runAllFor_leads hi hl hd _ b

end GuestBridge.Bench
