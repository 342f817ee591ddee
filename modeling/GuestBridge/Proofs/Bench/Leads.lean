import GuestBridge.Proofs.Bench.Teller

/-!
# Ways between benches

`Leads p top out b hs out' b'` is a way from bench `b` to bench `b'` on which `hs` happens, begun
while the tasks `out` are off the queue and ended with the tasks `out'` off it: `hs` is a history,
and a course (`Course`) in which the happenings of the guest's steps come from steps with `p`.
Entering the guest is such a way, on which happens what is told of it (`Teller.interlude`), if the
steps that it may take are (`Follows`, `interlude_leads`).
-/

set_option autoImplicit false

namespace GuestBridge.Bench

variable {G C : Type} [GraphicsContext G]

/-! ## Ways -/

section

variable {p : Step C → Prop} {top top' : Happening → Prop} {out out' out'' : List Task}
  {b b' b'' : Bench G C} {hs hs' : List Happening}

def Leads (p : Step C → Prop) (top : Happening → Prop) (out : List Task) (b : Bench G C)
    (hs : List Happening) (out' : List Task) (b' : Bench G C) : Prop :=
  ∀ held loads copying, b.guest.All p → b.Sound → (held ++ out ++ b.tasks).Perm loads →
    ∃ loads', History ⟨b, loads, copying⟩ hs ⟨b', loads', copying⟩ ∧
      Course top (Happening.Within p) hs ∧ (held ++ out' ++ b'.tasks).Perm loads' ∧
      b'.guest.All p

namespace Leads

theorem refl : Leads p top out b [] out b := fun _ loads _ hg _ hp =>
  ⟨loads, .refl, .nil, hp, hg⟩

/-- The second way may rely on the guest that the bridge had before the first. -/
theorem trans_attached (h : Leads p top out b hs out' b')
    (h' : (b.core.bridge.attached = true → b'.core.bridge.attached = true) →
      Leads p top out' b' hs' out'' b'') : Leads p top out b (hs ++ hs') out'' b'' := by
  intro held loads copying hg hs hp
  obtain ⟨loads₁, h₁, hc₁, hp₁, hg₁⟩ := h held loads copying hg hs hp
  obtain ⟨loads₂, h₂, hc₂, hp₂, hg₂⟩ :=
    h' h₁.attached_of_attached held loads₁ copying hg₁ (h₁.sound hs) hp₁
  exact ⟨loads₂, h₁.trans h₂, hc₁.append hc₂, hp₂, hg₂⟩

theorem trans (h : Leads p top out b hs out' b') (h' : Leads p top out' b' hs' out'' b'') :
    Leads p top out b (hs ++ hs') out'' b'' :=
  h.trans_attached fun _ => h'

/-- Nothing happens on the first way. -/
theorem after (h : Leads p top out b [] out' b') (h' : Leads p top out' b' hs out'' b'') :
    Leads p top out b hs out'' b'' :=
  h.trans h'

/-- Nothing happens on the second way. -/
theorem before (h : Leads p top out b hs out' b') (h' : Leads p top out' b' [] out'' b'') :
    Leads p top out b hs out'' b'' := by
  rw [← List.append_nil hs]
  exact h.trans h'

theorem mono (h : Leads p top out b hs out' b') (ht : ∀ h, top h → top' h) :
    Leads p top' out b hs out' b' := by
  intro held loads copying hg hs hp
  obtain ⟨loads', hh, hc, hp, hg⟩ := h held loads copying hg hs hp
  exact ⟨loads', hh, hc.mono ht, hp, hg⟩

/-- What happens on a way is a history, whatever steps the guest takes. -/
theorem history (h : Leads (fun _ => True) top [] b hs [] b') (hb : b.Sound) :
    ∃ loads, History ⟨b, b.tasks, []⟩ hs ⟨b', loads, []⟩ ∧ b'.tasks.Perm loads := by
  have hall : b.guest.All fun _ => True := fun entry _ =>
    Step.allIn_of_forall (fun _ => trivial) entry.2
  obtain ⟨loads, hh, -, hp, -⟩ := h [] b.tasks [] hall hb (.refl _)
  exact ⟨loads, hh, hp⟩

/-- A bridge that has a guest keeps it on every way. -/
theorem attached (h : Leads (fun _ => True) top [] b hs [] b')
    (ha : b.core.bridge.attached = true) : b'.core.bridge.attached = true := by
  obtain ⟨loads, hh, -⟩ := h.history fun _ => ha
  exact hh.attached_of_attached ha

/-- A way from a bench may rely on it being sound. -/
theorem of_sound (h : b.Sound → Leads p top out b hs out' b') : Leads p top out b hs out' b' :=
  fun held loads copying hg hs hp => h hs held loads copying hg hs hp

/-- More tasks may be off the queue all the way. -/
theorem frame (more : List Task) (h : Leads p top out b hs out' b') :
    Leads p top (more ++ out) b hs (more ++ out') b' := by
  intro held loads copying hg hs hp
  rw [← List.append_assoc] at hp
  obtain ⟨loads', hh, hc, hp, hg⟩ := h (held ++ more) loads copying hg hs hp
  rw [List.append_assoc held] at hp
  exact ⟨loads', hh, hc, hp, hg⟩

theorem perm {more more' : List Task} (h : Leads p top out b hs out' b') (ho : more.Perm out)
    (ho' : more'.Perm out') : Leads p top more b hs more' b' := by
  intro held loads copying hg hs hp
  obtain ⟨loads', hh, hc, hp, hg⟩ := h held loads copying hg hs
    ((((ho.symm.append_left held).append_right _)).trans hp)
  exact ⟨loads', hh, hc, ((ho'.append_left held).append_right _).trans hp, hg⟩

/-- What only the guest's steps cause is a course whatever the step itself may cause. -/
theorem inner (h : Leads p (Happening.Within p) out b hs out' b') :
    Leads p top out b hs out' b' := by
  intro held loads copying hg hs hp
  obtain ⟨loads', hh, hc, hp, hg⟩ := h held loads copying hg hs hp
  exact ⟨loads', hh, .inner (hc.forall_of (fun _ h => h) fun _ h => h), hp, hg⟩

theorem quiet (hq : Quiet b b') (ht : (out ++ b.tasks).Perm (out' ++ b'.tasks))
    (hg : b.guest.All p → b'.guest.All p) : Leads p top out b [] out' b' := by
  intro held loads copying hga _ hp
  refine ⟨loads, .of_quiet hq, .nil, ?_, hg hga⟩
  rw [List.append_assoc] at hp ⊢
  exact (ht.symm.append_left held).trans hp

/-- Something happens that concerns neither the loads nor the images being copied. -/
theorem happens {h : Happening} (hh : ∀ loads copying,
      Happens (⟨b, loads, copying⟩ : Moment G C) h ⟨b', loads, copying⟩)
    (ht : top h) (hc : ¬ h.IsCopying) (htasks : b'.tasks = b.tasks)
    (hguest : b'.guest = b.guest) : Leads p top out b [h] out b' := by
  intro held loads copying hg _ hp
  refine ⟨loads, .single (hh loads copying), .one ht hc, ?_, ?_⟩
  · rw [htasks]
    exact hp
  · rw [hguest]
    exact hg

omit [GraphicsContext G] in
theorem perm_erase_of_perm {held tasks loads : List Task} {t : Task}
    (h : (held ++ [t] ++ tasks).Perm loads) :
    t ∈ loads ∧ (held ++ [] ++ tasks).Perm (loads.erase t) := by
  have ht : t ∈ loads := h.mem_iff.1 (by simp)
  have hp : (held ++ [t] ++ tasks).Perm (t :: (held ++ [] ++ tasks)) := by
    simp only [List.append_assoc, List.nil_append, List.singleton_append]
    exact List.perm_middle
  exact ⟨ht, (hp.symm.trans (h.trans (List.perm_cons_erase ht))).cons_inv⟩

/-- A load is taken up with nothing to copy. -/
theorem takenUp {t : Task} {h : Happening} (hh : ∀ loads copying, t ∈ loads →
      Happens (⟨b, loads, copying⟩ : Moment G C) h ⟨b', loads.erase t, copying⟩)
    (ht : top h) (hc : ¬ h.IsCopying) (htasks : b'.tasks = b.tasks)
    (hguest : b'.guest = b.guest) : Leads p top [t] b [h] [] b' := by
  intro held loads copying hg _ hp
  obtain ⟨hmem, herase⟩ := perm_erase_of_perm hp
  refine ⟨_, .single (hh loads copying hmem), .one ht hc, ?_, ?_⟩
  · rw [htasks]
    exact herase
  · rw [hguest]
    exact hg

/-- A load is taken up and its image copied, with steps of the guest in between. -/
theorem copy {t : Task} {fetch : Accepted} {image : DecodedImage} {last : Happening}
    {b₁ b₂ : Bench G C}
    (hask : ∀ loads copying, t ∈ loads → Happens (⟨b, loads, copying⟩ : Moment G C)
      (.asked fetch image) ⟨b₁, loads.erase t, (fetch, image) :: copying⟩)
    (hnested : Leads p (Happening.Within p) [] b₁ hs [] b₂)
    (hlast : ∀ loads copying, Happens (⟨b₂, loads, (fetch, image) :: copying⟩ : Moment G C)
      last ⟨b', loads, copying⟩)
    (he : last.EndsCopy fetch image) (ha : top (.asked fetch image)) (hl : top last)
    (htasks : b₁.tasks = b.tasks ∧ b'.tasks = b₂.tasks)
    (hguest : b₁.guest.interludes = b.guest.interludes ∧
      b'.guest.interludes = b₂.guest.interludes) :
    Leads p top [t] b (.asked fetch image :: hs ++ [last]) [] b' := by
  intro held loads copying hg hs hp
  obtain ⟨hmem, herase⟩ := perm_erase_of_perm hp
  have hasked := hask loads copying hmem
  have hg₁ : b₁.guest.All p := by
    unfold Guest.All at hg ⊢
    rwa [hguest.1]
  obtain ⟨loads', hh, hcourse, hperm, hg₂⟩ := hnested held (loads.erase t)
    ((fetch, image) :: copying) hg₁ (hasked.sound hs) (by rwa [htasks.1])
  refine ⟨loads', ((History.single hasked).trans hh).snoc (hlast loads' copying), ?_, ?_, ?_⟩
  · exact .copy ha (hcourse.forall_of (fun _ h => h) fun _ h => h) hl he
  · rwa [htasks.2]
  · unfold Guest.All at hg₂ ⊢
    rwa [hguest.2]

end Leads

end

/-! ## The guest -/

section

variable {p : Step C → Prop} {top : Happening → Prop} {inner : Performer G C} {tell : Teller G C}

/-- On every step that the guest may take, what is told of it is what happens. -/
def Follows (p : Step C → Prop) (inner : Performer G C) (tell : Teller G C) : Prop :=
  ∀ step b, p step → step.AllBelow p →
    Leads p (Happening.Within p) [] b (tell step b) [] (inner step b).2

omit [GraphicsContext G] in
theorem quiet_note (b : Bench G C) {e : Event} (he : e.isQuiet) : Quiet b (b.note e) :=
  ⟨rfl, rfl, rfl, [e], by simp [note, Core.note], by simpa using he⟩

theorem leads_note (b : Bench G C) {e : Event} (he : e.isQuiet) :
    Leads p top [] b [] [] (b.note e) :=
  .quiet (quiet_note b he) (.refl _) id

theorem takeSteps_leads (hi : Follows p inner tell) (steps : List (Step C)) (b : Bench G C)
    (hs : Step.AllIn p steps) :
    Leads p top [] b (Teller.takeSteps inner tell steps b) [] (takeSteps inner steps b) := by
  induction steps generalizing b with
  | nil => exact .refl
  | cons step rest ih =>
    obtain ⟨hp, hb, hr⟩ := hs
    exact ((hi step b hp hb).inner.before (leads_note _ rfl)).trans (ih _ hr)

omit [GraphicsContext G] in
theorem interlude_eq (name : String) (b : Bench G C) :
    interlude inner name b = { takeSteps inner (b.guest.interludes.take name).1 (b.enter name) with
      entered := b.entered } := rfl

omit [GraphicsContext G] in
theorem Quiet.of_eq {b b' : Bench G C} (hd : b'.deferred = b.deferred) (ho : b'.owned = b.owned)
    (hb : b'.core.bridge = b.core.bridge) (hj : b'.core.journal = b.core.journal) : Quiet b b' :=
  ⟨hd, ho, hb, [], by rw [hj, List.append_nil], by simp⟩

theorem interlude_leads (hi : Follows p inner tell) (name : String) (b : Bench G C) :
    Leads p top [] b (Teller.interlude inner tell name b) [] (interlude inner name b) := by
  intro held loads copying hg hs hp
  obtain ⟨hsteps, hrest⟩ := hg.take name
  have h₁ : Leads p top [] b [] [] (b.enter name) :=
    .quiet (.of_eq rfl rfl rfl rfl) (.refl _) fun _ => hrest
  have h₂ : Leads p top [] (takeSteps inner (b.guest.interludes.take name).1 (b.enter name)) [] []
      (interlude inner name b) := by
    rw [interlude_eq]
    exact .quiet (.of_eq rfl rfl rfl rfl) (.refl _) id
  exact ((h₁.after (takeSteps_leads hi _ _ hsteps)).before h₂) held loads copying hg hs hp

omit [GraphicsContext G] in
theorem call_eq (entry : EntryPoint) (b : Bench G C) :
    (call inner entry b).2 = interlude inner entry.exportName (b.note (.call entry)) := by
  unfold call
  simp only
  split <;> rfl

omit [GraphicsContext G] in
theorem alloc_eq (len : UInt32) (b : Bench G C) :
    alloc inner len b = grant len (interlude inner allocatorExport (b.note (.alloc len))) := rfl

theorem grant_leads (len : UInt32) (b : Bench G C) : Leads p top [] b [] [] (grant len b).2 := by
  unfold grant
  split
  · exact .quiet (.of_eq rfl rfl rfl rfl) (.refl _) id
  · exact .quiet (.of_eq rfl rfl rfl rfl) (.refl _) id

theorem alloc_leads (hi : Follows p inner tell) (len : UInt32) (b : Bench G C)
    (ht : top (.allocated len)) :
    Leads p top [] b (Teller.alloc inner tell len b) [] (alloc inner len b).2 := by
  have h : Leads p top [] b [.allocated len] [] (b.note (.alloc len)) :=
    .happens (fun _ _ => .allocated len) ht id rfl rfl
  rw [alloc_eq]
  exact (h.trans (interlude_leads hi _ _)).before (grant_leads _ _)

end

end GuestBridge.Bench
