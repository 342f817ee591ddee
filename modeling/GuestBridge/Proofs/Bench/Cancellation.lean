import GuestBridge.Proofs.Bench.Deferral
import GuestBridge.Proofs.Bench.Rounds
import GuestBridge.Proofs.Bench.Shutdown
import GuestBridge.Proofs.Bench.Turns

/-!
# Fetches that are cancelled

A cancelled fetch stays cancelled, and each stage looks: when its load is taken up, nothing of it
reaches the guest's memory or its allocator (`takeUp_of_isCancelled`), and when its completion runs,
the guest is not told of it. What is being copied just when the fetch is cancelled is copied still;
if nothing was, nothing is from then on (`Barred`).
-/

set_option autoImplicit false

namespace GuestBridge.Bench

variable {G C : Type} [GraphicsContext G] {m n : Moment G C} {h : Happening} {id : Nat}

/-! ## Stages -/

omit [GraphicsContext G] in
/-- Taking up the load of a cancelled fetch leaves the guest alone, and its memory. -/
theorem takeUp_of_isCancelled (inner : Performer G C) {b : Bench G C} {t : Task}
    (hc : b.core.bridge.isCancelled t.fetch.id = true) (result : Except FetchError DecodedImage) :
    SparesGuest b (takeUp inner t result b) ∧
      (takeUp inner t result b).core.memory = b.core.memory := by
  unfold takeUp
  split
  · rw [complete_eq]
    simp only [hc, if_true]
    exact ⟨⟨entries_log .debug _ _ (b.withBridge (·.settle t.fetch.id)), rfl, rfl⟩, rfl⟩
  · exact ⟨⟨rfl, rfl, rfl⟩, rfl⟩

omit [GraphicsContext G] in
theorem isCancelled_of_cancel {b : Bench G C} (ha : id < b.core.bridge.requests.length) :
    (b.withBridge (·.cancel id)).core.bridge.isCancelled id = true := by
  show (b.core.bridge.cancel id).isCancelled id = true
  simp [Bridge.isCancelled_cancel, ha]

omit [GraphicsContext G] in
theorem hushed_cancel (ha : id < m.bench.core.bridge.requests.length) :
    Hushed id { m with bench := m.bench.withBridge (·.cancel id) } := by
  refine ⟨?_, fun _ _ _ => isCancelled_of_cancel ha⟩
  show (m.bench.core.bridge.cancel id).accepted? id ≠ none
  rw [Bridge.accepted?_cancel]
  exact (not_congr Bridge.accepted?_eq_none).2 (Nat.not_le.2 ha)

/-- A cancelled fetch stays cancelled. -/
theorem History.isCancelled_of_isCancelled {hs : List Happening} (hh : History m hs n)
    (hc : m.bench.core.bridge.isCancelled id = true) :
    n.bench.core.bridge.isCancelled id = true := by
  refine hh.keeps (fun t b hq ht => ?_) (fun _ _ _ now => now.isCancelled_of_isCancelled) hc
  show b.core.bridge.isCancelled id = true
  rw [hq.bridge]
  exact ht

/-! ## Copies -/

/-- A fetch is cancelled, and its image is not being copied. -/
structure Barred (id : Nat) (m : Moment G C) : Prop where
  cancelled : m.bench.core.bridge.isCancelled id = true
  copying (x : Accepted × DecodedImage) (hx : x ∈ m.copying) : x.1.id ≠ id

/-- Whether a happening begins or ends a copy for a fetch. -/
def Happening.Copies (id : Nat) (h : Happening) : Prop := h.IsCopying ∧ h.fetch? = some id

theorem Barred.step (hm : Barred id m) (hh : Happens m h n) : Barred id n ∧ ¬ h.Copies id := by
  have hcancelled := hh.isCancelled_of_isCancelled hm.cancelled
  have hsame (hc : n.copying = m.copying) (hi : ¬ h.IsCopying) : Barred id n ∧ ¬ h.Copies id :=
    ⟨⟨hcancelled, hc ▸ hm.copying⟩, fun h => hi h.1⟩
  have hrest {x : Accepted × DecodedImage} (hc : m.copying = x :: n.copying)
      (hf : h.fetch? = some x.1.id) : Barred id n ∧ ¬ h.Copies id := by
    refine ⟨⟨hcancelled, fun y hy => hm.copying y (hc ▸ .tail _ hy)⟩, fun h => ?_⟩
    exact hm.copying x (hc ▸ .head _) (Option.some.inj (hf.symm.trans h.2))
  cases hh with
  | asked ht hl hr he =>
    rename_i t image
    have hne : t.fetch.id ≠ id := by
      rintro rfl
      have hnot := (ending_eq_none he).1
      rw [hm.cancelled] at hnot
      cases hnot
    refine ⟨⟨hcancelled, fun x hx => ?_⟩, fun h => hne (Option.some.inj h.2)⟩
    rcases List.mem_cons.1 hx with rfl | hx
    · exact hne
    · exact hm.copying x hx
  | copied hc hg hs => exact hrest hc rfl
  | failed hc hg hs => exact hrest hc rfl
  | _ => exact hsame rfl nofun

/-- Nothing is copied any more for a fetch that is barred. -/
theorem History.not_copied_of_barred {hs : List Happening} (hh : History m hs n)
    (hm : Barred id m) : Barred id n ∧ ∀ h ∈ hs, ¬ h.Copies id := by
  induction hh with
  | refl => exact ⟨hm, nofun⟩
  | quiet before hq ih =>
    have hc := (History.of_quiet hq).isCancelled_of_isCancelled ih.1.cancelled
    exact ⟨⟨hc, ih.1.copying⟩, ih.2⟩
  | snoc before now ih =>
    obtain ⟨hb, hn⟩ := ih.1.step now
    refine ⟨hb, fun h hm => ?_⟩
    rcases List.mem_append.1 hm with hm | hm
    · exact ih.2 h hm
    · rw [List.mem_singleton.1 hm]
      exact hn

/-- An image is being copied only if its load was taken up. -/
theorem History.copying_of_takenUp {hs : List Happening} (hh : History m hs n)
    (hm : m.copying = []) (x : Accepted × DecodedImage) (hx : x ∈ n.copying) :
    ∃ h ∈ hs, h.takenUp? = some x.1.id := by
  induction hh with
  | refl =>
    rw [hm] at hx
    cases hx
  | quiet before hq ih => exact ih hx
  | snoc before now ih =>
    rename_i hs h t u
    have hold (hx : x ∈ t.copying) : ∃ h' ∈ hs ++ [h], h'.takenUp? = some x.1.id := by
      obtain ⟨h', hm', ht⟩ := ih hx
      exact ⟨h', List.mem_append_left _ hm', ht⟩
    cases now with
    | asked ht hl hr he =>
      rcases List.mem_cons.1 hx with rfl | hx
      · exact ⟨_, List.mem_append_right _ (.head _), rfl⟩
      · exact hold hx
    | copied hc hg hs | failed hc hg hs => exact hold (hc ▸ .tail _ hx)
    | _ => exact hold hx

end GuestBridge.Bench
