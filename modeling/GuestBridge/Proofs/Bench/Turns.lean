import GuestBridge.Proofs.Bench.Chronicle
import Mathlib.Data.List.Chain

/-!
# The order of completions

Completions are delivered first in, first out, so the guest is told of images in the order in
which they were copied (`History.told_sublist_copied`). A host that polls its tasks one at a time
(`OneAtATime`) has each image copied before it takes up the next load, so that the guest is told
of images in the order in which their loads came back (`History.told_sublist_takenUp`). A host
polls one task at a time as long as no guest polls tasks from inside a call
(`Course.oneAtATime`).
-/

set_option autoImplicit false

namespace GuestBridge.Bench

namespace Happening

/-- The fetch whose load is taken up. -/
def takenUp? : Happening → Option Nat
  | lost fetch | ended fetch _ | asked fetch _ => some fetch.id
  | _ => none

/-- The fetch whose image has been copied. -/
def copied? : Happening → Option Nat
  | copied fetch _ _ => some fetch.id
  | _ => none

/-- The fetch whose completion is taken off its queue. -/
def delivered? : Happening → Option Nat
  | told c | omitted c _ => some c.request
  | _ => none

/-- The fetch of whose image the guest is told. -/
def told? : Happening → Option Nat
  | told c => some c.request
  | _ => none

instance : DecidablePred IsLoad
  | lost _ | ended _ _ | asked _ _ | copied _ _ _ | failed _ _ => .isTrue trivial
  | performed _ | accepted _ | cancelled _ | shutDown | dropped | attached | started | frame _
  | called _ | allocated _ | told _ | omitted _ _ => .isFalse id

theorem isLoad_of_takenUp {h : Happening} {id : Nat} (ht : h.takenUp? = some id) : h.IsLoad := by
  cases h <;> trivial

theorem not_endsCopy_of_takenUp {h : Happening} {id : Nat} (ht : h.takenUp? = some id)
    (fetch : Accepted) (image : DecodedImage) : ¬ h.EndsCopy fetch image := by
  rintro (rfl | ⟨ptr, rfl⟩) <;> cases ht

end Happening

open Happening

/-! ## One at a time -/

/-- Once the allocator has been asked for room for an image, no load is dealt with before that
image is copied or the copy fails. -/
def OneAtATime (hs : List Happening) : Prop :=
  (hs.filter (·.IsLoad)).IsChain fun x y =>
    ∀ fetch image, x = .asked fetch image → y.EndsCopy fetch image

/-- The image for which the allocator was asked last, if the last load dealt with is its. -/
def underWay (hs : List Happening) : Option (Accepted × DecodedImage) :=
  match (hs.filter (·.IsLoad)).getLast? with
  | some (.asked fetch image) => some (fetch, image)
  | _ => none

theorem underWay_concat_of_not (hs : List Happening) {h : Happening} (hl : ¬ h.IsLoad) :
    underWay (hs ++ [h]) = underWay hs := by
  unfold underWay
  rw [List.filter_append, List.filter_singleton]
  simp [hl]

theorem underWay_asked (hs : List Happening) (fetch : Accepted) (image : DecodedImage) :
    underWay (hs ++ [.asked fetch image]) = some (fetch, image) := by
  have hl : (asked fetch image).IsLoad := trivial
  unfold underWay
  rw [List.filter_append, List.filter_singleton]
  simp [hl]

theorem underWay_concat_eq_none (hs : List Happening) {h : Happening} (hl : h.IsLoad)
    (hn : ∀ fetch image, h ≠ .asked fetch image) : underWay (hs ++ [h]) = none := by
  unfold underWay
  rw [List.filter_append, List.filter_singleton]
  simp only [hl, decide_true, cond_true, List.getLast?_concat]
  cases h <;> first | rfl | exact absurd rfl (hn _ _)

theorem OneAtATime.of_concat {hs : List Happening} {h : Happening}
    (ho : OneAtATime (hs ++ [h])) : OneAtATime hs := by
  unfold OneAtATime at ho ⊢
  rw [List.filter_append] at ho
  exact ho.left_of_append

theorem OneAtATime.endsCopy {hs : List Happening} {h : Happening} (ho : OneAtATime (hs ++ [h]))
    (hl : h.IsLoad) {fetch : Accepted} {image : DecodedImage}
    (hu : underWay hs = some (fetch, image)) : h.EndsCopy fetch image := by
  unfold OneAtATime at ho
  rw [List.filter_append, List.filter_singleton, List.isChain_append] at ho
  simp only [hl, decide_true, cond_true] at ho
  unfold underWay at hu
  split at hu
  · rename_i heq
    cases hu
    exact ho.2.2 _ heq _ rfl _ _ rfl
  · cases hu

theorem OneAtATime.underWay_eq_none {hs : List Happening} {h : Happening}
    (ho : OneAtATime (hs ++ [h])) {id : Nat} (ht : h.takenUp? = some id) :
    underWay hs = none := by
  rcases hu : underWay hs with _ | ⟨fetch, image⟩
  · rfl
  · exact absurd (ho.endsCopy (isLoad_of_takenUp ht) hu) (not_endsCopy_of_takenUp ht fetch image)

/-! ## Courses -/

theorem oneAtATime_append {hs hs' : List Happening} (h : OneAtATime hs) (h' : OneAtATime hs')
    (hu : underWay hs = none) : OneAtATime (hs ++ hs') := by
  unfold OneAtATime at h h' ⊢
  rw [List.filter_append]
  refine h.append h' fun x hx y _ fetch image he => ?_
  subst he
  unfold underWay at hu
  rw [Option.mem_def.1 hx] at hu
  cases hu

theorem filter_isLoad_eq_nil {hs : List Happening} (h : ∀ h ∈ hs, ¬ h.IsLoad) :
    hs.filter (·.IsLoad) = [] := by
  rw [List.filter_eq_nil_iff]
  simpa using h

theorem oneAtATime_copy {fetch : Accepted} {image : DecodedImage} {hs : List Happening}
    {last : Happening} (he : last.EndsCopy fetch image) (hn : ∀ h ∈ hs, ¬ h.IsLoad) :
    OneAtATime (.asked fetch image :: hs ++ [last]) ∧
      underWay (.asked fetch image :: hs ++ [last]) = none := by
  have hlast := Happening.isLoad_of_endsCopy he
  have hf : (.asked fetch image :: hs ++ [last]).filter (·.IsLoad) =
      [.asked fetch image, last] := by
    rw [List.cons_append, List.filter_cons_of_pos (by exact rfl), List.filter_append,
      filter_isLoad_eq_nil hn, List.filter_singleton]
    simp [hlast]
  unfold OneAtATime underWay
  rw [hf]
  refine ⟨?_, ?_⟩
  · rw [List.isChain_pair]
    rintro _ _ ⟨⟩
    exact he
  · rcases he with rfl | ⟨ptr, rfl⟩ <;> rfl

/-- If the guest's own steps deal with no loads, loads are dealt with one at a time. -/
theorem Course.oneAtATime {top inner : Happening → Prop} {hs : List Happening}
    (h : Course top inner hs) (hi : ∀ h, inner h → ¬ h.IsLoad) :
    OneAtATime hs ∧ underWay hs = none := by
  induction h with
  | nil => exact ⟨.nil, rfl⟩
  | one ht hc =>
    rename_i h
    unfold OneAtATime underWay
    rw [List.filter_singleton]
    by_cases hl : h.IsLoad
    · simp only [hl, decide_true, cond_true]
      refine ⟨.singleton _, ?_⟩
      cases h <;> first | rfl | exact absurd trivial hc
    · simp only [hl, decide_false, cond_false]
      exact ⟨.nil, rfl⟩
  | inner h =>
    unfold OneAtATime underWay
    rw [filter_isLoad_eq_nil fun x hx => hi x (h x hx)]
    exact ⟨.nil, rfl⟩
  | copy ha h hl he => exact oneAtATime_copy he fun x hx => hi x (h x hx)
  | append _ _ ih ih' =>
    rename_i hs hs' _ _
    refine ⟨oneAtATime_append ih.1 ih'.1 ih.2, ?_⟩
    have h := ih.2
    have h' := ih'.2
    unfold underWay at h h' ⊢
    rw [List.filter_append, List.getLast?_append]
    rcases hl : (hs'.filter (·.IsLoad)).getLast? with _ | last
    · rw [hl, Option.none_or]
      exact h
    · rw [hl] at h' ⊢
      exact h'

/-! ## Histories -/

variable {G C : Type} [GraphicsContext G] {m n : Moment G C} {hs : List Happening}

/-- The fetches whose completion waits, in order. -/
def queue (b : Bench G C) : List Nat := b.deferred.map (·.request)

theorem Happens.queue_eq {h : Happening} (hh : Happens m h n) :
    h.delivered?.toList ++ n.bench.queue = m.bench.queue ++ h.copied?.toList := by
  unfold queue
  cases hh with
  | copied hc hg hs =>
    obtain ⟨guest, memory, rfl, -⟩ := of_grant hg
    simp [delivered?, copied?, defer, note, completion]
  | failed hc hg hs =>
    obtain ⟨guest, memory, rfl, -⟩ := of_grant hg
    simp [delivered?, copied?]
  | told hd ho | omitted hd ho => simp [delivered?, copied?, hd, note]
  | _ => exact (List.append_nil _).symm

/-- Completions are delivered in the order in which their images were copied. -/
theorem History.queue_eq (h : History m hs n) :
    hs.filterMap delivered? ++ n.bench.queue = m.bench.queue ++ hs.filterMap copied? := by
  induction h with
  | refl => simp
  | quiet before hq ih =>
    unfold queue at ih ⊢
    rw [hq.deferred]
    exact ih
  | snoc before now ih =>
    rw [filterMap_concat, filterMap_concat, List.append_assoc, now.queue_eq, ← List.append_assoc,
      ih, List.append_assoc]

theorem told_sublist_delivered (hs : List Happening) :
    (hs.filterMap told?).Sublist (hs.filterMap delivered?) := by
  induction hs with
  | nil => exact .slnil
  | cons h hs ih =>
    cases h with
    | told c => exact ih.cons_cons _
    | omitted c why => exact ih.cons _
    | _ => exact ih

theorem History.told_sublist_copied (h : History m hs n) (hm : m.bench.deferred = []) :
    (hs.filterMap told?).Sublist (hs.filterMap copied?) := by
  have hq := h.queue_eq
  rw [show m.bench.queue = [] by rw [queue, hm, List.map_nil], List.nil_append] at hq
  rw [← hq]
  exact (told_sublist_delivered hs).trans (List.sublist_append_left _ _)

/-- What is known of the images being copied, as long as loads are dealt with one at a time: there
is no other than the one under way, and images are copied in the order in which their loads were
taken up. -/
structure InTurn (hs : List Happening) (images : List (Accepted × DecodedImage)) : Prop where
  copying : images = (underWay hs).toList
  order : (hs.filterMap copied? ++ images.map (·.1.id)).Sublist (hs.filterMap takenUp?)

theorem InTurn.of_takenUp {h : Happening} {images : List (Accepted × DecodedImage)} {id : Nat}
    (hi : InTurn hs images) (ho : OneAtATime (hs ++ [h])) (ht : h.takenUp? = some id) :
    images = [] ∧ ((hs ++ [h]).filterMap copied? ++ [id]).Sublist
      ((hs ++ [h]).filterMap takenUp?) := by
  have hc : images = [] := by
    rw [hi.copying, ho.underWay_eq_none ht]
    rfl
  have hn : h.copied? = none := by
    cases h <;> first | rfl | cases ht
  have hsub := hi.order
  rw [hc, List.map_nil, List.append_nil] at hsub
  rw [filterMap_concat, filterMap_concat, ht, hn]
  exact ⟨hc, by simpa using hsub.append_right [id]⟩

theorem InTurn.of_not_asked {h : Happening} {images : List (Accepted × DecodedImage)} {id : Nat}
    (hi : InTurn hs images) (ho : OneAtATime (hs ++ [h])) (ht : h.takenUp? = some id)
    (hn : ∀ fetch image, h ≠ .asked fetch image) : InTurn (hs ++ [h]) images := by
  obtain ⟨hc, hsub⟩ := hi.of_takenUp ho ht
  refine ⟨by rw [underWay_concat_eq_none hs (isLoad_of_takenUp ht) hn]; exact hc, ?_⟩
  rw [hc, List.map_nil, List.append_nil]
  exact (List.sublist_append_left _ _).trans hsub

theorem InTurn.of_endsCopy {h : Happening} {fetch : Accepted} {image : DecodedImage}
    {rest : List (Accepted × DecodedImage)} (hi : InTurn hs ((fetch, image) :: rest))
    (he : h.EndsCopy fetch image) : InTurn (hs ++ [h]) rest := by
  have hr : rest = [] := by
    have hlen := congrArg List.length hi.copying
    rcases hu : underWay hs with _ | x <;> simp_all
  have hsub := hi.order
  subst hr
  have hu : underWay (hs ++ [h]) = none := by
    refine underWay_concat_eq_none hs ?_ ?_ <;> rcases he with rfl | ⟨ptr, rfl⟩ <;>
      first | trivial | exact fun _ _ => nofun
  refine ⟨by rw [hu]; rfl, ?_⟩
  rw [filterMap_concat, filterMap_concat]
  rcases he with rfl | ⟨ptr, rfl⟩
  · simpa [copied?, takenUp?] using (List.sublist_append_left _ _).trans hsub
  · simpa [copied?, takenUp?] using hsub

theorem Happens.inTurn {h : Happening} (hh : Happens m h n) (ho : OneAtATime (hs ++ [h]))
    (hi : InTurn hs m.copying) : InTurn (hs ++ [h]) n.copying := by
  have idle : ¬ h.IsLoad → h.copied? = none → h.takenUp? = none →
      InTurn (hs ++ [h]) m.copying := by
    intro hl hc ht
    refine ⟨by rw [underWay_concat_of_not _ hl]; exact hi.copying, ?_⟩
    rw [filterMap_concat, filterMap_concat, hc, ht]
    simpa using hi.order
  cases hh with
  | lost | ended => exact hi.of_not_asked ho rfl fun _ _ => nofun
  | asked =>
    obtain ⟨hc, hsub⟩ := hi.of_takenUp ho rfl
    refine ⟨by rw [underWay_asked, hc]; rfl, ?_⟩
    rw [hc]
    exact hsub
  | copied hc => exact (hc ▸ hi).of_endsCopy (.inr ⟨_, rfl⟩)
  | failed hc => exact (hc ▸ hi).of_endsCopy (.inl rfl)
  | _ => exact idle id rfl rfl

theorem History.inTurn (h : History m hs n) (hm : m.copying = []) (ho : OneAtATime hs) :
    InTurn hs n.copying := by
  induction h with
  | refl => exact ⟨hm, by simp [hm]⟩
  | quiet before hq ih => exact ih ho
  | snoc before now ih => exact now.inTurn ho (ih ho.of_concat)

/-- As long as loads are dealt with one at a time, the guest is told of images in the order in
which their loads were taken up. -/
theorem History.told_sublist_takenUp (h : History m hs n) (hd : m.bench.deferred = [])
    (hc : m.copying = []) (ho : OneAtATime hs) :
    (hs.filterMap told?).Sublist (hs.filterMap takenUp?) :=
  ((h.told_sublist_copied hd).trans (List.sublist_append_left _ _)).trans (h.inTurn hc ho).order

end GuestBridge.Bench
