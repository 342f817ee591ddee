import GuestBridge.Ieee.Number
import Mathlib.Data.List.Chain

/-!
# The order of doubles

`Double.lt` is the comparison that is false whenever a side is not a number. Between numbers it is
the negation of the reverse `Double.le`; where one side is not a number neither comparison holds,
so a sequence of which no element is at most the one before it is strictly increasing if and only
if it is made of numbers, or has at most one element (`Double.pairwise_lt_iff`). `Double.records`
are the elements of a sequence that exceed all before them; among numbers, comparing with the last
of them is enough to tell the next (`Double.IsPeak.exceeds_iff`).
-/

set_option autoImplicit false

namespace GuestBridge.Ieee.Double

/-- Less; never so when either side is not a number. -/
def lt (x y : Double) : Bool := !x.isNan && !y.isNan && x.place < y.place

variable {x y z : Double}

theorem lt_iff : x.lt y = true ↔ x.isNan = false ∧ y.isNan = false ∧ x.place < y.place := by
  simp [lt, and_assoc]

theorem le_iff : x.le y = true ↔ x.isNan = false ∧ y.isNan = false ∧ x.place ≤ y.place := by
  simp [le, and_assoc]

theorem lt_trans (h : x.lt y = true) (h' : y.lt z = true) : x.lt z = true := by
  rw [lt_iff] at h h' ⊢
  exact ⟨h.1, h'.2.1, by omega⟩

theorem lt_of_not_le (hx : x.isNan = false) (hy : y.isNan = false) (h : y.le x = false) :
    x.lt y = true := by
  have hp : ¬ y.place ≤ x.place := fun hp => by
    rw [le_iff.2 ⟨hy, hx, hp⟩] at h
    cases h
  exact lt_iff.2 ⟨hx, hy, by omega⟩

instance : Trans (fun x y : Double => x.lt y = true) (fun x y => x.lt y = true)
    (fun x y => x.lt y = true) :=
  ⟨lt_trans⟩

theorem pairwise_lt_iff {l : List Double} (h : l.IsChain fun x y => y.le x = false) :
    l.Pairwise (fun x y => x.lt y = true) ↔ l.length ≤ 1 ∨ ∀ x ∈ l, x.isNan = false := by
  constructor
  · intro hp
    match l, hp with
    | [], _ => exact .inl (by simp)
    | [x], _ => exact .inl (by simp)
    | x :: y :: rest, hp =>
      refine .inr fun z hz => ?_
      have hfirst := (List.pairwise_cons.1 hp).1
      rcases List.mem_cons.1 hz with rfl | hz
      · exact (lt_iff.1 (hfirst y (.head _))).1
      · exact (lt_iff.1 (hfirst z hz)).2.1
  · rintro (hl | hn)
    · match l, hl with
      | [], _ => exact .nil
      | [x], _ => exact List.pairwise_singleton _ x
    · rw [← List.isChain_iff_pairwise]
      exact h.imp_of_mem_imp fun x y hx hy hle => lt_of_not_le (hn x hx) (hn y hy) hle

/-! ## Strict running maxima -/

/-- Whether a double is greater than each of a list. -/
def Exceeds (x : Double) (l : List Double) : Prop := ∀ y ∈ l, y.lt x = true

instance (x : Double) (l : List Double) : Decidable (x.Exceeds l) :=
  inferInstanceAs (Decidable (∀ y ∈ l, _))

/-- The elements that are greater than all before them, those of `seen` included. -/
def recordsAfter (seen : List Double) : List Double → List Double
  | [] => []
  | x :: rest =>
    if x.Exceeds seen then x :: recordsAfter (seen ++ [x]) rest else recordsAfter (seen ++ [x]) rest

/-- The strict running maxima of a sequence, in order. -/
def records (l : List Double) : List Double := recordsAfter [] l

theorem recordsAfter_concat (seen l : List Double) (x : Double) :
    recordsAfter seen (l ++ [x]) =
      recordsAfter seen l ++ if x.Exceeds (seen ++ l) then [x] else [] := by
  induction l generalizing seen with
  | nil =>
    rw [List.nil_append, List.append_nil]
    simp only [recordsAfter, List.nil_append]
  | cons y rest ih =>
    have hseen : seen ++ y :: rest = seen ++ [y] ++ rest := by simp
    rw [List.cons_append, hseen]
    simp only [recordsAfter, ih]
    split <;> simp only [List.cons_append]

theorem records_concat (l : List Double) (x : Double) :
    records (l ++ [x]) = records l ++ if x.Exceeds l then [x] else [] :=
  recordsAfter_concat [] l x

/-- What the greatest element of a sequence of numbers is, if there are any. -/
def IsPeak (l : List Double) : Option Double → Prop
  | none => l = []
  | some peak => peak ∈ l ∧ ∀ y ∈ l, y.le peak = true

namespace IsPeak

variable {l : List Double} {last : Option Double}

/-- A number exceeds a sequence exactly if it is not at most its greatest element. -/
theorem exceeds_iff (h : IsPeak l last) (hx : x.isNan = false) :
    x.Exceeds l ↔ last.filter (fun peak => x.le peak) = none := by
  cases last with
  | none =>
    obtain rfl : l = [] := h
    simp [Exceeds]
  | some peak =>
    obtain ⟨hmem, hmax⟩ := h
    rw [Option.filter_eq_none_iff]
    simp only [Option.some.injEq, forall_eq', Bool.not_eq_true]
    constructor
    · intro hex
      have hlt := lt_iff.1 (hex peak hmem)
      rw [Bool.eq_false_iff]
      intro hle
      have hplace := (le_iff.1 hle).2.2
      omega
    · intro hle y hy
      obtain ⟨hyn, hpn, hyp⟩ := le_iff.1 (hmax y hy)
      have hplace := (lt_iff.1 (lt_of_not_le hpn hx hle)).2.2
      exact lt_iff.2 ⟨hyn, hx, by omega⟩

theorem concat_of_exceeds (hx : x.isNan = false) (hex : x.Exceeds l) :
    IsPeak (l ++ [x]) (some x) := by
  refine ⟨by simp, ?_⟩
  intro y hy
  rcases List.mem_append.1 hy with hy | hy
  · obtain ⟨hyn, -, hplace⟩ := lt_iff.1 (hex y hy)
    exact le_iff.2 ⟨hyn, hx, by omega⟩
  · obtain rfl : y = x := by simpa using hy
    exact le_iff.2 ⟨hx, hx, by omega⟩

theorem concat_of_not_exceeds (h : IsPeak l last) (hx : x.isNan = false) (hex : ¬ x.Exceeds l) :
    IsPeak (l ++ [x]) last := by
  rw [h.exceeds_iff hx] at hex
  cases last with
  | none => exact absurd rfl hex
  | some peak =>
    have hle : x.le peak = true := by
      simpa [Option.filter_eq_none_iff] using hex
    refine ⟨List.mem_append_left _ h.1, ?_⟩
    intro y hy
    rcases List.mem_append.1 hy with hy | hy
    · exact h.2 y hy
    · obtain rfl : y = x := by simpa using hy
      exact hle

end IsPeak

end GuestBridge.Ieee.Double
