import GuestBridge.Capability.Run
import GuestBridge.Graphics.Scripted
import GuestBridge.Proofs.Memory.Regions

/-!
# Random strings

A random string is made of digits in base 36, one for each number that the host draws
(`Core.drawDigits_eq_next`). Whatever the host draws, each of them stands in a table of 36 digits
(`Core.digitIndex_lt`, `Core.getElem?_base36Digits`). `Capability.fills_randomly` says what a guest
gets that asks for one: as many digits as it has room for, but no more than twenty, or nothing at
all if they do not lie in its memory.
-/

set_option autoImplicit false

namespace GuestBridge

open Ieee

/-! ## Draws -/

/-- The number that a source draws after it has drawn so many others. -/
def RandomSource.upcoming (r : RandomSource) (i : Nat) : Double :=
  (r.values[(r.turn + i) % r.values.length]?).getD .half

/-- Any numbers at all are drawn by some source. -/
theorem RandomSource.upcoming_of_values {xs : List Double} {i : Nat} {x : Double}
    (h : xs[i]? = some x) : RandomSource.upcoming ⟨xs, 0⟩ i = x := by
  obtain ⟨hi, -⟩ := List.getElem?_eq_some_iff.1 h
  unfold upcoming
  rw [Nat.zero_add, Nat.mod_eq_of_lt hi, h]
  rfl

namespace Core

variable {G : Type} {c : Core G} {ptr capacity : UInt32}

/-- The digits in base 36. -/
def base36Digits : List UInt8 :=
  "0123456789abcdefghijklmnopqrstuvwxyz".toList.map fun ch => ch.toUInt8

/-- The place of a drawn number's digit in the table. -/
def digitIndex (x : Double) : Nat := min (x.mul (.ofInt 36)).toIndex 35

/-- Whatever number is drawn, its digit is looked up within the table. -/
theorem digitIndex_lt (x : Double) : digitIndex x < base36Digits.length := by
  have hlength : base36Digits.length = 36 := by decide
  rw [hlength]
  exact Nat.lt_succ_of_le (Nat.min_le_right _ _)

theorem getElem?_base36Digits (x : Double) : base36Digits[digitIndex x]? = some (digitOf x) := by
  have hall : ∀ d < base36Digits.length, base36Digits[d]? = some (base36 d) := by decide +kernel
  have hmin : base36 (digitIndex x) = digitOf x := by
    unfold digitOf base36 digitIndex
    rw [Nat.min_assoc, Nat.min_self]
  rw [hall _ (digitIndex_lt x), hmin]

/-- A digit is one of `0` to `9` or one of `a` to `z`. -/
theorem digitOf_bounds (x : Double) : '0'.toUInt8 ≤ digitOf x ∧ digitOf x ≤ '9'.toUInt8 ∨
    'a'.toUInt8 ≤ digitOf x ∧ digitOf x ≤ 'z'.toUInt8 := by
  have hall : ∀ b ∈ base36Digits, '0'.toUInt8 ≤ b ∧ b ≤ '9'.toUInt8 ∨
      'a'.toUInt8 ≤ b ∧ b ≤ 'z'.toUInt8 := by decide +kernel
  exact hall _ (List.mem_of_getElem? (getElem?_base36Digits x))

/-- The digits of the numbers that are drawn next. -/
def nextDigits (c : Core G) (n : Nat) : List UInt8 :=
  (List.range n).map fun i => digitOf (c.host.random.upcoming i)

/-- The core once so many numbers have been drawn. -/
def drawnOn (c : Core G) (n : Nat) : Core G :=
  { c with host.random.turn := c.host.random.turn + n }

theorem length_nextDigits (c : Core G) (n : Nat) : (c.nextDigits n).length = n := by
  rw [nextDigits, List.length_map, List.length_range]

theorem getElem?_nextDigits {i n : Nat} (h : i < n) :
    (c.nextDigits n)[i]? = some (digitOf (c.host.random.upcoming i)) := by
  rw [nextDigits, List.getElem?_map, List.getElem?_range h]
  rfl

/-- The core with a host that draws the given numbers next. -/
def drawing (c : Core G) (xs : List Double) : Core G := { c with host.random := ⟨xs, 0⟩ }

theorem nextDigits_drawing (c : Core G) (xs : List Double) :
    (c.drawing xs).nextDigits xs.length = xs.map digitOf := by
  apply List.ext_getElem?
  intro i
  by_cases h : i < xs.length
  · have hx : xs[i]? = some xs[i] := List.getElem?_eq_getElem h
    rw [getElem?_nextDigits h, List.getElem?_map, hx]
    exact congrArg (some ∘ digitOf) (RandomSource.upcoming_of_values hx)
  · have hi : xs.length ≤ i := Nat.le_of_not_lt h
    rw [List.getElem?_eq_none (by rwa [length_nextDigits]),
      List.getElem?_eq_none (by rwa [List.length_map])]

theorem drawDigits_eq_next (n : Nat) (c : Core G) :
    drawDigits n c = (c.nextDigits n, c.drawnOn n) := by
  induction n generalizing c with
  | zero => rfl
  | succ n ih =>
    have hnext (i : Nat) : c.draw.2.host.random.upcoming i = c.host.random.upcoming (i + 1) := by
      show (c.host.random.values[(c.host.random.turn + 1 + i) % _]?).getD _ = _
      rw [Nat.add_right_comm]
      rfl
    have hdigits : digitOf c.draw.1 :: c.draw.2.nextDigits n = c.nextDigits (n + 1) := by
      simp only [nextDigits, hnext, List.range_succ_eq_map, List.map_cons, List.map_map]
      rfl
    have hdrawn : c.draw.2.drawnOn n = c.drawnOn (n + 1) := by
      show ({ c with host.random.turn := c.host.random.turn + 1 + n } : Core G) = _
      rw [Nat.add_right_comm]
      rfl
    unfold drawDigits
    simp only [ih, hdigits, hdrawn]

/-! ## Filling a buffer -/

section

variable {n : Nat} (hn : n = min randomStringLen capacity.toNat)

include hn

theorem length_nextDigits_lt : (c.nextDigits n).length < UInt32.size := by
  have h20 : n ≤ 20 := hn ▸ Nat.min_le_left ..
  rw [length_nextDigits]
  exact Nat.lt_of_le_of_lt h20 (by decide)

/-- The numbers are drawn before the memory is looked at. -/
theorem randomString_eq (ptr : UInt32) : randomString ptr capacity c =
    (do
      store [.bytes ptr (c.nextDigits n)]
      return n : Action (Core G) Nat) (c.drawnOn n) := by
  have hdraw : (Attempt.state (drawDigits n) : Action (Core G) _) c =
      (.ok (c.nextDigits n), c.drawnOn n) :=
    congrArg (fun p => (Except.ok p.1, p.2)) (drawDigits_eq_next n c)
  unfold randomString
  rw [← hn, Attempt.bind_of_ok hdraw]

variable (ha : c.bridge.attached = true)

include ha

theorem randomString_of_fits (h : ptr.toNat + n ≤ c.memory.size) :
    randomString ptr capacity c =
      (.ok n, { c.drawnOn n with memory := c.memory.write ptr.toNat (c.nextDigits n) }) := by
  have hwrite : (c.drawnOn n).memory.writeBatch [.bytes ptr (c.nextDigits n)] =
      .ok (c.memory.write ptr.toNat (c.nextDigits n)) :=
    Memory.writeBatch_bytes (length_nextDigits_lt hn) (by rwa [length_nextDigits])
  have hstore := store_eq (c := c.drawnOn n) ha [.bytes ptr (c.nextDigits n)]
  rw [hwrite] at hstore
  rw [randomString_eq hn, Attempt.bind_of_ok hstore]
  rfl

theorem randomString_of_unfit (h : c.memory.size < ptr.toNat + n) :
    randomString ptr capacity c =
      (.error (.memory (.outOfBounds ptr n c.memory.size)), c.drawnOn n) := by
  have hwrite : (c.drawnOn n).memory.writeBatch [.bytes ptr (c.nextDigits n)] =
      .error (.outOfBounds ptr (c.nextDigits n).length c.memory.size) :=
    Memory.writeBatch_bytes_of_unfit (length_nextDigits_lt hn) (by rwa [length_nextDigits])
  have hstore := store_eq (c := c.drawnOn n) ha [.bytes ptr (c.nextDigits n)]
  rw [hwrite, length_nextDigits] at hstore
  rw [randomString_eq hn, Attempt.bind_of_error hstore]

end

end Core

namespace Capability

open GuestBridge.Core

variable {G : Type} [GraphicsContext G]

/-- What a guest gets, from `s`, that asks for `n` random digits at `ptr`. -/
structure Fills (s : Core G) (ptr : UInt32) (n : Nat) (r : Except BridgeError Result × Core G) :
    Prop where
  succeeds : (∃ answer, r.1 = .ok answer) ↔ ptr.toNat + n ≤ s.memory.size
  answer : ptr.toNat + n ≤ s.memory.size → r.1 = .ok (.number n)
  /-- Every digit is the one in the table that the number drawn for it points to. -/
  digits : ptr.toNat + n ≤ s.memory.size → ∀ i < n, ∃ b,
    r.2.memory.bytes[ptr.toNat + i]? = some b ∧
      base36Digits[digitIndex (s.host.random.upcoming i)]? = some b ∧
        ('0'.toUInt8 ≤ b ∧ b ≤ '9'.toUInt8 ∨ 'a'.toUInt8 ≤ b ∧ b ≤ 'z'.toUInt8)
  others : ∀ i, i < ptr.toNat ∨ ptr.toNat + n ≤ i →
    r.2.memory.bytes[i]? = s.memory.bytes[i]?
  refused : s.memory.size < ptr.toNat + n →
    r.1 = .error (.memory (.outOfBounds ptr n s.memory.size)) ∧ r.2.memory = s.memory
  /-- Nothing else has changed, but so many numbers were drawn. -/
  rest : r.2 = { s with
    memory := r.2.memory, host.random.turn := s.host.random.turn + n }

variable {s : Core G} {ptr : UInt32} {n : Nat} {r : Except BridgeError Result × Core G}

theorem run_randomString {ptr capacity : UInt32} {answer : Except BridgeError Nat} {s' : Core G}
    (h : Core.randomString ptr capacity s = (answer, s')) :
    (randomString ptr capacity).run s = (answer.map fun k => .number k, s') := by
  have hrun := Attempt.bind_pure_apply (Core.randomString ptr capacity) (fun k => Result.number k) s
  rwa [h] at hrun

omit [GraphicsContext G] in
theorem fills_of_fits (h : ptr.toNat + n ≤ s.memory.size)
    (hr : r = (.ok (.number n),
      { s.drawnOn n with memory := s.memory.write ptr.toNat (s.nextDigits n) })) :
    Fills s ptr n r := by
  have hbytes (i : Nat) : r.2.memory.bytes[i]? =
      if ptr.toNat ≤ i ∧ i < ptr.toNat + n then (s.nextDigits n)[i - ptr.toNat]?
      else s.memory.bytes[i]? := by
    rw [hr]
    show (s.memory.write ptr.toNat (s.nextDigits n)).bytes[i]? = _
    rw [Memory.getElem?_write (by rwa [length_nextDigits]), length_nextDigits]
  refine ⟨⟨fun _ => h, fun _ => ⟨_, congrArg Prod.fst hr⟩⟩, fun _ => congrArg Prod.fst hr, ?_, ?_,
    fun hout => absurd h (Nat.not_le.2 hout), ?_⟩
  · intro _ i hi
    refine ⟨digitOf (s.host.random.upcoming i), ?_, getElem?_base36Digits _, digitOf_bounds _⟩
    rw [hbytes, if_pos (by omega), Nat.add_sub_cancel_left, getElem?_nextDigits hi]
  · intro i hi
    rw [hbytes, if_neg (by omega)]
  · rw [hr]
    rfl

omit [GraphicsContext G] in
theorem fills_of_unfit (h : s.memory.size < ptr.toNat + n)
    (hr : r = (.error (.memory (.outOfBounds ptr n s.memory.size)), s.drawnOn n)) :
    Fills s ptr n r := by
  have hout : ¬ ptr.toNat + n ≤ s.memory.size := Nat.not_le.2 h
  refine ⟨⟨?_, fun hin => absurd hin hout⟩, fun hin => absurd hin hout,
    fun hin => absurd hin hout, fun i _ => ?_, fun _ => ?_, ?_⟩
  · rintro ⟨answer, hok⟩
    rw [hr] at hok
    cases hok
  · rw [hr]
    rfl
  · rw [hr]
    exact ⟨rfl, rfl⟩
  · rw [hr]
    rfl

/-- A guest that asks for a random string gets up to twenty digits if its memory has room for them,
whatever numbers the host draws, and is left alone if it has not. -/
theorem fills_randomly (s : Core G) (ha : s.bridge.attached = true) (ptr capacity : UInt32) :
    (∀ x : Double, digitIndex x < base36Digits.length) ∧
    Fills s ptr (min 20 capacity.toNat) ((randomString ptr capacity).run s) ∧
      ∀ xs : List Double, xs.length = min 20 capacity.toNat →
        ptr.toNat + xs.length ≤ s.memory.size →
          ((randomString ptr capacity).run (s.drawing xs)).2.memory =
            s.memory.write ptr.toNat (xs.map digitOf) := by
  have hn : min 20 capacity.toNat = min randomStringLen capacity.toNat := rfl
  refine ⟨digitIndex_lt, ?_, ?_⟩
  · by_cases h : ptr.toNat + min 20 capacity.toNat ≤ s.memory.size
    · exact fills_of_fits h (run_randomString (randomString_of_fits hn ha h))
    · exact fills_of_unfit (Nat.lt_of_not_le h)
        (run_randomString (randomString_of_unfit hn ha (Nat.lt_of_not_le h)))
  · intro xs hlen hin
    have hfits := randomString_of_fits (c := s.drawing xs) (hlen.trans hn) ha hin
    rw [run_randomString hfits, nextDigits_drawing]
    rfl

/-- What is no number and what is negative count as the first digit, what is too large as the last.
One byte further up there is no room for four digits. -/
theorem fills_randomly_of_odd_draws :
    let draws : List Double := [⟨0x7FF8000000000000⟩, .ofInt (-1), ⟨0x7FF0000000000000⟩, .ofInt 1]
    let s : Core ScriptedContext :=
      { gl := {}, memory := .zeros 6, bridge := { attached := true }, host.random := ⟨draws, 0⟩ }
    s.bridge.attached = true ∧ Fills s 2 4 ((randomString 2 4).run s) ∧
      ((randomString 2 4).run s).2.memory.bytes = [0, 0, 48, 48, 122, 122] ∧
      ((randomString 3 4).run s).1 = .error (.memory (.outOfBounds 3 4 6)) := by
  intro draws s
  have hshort := (fills_randomly s rfl 3 4).2.1.refused (by decide)
  exact ⟨rfl, (fills_randomly s rfl 2 4).2.1, by decide +kernel, hshort.1⟩

end Capability

end GuestBridge
