import GuestBridge.Memory.Basic
import Mathlib.Algebra.Group.Nat.Defs

/-!
# Words in memory

Words are made of the bytes that lie there, the least significant first (`getElem?_wordsOf`). An
array of them can be read exactly where it is aligned and lies within the memory
(`Memory.readWords_eq_ok_iff`), and comes out as it went in (`Memory.readWords_write`).
-/

set_option autoImplicit false

namespace GuestBridge

theorem getLsbD_mod_byte (x : BitVec 32) (i : Nat) :
    (x % 256#32).getLsbD i = (decide (i < 8) && x.getLsbD i) := by
  rw [BitVec.getLsbD, BitVec.toNat_umod]
  exact Nat.testBit_mod_two_pow _ 8 i

/-- Every bit of a word lies in one of its four bytes. -/
theorem wordOf_wordBytes (w : UInt32) :
    wordOf w.toUInt8 (w >>> 8).toUInt8 (w >>> 16).toUInt8 (w >>> 24).toUInt8 = w := by
  unfold wordOf
  apply UInt32.eq_of_toBitVec_eq
  apply BitVec.eq_of_getLsbD_eq
  intro i hi
  simp only [UInt32.toUInt32_toUInt8, UInt32.toBitVec_or, UInt32.toBitVec_mod,
    UInt32.toBitVec_ofNat, UInt32.toBitVec_shiftLeft, UInt32.toBitVec_shiftRight,
    BitVec.ofNat_eq_ofNat, BitVec.reduceMod, BitVec.ushiftRight_eq', BitVec.toNat_ofNat,
    Nat.reducePow, Nat.reduceMod, BitVec.shiftLeft_eq', BitVec.getLsbD_or, getLsbD_mod_byte,
    BitVec.getLsbD_shiftLeft, hi, decide_true, Bool.true_and, BitVec.getLsbD_ushiftRight]
  grind

theorem or_shifted {x k : Nat} (h : x < 2 ^ k) (n : Nat) : x ||| 2 ^ k * n = 2 ^ k * n + x := by
  rw [Nat.or_comm, ← Nat.two_pow_add_eq_or_of_lt h]

/-- A byte can be moved up by three more bytes before it is cut. -/
theorem toNat_byte_shiftLeft (x : UInt8) {k : UInt32} (hk : k.toNat ≤ 24) :
    (x.toUInt32 <<< k).toNat = 2 ^ k.toNat * x.toNat := by
  have hlt : x.toNat * 2 ^ k.toNat < 2 ^ 32 :=
    calc x.toNat * 2 ^ k.toNat < 2 ^ 8 * 2 ^ k.toNat :=
          Nat.mul_lt_mul_of_pos_right x.toNat_lt (Nat.pow_pos (by decide))
      _ ≤ 2 ^ 8 * 2 ^ 24 := Nat.mul_le_mul_left _ (Nat.pow_le_pow_right (by decide) hk)
      _ = 2 ^ 32 := by decide
  rw [UInt32.toNat_shiftLeft, UInt8.toNat_toUInt32,
    Nat.mod_eq_of_lt (Nat.lt_of_le_of_lt hk (by decide)), Nat.shiftLeft_eq, Nat.mod_eq_of_lt hlt,
    Nat.mul_comm]

theorem toNat_wordOf (a b c d : UInt8) :
    (wordOf a b c d).toNat =
      a.toNat + 2 ^ 8 * b.toNat + 2 ^ 16 * c.toNat + 2 ^ 24 * d.toNat := by
  have ha : a.toNat < 2 ^ 8 := a.toNat_lt
  have hb : b.toNat < 2 ^ 8 := b.toNat_lt
  have hc : c.toNat < 2 ^ 8 := c.toNat_lt
  -- each byte lies above all that has been put together before it
  have h16 : 2 ^ 8 * b.toNat + a.toNat < 2 ^ 16 := by omega
  have h24 : 2 ^ 16 * c.toNat + (2 ^ 8 * b.toNat + a.toNat) < 2 ^ 24 := by omega
  unfold wordOf
  rw [UInt32.toNat_or, UInt32.toNat_or, UInt32.toNat_or, toNat_byte_shiftLeft b (by decide),
    toNat_byte_shiftLeft c (by decide), toNat_byte_shiftLeft d (by decide), UInt8.toNat_toUInt32]
  show a.toNat ||| 2 ^ 8 * b.toNat ||| 2 ^ 16 * c.toNat ||| 2 ^ 24 * d.toNat = _
  rw [or_shifted ha, or_shifted h16, or_shifted h24]
  omega

theorem wordsOf_flatMap_wordBytes (ws : List UInt32) : wordsOf (ws.flatMap wordBytes) = ws := by
  induction ws with
  | nil => rfl
  | cons w ws ih =>
    rw [List.flatMap_cons]
    show wordOf _ _ _ _ :: wordsOf (ws.flatMap wordBytes) = _
    rw [wordOf_wordBytes, ih]

theorem length_flatMap_wordBytes (ws : List UInt32) :
    (ws.flatMap wordBytes).length = ws.length * 4 := by
  induction ws with
  | nil => rfl
  | cons w ws ih =>
    have hw : (wordBytes w).length = 4 := rfl
    rw [List.flatMap_cons, List.length_append, ih, hw, List.length_cons]
    omega

/-- What does not begin with a word is shorter than one. -/
theorem length_lt_of_no_word {bytes : List UInt8}
    (h : ∀ a b c d rest, bytes = a :: b :: c :: d :: rest → False) : bytes.length < 4 := by
  match bytes with
  | [] | [_] | [_, _] | [_, _, _] => simp
  | a :: b :: c :: d :: rest => exact (h a b c d rest rfl).elim

/-- As many words are read as there is room for. -/
theorem length_wordsOf (bytes : List UInt8) : (wordsOf bytes).length = bytes.length / 4 := by
  fun_induction wordsOf bytes with
  | case1 a b c d rest ih =>
    simp only [List.length_cons, ih]
    omega
  | case2 bytes hshort => exact (Nat.div_eq_of_lt (length_lt_of_no_word hshort)).symm

/-- The word at a place is made of the four bytes there. -/
theorem getElem?_wordsOf {bytes : List UInt8} {i : Nat} (h : 4 * i + 4 ≤ bytes.length) :
    ∃ a b c d, bytes[4 * i]? = some a ∧ bytes[4 * i + 1]? = some b ∧ bytes[4 * i + 2]? = some c ∧
      bytes[4 * i + 3]? = some d ∧ (wordsOf bytes)[i]? = some (wordOf a b c d) := by
  fun_induction wordsOf bytes generalizing i with
  | case1 a b c d rest ih =>
    cases i with
    | zero => exact ⟨a, b, c, d, rfl, rfl, rfl, rfl, rfl⟩
    | succ i =>
      have hrest : 4 * i + 4 ≤ rest.length := by
        simp only [List.length_cons] at h
        omega
      obtain ⟨a', b', c', d', h0, h1, h2, h3, hw⟩ := ih hrest
      exact ⟨a', b', c', d', h0, h1, h2, h3, hw⟩
  | case2 bytes hshort =>
    have hlt := length_lt_of_no_word hshort
    omega

namespace Memory

variable {m : Memory} {ptr count : UInt32} {words : List UInt32}

theorem read_write {m : Memory} {offset : Nat} (h : offset ≤ m.size) (data : List UInt8) :
    (m.write offset data).read offset data.length = data := by
  have hl : (m.bytes.take offset).length = offset := List.length_take_of_le h
  unfold read write
  rw [List.append_assoc, List.drop_left' hl, List.take_left' rfl]

theorem size_write {m : Memory} {offset : Nat} {data : List UInt8}
    (h : offset + data.length ≤ m.size) : (m.write offset data).size = m.size := by
  unfold size at h ⊢
  unfold write
  simp only [List.length_append, List.length_take, List.length_drop]
  omega

theorem length_read {offset len : Nat} (h : offset + len ≤ m.size) :
    (m.read offset len).length = len := by
  have hlen : (m.bytes.drop offset).length = m.size - offset := List.length_drop
  unfold read
  rw [List.length_take, hlen]
  omega

/-! ## Arrays -/

/-- There is an aligned array of so many words at a pointer. -/
def HasArray (m : Memory) (ptr : UInt32) (count : Nat) : Prop :=
  ptr.toNat % 4 = 0 ∧ ptr.toNat + 4 * count ≤ m.size

theorem check_words_eq_ok_iff {range : ByteRange} : m.check ⟨.u32, ptr, count⟩ = .ok range ↔
    m.HasArray ptr count.toNat ∧ range = ⟨ptr.toNat, ptr.toNat + 4 * count.toNat⟩ := by
  have hlen : View.byteLen ⟨.u32, ptr, count⟩ = 4 * count.toNat := Nat.mul_comm ..
  unfold check HasArray
  rw [View.byteRange_eq_ok_iff, hlen, and_assoc]
  rfl

theorem check_of_hasArray (h : m.HasArray ptr count.toNat) :
    m.check ⟨.u32, ptr, count⟩ = .ok ⟨ptr.toNat, ptr.toNat + 4 * count.toNat⟩ :=
  check_words_eq_ok_iff.2 ⟨h, rfl⟩

theorem check_of_not_hasArray (h : ¬ m.HasArray ptr count.toNat) :
    ∃ e, m.check ⟨.u32, ptr, count⟩ = .error e := by
  rcases hc : m.check ⟨.u32, ptr, count⟩ with e | range
  · exact ⟨e, rfl⟩
  · exact absurd (check_words_eq_ok_iff.1 hc).1 h

theorem readWords_of_hasArray (h : m.HasArray ptr count.toNat) :
    m.readWords ptr count = .ok (wordsOf (m.read ptr.toNat (4 * count.toNat))) := by
  unfold readWords readView
  rw [check_of_hasArray h]
  show Except.ok (wordsOf (m.read _ (_ - _))) = _
  rw [Nat.add_sub_cancel_left]

theorem readWords_eq_ok_iff : m.readWords ptr count = .ok words ↔
    m.HasArray ptr count.toNat ∧ words = wordsOf (m.read ptr.toNat (4 * count.toNat)) := by
  by_cases h : m.HasArray ptr count.toNat
  · rw [readWords_of_hasArray h]
    constructor
    · intro he
      exact ⟨h, (Except.ok.inj he).symm⟩
    · rintro ⟨-, rfl⟩
      rfl
  · obtain ⟨e, he⟩ := check_of_not_hasArray h
    unfold readWords readView
    rw [he]
    exact iff_of_false nofun fun hm => h hm.1

/-- An array that can be read has as many words as were asked for. -/
theorem length_of_readWords (hw : m.readWords ptr count = .ok words) :
    words.length = count.toNat := by
  obtain ⟨h, rfl⟩ := readWords_eq_ok_iff.1 hw
  rw [length_wordsOf, length_read h.2, Nat.mul_div_cancel_left _ (by decide)]

/-- Words fit where the room for as many was checked. -/
theorem writeWords_of_check {range : ByteRange} (hc : m.check ⟨.u32, ptr, count⟩ = .ok range)
    (hl : words.length = count.toNat) :
    m.writeWords ptr words = .ok (m.write range.start (words.flatMap wordBytes)) := by
  have hcount : UInt32.ofNat words.length = count := by rw [hl, UInt32.ofNat_toNat]
  unfold writeWords
  rw [if_pos (hl ▸ count.toNat_lt), hcount, hc]
  rfl

/-- Words that were written where a view allows as many are there. -/
theorem readWords_write {range : ByteRange} (hc : m.check ⟨.u32, ptr, count⟩ = .ok range)
    (hl : words.length = count.toNat) :
    (m.write range.start (words.flatMap wordBytes)).readWords ptr count = .ok words := by
  obtain ⟨h, rfl⟩ := check_words_eq_ok_iff.1 hc
  have hlen : (words.flatMap wordBytes).length = 4 * count.toNat := by
    rw [length_flatMap_wordBytes, hl, Nat.mul_comm]
  have hafter : (m.write ptr.toNat (words.flatMap wordBytes)).HasArray ptr count.toNat := by
    unfold HasArray
    rw [size_write (by rw [hlen]; exact h.2)]
    exact h
  rw [readWords_of_hasArray hafter, ← hlen, read_write (Nat.le_of_add_right_le h.2),
    wordsOf_flatMap_wordBytes]

end Memory

end GuestBridge
