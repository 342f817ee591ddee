import GuestBridge.Proofs.Core.Contract
import GuestBridge.Proofs.Memory.Words
import Mathlib.Algebra.Group.Nat.Defs
import Mathlib.Algebra.Ring.Int.Defs

/-!
# Batches of stores

A store fits a memory if its pointer is aligned and its bytes lie inside (`Store.Fits`). A batch is
performed exactly if all of its stores fit; each byte is then that of the last store that covers it,
and no other byte changes (`Memory.getElem?_putAll`). Otherwise the first store that does not fit is
reported and nothing is written. `Memory.batch_all_or_nothing` says all of it; what was written to
regions that do not meet is there afterwards (`Memory.read_putAll`).
-/

set_option autoImplicit false

namespace GuestBridge

/-- Whether an offset lies in a range. -/
def ByteRange.Covers (r : ByteRange) (i : Nat) : Prop := r.start ≤ i ∧ i < r.stop

instance (r : ByteRange) (i : Nat) : Decidable (r.Covers i) :=
  inferInstanceAs (Decidable (_ ∧ _))

/-- Two ranges without a common offset. -/
def ByteRange.Apart (r r' : ByteRange) : Prop := ∀ i, r.Covers i → ¬ r'.Covers i

/-! ## Bytes of words -/

/-- The bytes of a word are its digits in base 256, the least significant first. -/
theorem getElem?_wordBytes (w : UInt32) {j : Nat} (h : j < 4) :
    (wordBytes w)[j]? = some (UInt8.ofNat (w.toNat / 256 ^ j)) := by
  have byte (b : UInt8) (hb : b.toNat = w.toNat / 256 ^ j % 256) :
      b = UInt8.ofNat (w.toNat / 256 ^ j) := by
    rw [← UInt8.toNat_inj, hb, UInt8.toNat_ofNat']
  obtain rfl | rfl | rfl | rfl : j = 0 ∨ j = 1 ∨ j = 2 ∨ j = 3 := by omega
  all_goals
    refine congrArg some (byte _ ?_)
    simp [UInt32.toNat_shiftRight, Nat.shiftRight_eq_div_pow]

theorem readWords_bytes (w : UInt32) : wordsOf (wordBytes w) = [w] :=
  (congrArg wordsOf (List.append_nil _).symm).trans (wordsOf_flatMap_wordBytes [w])

/-- The word of a signed number is its two's complement. -/
theorem toNat_toUInt32 (v : Int32) : v.toUInt32.toNat = (v.toInt % 2 ^ 32).toNat := by
  have h : v.toInt % (2 ^ 32 : Nat) = v.toUInt32.toNat % (2 ^ 32 : Nat) := by
    show v.toBitVec.toInt % _ = _
    rw [BitVec.toInt_eq_toNat_bmod, Int.bmod_emod]
    rfl
  have hlt : v.toUInt32.toNat < 2 ^ 32 := v.toUInt32.toNat_lt
  omega

/-! ## Stores -/

namespace Store

/-- Where a store begins. -/
def ptr : Store → UInt32
  | word ptr _ | int ptr _ | bytes ptr _ => ptr

/-- What the bytes of a store stand for. -/
def element : Store → Element
  | word _ _ => .u32
  | int _ _ => .i32
  | bytes _ _ => .u8

/-- The bytes that a store replaces. -/
def range (w : Store) : ByteRange := ⟨w.ptr.toNat, w.ptr.toNat + w.data.length⟩

/-- The pointer of a store is aligned to its element, and its bytes lie in a memory of `size`. -/
def Fits (w : Store) (size : Nat) : Prop :=
  w.ptr.toNat % w.element.size = 0 ∧ w.ptr.toNat + w.data.length ≤ size

instance (w : Store) (size : Nat) : Decidable (w.Fits size) :=
  inferInstanceAs (Decidable (_ ∧ _))

/-- Of the stores that replace a byte, the last. -/
def last? (stores : List Store) (i : Nat) : Option Store :=
  stores.reverse.find? fun w => w.range.Covers i

theorem last?_cons (w : Store) (stores : List Store) (i : Nat) :
    last? (w :: stores) i =
      (last? stores i).or (if w.range.Covers i then some w else none) := by
  unfold last?
  rw [List.reverse_cons, List.find?_append]
  by_cases h : w.range.Covers i <;> simp [h]

/-- A store that covers a byte is the last to do so if none after it does. -/
theorem last?_of_covers {before after : List Store} {w : Store} {i : Nat} (h : w.range.Covers i)
    (hafter : ∀ x ∈ after, ¬ x.range.Covers i) : last? (before ++ w :: after) i = some w := by
  have hnone : after.reverse.find? (fun x => x.range.Covers i) = none := by simpa using hafter
  unfold last?
  rw [List.reverse_append, List.reverse_cons, List.append_assoc, List.find?_append, hnone]
  simp [h]

theorem last?_eq_none_iff {stores : List Store} {i : Nat} :
    last? stores i = none ↔ ∀ w ∈ stores, ¬ w.range.Covers i := by
  simp [last?]

/-- All stores of a batch fit, or one of them is the first that does not. -/
theorem fits_or_first_unfit (stores : List Store) (size : Nat) :
    (∀ w ∈ stores, w.Fits size) ∨
      ∃ before w after, stores = before ++ w :: after ∧ (∀ x ∈ before, x.Fits size) ∧
        ¬ w.Fits size := by
  induction stores with
  | nil => exact .inl fun w hw => absurd hw List.not_mem_nil
  | cons w stores ih =>
    by_cases hw : w.Fits size
    · rcases ih with h | ⟨before, w', after, rfl, hbefore, hw'⟩
      · exact .inl (List.forall_mem_cons.2 ⟨hw, h⟩)
      · exact .inr ⟨w :: before, w', after, rfl, List.forall_mem_cons.2 ⟨hw, hbefore⟩, hw'⟩
    · exact .inr ⟨[], w, stores, rfl, by simp, hw⟩

/-- The view of a store has as many bytes as are stored. -/
theorem exists_view {w : Store} (h : w.data.length < UInt32.size) :
    ∃ v, w.view = .ok v ∧ v.ptr = w.ptr ∧ v.element = w.element ∧ v.byteLen = w.data.length := by
  cases w with
  | word ptr value => exact ⟨_, rfl, rfl, rfl, rfl⟩
  | int ptr value => exact ⟨_, rfl, rfl, rfl, rfl⟩
  | bytes ptr data =>
    have hlen : data.length < UInt32.size := h
    refine ⟨View.bytes ptr (.ofNat data.length), ?_, rfl, rfl, ?_⟩
    · simp only [view, guestLen, if_pos hlen]
      rfl
    · show (UInt32.ofNat data.length).toNat * 1 = data.length
      rw [UInt32.toNat_ofNat_of_lt' hlen, Nat.mul_one]

end Store

namespace Memory

variable {m : Memory} {w : Store} {stores : List Store}

/-! ## Bytes after a store -/

theorem getElem?_write {offset : Nat} {data : List UInt8} (h : offset + data.length ≤ m.size)
    (i : Nat) : (m.write offset data).bytes[i]? =
      if offset ≤ i ∧ i < offset + data.length then data[i - offset]? else m.bytes[i]? := by
  have hl : (m.bytes.take offset).length = offset :=
    List.length_take_of_le (Nat.le_of_add_right_le h)
  unfold write
  rw [List.append_assoc, List.getElem?_append, hl, List.getElem?_append, List.getElem?_drop]
  by_cases hlow : i < offset
  · rw [if_pos hlow, if_neg (by omega), List.getElem?_take_of_lt hlow]
  · by_cases hhigh : i < offset + data.length
    · rw [if_neg hlow, if_pos (by omega), if_pos (by omega)]
    · rw [if_neg hlow, if_neg (by omega), if_neg (by omega)]
      congr 1
      omega

/-- Makes a store where it is meant to go. -/
def put (m : Memory) (w : Store) : Memory := m.write w.ptr.toNat w.data

/-- Makes stores one after another. -/
def putAll (m : Memory) (stores : List Store) : Memory := stores.foldl put m

theorem size_put (h : w.Fits m.size) : (m.put w).size = m.size := size_write h.2

theorem size_putAll (h : ∀ w ∈ stores, w.Fits m.size) : (m.putAll stores).size = m.size := by
  induction stores generalizing m with
  | nil => rfl
  | cons w stores ih =>
    have hw := size_put (h w List.mem_cons_self)
    have hrest : ∀ w' ∈ stores, w'.Fits (m.put w).size := by
      intro w' hw'
      rw [hw]
      exact h w' (List.mem_cons_of_mem _ hw')
    exact (ih hrest).trans hw

/-- After a batch, a byte is that of the last store that covers it, and is unchanged if none
does. -/
theorem getElem?_putAll (h : ∀ w ∈ stores, w.Fits m.size) (i : Nat) :
    (m.putAll stores).bytes[i]? =
      match Store.last? stores i with
      | some w => w.data[i - w.ptr.toNat]?
      | none => m.bytes[i]? := by
  induction stores generalizing m with
  | nil => rfl
  | cons w stores ih =>
    have hw := h w List.mem_cons_self
    have hrest : ∀ w' ∈ stores, w'.Fits (m.put w).size := by
      intro w' hw'
      rw [size_put hw]
      exact h w' (List.mem_cons_of_mem _ hw')
    have hput : (m.put w).bytes[i]? =
        if w.range.Covers i then w.data[i - w.ptr.toNat]? else m.bytes[i]? :=
      getElem?_write hw.2 i
    show ((m.put w).putAll stores).bytes[i]? = _
    rw [ih hrest, Store.last?_cons, hput]
    cases Store.last? stores i with
    | some w' => rfl
    | none => by_cases hc : w.range.Covers i <;> simp [hc]

/-- What is stored is there afterwards if no later store touches it. -/
theorem read_putAll (h : ∀ w ∈ stores, w.Fits m.size)
    (apart : stores.Pairwise fun w w' => w.range.Apart w'.range) (hw : w ∈ stores) :
    (m.putAll stores).read w.ptr.toNat w.data.length = w.data := by
  apply List.ext_getElem?
  intro j
  unfold read
  by_cases hj : j < w.data.length
  · have hcover : w.range.Covers (w.ptr.toNat + j) := ⟨Nat.le_add_right _ _, by
      show _ < w.ptr.toNat + _
      omega⟩
    have hlast : Store.last? stores (w.ptr.toNat + j) = some w := by
      obtain ⟨before, after, rfl⟩ := List.append_of_mem hw
      apply Store.last?_of_covers hcover
      intro x hx
      have hp := (List.pairwise_cons.1 (List.pairwise_append.1 apart).2.1).1 x hx
      exact hp _ hcover
    rw [List.getElem?_take_of_lt hj, List.getElem?_drop, getElem?_putAll h, hlast]
    show w.data[w.ptr.toNat + j - w.ptr.toNat]? = _
    rw [Nat.add_sub_cancel_left]
  · rw [List.getElem?_eq_none, List.getElem?_eq_none (Nat.le_of_not_lt hj)]
    rw [List.length_take]
    omega

/-! ## Placing -/

/-- What is wrong with a store that does not fit: alignment is looked at first. -/
theorem place_eq (h : w.data.length < UInt32.size) (m : Memory) :
    m.place w =
      if w.ptr.toNat % w.element.size ≠ 0 then .error (.misaligned w.ptr w.element)
      else if m.size < w.ptr.toNat + w.data.length then
        .error (.outOfBounds w.ptr w.data.length m.size)
      else .ok w.ptr.toNat := by
  obtain ⟨v, hview, hptr, helement, hlen⟩ := Store.exists_view h
  unfold place check
  rw [hview]
  show ((v.byteRange m.size).bind fun r => pure r.start) = _
  unfold View.byteRange
  rw [hptr, helement, hlen]
  split
  · rfl
  · split <;> rfl

theorem place_of_fits (h : w.data.length < UInt32.size) (hw : w.Fits m.size) :
    m.place w = .ok w.ptr.toNat := by
  rw [place_eq h, if_neg (by simpa using hw.1), if_neg (Nat.not_lt.2 hw.2)]

theorem mapM_place (few : ∀ w ∈ stores, w.data.length < UInt32.size)
    (h : ∀ w ∈ stores, w.Fits m.size) :
    stores.mapM m.place = .ok (stores.map fun w => w.ptr.toNat) := by
  induction stores with
  | nil => rfl
  | cons w stores ih =>
    have hw := place_of_fits (few w List.mem_cons_self) (h w List.mem_cons_self)
    have hrest := ih (fun w hw => few w (List.mem_cons_of_mem _ hw)) fun w hw =>
      h w (List.mem_cons_of_mem _ hw)
    rw [List.mapM_cons, hw, hrest]
    rfl

theorem apply_zip (m : Memory) (stores : List Store) :
    m.apply ((stores.map fun w => w.ptr.toNat).zip stores) = m.putAll stores := by
  induction stores generalizing m with
  | nil => rfl
  | cons w stores ih => exact ih (m.put w)

theorem writeBatch_of_fits (few : ∀ w ∈ stores, w.data.length < UInt32.size)
    (h : ∀ w ∈ stores, w.Fits m.size) : m.writeBatch stores = .ok (m.putAll stores) := by
  unfold writeBatch
  rw [mapM_place few h, ← apply_zip]
  rfl

/-- The first store that cannot be placed decides. -/
theorem writeBatch_of_error {before after : List Store} {e : MemoryError}
    (few : ∀ w ∈ before, w.data.length < UInt32.size) (h : ∀ w ∈ before, w.Fits m.size)
    (hw : m.place w = .error e) : m.writeBatch (before ++ w :: after) = .error e := by
  unfold writeBatch
  rw [List.mapM_append, mapM_place few h, List.mapM_cons, hw]
  rfl

/-- The first store that does not fit is reported: for its alignment, and for its bounds if that is
not what is wrong. -/
theorem writeBatch_of_unfit {before after : List Store}
    (few : ∀ x ∈ before ++ w :: after, x.data.length < UInt32.size)
    (h : ∀ x ∈ before, x.Fits m.size) :
    (w.ptr.toNat % w.element.size ≠ 0 →
      m.writeBatch (before ++ w :: after) = .error (.misaligned w.ptr w.element)) ∧
    (w.ptr.toNat % w.element.size = 0 → m.size < w.ptr.toNat + w.data.length →
      m.writeBatch (before ++ w :: after) =
        .error (.outOfBounds w.ptr w.data.length m.size)) := by
  have hfew : ∀ x ∈ before, x.data.length < UInt32.size := by
    intro x hx
    exact few x (List.mem_append_left _ hx)
  have hplace := place_eq (few w (List.mem_append_right _ List.mem_cons_self)) m
  constructor
  · intro hal
    apply writeBatch_of_error hfew h
    rw [hplace, if_pos hal]
  · intro hal hout
    apply writeBatch_of_error hfew h
    rw [hplace, if_neg (by simpa using hal), if_pos hout]

theorem writeBatch_eq_ok_iff (few : ∀ w ∈ stores, w.data.length < UInt32.size) {m' : Memory} :
    m.writeBatch stores = .ok m' ↔ (∀ w ∈ stores, w.Fits m.size) ∧ m' = m.putAll stores := by
  constructor
  · intro hm'
    rcases Store.fits_or_first_unfit stores m.size with h | ⟨before, w, after, rfl, hbefore, hw⟩
    · exact ⟨h, Except.ok.inj (hm'.symm.trans (writeBatch_of_fits few h))⟩
    obtain ⟨hmis, hout⟩ := writeBatch_of_unfit few hbefore
    by_cases hal : w.ptr.toNat % w.element.size = 0
    · have hlt : m.size < w.ptr.toNat + w.data.length :=
        Nat.lt_of_not_le fun hle => hw ⟨hal, hle⟩
      cases hm'.symm.trans (hout hal hlt)
    · cases hm'.symm.trans (hmis hal)
  · rintro ⟨h, rfl⟩
    exact writeBatch_of_fits few h

/-! ## The whole batch -/

/-- What a batch of stores does to a memory. -/
structure Batch (m : Memory) (stores : List Store) : Prop where
  /-- It is performed exactly if every store is aligned and in bounds. -/
  succeeds : (∃ m', m.writeBatch stores = .ok m') ↔ ∀ w ∈ stores, w.Fits m.size
  /-- Then the stores are made one after another, -/
  inOrder : ∀ m', m.writeBatch stores = .ok m' →
    m' = stores.foldl (fun m w => m.write w.ptr.toNat w.data) m ∧ m'.size = m.size
  /-- so that later ones win, -/
  lastWins : ∀ m', m.writeBatch stores = .ok m' → ∀ before w after i,
    stores = before ++ w :: after → w.range.Covers i → (∀ x ∈ after, ¬ x.range.Covers i) →
      m'.bytes[i]? = w.data[i - w.ptr.toNat]?
  /-- and what none covers stays. -/
  frame : ∀ m', m.writeBatch stores = .ok m' → ∀ i, (∀ w ∈ stores, ¬ w.range.Covers i) →
    m'.bytes[i]? = m.bytes[i]?
  /-- Otherwise the first store that does not fit is reported. -/
  fails : ∀ before w after, stores = before ++ w :: after → (∀ x ∈ before, x.Fits m.size) →
    (w.ptr.toNat % w.element.size ≠ 0 →
      m.writeBatch stores = .error (.misaligned w.ptr w.element)) ∧
    (w.ptr.toNat % w.element.size = 0 → m.size < w.ptr.toNat + w.data.length →
      m.writeBatch stores = .error (.outOfBounds w.ptr w.data.length m.size))
  /-- The guest's memory is replaced by what a batch has come to, and is left alone if it fails. -/
  kept : ∀ (G : Type) (c : Core G), c.bridge.attached = true → c.memory = m →
    Core.store stores c =
      match m.writeBatch stores with
      | .ok memory => (.ok (), { c with memory })
      | .error e => (.error (.memory e), c)
  /-- Numbers are stored as four bytes, the least significant first, and negative ones in two's
  complement. -/
  digits : ∀ j < 4, (∀ ptr v, (Store.word ptr v).data[j]? = some (.ofNat (v.toNat / 256 ^ j))) ∧
    ∀ ptr v, (Store.int ptr v).data[j]? =
      some (.ofNat ((v.toInt % 2 ^ 32).toNat / 256 ^ j))

/-- A batch of stores that can be counted by the guest is performed as a whole, in order, or not at
all. -/
theorem batch_all_or_nothing (m : Memory) (stores : List Store)
    (few : ∀ w ∈ stores, w.data.length < UInt32.size) : m.Batch stores := by
  have done : ∀ m', m.writeBatch stores = .ok m' →
      (∀ w ∈ stores, w.Fits m.size) ∧ m' = m.putAll stores := by
    intro m' hm'
    exact (writeBatch_eq_ok_iff few).1 hm'
  refine ⟨⟨?_, ?_⟩, ?_, ?_, ?_, ?_, ?_, ?_⟩
  · rintro ⟨m', hm'⟩
    exact (done m' hm').1
  · intro h
    exact ⟨_, writeBatch_of_fits few h⟩
  · intro m' hm'
    obtain ⟨h, rfl⟩ := done m' hm'
    exact ⟨rfl, size_putAll h⟩
  · rintro m' hm' before w after i rfl hw hafter
    obtain ⟨h, rfl⟩ := done m' hm'
    rw [getElem?_putAll h, Store.last?_of_covers hw hafter]
  · intro m' hm' i hi
    obtain ⟨h, rfl⟩ := done m' hm'
    rw [getElem?_putAll h, Store.last?_eq_none_iff.2 hi]
  · rintro before w after rfl hbefore
    exact writeBatch_of_unfit few hbefore
  · rintro G c ha rfl
    exact Core.store_eq ha stores
  · intro j hj
    constructor
    · intro ptr v
      exact getElem?_wordBytes v hj
    · intro ptr v
      rw [← toNat_toUInt32]
      exact getElem?_wordBytes v.toUInt32 hj

/-- A number is stored and its upper half overwritten by a text, which wins. -/
theorem batch_all_or_nothing_of_overlap :
    let m := Memory.zeros 8
    let stores : List Store := [.int 4 (-2), .bytes 6 [1, 2]]
    (∀ w ∈ stores, w.data.length < UInt32.size) ∧ m.Batch stores ∧
      m.writeBatch stores = .ok ⟨[0, 0, 0, 0, 254, 255, 1, 2]⟩ := by
  intro m stores
  have few : ∀ w ∈ stores, w.data.length < UInt32.size := by decide
  exact ⟨few, batch_all_or_nothing m stores few, rfl⟩

end Memory

end GuestBridge
