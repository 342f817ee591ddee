import GuestBridge.Proofs.Memory.Access
import Mathlib.Data.List.Induction

/-!
# Arrays in memory

An array of words can be written as a whole or word by word, and read as words, as singles, one
element at a time, or as bytes. `Memory.WordByWord` says how the two ways to write go together, and
`Memory.SameArray` the ways to read; `Memory.arrays_agree` that they do, for arrays of any length at
any pointer.
-/

set_option autoImplicit false

namespace GuestBridge

/-- The same fault, found with a view of other elements. -/
def MemoryError.withElement (element : Element) : MemoryError → MemoryError
  | misaligned ptr _ => .misaligned ptr element
  | e => e

/-- Elements of one size cover the same bytes, and find the same faults. -/
theorem View.byteRange_withElement (v : View) (element : Element)
    (h : element.size = v.element.size) (size : Nat) :
    View.byteRange { v with element } size =
      (v.byteRange size).mapError (·.withElement element) := by
  unfold byteRange byteLen
  simp only [h]
  split
  · rfl
  · split <;> rfl

/-! ## Words and their bytes -/

theorem wordBytes_wordOf (a b c d : UInt8) : wordBytes (wordOf a b c d) = [a, b, c, d] := by
  have ha := a.toNat_lt
  have hb := b.toNat_lt
  have hc := c.toNat_lt
  have hd := d.toNat_lt
  have hw := toNat_wordOf a b c d
  -- a byte is the digit of the word at its place
  have digit (j : Nat) (x : UInt8) (hx : (wordOf a b c d).toNat / 256 ^ j % 256 = x.toNat) :
      UInt8.ofNat ((wordOf a b c d).toNat / 256 ^ j) = x := by
    rw [← UInt8.toNat_inj, UInt8.toNat_ofNat', ← hx]
  apply List.ext_getElem?
  intro j
  by_cases hj : j < 4
  · rw [getElem?_wordBytes _ hj]
    obtain rfl | rfl | rfl | rfl : j = 0 ∨ j = 1 ∨ j = 2 ∨ j = 3 := by omega
    all_goals
      refine congrArg some (digit _ _ ?_)
      rw [hw]
      omega
  · have hlen : (wordBytes (wordOf a b c d)).length = 4 := rfl
    rw [List.getElem?_eq_none (by omega), List.getElem?_eq_none (by simp; omega)]

/-- Bytes that make whole words are the bytes of these words. -/
theorem flatMap_wordBytes_wordsOf {bytes : List UInt8} (h : bytes.length % 4 = 0) :
    (wordsOf bytes).flatMap wordBytes = bytes := by
  fun_induction wordsOf bytes with
  | case1 a b c d rest ih =>
    have hrest : rest.length % 4 = 0 := by
      simp only [List.length_cons] at h
      omega
    rw [List.flatMap_cons, wordBytes_wordOf, ih hrest]
    rfl
  | case2 bytes hshort =>
    have hlt := length_lt_of_no_word hshort
    exact (List.eq_nil_of_length_eq_zero (by omega)).symm

theorem wordsOf_drop (bytes : List UInt8) (i : Nat) :
    wordsOf (bytes.drop (4 * i)) = (wordsOf bytes).drop i := by
  fun_induction wordsOf bytes generalizing i with
  | case1 a b c d rest ih =>
    cases i with
    | zero => rfl
    | succ i => exact ih i
  | case2 bytes hshort =>
    have hlt := length_lt_of_no_word hshort
    rw [List.drop_nil, List.eq_nil_iff_length_eq_zero, length_wordsOf, List.length_drop]
    omega

theorem wordsOf_take (bytes : List UInt8) (n : Nat) :
    wordsOf (bytes.take (4 * n)) = (wordsOf bytes).take n := by
  fun_induction wordsOf bytes generalizing n with
  | case1 a b c d rest ih =>
    cases n with
    | zero => rfl
    | succ n => exact congrArg (wordOf a b c d :: ·) (ih n)
  | case2 bytes hshort =>
    have hlt := length_lt_of_no_word hshort
    rw [List.take_nil, List.eq_nil_iff_length_eq_zero, length_wordsOf, List.length_take]
    omega

/-! ## Addresses -/

/-- The address of a word of an array, as the guest counts. -/
def wordAddress (ptr : UInt32) (i : Nat) : UInt32 := ptr + 4 * .ofNat i

/-- Every word of an array has an address. -/
def Addressable (ptr : UInt32) (count : Nat) : Prop :=
  ∀ i < count, ptr.toNat + 4 * i < UInt32.size

theorem toNat_wordAddress {ptr : UInt32} {i : Nat} (h : ptr.toNat + 4 * i < UInt32.size) :
    (wordAddress ptr i).toNat = ptr.toNat + 4 * i := by
  have hi : (UInt32.ofNat i).toNat = i := UInt32.toNat_ofNat_of_lt' (by omega)
  have h4 : (4 : UInt32).toNat = 4 := rfl
  unfold wordAddress
  rw [UInt32.toNat_add, UInt32.toNat_mul, hi, h4]
  have hsize : UInt32.size = 2 ^ 32 := rfl
  omega

namespace Memory

variable {m m' : Memory} {ptr count : UInt32} {values words : List UInt32}

/-! ## Writing -/

/-- The words of an array as stores of their own. -/
def wordStores (ptr : UInt32) (values : List UInt32) : List Store :=
  values.mapIdx fun i value => .word (wordAddress ptr i) value

theorem few_wordStores : ∀ w ∈ wordStores ptr values, w.data.length < UInt32.size := by
  intro w hw
  obtain ⟨i, hi, rfl⟩ := List.mem_mapIdx.1 hw
  exact (by decide : 4 < UInt32.size)

/-- The first word tells whether all are aligned, and the last one whether all lie in the memory. -/
theorem fits_wordStores (ha : Addressable ptr values.length) (hne : values ≠ []) :
    (∀ w ∈ wordStores ptr values, w.Fits m.size) ↔ m.HasArray ptr values.length := by
  have hpos : 0 < values.length := List.length_pos_iff.2 hne
  have each : (∀ w ∈ wordStores ptr values, w.Fits m.size) ↔ ∀ i < values.length,
      (ptr.toNat + 4 * i) % 4 = 0 ∧ ptr.toNat + 4 * i + 4 ≤ m.size := by
    constructor
    · intro h i hi
      rw [← toNat_wordAddress (ha i hi)]
      exact h _ (List.mem_mapIdx.2 ⟨i, hi, rfl⟩)
    · intro h w hw
      obtain ⟨i, hi, rfl⟩ := List.mem_mapIdx.1 hw
      have hfits := h i hi
      rw [← toNat_wordAddress (ha i hi)] at hfits
      exact hfits
  rw [each]
  constructor
  · intro h
    have hfirst := h 0 hpos
    have hlast := h (values.length - 1) (by omega)
    exact ⟨by omega, by omega⟩
  · rintro ⟨hal, hin⟩ i hi
    omega

theorem write_nil (m : Memory) (offset : Nat) : m.write offset [] = m := by
  unfold write
  rw [List.append_nil, List.length_nil, Nat.add_zero, List.take_append_drop]

/-- What is written behind what was just written goes with it. -/
theorem write_append {offset : Nat} (h : offset ≤ m.size) (data more : List UInt8) :
    (m.write offset data).write (offset + data.length) more = m.write offset (data ++ more) := by
  have hl : (m.bytes.take offset ++ data).length = offset + data.length := by
    rw [List.length_append, List.length_take_of_le h]
  unfold write
  rw [List.take_left' hl, List.append_assoc _ data more, List.length_append, ← List.drop_drop,
    List.drop_left' hl, List.drop_drop, Nat.add_assoc]

/-- Words that are stored one after another lie there as if they had been written at once. -/
theorem putAll_wordStores (ha : Addressable ptr values.length)
    (hin : ptr.toNat + 4 * values.length ≤ m.size) :
    m.putAll (wordStores ptr values) = m.write ptr.toNat (values.flatMap wordBytes) := by
  induction values using List.reverseRecOn with
  | nil => exact (write_nil m ptr.toNat).symm
  | append_singleton values value ih =>
    rw [List.length_append, List.length_singleton] at ha hin
    have hbefore := ih (fun i hi => ha i (by omega)) (by omega)
    have haddress := toNat_wordAddress (ha values.length (by omega))
    have hstop : (wordAddress ptr values.length).toNat =
        ptr.toNat + (values.flatMap wordBytes).length := by
      rw [haddress, length_flatMap_wordBytes, Nat.mul_comm]
    unfold wordStores at hbefore ⊢
    unfold putAll at hbefore ⊢
    rw [List.mapIdx_concat, List.foldl_append, hbefore, List.flatMap_append]
    show (m.write _ _).write (wordAddress ptr values.length).toNat (wordBytes value) = _
    rw [hstop, write_append (by omega), List.flatMap_singleton]

theorem writeWords_eq_ok_iff : m.writeWords ptr values = .ok m' ↔
    values.length < UInt32.size ∧ m.HasArray ptr values.length ∧
      m' = m.write ptr.toNat (values.flatMap wordBytes) := by
  unfold writeWords
  by_cases hfew : values.length < UInt32.size
  · have hlen : (UInt32.ofNat values.length).toNat = values.length :=
      UInt32.toNat_ofNat_of_lt' hfew
    rw [if_pos hfew]
    by_cases h : m.HasArray ptr values.length
    · rw [check_of_hasArray (by rwa [hlen])]
      constructor
      · intro he
        exact ⟨hfew, h, (Except.ok.inj he).symm⟩
      · rintro ⟨-, -, rfl⟩
        rfl
    · have hnot : ¬ m.HasArray ptr (UInt32.ofNat values.length).toNat := by rwa [hlen]
      obtain ⟨e, he⟩ := check_of_not_hasArray hnot
      rw [he]
      exact iff_of_false nofun fun hm => h hm.2.1
  · rw [if_neg hfew]
    exact iff_of_false nofun fun hm => hfew hm.1

/-- An array is written as a whole exactly if each word has an address and can be stored there. -/
theorem writeWords_eq_ok_iff_writeBatch (hne : values ≠ []) (hsize : m.size ≤ UInt32.size) :
    m.writeWords ptr values = .ok m' ↔
      Addressable ptr values.length ∧ m.writeBatch (wordStores ptr values) = .ok m' := by
  rw [writeWords_eq_ok_iff, writeBatch_eq_ok_iff few_wordStores]
  have hpos : 0 < values.length := List.length_pos_iff.2 hne
  constructor
  · rintro ⟨-, h, rfl⟩
    have ha : Addressable ptr values.length := by
      intro i hi
      have hin := h.2
      omega
    exact ⟨ha, (fits_wordStores ha hne).2 h, (putAll_wordStores ha h.2).symm⟩
  · rintro ⟨ha, hfits, rfl⟩
    have h := (fits_wordStores ha hne).1 hfits
    have hlast := ha (values.length - 1) (by omega)
    have hword : 4 < UInt32.size := by decide
    exact ⟨by omega, h, putAll_wordStores ha h.2⟩

/-- Writing word by word leaves behind the memory that writing the whole array does. -/
structure WordByWord (m : Memory) (ptr : UInt32) (values : List UInt32) : Prop where
  /-- An array can be written exactly if each of its words has an address and can be stored there. -/
  succeeds : (∃ m', m.writeWords ptr values = .ok m') ↔
    Addressable ptr values.length ∧ ∃ m', m.writeBatch (wordStores ptr values) = .ok m'
  /-- Whether or not it can, the memory is the same afterwards. -/
  memory : Addressable ptr values.length →
    ((Operation.writeWords ptr values).outcome m).2 =
      ((Operation.writeBatch (wordStores ptr values)).outcome m).2
  /-- What was written is read back. -/
  readBack : ∀ m', m.writeWords ptr values = .ok m' →
    m'.readWords ptr (.ofNat values.length) = .ok values

theorem wordByWord (hne : values ≠ []) (hsize : m.size ≤ UInt32.size) :
    m.WordByWord ptr values := by
  have hiff {m' : Memory} : m.writeWords ptr values = .ok m' ↔
      Addressable ptr values.length ∧ m.writeBatch (wordStores ptr values) = .ok m' :=
    writeWords_eq_ok_iff_writeBatch hne hsize
  refine ⟨⟨?_, ?_⟩, fun ha => ?_, fun m' hm' => ?_⟩
  · rintro ⟨m', hm'⟩
    obtain ⟨ha, hb⟩ := hiff.1 hm'
    exact ⟨ha, m', hb⟩
  · rintro ⟨ha, m', hb⟩
    exact ⟨m', hiff.2 ⟨ha, hb⟩⟩
  · show (Marshal.written m (m.writeWords ptr values)).2 =
      (Marshal.written m (m.writeBatch (wordStores ptr values))).2
    rcases hw : m.writeWords ptr values with e | m' <;>
      rcases hb : m.writeBatch (wordStores ptr values) with e' | m''
    · rfl
    · cases hw.symm.trans (hiff.2 ⟨ha, hb⟩)
    · cases hb.symm.trans (hiff.1 hw).2
    · exact Except.ok.inj ((hiff.1 hw).2.symm.trans hb)
  · obtain ⟨hfew, h, rfl⟩ := writeWords_eq_ok_iff.1 hm'
    have hlen : (UInt32.ofNat values.length).toNat = values.length :=
      UInt32.toNat_ofNat_of_lt' hfew
    have harray : m.HasArray ptr (UInt32.ofNat values.length).toNat := by rwa [hlen]
    have hback := readWords_write (check_of_hasArray harray) hlen.symm
    exact hback

/-! ## Reading -/

/-- Singles are the words that lie there, and are at fault where these are. -/
theorem readSingles_eq (m : Memory) (ptr count : UInt32) :
    m.readSingles ptr count =
      match m.readWords ptr count with
      | .ok words => .ok (words.map Ieee.Single.mk)
      | .error e => .error (e.withElement .f32) := by
  have hcheck : m.check ⟨.f32, ptr, count⟩ =
      (m.check ⟨.u32, ptr, count⟩).mapError (·.withElement .f32) :=
    View.byteRange_withElement ⟨.u32, ptr, count⟩ .f32 rfl m.size
  unfold readSingles readWords readView
  rw [hcheck]
  cases m.check ⟨.u32, ptr, count⟩ <;> rfl

theorem read_part {offset len i n : Nat} (h : i + n ≤ len) :
    m.read (offset + i) n = ((m.read offset len).drop i).take n := by
  unfold read
  rw [List.drop_take, List.take_take, List.drop_drop, Nat.min_eq_left (by omega)]

/-- An element of an array is the array of one element at its address. -/
theorem readWords_element (hw : m.readWords ptr count = .ok words) {i : Nat} {w : UInt32}
    (hi : words[i]? = some w) (ha : ptr.toNat + 4 * i < UInt32.size) :
    m.readWords (wordAddress ptr i) 1 = .ok [w] := by
  have hlt : i < count.toNat := by
    rw [← length_of_readWords hw]
    exact (List.getElem?_eq_some_iff.1 hi).1
  obtain ⟨h, rfl⟩ := readWords_eq_ok_iff.1 hw
  have haddress := toNat_wordAddress ha
  have hone : m.HasArray (wordAddress ptr i) 1 := by
    obtain ⟨hal, hin⟩ := h
    exact ⟨by omega, by omega⟩
  refine readWords_eq_ok_iff.2 ⟨hone, ?_⟩
  show [w] = wordsOf (m.read (wordAddress ptr i).toNat (4 * 1))
  rw [haddress, read_part (by omega : 4 * i + 4 * 1 ≤ 4 * count.toNat), wordsOf_take, wordsOf_drop,
    List.take_one, List.head?_drop, hi]
  rfl

/-- The bytes of the words of an array are those that lie there. -/
theorem read_eq_of_readWords (hw : m.readWords ptr count = .ok words) :
    m.read ptr.toNat (4 * count.toNat) = words.flatMap wordBytes := by
  obtain ⟨h, rfl⟩ := readWords_eq_ok_iff.1 hw
  refine (flatMap_wordBytes_wordsOf ?_).symm
  rw [length_read h.2]
  exact Nat.mul_mod_right ..

theorem readBytes_of_readWords (hw : m.readWords ptr count = .ok words) {len : UInt32}
    (hlen : len.toNat = 4 * count.toNat) :
    m.readBytes ptr len = .ok (words.flatMap wordBytes) := by
  have hin := (readWords_eq_ok_iff.1 hw).1.2
  rw [readBytes_eq (by rwa [hlen]), hlen, read_eq_of_readWords hw]

theorem readSingles_of_readWords (hw : m.readWords ptr count = .ok words) :
    m.readSingles ptr count = .ok (words.map Ieee.Single.mk) := by
  rw [readSingles_eq, hw]

/-- The words of an array are what any other way to read it finds. -/
structure Finds (m : Memory) (ptr count : UInt32) (words : List UInt32) : Prop where
  length : words.length = count.toNat
  /-- Singles have the bits of the words, whether or not they are numbers. -/
  singles : ∃ xs, m.readSingles ptr count = .ok xs ∧ xs.map (·.bits) = words
  /-- An element is found on its own where the guest can address it, -/
  element : ∀ i w, words[i]? = some w → ptr.toNat + 4 * i < UInt32.size →
    m.readWords (wordAddress ptr i) 1 = .ok [w] ∧
      m.readSingles (wordAddress ptr i) 1 = .ok [⟨w⟩]
  /-- which is everywhere in a memory that the guest can address. -/
  addressable : m.size ≤ UInt32.size → Addressable ptr words.length
  bytes : m.read ptr.toNat (4 * count.toNat) = words.flatMap wordBytes ∧
    ∀ len, len.toNat = 4 * count.toNat → m.readBytes ptr len = .ok (words.flatMap wordBytes)

theorem finds_of_readWords (hw : m.readWords ptr count = .ok words) :
    m.Finds ptr count words where
  length := length_of_readWords hw
  singles := by
    refine ⟨_, readSingles_of_readWords hw, ?_⟩
    rw [List.map_map]
    exact List.map_id _
  element i w hi ha := by
    have hone := readWords_element hw hi ha
    exact ⟨hone, readSingles_of_readWords hone⟩
  addressable hsize i hi := by
    have hin := (readWords_eq_ok_iff.1 hw).1.2
    rw [length_of_readWords hw] at hi
    omega
  bytes := ⟨read_eq_of_readWords hw, fun _ => readBytes_of_readWords hw⟩

/-- An array can be read as singles where it can be read as words, and else is as much at fault. -/
structure SameArray (m : Memory) (ptr count : UInt32) : Prop where
  succeeds : (∃ words, m.readWords ptr count = .ok words) ↔
    ∃ xs, m.readSingles ptr count = .ok xs
  /-- The element aside, the faults are the same. -/
  fails : ∀ e, m.readWords ptr count = .error e →
    m.readSingles ptr count = .error (e.withElement .f32)
  finds : ∀ words, m.readWords ptr count = .ok words → m.Finds ptr count words

theorem sameArray (m : Memory) (ptr count : UInt32) : m.SameArray ptr count := by
  refine ⟨?_, fun e he => ?_, fun words => finds_of_readWords⟩
  · rw [readSingles_eq]
    cases m.readWords ptr count <;> simp
  · rw [readSingles_eq, he]

/-- Arrays of words can be written as a whole or word by word, and read as words, as singles, one
element at a time or as bytes. -/
theorem arrays_agree (m : Memory) (ptr : UInt32) :
    (∀ values, values ≠ [] → m.size ≤ UInt32.size → m.WordByWord ptr values) ∧
      ∀ count, m.SameArray ptr count :=
  ⟨fun _ => wordByWord, m.sameArray ptr⟩

/-- Two words, of which one is no number, up to the end of a memory. -/
theorem arrays_agree_at_end :
    let m := Memory.zeros 12
    let values : List UInt32 := [0x7fa00001, 0xdeadbeef]
    values ≠ [] ∧ m.size ≤ UInt32.size ∧ m.WordByWord 4 values ∧
      m.writeBatch (wordStores 4 values) =
        .ok ⟨[0, 0, 0, 0, 0x01, 0x00, 0xa0, 0x7f, 0xef, 0xbe, 0xad, 0xde]⟩ ∧
      (Memory.mk [0, 0, 0, 0, 0x01, 0x00, 0xa0, 0x7f, 0xef, 0xbe, 0xad, 0xde]).readSingles 4 2 =
        .ok [⟨0x7fa00001⟩, ⟨0xdeadbeef⟩] := by
  intro m values
  have hne : values ≠ [] := nofun
  have hsize : m.size ≤ UInt32.size := by decide
  refine ⟨hne, hsize, (arrays_agree m 4).1 values hne hsize, ?_, ?_⟩
  · rfl
  · rfl

end Memory

end GuestBridge
