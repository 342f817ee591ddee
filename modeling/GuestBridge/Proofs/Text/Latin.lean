import GuestBridge.Text.Basic

/-!
# Texts of one byte per character

Reading bytes one by one loses nothing (`Text.latin_inj`), and what comes out are the bytes
themselves (`Text.expands_latin`). Read so, the encoding of a text is as long as that text only if
no character took more than one byte, hence `Text.latin_utf8_eq_iff`: only ASCII comes back as it
was.
-/

set_option autoImplicit false

namespace GuestBridge.Text

/-- The bytes of a text are its encoding as the language has it. -/
theorem utf8_eq (text : String) : utf8 text = text.toUTF8.data.toList := by
  have h : text.toUTF8 = text.toList.utf8Encode := String.utf8Encode_toList.symm
  rw [h, List.utf8Encode, List.data_toByteArray]
  rfl

/-! ## One byte, one character -/

theorem toNat_latinChar (b : UInt8) : (Char.ofNat b.toNat).toNat = b.toNat := by
  have hb : b.toNat < 256 := b.toNat_lt
  have hvalid : b.toNat.isValidChar := Or.inl (by omega)
  unfold Char.ofNat
  rw [dif_pos hvalid]
  rfl

theorem toList_latin (bytes : List UInt8) :
    (latin bytes).toList = bytes.map fun b => Char.ofNat b.toNat := String.toList_ofList

/-- `text` has one character for each of the bytes, with the byte's value as its code point. -/
structure Expands (bytes : List UInt8) (text : String) : Prop where
  length : text.length = bytes.length
  low : ∀ c ∈ text.toList, c.toNat ≤ 0xFF
  codes : text.toList.map Char.toNat = bytes.map UInt8.toNat

theorem expands_latin (bytes : List UInt8) : Expands bytes (latin bytes) := by
  refine ⟨?_, ?_, ?_⟩
  · rw [← String.length_toList, toList_latin, List.length_map]
  · intro c hc
    rw [toList_latin] at hc
    obtain ⟨b, -, rfl⟩ := List.mem_map.1 hc
    have hb : b.toNat < 256 := b.toNat_lt
    rw [toNat_latinChar]
    omega
  · rw [toList_latin, List.map_map]
    exact List.map_congr_left fun b _ => toNat_latinChar b

/-- The bytes that a text was read from. -/
theorem Expands.bytes_eq {bytes : List UInt8} {text : String} (h : Expands bytes text) :
    bytes = text.toList.map fun c => UInt8.ofNat c.toNat := by
  have hcodes : text.toList.map (fun c => UInt8.ofNat c.toNat) =
      (bytes.map UInt8.toNat).map UInt8.ofNat := by
    rw [← h.codes, List.map_map]
    rfl
  rw [hcodes, List.map_map]
  exact (List.map_id' _).symm.trans (List.map_congr_left fun b _ => UInt8.ofNat_toNat.symm)

theorem latin_inj {bytes bytes' : List UInt8} : latin bytes = latin bytes' ↔ bytes = bytes' := by
  constructor
  · intro h
    have h' : Expands bytes' (latin bytes) := h ▸ expands_latin bytes'
    exact (expands_latin bytes).bytes_eq.trans h'.bytes_eq.symm
  · rintro rfl
    rfl

/-! ## Encodings -/

theorem utf8_eq_nil_iff {text : String} : utf8 text = [] ↔ text = "" := by
  unfold utf8
  rw [List.flatMap_eq_nil_iff]
  constructor
  · intro h
    have hnil : text.toList = [] := List.eq_nil_iff_forall_not_mem.2
      fun c hc => String.utf8EncodeChar_ne_nil (h c hc)
    exact String.toList_inj.1 hnil
  · rintro rfl c hc
    cases hc

/-- Every character takes at least one byte, and if all of them take no more, each takes one. -/
theorem length_le_of_encoded (cs : List Char) :
    cs.length ≤ (cs.flatMap String.utf8EncodeChar).length ∧
      ((cs.flatMap String.utf8EncodeChar).length = cs.length → ∀ c ∈ cs, c.utf8Size = 1) := by
  induction cs with
  | nil => exact ⟨Nat.le_refl 0, fun _ c hc => nomatch hc⟩
  | cons c cs ih =>
    obtain ⟨hle, hall⟩ := ih
    have hpos : 0 < c.utf8Size := c.utf8Size_pos
    have hcons : ((c :: cs).flatMap String.utf8EncodeChar).length =
        c.utf8Size + (cs.flatMap String.utf8EncodeChar).length := by
      rw [List.flatMap_cons, List.length_append, String.length_utf8EncodeChar]
    rw [hcons, List.length_cons]
    refine ⟨by omega, fun heq d hd => ?_⟩
    rcases List.mem_cons.1 hd with rfl | hd
    · omega
    · exact hall (by omega) d hd

theorem utf8Size_eq_one_iff_toNat {c : Char} : c.utf8Size = 1 ↔ c.toNat < 128 := by
  rw [Char.utf8Size_eq_one_iff, UInt32.le_iff_toNat_le]
  exact Nat.lt_succ_iff.symm

/-- ASCII is encoded as it is. -/
theorem map_encoded_of_ascii (cs : List Char) (h : ∀ c ∈ cs, c.toNat < 128) :
    (cs.flatMap String.utf8EncodeChar).map (fun b => Char.ofNat b.toNat) = cs := by
  induction cs with
  | nil => rfl
  | cons c cs ih =>
    have hc : c.toNat < 128 := h c List.mem_cons_self
    have henc : String.utf8EncodeChar c = [UInt8.ofNat c.toNat] := by
      unfold String.utf8EncodeChar
      exact if_pos (Nat.le_of_lt_succ hc)
    have hbyte : (UInt8.ofNat c.toNat).toNat = c.toNat :=
      UInt8.toNat_ofNat_of_lt' (Nat.lt_trans hc (by decide))
    rw [List.flatMap_cons, List.map_append, henc, List.map_singleton, hbyte, Char.ofNat_toNat,
      ih fun d hd => h d (List.mem_cons_of_mem c hd)]
    rfl

/-- Read byte by byte, an encoding is the text that was encoded only if all of it is ASCII. -/
theorem latin_utf8_eq_iff {text : String} :
    latin (utf8 text) = text ↔ ∀ c ∈ text.toList, c.toNat < 128 := by
  constructor
  · intro h c hc
    -- one character per byte, so the encoding has as many bytes as the text has characters
    have hlen : (text.toList.flatMap String.utf8EncodeChar).length = text.toList.length := by
      have hexpands : text.length = (utf8 text).length :=
        (congrArg String.length h).symm.trans (expands_latin (utf8 text)).length
      rw [String.length_toList, hexpands]
      rfl
    exact utf8Size_eq_one_iff_toNat.1 ((length_le_of_encoded text.toList).2 hlen c hc)
  · intro h
    have hlist : (latin (utf8 text)).toList = text.toList := by
      rw [toList_latin]
      exact map_encoded_of_ascii text.toList h
    exact String.toList_inj.1 hlist

end GuestBridge.Text
