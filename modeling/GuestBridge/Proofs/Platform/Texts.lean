import GuestBridge.Proofs.Platform.RoundTrip
import GuestBridge.Proofs.Text.Latin

/-!
# Texts that cross into the guest

A text is encoded on its way into the guest, and read byte by byte on its way back.
`Platform.texts_cross` says what that makes of it: one character for each byte of the encoding, so
that only ASCII comes back unchanged, but nothing that the memory holds is unreadable or lost.
-/

set_option autoImplicit false

namespace GuestBridge

namespace Memory

variable {m m' : Memory} {ptr len : UInt32}

theorem readString_of_fits (h : ptr.toNat + len.toNat ≤ m.size) :
    m.readString ptr len = .ok (Text.latin (m.read ptr.toNat len.toNat)) := by
  unfold readString
  rw [readBytes_eq h]
  rfl

/-- Whatever the bytes are, they can be read as a text if they lie within the memory. -/
theorem exists_readString_iff :
    (∃ text, m.readString ptr len = .ok text) ↔ ptr.toNat + len.toNat ≤ m.size := by
  constructor
  · rintro ⟨text, h⟩
    by_contra hunfit
    unfold readString at h
    rw [readBytes_of_unfit (Nat.lt_of_not_le hunfit)] at h
    cases h
  · intro h
    exact ⟨_, readString_of_fits h⟩

/-- Two regions hold the same bytes if they agree everywhere. -/
theorem read_eq_read_iff :
    m.read ptr.toNat len.toNat = m'.read ptr.toNat len.toNat ↔
      ∀ i < len.toNat, m.bytes[ptr.toNat + i]? = m'.bytes[ptr.toNat + i]? := by
  constructor
  · intro heq i hi
    rw [← getElem?_read hi, heq, getElem?_read hi]
  · intro hall
    apply List.ext_getElem?
    intro i
    by_cases hi : i < len.toNat
    · rw [getElem?_read hi, getElem?_read hi, hall i hi]
    · have hnone : ∀ n : Memory, (n.read ptr.toNat len.toNat)[i]? = none := by
        intro n
        apply List.getElem?_eq_none
        exact Nat.le_trans (List.length_take_le ..) (Nat.le_of_not_lt hi)
      rw [hnone m, hnone m']

/-- The bytes can be recovered from the text. -/
theorem readString_eq_readString_iff (h : ptr.toNat + len.toNat ≤ m.size)
    (h' : ptr.toNat + len.toNat ≤ m'.size) :
    m.readString ptr len = m'.readString ptr len ↔
      ∀ i < len.toNat, m.bytes[ptr.toNat + i]? = m'.bytes[ptr.toNat + i]? := by
  rw [readString_of_fits h, readString_of_fits h', Except.ok.injEq, Text.latin_inj,
    read_eq_read_iff]

end Memory

namespace Platform

variable {σ G : Type}

/-- What texts come to that are copied into the guest of a platform. -/
structure CarriesTexts (p : Platform σ G) : Prop where
  /-- A text is copied if the region for its encoding lies in the memory that the allocator left. -/
  copied : ∀ (s : σ) (text : String), (p.core s).bridge.attached = true → text ≠ "" →
    (Text.utf8 text).length < UInt32.size →
      ∀ ptr t, p.alloc (.ofNat (Text.utf8 text).length) s = (.ok ptr, t) →
        ptr.toNat + (Text.utf8 text).length ≤ (p.core t).memory.size →
          (p.copyToGuest (Text.utf8 text) s).1 =
            .ok (.copied ptr (.ofNat (Text.utf8 text).length))
  /-- From the region that it was copied to, the bytes of its encoding are read, one character for
  each of them; that is the text itself only if all of it is ASCII. -/
  returned : ∀ (s : σ) (text : String) (ptr len : UInt32),
    (p.copyToGuest (Text.utf8 text) s).1 = .ok (.copied ptr len) →
      ∃ back, (p.core (p.copyToGuest (Text.utf8 text) s).2).memory.readString ptr len = .ok back ∧
        back.length = len.toNat ∧ Text.Expands text.toUTF8.data.toList back ∧
        (back = text ↔ ∀ c ∈ text.toList, c.toNat < 128)

section

variable {p : Platform σ G} {s : σ} {bytes : List UInt8}

/-- Bytes that were copied are in the memory that there is afterwards. -/
theorem Lawful.readBytes_of_copied (hp : p.Lawful) {ptr len : UInt32}
    (hcopy : (p.copyToGuest bytes s).1 = .ok (.copied ptr len)) :
    len.toNat = bytes.length ∧
      (p.core (p.copyToGuest bytes s).2).memory.readBytes ptr len = .ok bytes := by
  rcases hr : p.copyToGuest bytes s with ⟨r, t⟩
  rw [hr] at hcopy
  cases hcopy
  obtain ⟨u, memory, hb, rfl, -, hw, rfl⟩ := copyToGuest_of_copied hr
  rw [hp.core_withCore]
  exact ⟨UInt32.toNat_ofNat_of_lt' hb, Memory.readBytes_of_writeBatch hb hw⟩

end

/-- What is read back of a text are the bytes of its encoding, which is the text itself only for
ASCII. Regions are readable as texts whatever they hold, and differ as texts if their bytes do. -/
theorem texts_cross {p : Platform σ G} (hp : p.Lawful) :
    p.CarriesTexts ∧
      (∀ (m : Memory) (ptr len : UInt32),
        (∃ text, m.readString ptr len = .ok text) ↔ ptr.toNat + len.toNat ≤ m.size) ∧
      ∀ (m m' : Memory) (ptr len : UInt32),
        ptr.toNat + len.toNat ≤ m.size → ptr.toNat + len.toNat ≤ m'.size →
          (m.readString ptr len = m'.readString ptr len ↔
            ∀ i < len.toNat, m.bytes[ptr.toNat + i]? = m'.bytes[ptr.toNat + i]?) := by
  refine ⟨⟨?_, ?_⟩, fun m ptr len => Memory.exists_readString_iff,
    fun m m' ptr len => Memory.readString_eq_readString_iff⟩
  · intro s text ha hne hb ptr t hal hfits
    have he : Text.utf8 text ≠ [] := fun h => hne (Text.utf8_eq_nil_iff.1 h)
    rw [hp.copyToGuest_of_fits ha he hb hal hfits]
  · intro s text ptr len hcopy
    obtain ⟨hlen, hread⟩ := hp.readBytes_of_copied hcopy
    have hback : Text.Expands (Text.utf8 text) (Text.latin (Text.utf8 text)) :=
      Text.expands_latin (Text.utf8 text)
    refine ⟨Text.latin (Text.utf8 text), ?_, ?_, ?_, Text.latin_utf8_eq_iff⟩
    · unfold Memory.readString
      rw [hread]
      rfl
    · rw [hback.length, hlen]
    · rwa [← Text.utf8_eq]

/-- A text of four characters and nine bytes, of which only the first character is ASCII. -/
theorem texts_cross_beyond_ascii :
    let b : Bench.ScriptedBench :=
      { Bench.scripted 16 true with guest := { allocations := [.ok 6] } }
    let p := Bench.platform (Bench.performFor 0)
    p.Lawful ∧ p.CarriesTexts ∧
      (p.copyToGuest (Text.utf8 "aé√∞") b).1 = .ok (.copied 6 9) ∧
      (p.core (p.copyToGuest (Text.utf8 "aé√∞") b).2).memory.readString 6 9 =
        .ok "a\u00c3\u00a9\u00e2\u0088\u009a\u00e2\u0088\u009e" :=
  ⟨Bench.platform_lawful 0, (texts_cross (Bench.platform_lawful 0)).1, by decide +kernel,
    by decide +kernel⟩

end Platform

end GuestBridge
