import GuestBridge.Proofs.Bench.Account

/-!
# Where copies lie

Copies lie one after another from the end of the allocations before them, each from the next
multiple of the alignment on (`layout`). They keep their order and do not meet
(`layout_pairwise`), and take no more room than their lengths, rounded up (`layoutEnd_le`).
`Account.Laid` is what making copies comes to: each of them is where the layout puts it, and all
that was allocated before is as it was. The layout of more copies begins where the one before it
ends, so this carries over (`Account.Laid.trans`), and the first copy is still there after the last.
-/

set_option autoImplicit false

namespace GuestBridge

theorem Memory.read_eq_of_take {m m' : Memory} {offset len : Nat}
    (h : m'.bytes.take (offset + len) = m.bytes.take (offset + len)) :
    m'.read offset len = m.read offset len := by
  unfold read
  rw [List.take_drop, List.take_drop, h]

theorem roundUp_mod (n : Nat) : roundUp allocationAlign n % allocationAlign = 0 :=
  Nat.mul_mod_left ..

namespace Bench

/-! ## Layouts -/

/-- What is copied into the guest: bytes on their own, or the image of a fetch. -/
inductive Copy
  | plain (data : List UInt8)
  | image (fetch : Accepted) (decoded : DecodedImage)

def Copy.bytes : Copy → List UInt8
  | plain data => data
  | image _ decoded => decoded.pixels

/-- A copy and the place where it begins. -/
structure Region where
  start : Nat
  copy : Copy

namespace Region

variable (r : Region)

def stop : Nat := r.start + r.copy.bytes.length

def ptr : UInt32 := .ofNat r.start

def len : UInt32 := .ofNat r.copy.bytes.length

/-- The bytes that the guest finds the copy in. -/
def range : ByteRange := ⟨r.ptr.toNat, r.ptr.toNat + r.len.toNat⟩

/-- What is left to do once the image of a fetch has been copied. -/
def completion? : Option Completion :=
  match r.copy with
  | .plain _ => none
  | .image fetch decoded => some (completion fetch decoded r.ptr)

/-- A memory in which the bytes are where they were copied to. -/
structure Held (m : Memory) : Prop where
  inside : r.stop ≤ m.size
  read : m.read r.start r.copy.bytes.length = r.copy.bytes

variable {r} {m : Memory}

theorem toNat_ptr (h : r.stop < UInt32.size) : r.ptr.toNat = r.start :=
  UInt32.toNat_ofNat_of_lt' (Nat.lt_of_le_of_lt (Nat.le_add_right ..) h)

theorem length_lt_of_stop_lt (h : r.stop < UInt32.size) : r.copy.bytes.length < UInt32.size :=
  Nat.lt_of_le_of_lt (Nat.le_add_left _ r.start) h

/-- Below the end of the address space the guest finds a copy where it is. -/
theorem range_eq (h : r.stop < UInt32.size) : r.range = ⟨r.start, r.stop⟩ := by
  have hlen : r.len.toNat = r.copy.bytes.length :=
    UInt32.toNat_ofNat_of_lt' (length_lt_of_stop_lt h)
  unfold range
  rw [toNat_ptr h, hlen]
  rfl

theorem Held.readBytes (h : r.Held m) (hr : r.stop < UInt32.size) :
    m.readBytes r.ptr r.len = .ok r.copy.bytes := by
  have hptr := toNat_ptr hr
  refine Memory.readBytes_of_read (length_lt_of_stop_lt hr) ?_ ?_ <;> rw [hptr]
  · exact h.inside
  · exact h.read

end Region

/-- Where copies lie if `next` is the end of what was allocated before; of no bytes there is
no copy. -/
def layout (next : Nat) : List Copy → List Region
  | [] => []
  | c :: rest =>
    if c.bytes.isEmpty then layout next rest
    else
      let r : Region := ⟨roundUp allocationAlign next, c⟩
      r :: layout r.stop rest

/-- The end of the last copy. -/
def layoutEnd (next : Nat) (copies : List Copy) : Nat :=
  (layout next copies).foldl (fun _ r => r.stop) next

/-- The room that copies take at most: the sum of their lengths, each rounded up. -/
def room : List Copy → Nat
  | [] => 0
  | c :: rest => roundUp allocationAlign c.bytes.length + room rest

theorem room_cons (c : Copy) (rest : List Copy) :
    room (c :: rest) = roundUp allocationAlign c.bytes.length + room rest := rfl

section

variable {next : Nat} {c : Copy}

theorem layout_cons_of_isEmpty (h : c.bytes.isEmpty = true) (rest : List Copy) :
    layout next (c :: rest) = layout next rest := if_pos h

theorem layout_cons (h : c.bytes.isEmpty = false) (rest : List Copy) :
    layout next (c :: rest) = ⟨roundUp allocationAlign next, c⟩ ::
      layout (roundUp allocationAlign next + c.bytes.length) rest :=
  if_neg (by simp [h])

theorem layoutEnd_cons_of_isEmpty (h : c.bytes.isEmpty = true) (rest : List Copy) :
    layoutEnd next (c :: rest) = layoutEnd next rest := by
  unfold layoutEnd
  rw [layout_cons_of_isEmpty h]

theorem layoutEnd_cons (h : c.bytes.isEmpty = false) (rest : List Copy) :
    layoutEnd next (c :: rest) =
      layoutEnd (roundUp allocationAlign next + c.bytes.length) rest := by
  unfold layoutEnd
  rw [layout_cons h]
  rfl

theorem mem_layout_singleton {r : Region} (h : r ∈ layout next [c]) :
    c.bytes.isEmpty = false ∧ r = ⟨roundUp allocationAlign next, c⟩ := by
  cases hc : c.bytes.isEmpty with
  | true =>
    rw [layout_cons_of_isEmpty hc] at h
    cases h
  | false =>
    rw [layout_cons hc] at h
    exact ⟨rfl, List.mem_singleton.1 h⟩

/-- Further copies lie where those before them end. -/
theorem layout_append (next : Nat) (copies more : List Copy) :
    layout next (copies ++ more) =
      layout next copies ++ layout (layoutEnd next copies) more := by
  unfold layoutEnd
  fun_induction layout next copies with
  | case1 next => rfl
  | case2 next c rest hc ih =>
    rw [List.cons_append, layout_cons_of_isEmpty hc]
    exact ih
  | case3 next c rest hc first ih =>
    rw [List.cons_append, layout_cons (by simpa using hc), List.cons_append]
    exact congrArg (first :: ·) ih

theorem layoutEnd_append (next : Nat) (copies more : List Copy) :
    layoutEnd next (copies ++ more) = layoutEnd (layoutEnd next copies) more := by
  unfold layoutEnd
  rw [layout_append, List.foldl_append]
  rfl

theorem le_layoutEnd (next : Nat) (copies : List Copy) : next ≤ layoutEnd next copies := by
  unfold layoutEnd
  fun_induction layout next copies with
  | case1 next => exact Nat.le_refl _
  | case2 next c rest hc ih => exact ih
  | case3 next c rest hc r ih =>
    have hstop : next ≤ r.stop := Nat.le_trans (le_roundUp next) (Nat.le_add_right ..)
    exact Nat.le_trans hstop ih

theorem layoutEnd_le_append (next : Nat) (copies more : List Copy) :
    layoutEnd next copies ≤ layoutEnd next (copies ++ more) := by
  rw [layoutEnd_append]
  exact le_layoutEnd _ more

/-- What is known of the place of a copy. -/
structure Region.Within (r : Region) (next stop : Nat) : Prop where
  aligned : r.start % allocationAlign = 0
  next_le : next ≤ r.start
  stop_le : r.stop ≤ stop

theorem layout_within (next : Nat) (copies : List Copy) :
    ∀ r ∈ layout next copies, r.Within next (layoutEnd next copies) := by
  unfold layoutEnd
  fun_induction layout next copies with
  | case1 next => exact fun r hr => absurd hr List.not_mem_nil
  | case2 next c rest hc ih => exact ih
  | case3 next c rest hc first ih =>
    have hstop : next ≤ first.stop := Nat.le_trans (le_roundUp next) (Nat.le_add_right ..)
    rintro r (_ | ⟨_, hr⟩)
    · exact ⟨roundUp_mod next, le_roundUp next, le_layoutEnd first.stop rest⟩
    · obtain ⟨haligned, hle, hend⟩ := ih r hr
      exact ⟨haligned, Nat.le_trans hstop hle, hend⟩

/-- Each copy ends before the next one begins. -/
theorem layout_pairwise (next : Nat) (copies : List Copy) :
    (layout next copies).Pairwise fun r r' => r.stop ≤ r'.start := by
  fun_induction layout next copies with
  | case1 next => exact .nil
  | case2 next c rest hc ih => exact ih
  | case3 next c rest hc first ih =>
    exact .cons (fun r hr => (layout_within _ _ r hr).next_le) ih

theorem stop_lt_of_mem {copies : List Copy} (hn : layoutEnd next copies < UInt32.size) {r : Region}
    (h : r ∈ layout next copies) : r.stop < UInt32.size :=
  Nat.lt_of_le_of_lt (layout_within _ _ r h).stop_le hn

theorem layout_apart {copies : List Copy} (hn : layoutEnd next copies < UInt32.size) :
    (layout next copies).Pairwise fun r r' => r.range.Apart r'.range := by
  refine (layout_pairwise next copies).imp_of_mem fun {r r'} hr hr' h i hi hi' => ?_
  rw [Region.range_eq (stop_lt_of_mem hn hr)] at hi
  rw [Region.range_eq (stop_lt_of_mem hn hr')] at hi'
  have hlt : i < r.stop := hi.2
  have hle : r'.start ≤ i := hi'.1
  omega

theorem roundUp_layoutEnd_le (next : Nat) (copies : List Copy) :
    roundUp allocationAlign (layoutEnd next copies) ≤
      roundUp allocationAlign next + room copies := by
  unfold layoutEnd
  fun_induction layout next copies with
  | case1 next => exact Nat.le_refl _
  | case2 next c rest hc ih =>
    rw [room_cons]
    omega
  | case3 next c rest hc first ih =>
    -- The end of the first copy, rounded up, is its start and its own length rounded up.
    have hround : roundUp allocationAlign first.stop =
        roundUp allocationAlign next + roundUp allocationAlign c.bytes.length := by
      show roundUp allocationAlign (roundUp allocationAlign next + c.bytes.length) = _
      unfold roundUp allocationAlign
      omega
    rw [room_cons]
    show roundUp allocationAlign (((layout first.stop rest).foldl _ first.stop)) ≤ _
    omega

/-- From an aligned place on, copies end within the room that they take. -/
theorem layoutEnd_le (h : roundUp allocationAlign next = next) (copies : List Copy) :
    layoutEnd next copies ≤ next + room copies := by
  have hround := le_roundUp (layoutEnd next copies)
  have hroom := roundUp_layoutEnd_le next copies
  omega

end

/-! ## Copies on an account -/

namespace Account

variable {a a' a'' : Account} {copies more : List Copy} {c : Copy}

/-- After a copy has been made, unless it is one of no bytes. -/
def place (c : Copy) (a : Account) : Account :=
  if c.bytes.isEmpty then a
  else
    let r : Region := ⟨roundUp allocationAlign a.allocator.next, c⟩
    { a.fill c.bytes with deferred := a.deferred ++ r.completion?.toList }

/-- The allocator was asked for room for the copies and for nothing else, and each is where the
layout puts it, in a memory that has not changed below. Their completions are put off, and the
completions `done` have left the queue. -/
structure Laid (copies : List Copy) (done : List Completion) (a a' : Account) : Prop where
  allocations : a'.allocations =
    a.allocations ++ (layout a.allocator.next copies).map Region.len
  next : a'.allocator.next = layoutEnd a.allocator.next copies
  grows : a.memory.size ≤ a'.memory.size
  frame (n : Nat) (hn : n ≤ a.allocator.next) (hs : n ≤ a.memory.size) :
    a'.memory.bytes.take n = a.memory.bytes.take n
  held (r : Region) (hr : r ∈ layout a.allocator.next copies) : r.Held a'.memory
  deferred : a.deferred ++ (layout a.allocator.next copies).filterMap Region.completion? =
    done ++ a'.deferred

namespace Laid

variable {done done' : List Completion}

/-- The guest is called, and completions leave their queue. -/
theorem of_queue {calls : List EntryPoint} {deferred : List Completion}
    (h : a' = { a with calls, deferred }) (hd : a.deferred = done ++ deferred) :
    Laid [] done a a' := by
  subst h
  exact ⟨(List.append_nil _).symm, rfl, Nat.le_refl _, fun _ _ _ => rfl, by simp [layout],
    (List.append_nil _).trans hd⟩

theorem of_calls (calls : List EntryPoint) (h : a' = { a with calls }) : Laid [] [] a a' :=
  .of_queue h rfl

theorem of_grow (size : Nat) : Laid [] [] a { a with memory := a.memory.grow size } :=
  ⟨(List.append_nil _).symm, rfl, by rw [Memory.size_grow]; exact Nat.le_max_left _ _,
    fun _ _ hs => Memory.take_grow hs size, by simp [layout], List.append_nil _⟩

/-- Of no bytes nothing is copied. -/
theorem of_isEmpty (h : c.bytes.isEmpty = true) : Laid [c] [] a a := by
  have hlayout : layout a.allocator.next [c] = [] := layout_cons_of_isEmpty h []
  refine ⟨?_, (layoutEnd_cons_of_isEmpty h []).symm, Nat.le_refl _, fun _ _ _ => rfl, ?_, ?_⟩
  · rw [hlayout]
    exact (List.append_nil _).symm
  · rw [hlayout]
    exact fun r hr => absurd hr List.not_mem_nil
  · rw [hlayout]
    exact List.append_nil _

/-- What lies below the end of the allocations is still there. -/
theorem held_of_held (h : Laid copies done a a') {r : Region} (hr : r.Held a.memory)
    (hn : r.stop ≤ a.allocator.next) : r.Held a'.memory where
  inside := Nat.le_trans hr.inside h.grows
  read := (Memory.read_eq_of_take (h.frame r.stop hn hr.inside)).trans hr.read

theorem trans (h : Laid copies done a a') (h' : Laid more done' a' a'') :
    Laid (copies ++ more) (done ++ done') a a'' where
  allocations := by
    rw [h'.allocations, h.allocations, h.next, layout_append, List.map_append, List.append_assoc]
  next := by rw [h'.next, h.next, layoutEnd_append]
  grows := Nat.le_trans h.grows h'.grows
  frame n hn hs := by
    have hle : a.allocator.next ≤ a'.allocator.next := h.next ▸ le_layoutEnd ..
    rw [h'.frame n (Nat.le_trans hn hle) (Nat.le_trans hs h.grows), h.frame n hn hs]
  held r hr := by
    rw [layout_append] at hr
    rcases List.mem_append.1 hr with hr | hr
    · exact h'.held_of_held (h.held r hr) (h.next ▸ (layout_within _ _ r hr).stop_le)
    · exact h'.held r (h.next ▸ hr)
  deferred := by
    rw [layout_append, List.filterMap_append, ← List.append_assoc, h.deferred, List.append_assoc,
      ← h.next, h'.deferred, List.append_assoc]

end Laid

/-- Below the end of the address space a copy is laid where the layout puts it. -/
theorem laid_place (hn : layoutEnd a.allocator.next [c] < UInt32.size) :
    Laid [c] [] a (a.place c) := by
  cases hc : c.bytes.isEmpty with
  | true =>
    have hplace : a.place c = a := if_pos hc
    rw [hplace]
    exact .of_isEmpty hc
  | false =>
    let r : Region := ⟨roundUp allocationAlign a.allocator.next, c⟩
    have hplace : a.place c =
        { a.fill c.bytes with deferred := a.deferred ++ r.completion?.toList } :=
      if_neg (by simp [hc])
    have hlayout : layout a.allocator.next [c] = [r] := layout_cons hc []
    have hend : layoutEnd a.allocator.next [c] = r.stop := layoutEnd_cons hc []
    have hlen : c.bytes.length < UInt32.size := Region.length_lt_of_stop_lt (r := r) (hend ▸ hn)
    have hsize := size_fill (a := a) hlen
    rw [hplace]
    refine ⟨?_, ?_, ?_, fun n => take_fill hlen, fun r' hr' => ?_, ?_⟩
    · rw [hlayout]
      rfl
    · rw [hend]
      exact congrArg (r.start + ·) (UInt32.toNat_ofNat_of_lt' hlen)
    · show _ ≤ (a.fill c.bytes).memory.size
      rw [hsize]
      exact a.size_le_size_allot _
    · obtain rfl : r' = r := by
        rw [hlayout] at hr'
        exact List.mem_singleton.1 hr'
      refine ⟨?_, read_fill hlen⟩
      show _ ≤ (a.fill c.bytes).memory.size
      rw [hsize]
      exact stop_le_size_allot hlen
    · rw [hlayout]
      rfl

/-- Completions leave their queue in order, and the guest is called for some of them; nothing else
happens. -/
structure Delivers (done told : List Completion) (a a' : Account) : Prop where
  queue : a.deferred = done ++ a'.deferred
  sublist : told.Sublist done
  account : a' = { a with calls := a.calls ++ told.map (·.entry), deferred := a'.deferred }

namespace Delivers

variable {done told done' told' : List Completion}

theorem refl (a : Account) : Delivers [] [] a a := ⟨rfl, .slnil, by simp⟩

theorem trans (h : Delivers done told a a') (h' : Delivers done' told' a' a'') :
    Delivers (done ++ done') (told ++ told') a a'' where
  queue := by rw [h.queue, h'.queue, List.append_assoc]
  sublist := h.sublist.append h'.sublist
  account := by
    rw [h'.account, h.account]
    simp

theorem laid (h : Delivers done told a a') : Laid [] done a a' := .of_queue h.account h.queue

theorem memory_eq (h : Delivers done told a a') : a'.memory = a.memory := by rw [h.account]

theorem calls_eq (h : Delivers done told a a') : a'.calls = a.calls ++ told.map (·.entry) := by
  rw [h.account]

end Delivers

end Account

end Bench

end GuestBridge
