import GuestBridge.Proofs.Memory.Regions

/-!
# Accesses of memory

The checked operations see a memory as its size, bytes that they copy out of it and bytes that they
copy into it. `Routine` is work of that kind, and `Memory.Operation.marshal` each of the operations
written as such work, which comes to what the operation comes to (`Memory.Operation.does`).
`View.Resolution` says which views are accepted, in memories of every size and by the arithmetic of
any machine. `Memory.accesses_in_bounds` says that whatever an operation is asked for, the bytes it
copies lie in the memory, so that a memory whose slices fail beyond its end serves as well.
-/

set_option autoImplicit false

namespace GuestBridge

/-! ## Views -/

namespace View

/-- A number as far as a machine can hold it. -/
def held (top n : Nat) : Option Nat := if n ≤ top then some n else none

/-- The bytes of a view by the arithmetic of a machine that holds numbers up to `top`. -/
def heldRange (v : View) (top size : Nat) : Except MemoryError ByteRange :=
  if v.ptr.toNat % v.element.size ≠ 0 then .error (.misaligned v.ptr v.element)
  else
    match held top (v.count.toNat * v.element.size) with
    | none => .error (.outOfBounds v.ptr top size)
    | some len =>
      match (held top (v.ptr.toNat + len)).filter (· ≤ size) with
      | none => .error (.outOfBounds v.ptr len size)
      | some stop => .ok ⟨v.ptr.toNat, stop⟩

variable {v : View} {n top : Nat} {r : ByteRange}

theorem filter_held (h : n ≤ top) (k : Nat) :
    (held top k).filter (· ≤ n) = if k ≤ n then some k else none := by
  unfold held
  by_cases hk : k ≤ n
  · rw [if_pos (Nat.le_trans hk h), if_pos hk, Option.filter_some, if_pos (decide_eq_true hk)]
  · rw [if_neg hk]
    split
    · rw [Option.filter_some, if_neg (by simpa using hk)]
    · rfl

/-- A machine that can count the bytes of a view does not differ. -/
theorem heldRange_eq (h : n ≤ top) (hlen : v.byteLen ≤ top) :
    v.heldRange top n = v.byteRange n := by
  have hheld : held top (v.count.toNat * v.element.size) = some v.byteLen := if_pos hlen
  unfold heldRange byteRange
  rw [hheld]
  simp only [filter_held h]
  by_cases hin : v.ptr.toNat + v.byteLen ≤ n
  · rw [if_pos hin, if_neg (Nat.not_lt.2 hin)]
  · rw [if_neg hin, if_pos (Nat.lt_of_not_le hin)]

/-- One that cannot has no memory that is large enough for the view either. -/
theorem heldRange_eq_ok_iff (h : n ≤ top) :
    v.heldRange top n = .ok r ↔ v.byteRange n = .ok r := by
  by_cases hlen : v.byteLen ≤ top
  · rw [heldRange_eq h hlen]
  · have hheld : held top (v.count.toNat * v.element.size) = none := if_neg hlen
    rw [byteRange_eq_ok_iff]
    unfold heldRange
    rw [hheld]
    constructor
    · intro hr
      split at hr <;> cases hr
    · rintro ⟨-, hin, -⟩
      omega

theorem byteRange_eq_error_iff {e : MemoryError} :
    v.byteRange n = .error e ↔
      v.ptr.toNat % v.element.size ≠ 0 ∧ e = .misaligned v.ptr v.element ∨
        v.ptr.toNat % v.element.size = 0 ∧ n < v.ptr.toNat + v.byteLen ∧
          e = .outOfBounds v.ptr v.byteLen n := by
  by_cases hal : v.ptr.toNat % v.element.size = 0
  · by_cases hin : v.ptr.toNat + v.byteLen ≤ n
    · rw [byteRange_eq_ok_iff.2 ⟨hal, hin, rfl⟩]
      have hout : ¬ n < v.ptr.toNat + v.byteLen := Nat.not_lt.2 hin
      simp [hal, hout]
    · have hout : n < v.ptr.toNat + v.byteLen := Nat.lt_of_not_le hin
      rw [byteRange_of_unfit hal hout]
      simp [hal, hout, eq_comm]
  · rw [byteRange_of_misaligned hal]
    simp [hal, eq_comm]

theorem byteRange_mono {n' : Nat} (h : n ≤ n') (hr : v.byteRange n = .ok r) :
    v.byteRange n' = .ok r := by
  rw [byteRange_eq_ok_iff] at hr ⊢
  obtain ⟨hal, hin, rfl⟩ := hr
  exact ⟨hal, Nat.le_trans hin h, rfl⟩

/-- What becomes of a view in a memory of `n` bytes. -/
structure Resolution (v : View) (n : Nat) : Prop where
  /-- It is accepted exactly if its pointer is aligned and its bytes lie in the memory. -/
  accepted : ∀ r, v.byteRange n = .ok r ↔
    v.ptr.toNat % v.element.size = 0 ∧ v.ptr.toNat + v.count.toNat * v.element.size ≤ n ∧
      r = ⟨v.ptr.toNat, v.ptr.toNat + v.count.toNat * v.element.size⟩
  /-- Otherwise its pointer is reported if that is not aligned, and its bounds only if it is. -/
  rejected : ∀ e, v.byteRange n = .error e ↔
    v.ptr.toNat % v.element.size ≠ 0 ∧ e = .misaligned v.ptr v.element ∨
      v.ptr.toNat % v.element.size = 0 ∧ n < v.ptr.toNat + v.count.toNat * v.element.size ∧
        e = .outOfBounds v.ptr (v.count.toNat * v.element.size) n
  /-- A memory that has grown accepts the same bytes. -/
  grown : ∀ n' r, n ≤ n' → v.byteRange n = .ok r → v.byteRange n' = .ok r
  /-- A machine that can hold the size of the memory accepts the same views. -/
  held : ∀ top, n ≤ top → (∀ r, v.heldRange top n = .ok r ↔ v.byteRange n = .ok r) ∧
    (v.count.toNat * v.element.size ≤ top → v.heldRange top n = v.byteRange n)

theorem resolution (v : View) (n : Nat) : v.Resolution n where
  accepted _ := byteRange_eq_ok_iff
  rejected _ := byteRange_eq_error_iff
  grown _ _ := byteRange_mono
  held _ h := ⟨fun _ => heldRange_eq_ok_iff h, heldRange_eq h⟩

/-- A view of no words is accepted at the end of a memory, and nowhere beyond it. -/
example : View.byteRange ⟨.u32, 8, 0⟩ 8 = .ok ⟨8, 8⟩ ∧
    View.byteRange ⟨.u32, 9, 0⟩ 8 = .error (.misaligned 9 .u32) ∧
    View.byteRange ⟨.u32, 12, 0⟩ 8 = .error (.outOfBounds 12 0 8) := by
  decide

end View

/-- A store has a view only if the guest can count its bytes. -/
theorem Store.few_of_view {w : Store} {v : View} (h : w.view = .ok v) :
    w.data.length < UInt32.size := by
  cases w with
  | word ptr value => exact (by decide : 4 < UInt32.size)
  | int ptr value => exact (by decide : 4 < UInt32.size)
  | bytes ptr data =>
    by_contra hmany
    have hmany : ¬ data.length < UInt32.size := hmany
    unfold view guestLen at h
    simp only [if_neg hmany] at h
    cases h

/-! ## Routines -/

/-- Work with a memory by way of its size and of copies out of it and into it. -/
inductive Routine (α : Type)
  | done (a : α)
  | size (next : Nat → Routine α)
  | read (offset len : Nat) (next : List UInt8 → Routine α)
  | write (offset : Nat) (data : List UInt8) (next : Routine α)

namespace Routine

variable {α β : Type}

def bind (f : α → Routine β) : Routine α → Routine β
  | done a => f a
  | size next => .size fun n => (next n).bind f
  | read offset len next => .read offset len fun data => (next data).bind f
  | write offset data next => .write offset data (next.bind f)

instance : Monad Routine where
  pure := .done
  bind s f := s.bind f

theorem bind_done (s : Routine α) : s.bind .done = s := by
  induction s with
  | done a => rfl
  | size next ih => exact congrArg size (funext ih)
  | read offset len next ih => exact congrArg (read offset len) (funext ih)
  | write offset data next ih => exact congrArg (write offset data) ih

theorem bind_bind {γ : Type} (s : Routine α) (f : α → Routine β) (g : β → Routine γ) :
    (s.bind f).bind g = s.bind fun a => (f a).bind g := by
  induction s with
  | done a => rfl
  | size next ih => exact congrArg size (funext ih)
  | read offset len next ih => exact congrArg (read offset len) (funext ih)
  | write offset data next ih => exact congrArg (write offset data) ih

instance : LawfulMonad Routine :=
  .mk' Routine bind_done (fun _ _ => rfl) bind_bind

/-- What the work comes to, and what becomes of the memory. -/
def run : Routine α → Memory → α × Memory
  | done a, m => (a, m)
  | size next, m => (next m.size).run m
  | read offset len next, m => (next (m.read offset len)).run m
  | write offset data next, m => next.run (m.write offset data)

/-- The bytes that are copied, in the order of the copies. -/
def accesses : Routine α → Memory → List ByteRange
  | done _, _ => []
  | size next, m => (next m.size).accesses m
  | read offset len next, m => ⟨offset, offset + len⟩ :: (next (m.read offset len)).accesses m
  | write offset data next, m =>
    ⟨offset, offset + data.length⟩ :: next.accesses (m.write offset data)

/-- The same work with a memory whose bytes are copied by way of slices, which fails if one of them
reaches beyond the end. -/
def slicing : Routine α → Memory → Option (α × Memory)
  | done a, m => some (a, m)
  | size next, m => (next m.size).slicing m
  | read offset len next, m =>
    if offset + len ≤ m.size then (next (m.read offset len)).slicing m else none
  | write offset data next, m =>
    if offset + data.length ≤ m.size then next.slicing (m.write offset data) else none

theorem run_bind (s : Routine α) (f : α → Routine β) (m : Memory) :
    (s.bind f).run m = (f (s.run m).1).run (s.run m).2 := by
  induction s generalizing m with
  | done a => rfl
  | size next ih => exact ih m.size m
  | read offset len next ih => exact ih (m.read offset len) m
  | write offset data next ih => exact ih (m.write offset data)

theorem accesses_bind (s : Routine α) (f : α → Routine β) (m : Memory) :
    (s.bind f).accesses m = s.accesses m ++ (f (s.run m).1).accesses (s.run m).2 := by
  induction s generalizing m with
  | done a => rfl
  | size next ih => exact ih m.size m
  | read offset len next ih => exact congrArg (_ :: ·) (ih (m.read offset len) m)
  | write offset data next ih => exact congrArg (_ :: ·) (ih (m.write offset data))

/-- Slices do if all that is copied lies in the memory, whose size no copy changes. -/
theorem slicing_eq {s : Routine α} {m : Memory} (h : ∀ r ∈ s.accesses m, r.stop ≤ m.size) :
    s.slicing m = some (s.run m) := by
  induction s generalizing m with
  | done a => rfl
  | size next ih => exact ih m.size h
  | read offset len next ih =>
    obtain ⟨hin, hnext⟩ := List.forall_mem_cons.1 h
    unfold slicing
    rw [if_pos hin]
    exact ih (m.read offset len) hnext
  | write offset data next ih =>
    obtain ⟨hin, hnext⟩ := List.forall_mem_cons.1 h
    unfold slicing
    rw [if_pos hin]
    apply ih
    rwa [Memory.size_write hin]

end Routine

/-! ## Checked work -/

/-- Work with a memory that may find fault with what it is asked for. -/
abbrev Marshal : Type → Type := ExceptT MemoryError Routine

namespace Marshal

def check (v : View) : Marshal ByteRange := ExceptT.mk (.size fun n => .done (v.byteRange n))

def copyOut (offset len : Nat) : Marshal (List UInt8) :=
  ExceptT.mk (.read offset len fun data => .done (.ok data))

def copyIn (offset : Nat) (data : List UInt8) : Marshal Unit :=
  ExceptT.mk (.write offset data (.done (.ok ())))

def readView (v : View) : Marshal (List UInt8) := do
  let range ← check v
  copyOut range.start (range.stop - range.start)

def readBytes (ptr len : UInt32) : Marshal (List UInt8) := readView (View.bytes ptr len)

def readString (ptr len : UInt32) : Marshal String := do
  return Text.latin (← readBytes ptr len)

def readWords (ptr count : UInt32) : Marshal (List UInt32) := do
  return wordsOf (← readView ⟨.u32, ptr, count⟩)

def readSingles (ptr count : UInt32) : Marshal (List Ieee.Single) := do
  return (wordsOf (← readView ⟨.f32, ptr, count⟩)).map Ieee.Single.mk

/-- The offset at which a store goes. -/
def place (store : Store) : Marshal Nat := do
  return (← check (← liftExcept store.view)).start

/-- All stores are placed before the first of them is made. -/
def writeBatch (stores : List Store) : Marshal Unit := do
  let offsets ← stores.mapM place
  (offsets.zip stores).forM fun (offset, store) => copyIn offset store.data

def writeBytes (ptr : UInt32) (data : List UInt8) : Marshal Unit := writeBatch [.bytes ptr data]

def writeWords (ptr : UInt32) (values : List UInt32) : Marshal Unit := do
  if values.length < UInt32.size then
    let range ← check ⟨.u32, ptr, UInt32.ofNat values.length⟩
    copyIn range.start (values.flatMap wordBytes)
  else throw (.tooLarge values.length)

variable {α β : Type} {x : Marshal α} {f : α → Marshal β} {m m' m'' : Memory}

/-- The work comes to an answer and a memory of the same size, and copies nothing that does not lie
in it. -/
structure Does (x : Marshal α) (m : Memory) (answer : Except MemoryError α) (m' : Memory) :
    Prop where
  run : x.run.run m = (answer, m')
  inside : ∀ r ∈ x.run.accesses m, r.stop ≤ m.size
  size : m'.size = m.size

theorem run_bind (x : Marshal α) (f : α → Marshal β) (m : Memory) :
    (x >>= f).run.run m =
      match x.run.run m with
      | (.ok a, m') => (f a).run.run m'
      | (.error e, m') => (.error e, m') := by
  have h := Routine.run_bind x.run (ExceptT.bindCont f) m
  rcases hx : x.run.run m with ⟨e | a, m'⟩ <;> rw [hx] at h <;> exact h

theorem accesses_bind (x : Marshal α) (f : α → Marshal β) (m : Memory) :
    (x >>= f).run.accesses m = x.run.accesses m ++
      match x.run.run m with
      | (.ok a, m') => (f a).run.accesses m'
      | (.error _, _) => [] := by
  have h := Routine.accesses_bind x.run (ExceptT.bindCont f) m
  rcases hx : x.run.run m with ⟨e | a, m'⟩ <;> rw [hx] at h <;> exact h

theorem Does.bind {a : α} {answer : Except MemoryError β} (hx : Does x m (.ok a) m')
    (hf : Does (f a) m' answer m'') : Does (x >>= f) m answer m'' := by
  refine ⟨?_, ?_, hf.size.trans hx.size⟩
  · rw [run_bind, hx.run]
    exact hf.run
  · intro r hr
    rw [accesses_bind, hx.run, List.mem_append] at hr
    rcases hr with hr | hr
    · exact hx.inside r hr
    · rw [← hx.size]
      exact hf.inside r hr

theorem Does.bind_error {e : MemoryError} (hx : Does x m (.error e) m') :
    Does (x >>= f) m (.error e) m' := by
  refine ⟨?_, ?_, hx.size⟩
  · rw [run_bind, hx.run]
  · intro r hr
    rw [accesses_bind, hx.run, List.append_nil] at hr
    exact hx.inside r hr

theorem does_pure (a : α) (m : Memory) : Does (pure a) m (.ok a) m := ⟨rfl, nofun, rfl⟩

/-- What is made of an answer needs no memory. -/
theorem Does.map {answer : Except MemoryError α} (hx : Does x m answer m') (g : α → β) :
    Does (x >>= fun a => pure (g a)) m (answer >>= fun a => pure (g a)) m' := by
  cases answer with
  | error e => exact hx.bind_error
  | ok a => exact hx.bind (does_pure (g a) m')

theorem does_lift (answer : Except MemoryError α) (m : Memory) :
    Does (liftExcept answer) m answer m := by
  cases answer <;> exact ⟨rfl, nofun, rfl⟩

theorem does_check (v : View) (m : Memory) : Does (check v) m (m.check v) m := ⟨rfl, nofun, rfl⟩

theorem does_copyOut {offset len : Nat} (h : offset + len ≤ m.size) :
    Does (copyOut offset len) m (.ok (m.read offset len)) m :=
  ⟨rfl, List.forall_mem_singleton.2 h, rfl⟩

theorem does_copyIn {offset : Nat} {data : List UInt8} (h : offset + data.length ≤ m.size) :
    Does (copyIn offset data) m (.ok ()) (m.write offset data) :=
  ⟨rfl, List.forall_mem_singleton.2 h, Memory.size_write h⟩

/-- A region that was accepted is copied from where it lies. -/
theorem does_readView (v : View) (m : Memory) : Does (readView v) m (m.readView v) m := by
  have hcheck := does_check v m
  unfold Memory.readView
  rcases h : m.check v with e | range <;> rw [h] at hcheck
  · exact hcheck.bind_error
  · obtain ⟨-, hin, rfl⟩ := View.byteRange_eq_ok_iff.1 h
    apply hcheck.bind
    apply does_copyOut
    rwa [Nat.add_sub_cancel_left]

theorem does_place (w : Store) (m : Memory) : Does (place w) m (m.place w) m := by
  unfold place Memory.place
  generalize w.view = answer
  have hview := does_lift answer m
  cases answer with
  | error e => exact hview.bind_error
  | ok v => exact hview.bind ((does_check v m).map ByteRange.start)

/-- The stores are placed one after another, and none of them is made meanwhile. -/
theorem does_places (stores : List Store) (m : Memory) :
    Does (stores.mapM place) m (stores.mapM m.place) m := by
  induction stores with
  | nil => exact does_pure [] m
  | cons w stores ih =>
    rw [List.mapM_cons, List.mapM_cons]
    have hw := does_place w m
    rcases h : m.place w with e | offset <;> rw [h] at hw
    · exact hw.bind_error
    · exact hw.bind (ih.map _)

theorem fits_of_place {w : Store} {offset : Nat} (h : m.place w = .ok offset) :
    offset + w.data.length ≤ m.size := by
  have few : w.data.length < UInt32.size := by
    rcases hview : w.view with e | v
    · unfold Memory.place at h
      rw [hview] at h
      cases h
    · exact Store.few_of_view hview
  rw [Memory.place_eq few] at h
  split at h
  · cases h
  · split at h
    · cases h
    · cases h
      omega

theorem fits_of_places {stores : List Store} {offsets : List Nat}
    (h : stores.mapM m.place = .ok offsets) :
    ∀ p ∈ offsets.zip stores, p.1 + p.2.data.length ≤ m.size := by
  induction stores generalizing offsets with
  | nil => simp
  | cons w stores ih =>
    rw [List.mapM_cons] at h
    rcases hw : m.place w with e | offset <;> rw [hw] at h
    · cases h
    rcases hrest : stores.mapM m.place with e | rest <;> rw [hrest] at h
    · cases h
    cases h
    exact List.forall_mem_cons.2 ⟨fits_of_place hw, ih hrest⟩

/-- Stores that lie in the memory are made one after another; none of them changes its size. -/
theorem does_stores (placed : List (Nat × Store)) {m : Memory}
    (h : ∀ p ∈ placed, p.1 + p.2.data.length ≤ m.size) :
    Does (placed.forM fun (offset, store) => copyIn offset store.data) m (.ok ())
      (m.apply placed) := by
  induction placed generalizing m with
  | nil => exact does_pure () m
  | cons p placed ih =>
    obtain ⟨hp, hrest⟩ := List.forall_mem_cons.1 h
    have hsize := Memory.size_write hp
    exact (does_copyIn hp).bind (ih (by rwa [hsize]))

/-- What comes of a batch, from the memory that it would leave behind. -/
def written (m : Memory) : Except MemoryError Memory → Except MemoryError Unit × Memory
  | .ok m' => (.ok (), m')
  | .error e => (.error e, m)

theorem does_writeBatch (stores : List Store) (m : Memory) :
    Does (writeBatch stores) m (written m (m.writeBatch stores)).1
      (written m (m.writeBatch stores)).2 := by
  have hplaces := does_places stores m
  unfold Memory.writeBatch
  rcases h : stores.mapM m.place with e | offsets <;> rw [h] at hplaces
  · exact hplaces.bind_error
  · exact hplaces.bind (does_stores _ (fits_of_places h))

theorem does_writeWords (ptr : UInt32) (values : List UInt32) (m : Memory) :
    Does (writeWords ptr values) m (written m (m.writeWords ptr values)).1
      (written m (m.writeWords ptr values)).2 := by
  unfold writeWords Memory.writeWords
  by_cases hfew : values.length < UInt32.size
  · rw [if_pos hfew, if_pos hfew]
    have hcheck := does_check ⟨.u32, ptr, UInt32.ofNat values.length⟩ m
    rcases h : m.check ⟨.u32, ptr, UInt32.ofNat values.length⟩ with e | range <;>
      rw [h] at hcheck
    · exact hcheck.bind_error
    · obtain ⟨-, hin, rfl⟩ := View.byteRange_eq_ok_iff.1 h
      have hlen : (values.flatMap wordBytes).length =
          View.byteLen ⟨.u32, ptr, UInt32.ofNat values.length⟩ := by
        rw [length_flatMap_wordBytes]
        unfold View.byteLen
        rw [UInt32.toNat_ofNat_of_lt' hfew]
        rfl
      exact hcheck.bind (does_copyIn (by rwa [hlen]))
  · rw [if_neg hfew, if_neg hfew]
    exact ⟨rfl, nofun, rfl⟩

end Marshal

namespace Memory

/-- A checked operation, by what it answers. -/
inductive Operation : Type → Type
  | check (v : View) : Operation ByteRange
  | readView (v : View) : Operation (List UInt8)
  | readBytes (ptr len : UInt32) : Operation (List UInt8)
  | readString (ptr len : UInt32) : Operation String
  | readSingles (ptr count : UInt32) : Operation (List Ieee.Single)
  | readWords (ptr count : UInt32) : Operation (List UInt32)
  | writeBytes (ptr : UInt32) (data : List UInt8) : Operation Unit
  | writeWords (ptr : UInt32) (values : List UInt32) : Operation Unit
  | writeBatch (stores : List Store) : Operation Unit

namespace Operation

variable {α : Type}

/-- What the operation comes to, and the memory after it. -/
def outcome : Operation α → Memory → Except MemoryError α × Memory
  | check v, m => (m.check v, m)
  | readView v, m => (m.readView v, m)
  | readBytes ptr len, m => (m.readBytes ptr len, m)
  | readString ptr len, m => (m.readString ptr len, m)
  | readSingles ptr count, m => (m.readSingles ptr count, m)
  | readWords ptr count, m => (m.readWords ptr count, m)
  | writeBytes ptr data, m => Marshal.written m (m.writeBytes ptr data)
  | writeWords ptr values, m => Marshal.written m (m.writeWords ptr values)
  | writeBatch stores, m => Marshal.written m (m.writeBatch stores)

/-- The operation as work with a memory of which nothing else is known. -/
def marshal : Operation α → Marshal α
  | check v => Marshal.check v
  | readView v => Marshal.readView v
  | readBytes ptr len => Marshal.readBytes ptr len
  | readString ptr len => Marshal.readString ptr len
  | readSingles ptr count => Marshal.readSingles ptr count
  | readWords ptr count => Marshal.readWords ptr count
  | writeBytes ptr data => Marshal.writeBytes ptr data
  | writeWords ptr values => Marshal.writeWords ptr values
  | writeBatch stores => Marshal.writeBatch stores

theorem does (op : Operation α) (m : Memory) :
    op.marshal.Does m (op.outcome m).1 (op.outcome m).2 := by
  cases op with
  | check v => exact Marshal.does_check v m
  | readView v => exact Marshal.does_readView v m
  | readBytes ptr len => exact Marshal.does_readView _ m
  | readString ptr len => exact (Marshal.does_readView _ m).map Text.latin
  | readSingles ptr count =>
    exact (Marshal.does_readView _ m).map fun data => (wordsOf data).map Ieee.Single.mk
  | readWords ptr count => exact (Marshal.does_readView _ m).map wordsOf
  | writeBytes ptr data => exact Marshal.does_writeBatch [.bytes ptr data] m
  | writeWords ptr values => exact Marshal.does_writeWords ptr values m
  | writeBatch stores => exact Marshal.does_writeBatch stores m

end Operation

end Memory

namespace Memory

/-- Every checked operation is work that knows a memory by its size and by what it copies; all that
it copies lies in the memory, so slices of the memory serve for it. Its views are accepted as their
resolution says, and what was accepted stays so while the memory grows. -/
theorem accesses_in_bounds :
    (∀ (α : Type) (op : Operation α) (m : Memory),
      op.marshal.run.run m = op.outcome m ∧
        (∀ r ∈ op.marshal.run.accesses m, r.stop ≤ m.size) ∧
          op.marshal.run.slicing m = some (op.outcome m)) ∧
    (∀ (v : View) (n : Nat), v.Resolution n) ∧
    ∀ (v : View) (m : Memory) (n : Nat) (r : ByteRange), m.check v = .ok r →
      (m.grow n).check v = .ok r := by
  refine ⟨fun α op m => ?_, View.resolution, fun v m n r h => ?_⟩
  · have hdoes := op.does m
    refine ⟨hdoes.run, hdoes.inside, ?_⟩
    rw [Routine.slicing_eq hdoes.inside, hdoes.run]
  · have hsize : m.size ≤ (m.grow n).size := by
      rw [size_grow]
      exact Nat.le_max_left _ _
    exact View.byteRange_mono hsize h

end Memory

end GuestBridge
