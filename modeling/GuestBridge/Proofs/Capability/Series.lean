import GuestBridge.Proofs.Bench.Natives
import GuestBridge.Proofs.Capability.Isolation

/-!
# Handles in series

`Core.Series` is a run of capabilities together with the calls made. Class by class, the handles
that it has handed out are 0, 1, 2 and so on, and the slots of the table hold what was made, in the
order of creation, or nothing any more. No location is ever deleted, so that a uniform setter fails
exactly for the handles that were not handed out yet (`Core.Series.numbered`).
-/

set_option autoImplicit false

namespace GuestBridge

namespace Capability

open GuestBridge.Core Attempt

/-- The handle of the location that a uniform setter is given. -/
def sets? : Capability → Option UInt32
  | uniform1f l _ | uniform1i l _ | uniform2fv l _ _ | uniform3fv l _ _ _ | uniform4fv l _ _ _ _
  | uniformMatrix4fv l _ _ _ => some l
  | _ => none

variable {G : Type} [GraphicsContext G] {s : Core G} {c : Capability} {k : ResourceClass}

/-- What a capability has made of a class, if it succeeds. -/
def madeOf (k : ResourceClass) (c : Capability) (s : Core G) : List Resource :=
  if c.issues? = some k then c.made s else []

/-- The handles of a class that a capability hands out. -/
def handedOf (k : ResourceClass) (c : Capability) (s : Core G) : List UInt32 :=
  if c.issues? = some k then c.handed s else []

/-- Whether a capability looks a location up successfully. -/
def locates (c : Capability) (s : Core G) : Bool :=
  c.issues? = some .uniformLocation && (c.run s).1.isOk

theorem handedOf_eq (c : Capability) (s : Core G) (k : ResourceClass) :
    c.handedOf k s =
      (List.range' (s.bridge.registry.len k) (c.madeOf k s).length).map UInt32.ofNat := by
  unfold handedOf madeOf
  split
  · next hk => exact ((c.isolated s).issued k hk).handles
  · rfl

/-- Some slots of a class are emptied, and what was made is put into new ones. -/
theorem slots_run (c : Capability) (s : Core G) (k : ResourceClass) :
    ∃ slots, List.Forall₂ (fun before after => after = before ∨ after = none)
        (s.bridge.registry.slots k) slots ∧
      (c.run s).2.bridge.registry.slots k = slots ++ (c.madeOf k s).map some := by
  have same : List.Forall₂ (fun before after => after = before ∨ after = none)
      (s.bridge.registry.slots k) (s.bridge.registry.slots k) :=
    List.forall₂_same.2 fun _ _ => .inl rfl
  have hc := c.isolated s
  unfold madeOf
  rcases hi : c.issues? with _ | k'
  · rw [if_neg nofun, List.map_nil]
    rcases he : c.empties? with _ | d
    · exact ⟨_, same, by rw [(hc.untouched hi he).1, List.append_nil]⟩
    · have hem := hc.emptied d he
      refine ⟨_, ?_, (List.append_nil _).symm⟩
      by_cases hk : k = d.resource
      · rw [hk, Registry.slots_resource, Registry.slots_resource, List.forall₂_map_left_iff,
          List.forall₂_map_right_iff]
        exact hem.slots.imp fun before after h => h.imp (congrArg _) (congrArg _)
      · rw [hem.slots_eq hk]
        exact same
  · have happ := hc.issued k' hi
    refine ⟨_, same, ?_⟩
    by_cases hk : k' = k
    · rw [if_pos (hk ▸ rfl), ← hk, happ.slots]
    · rw [if_neg fun h => hk (Option.some.inj h), happ.slots_eq (Ne.symm hk), List.map_nil,
        List.append_nil]

theorem len_run (c : Capability) (s : Core G) (k : ResourceClass) :
    (c.run s).2.bridge.registry.len k =
      s.bridge.registry.len k + (c.madeOf k s).length := by
  obtain ⟨slots, hslots, h⟩ := c.slots_run s k
  rw [← Registry.length_slots, ← Registry.length_slots, h, List.length_append, List.length_map,
    hslots.length_eq]

theorem slots_location_run (c : Capability) (s : Core G) :
    (c.run s).2.bridge.registry.slots .uniformLocation =
      s.bridge.registry.slots .uniformLocation ++
        (c.madeOf .uniformLocation s).map some := by
  have hc := c.isolated s
  rcases he : c.empties? with _ | d
  · rcases hi : c.issues? with _ | k'
    · rw [(hc.untouched hi he).1, madeOf, hi, if_neg nofun, List.map_nil, List.append_nil]
    · have happ := hc.issued k' hi
      by_cases hk : k' = .uniformLocation
      · subst hk
        rw [madeOf, if_pos hi, happ.slots]
      · rw [madeOf, if_neg fun h => hk (Option.some.inj (hi.symm.trans h)),
          happ.slots_eq (Ne.symm hk), List.map_nil, List.append_nil]
  · rw [(hc.emptied d he).slots_eq (by cases d <;> nofun), madeOf, issues?_of_empties? he,
      if_neg nofun, List.map_nil, List.append_nil]

theorem locationKind_run (c : Capability) (s : Core G) :
    (c.run s).2.bridge.registry.locations.kind = s.bridge.registry.locations.kind := by
  have hc := c.isolated s
  rcases hi : c.issues? with _ | k
  · rcases he : c.empties? with _ | d
    · rw [(hc.untouched hi he).1]
    · exact (hc.emptied d he).locationKind
  · exact (hc.issued k hi).locationKind

omit [GraphicsContext G] in
theorem issueCount_of_location (h : c.issues? = some .uniformLocation) : c.issueCount = 1 := by
  cases c with
  | generate b count outPtr => cases b <;> cases h
  | _ => first | rfl | cases h

/-- A location that is looked up successfully is one that is made. -/
theorem length_madeOf_location (c : Capability) (s : Core G) :
    (c.madeOf .uniformLocation s).length = (c.locates s).toNat := by
  unfold madeOf locates
  split
  · next hi =>
    have hlen : (c.made s).length = (c.handed s).length := by
      rw [((c.isolated s).issued _ hi).handles, List.length_map, List.length_range']
    rcases hr : (c.run s).1 with e | r
    · rw [(nothing_of_error hr).1]
      simp [Except.isOk, Except.toBool]
    · rw [hlen, (c.isolated s).count r hr, issueCount_of_location hi]
      simp [Except.isOk, Except.toBool, hi]
  · next hi => simp [hi]

omit [GraphicsContext G] in
/-- An action that looks a location up, and that cannot fail any more then. -/
theorem silent_location {f : Option Location → Action (Core G) Unit} (l : UInt32)
    (hf : ∀ o, ∃ t, f o s = (.ok (), t)) :
    (silent (location l >>= f) s).1 =
      ((s.bridge.registry.locations.get l).mapError .registry).map fun _ => .nothing := by
  have hl : location l s =
    ((s.bridge.registry.locations.get l).mapError .registry, s) := rfl
  rw [silent, bind_pure_apply]
  rcases hg : s.bridge.registry.locations.get l with e | o <;> rw [hg] at hl
  · rw [bind_of_error hl]
    rfl
  · obtain ⟨t, ht⟩ := hf o
    rw [bind_of_ok hl, ht]
    rfl

/-- How a uniform setter ends: as its handle resolves, if it can read its numbers. -/
theorem run_of_sets? {l : UInt32} (h : c.sets? = some l) (hf : c.fault? s = none) :
    (c.run s).1 =
      ((s.bridge.registry.locations.get l).mapError .registry).map fun _ => .nothing := by
  cases c with
  | uniform1f | uniform1i | uniform2fv | uniform3fv | uniform4fv =>
    cases h
    exact silent_location _ fun _ => ⟨_, rfl⟩
  | uniformMatrix4fv l count transpose ptr =>
    cases h
    replace hf : (if count.toNat * 16 < UInt32.size then _ else _) = none := hf
    show (silent (Core.uniformMatrix4fv l count transpose ptr) s).1 = _
    unfold Core.uniformMatrix4fv
    split at hf
    · next hlt =>
      rw [if_pos hlt, silent, bind_pure_apply]
      rcases access_cases (fun memory => memory.readSingles ptr (count * 16))
        (fun values => location l >>= fun o => native (.uniformMatrix4fv o transpose values)) s with
        ⟨e, he, -⟩ | ⟨values, -, -, -, hr⟩
      · cases hf.symm.trans he
      · rw [hr, ← silent_location (f := fun o => native (.uniformMatrix4fv o transpose values)) l
          fun _ => ⟨_, rfl⟩, silent, bind_pure_apply]
    · cases hf
  | _ => cases h

end Capability

namespace Core

open Attempt

variable {G : Type} [GraphicsContext G] {s : Core G} {calls : List (Capability × Core G)}
  {k : ResourceClass}

/-- The states that capabilities lead to, as in `Core.Run`, each with the capabilities that were
called and the states they found, oldest first. -/
inductive Series : List (Capability × Core G) → Core G → Prop
  | start {s : Core G} (registry : s.bridge.registry = {}) : Series [] s
  | capability {calls : List (Capability × Core G)} {s : Core G} (c : Capability)
    (before : Series calls s) : Series (calls ++ [(c, s)]) (c.run s).2
  | meanwhile {calls : List (Capability × Core G)} {s t : Core G} (before : Series calls s)
    (registry : t.bridge.registry = s.bridge.registry) : Series calls t

/-- Every run of capabilities can be told with its calls. -/
theorem Run.exists_series (h : Run s) : ∃ calls, Series calls s := by
  induction h with
  | start registry journal => exact ⟨[], .start registry⟩
  | capability c before ih =>
    obtain ⟨calls, ih⟩ := ih
    exact ⟨_, ih.capability c⟩
  | meanwhile before registry journal ih =>
    obtain ⟨calls, ih⟩ := ih
    exact ⟨calls, ih.meanwhile registry⟩

/-- What calls have made of a class, in the order of creation. -/
def madeIn (calls : List (Capability × Core G)) (k : ResourceClass) : List Resource :=
  calls.flatMap fun (c, s) => c.madeOf k s

/-- The handles of a class that calls have handed out, in order. -/
def handedIn (calls : List (Capability × Core G)) (k : ResourceClass) : List UInt32 :=
  calls.flatMap fun (c, s) => c.handedOf k s

/-- How many locations were looked up successfully. -/
def locatedIn (calls : List (Capability × Core G)) : Nat :=
  calls.countP fun (c, s) => c.locates s

theorem madeIn_concat (calls : List (Capability × Core G)) (c : Capability) (s : Core G)
    (k : ResourceClass) : madeIn (calls ++ [(c, s)]) k = madeIn calls k ++ c.madeOf k s := by
  simp [madeIn]

omit [GraphicsContext G] in
/-- What is in the slots or not any more is still so when some of them are emptied. -/
theorem forall₂_emptied {xs : List Resource} {before after : List (Option Resource)}
    (h : List.Forall₂ (fun x slot => slot = some x ∨ slot = none) xs before)
    (he : List.Forall₂ (fun before after => after = before ∨ after = none) before after) :
    List.Forall₂ (fun x slot => slot = some x ∨ slot = none) xs after := by
  induction h generalizing after with
  | nil => cases he; exact .nil
  | cons hx _ ih =>
    obtain _ | ⟨hs, he⟩ := he
    refine .cons ?_ (ih he)
    rcases hs with rfl | rfl
    · exact hx
    · exact .inr rfl

/-- The slots of each class are what was made of it, one after the other, where they are not
empty. -/
theorem Series.slots (h : Series calls s) (k : ResourceClass) :
    List.Forall₂ (fun x slot => slot = some x ∨ slot = none) (madeIn calls k)
      (s.bridge.registry.slots k) := by
  induction h with
  | start registry =>
    rw [registry]
    cases k <;> exact .nil
  | @capability calls s c before ih =>
    obtain ⟨slots, hslots, heq⟩ := c.slots_run s k
    rw [madeIn_concat, heq]
    exact List.rel_append (forall₂_emptied ih hslots)
      (List.forall₂_map_right_iff.2 (List.forall₂_same.2 fun _ _ => .inl rfl))
  | meanwhile before registry ih =>
    rw [registry]
    exact ih

theorem Series.handedIn_eq (h : Series calls s) (k : ResourceClass) :
    handedIn calls k = (List.range (s.bridge.registry.len k)).map UInt32.ofNat := by
  induction h with
  | start registry =>
    rw [registry]
    cases k <;> rfl
  | @capability calls s c before ih =>
    have hconcat : handedIn (calls ++ [(c, s)]) k = handedIn calls k ++ c.handedOf k s := by
      simp [handedIn]
    rw [hconcat, ih, c.handedOf_eq, c.len_run, List.range_add, List.map_append,
      List.range'_eq_map_range]
  | meanwhile before registry ih =>
    rw [registry]
    exact ih

theorem Series.located (h : Series calls s) :
    s.bridge.registry.len .uniformLocation = locatedIn calls := by
  induction h with
  | start registry =>
    rw [registry]
    rfl
  | @capability calls s c before ih =>
    rw [c.len_run, c.length_madeOf_location, ih, locatedIn, locatedIn, List.countP_append]
    cases h : c.locates s <;> simp [h]
  | meanwhile before registry ih =>
    rw [registry]
    exact ih

theorem Series.location_slots (h : Series calls s) :
    ∀ slot ∈ s.bridge.registry.slots .uniformLocation, slot.isSome := by
  induction h with
  | start registry =>
    rw [registry]
    exact nofun
  | @capability calls s c before ih =>
    rw [c.slots_location_run]
    intro slot hslot
    rcases List.mem_append.1 hslot with hslot | hslot
    · exact ih slot hslot
    · obtain ⟨x, -, rfl⟩ := List.mem_map.1 hslot
      rfl
  | meanwhile before registry ih =>
    rw [registry]
    exact ih

theorem Series.live_locations (h : Series calls s) :
    s.bridge.registry.locations.live = s.bridge.registry.locations.len := by
  refine List.countP_eq_length.2 fun slot hslot => ?_
  have hs := h.location_slots (slot.map .location) (List.mem_map_of_mem hslot)
  rwa [Option.isSome_map] at hs

theorem Series.locationKind (h : Series calls s) :
    s.bridge.registry.locations.kind = .uniformLocation := by
  induction h with
  | start registry => rw [registry]
  | @capability calls s c before ih => rw [c.locationKind_run, ih]
  | meanwhile before registry ih => rw [registry, ih]

/-! ## The whole run -/

/-- How the classes of handles keep apart and count up at a moment of a run. -/
structure Numbered (calls : List (Capability × Core G)) (s : Core G) : Prop where
  /-- Whatever capability comes next changes at most the table of its own class. -/
  isolated : ∀ c : Capability, c.Isolated s
  /-- The handles of a class that were handed out count up from 0, as words. -/
  handles : ∀ k, handedIn calls k = (List.range (s.bridge.registry.len k)).map UInt32.ofNat
  numbers : ∀ k, s.bridge.registry.len k ≤ UInt32.size →
    (handedIn calls k).map UInt32.toNat = List.range (s.bridge.registry.len k)
  /-- The slot of each handle holds what was made for it, in the order of creation, or nothing any
  more. -/
  slots : ∀ k, List.Forall₂ (fun x slot => slot = some x ∨ slot = none) (madeIn calls k)
    (s.bridge.registry.slots k)
  /-- No location is ever deleted, and there are as many as were looked up. -/
  live : s.bridge.registry.locations.live = s.bridge.registry.locations.len
  located : s.bridge.registry.locations.len = locatedIn calls
  /-- A uniform setter that can read its numbers fails for a handle that was not handed out yet,
  and for no other. -/
  setters : ∀ (c : Capability) l, c.sets? = some l → c.fault? s = none →
    ((∃ e, (c.run s).1 = .error e) ↔ locatedIn calls ≤ l.toNat) ∧
      ∀ e, (c.run s).1 = .error e → e = .registry (.outOfRange .uniformLocation l)

theorem map_toNat_ofNat_range {n : Nat} (h : n ≤ UInt32.size) :
    ((List.range n).map UInt32.ofNat).map UInt32.toNat = List.range n := by
  rw [List.map_map]
  refine (List.map_congr_left fun i hi => ?_).trans (List.map_id _)
  exact UInt32.toNat_ofNat_of_lt' (Nat.lt_of_lt_of_le (List.mem_range.1 hi) h)

/-- At every moment of a run the classes of handles have kept apart: each counts up on its own. -/
theorem Series.numbered (h : Series calls s) : Numbered calls s where
  isolated c := c.isolated s
  handles := h.handedIn_eq
  numbers k hk := by rw [h.handedIn_eq, map_toNat_ofNat_range hk]
  slots := h.slots
  live := h.live_locations
  located := h.located
  setters c l hc hf := by
    have hlen : s.bridge.registry.locations.len = locatedIn calls := h.located
    have hget := HandleTable.get_of_live h.live_locations l
    rw [Capability.run_of_sets? hc hf, ← hlen]
    split at hget
    · next hle =>
      rw [hget, h.locationKind]
      exact ⟨⟨fun _ => hle, fun _ => ⟨_, rfl⟩⟩, fun e he => (Except.error.inj he).symm⟩
    · next hlt =>
      obtain ⟨x, hx⟩ := hget
      rw [hx]
      exact ⟨⟨nofun, fun hle => absurd hle hlt⟩, nofun⟩

/-- A location is looked up in a program that there is not, and then in one that there is: the
handle of the second is 0, and only with it a setter succeeds. -/
theorem Series.numbered_of_location :
    let s : Core ScriptedContext :=
      { gl := {}, memory := .zeros 64, bridge := { attached := true } }
    let t := (Capability.run (.initShader 0 4 0) s).2
    let u := (Capability.run (.linkProgram 0 0) t).2
    let v := (Capability.run (.uniformLocation 7 0 4) u).2
    let calls : List (Capability × Core ScriptedContext) :=
      [(.initShader 0 4 0, s), (.linkProgram 0 0, t), (.uniformLocation 7 0 4, u),
        (.uniformLocation 0 0 4, v)]
    let w := (Capability.run (.uniformLocation 0 0 4) v).2
    Series calls w ∧ locatedIn calls = 1 ∧ handedIn calls .uniformLocation = [0] ∧
      ∀ l, (∃ e, (Capability.run (.uniform1i l 1) w).1 = .error e) ↔ 1 ≤ l.toNat := by
  intro s t u v calls w
  have hs : Series [] s := .start rfl
  have hw : Series calls w :=
    (((hs.capability (.initShader 0 4 0)).capability (.linkProgram 0 0)).capability
      (.uniformLocation 7 0 4)).capability (.uniformLocation 0 0 4)
  have hone : locatedIn calls = 1 := by decide
  have hn := hw.numbered
  refine ⟨hw, hone, ?_, fun l => ?_⟩
  · have hlen : w.bridge.registry.len .uniformLocation = 1 := hn.located.trans hone
    rw [hn.handles, hlen]
    rfl
  · rw [← hone]
    exact (hn.setters (.uniform1i l 1) l rfl rfl).1

end Core

/-- Every run on the bench can be told with its calls. -/
theorem Bench.exists_series {G C : Type} [GraphicsContext G] [AdjustableContext G C]
    {b : Bench G C} (hb : b.Fresh) (steps : List (Step C)) :
    ∃ calls, Core.Series calls (run steps b).core :=
  (run_core hb steps).exists_series

end GuestBridge
