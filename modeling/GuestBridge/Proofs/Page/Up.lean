import GuestBridge.Proofs.Page.Down
import GuestBridge.Proofs.Page.Ways

/-!
# Bringing a bridge up

A start goes through three stretches. Up to the moment when the new bridge has a guest nobody is
entered (`Placed`); then the guest sets itself up, and may do whatever it likes to the page; and
then listeners and the frame loop are installed, again with nobody entered (`Listening`, `Up`).
A start that succeeds leaves the page with a handle on the new bridge and with its listeners; one
that fails leaves neither a listener nor a loop of the new bridge (`start_meets`).
-/

set_option autoImplicit false

namespace GuestBridge

namespace Attempt

variable {ε δ σ α : Type} {P : σ → Prop} {Q : α → σ → Prop} {E E' : ε → σ → Prop}

theorem Meets.onError {x : Attempt ε σ α} {tidy : ε → σ → σ} (hx : Meets P x Q E)
    (ht : ∀ e s, E e s → E' e (tidy e s)) : Meets P (x.onError tidy) Q E' := by
  intro s hs
  have h := hx s hs
  unfold Attempt.onError
  rcases hr : x s with ⟨e | a, t⟩ <;> rw [hr] at h
  · exact ht e t h
  · exact h

theorem Meets.mapError {f : ε → δ} {F : δ → σ → Prop} {x : Attempt ε σ α} (hx : Meets P x Q E)
    (hf : ∀ e s, E e s → F (f e) s) : Meets P (x.mapError f) Q F := by
  intro s hs
  have h := hx s hs
  rw [mapError_apply]
  rcases hr : x s with ⟨e | a, t⟩ <;> rw [hr] at h
  · exact hf e t h
  · exact h

theorem Meets.mono {Q' : α → σ → Prop} {x : Attempt ε σ α} (hx : Meets P x Q E)
    (hq : ∀ a s, Q a s → Q' a s) (he : ∀ e s, E e s → E' e s) : Meets P x Q' E' := by
  intro s hs
  have h := hx s hs
  rcases hr : x s with ⟨e | a, t⟩ <;> rw [hr] at h
  · exact he e t h
  · exact hq a t h

end Attempt

namespace Page

open Attempt

variable {S : Nat → Prop} {st : List Nat} {again : Nat → Prop} {inner : Performer} {p q u : Page}
  {canvas : String}

/-! ## Up to the guest -/

/-- Nothing is done to the page before the bridge has its place, but what the journal tells. -/
theorem keeps_prepareCanvas {P : Page → Prop} (hP : ∀ q e, P q → P (q.did e)) (o : BridgeOptions) :
    Keeps P (prepareCanvas o) := by
  refine keeps_get.bind fun r => ?_
  split
  · exact keeps_fail _
  · split
    · exact keeps_fail _
    · refine (keeps_modify fun q h => hP _ _ (hP q _ h)).bind fun _ =>
        (keeps_modify fun q h => hP q _ h).bind fun _ =>
          (keeps_modify fun q h => hP q _ h).bind fun _ => ?_
      split
      · exact keeps_fail _
      · exact keeps_pure _
    · exact keeps_fail _

/-- A bridge without a guest has been given its place on page `u`, and nothing else has changed but
the importer and the journal. -/
def Placed (u : Page) (canvas : String) (q : Page) : Prop :=
  ∃ i importer journal, q = { u with installations := u.installations ++ [i], importer, journal } ∧
    i.owned = true ∧ i.bridge = {} ∧ i.canvasId = canvas ∧
    (importer = u.importer ∨ importer = some u.installations.length) ∧
    Event.Silent u.journal journal

namespace Placed

theorem note (h : Placed u canvas q) {e : Event} (he : e.isEntry = false) :
    Placed u canvas (q.note e) := by
  obtain ⟨i, importer, journal, rfl, ho, hb, hc, hi, hj⟩ := h
  exact ⟨i, importer, journal.push e, rfl, ho, hb, hc, hi, hj.trans (.push he journal)⟩

theorem install (u : Page) (canvasId : String) :
    Placed u canvasId { u with installations := u.installations ++ [{ canvasId }] } :=
  ⟨_, u.importer, u.journal, rfl, rfl, rfl, rfl, .inl rfl, .refl _⟩

end Placed

theorem modify_concat {α : Type} (xs : List α) (x : α) (f : α → α) :
    (xs ++ [x]).modify xs.length f = xs ++ [f x] := by
  refine List.ext_getElem? fun i => ?_
  rw [List.getElem?_modify]
  rcases Nat.lt_trichotomy i xs.length with hlt | rfl | hgt
  · simp [List.getElem?_append_left hlt, Nat.ne_of_gt hlt]
  · simp
  · rw [List.getElem?_eq_none (by simp; omega), List.getElem?_eq_none (by simp; omega)]
    rfl

theorem instantiate_meets (u : Page) (url : String) :
    Meets (Placed u canvas) (instantiate u.installations.length url)
      (fun _ q => Placed u canvas q ∧ q.importer = some u.installations.length)
      (fun _ => Placed u canvas) := by
  refine (keeps_modify fun q h => h.note rfl).meets.bind fun _ =>
    (keeps_modify fun q h => h.note rfl).meets.bind fun _ => keeps_get.meets.bind fun r => ?_
  split
  · exact meets_fail fun _ h => h
  · refine (keeps_modify fun q h => h.note rfl).meets.bind fun _ => ?_
    refine Meets.bind (Q := fun _ q => Placed u canvas q ∧ q.importer = some u.installations.length)
      (fun q h => ?_) fun _ => ?_
    · obtain ⟨i, importer, journal, rfl, ho, hb, hc, hi, hj⟩ := h
      refine ⟨⟨{ i with hidden := u.script.hidden }, some u.installations.length, journal, ?_, ho,
        hb, hc, .inr rfl, hj⟩, rfl⟩
      simp only [modify_concat]
    · split
      · exact meets_fail fun _ h => h.1
      · exact meets_pure fun _ h => h

theorem keeps_requireExport {P : Page → Prop} (owner : Nat) (name : String) :
    Keeps P (requireExport owner name) := by
  refine keeps_get.bind fun r => ?_
  split
  · exact keeps_pure _
  · exact keeps_fail _

theorem onBridge_eq (inner : Performer) (owner : Nat) (f : Bridge → Bridge) (q : Page) :
    (platform inner owner).onBridge f q = { q with
      installations := q.installations.modify owner fun i => { i with bridge := f i.bridge } } := by
  have hi : q.installations.modify owner (fun i => { i with bridge := f (q.core owner).bridge }) =
      q.installations.modify owner fun i => { i with bridge := f i.bridge } := by
    refine List.ext_getElem? fun o => ?_
    rw [List.getElem?_modify, List.getElem?_modify]
    rcases hq : q.installations[o]? with _ | i
    · rfl
    · by_cases ho : owner = o
      · subst ho
        simp [core, hq]
      · simp [ho]
  exact congrArg (fun installations => { q with installations }) hi

theorem attachGuest_meets (hu : Reached S st again p u) :
    Meets (fun q => Placed u canvas q ∧ q.importer = some u.installations.length)
      ((platform inner u.installations.length).attachGuest)
      (fun _ q => Reached S (u.installations.length :: st) again p q ∧
        q.standing.HasCanvas u.installations.length canvas) (fun _ => Placed u canvas) := by
  rintro q ⟨⟨i, importer, journal, rfl, ho, hb, rfl, -, hj⟩, rfl⟩
  generalize hq : ({ u with
    installations := u.installations ++ [i]
    importer := some u.installations.length, journal } : Page) = q
  have hbridge : (platform inner u.installations.length).bridge q = (.ok {}, q) := by
    subst hq
    simp [Platform.bridge, platform, core, hb]
  have hattach : (platform inner u.installations.length).attachGuest q =
      (.ok (), (platform inner u.installations.length).onBridge
        (fun b => { b with attached := true }) q) := by
    unfold Platform.attachGuest
    rw [bind_of_ok hbridge]
    rfl
  have hlen : u.standing.installations.length = u.installations.length := length_standing u
  let j : Installation := { i with bridge := { attached := true } }
  have hstanding : ((platform inner u.installations.length).onBridge
      (fun b => { b with attached := true }) q).standing =
      u.standing.install j.outline (some u.standing.installations.length) := by
    rw [onBridge_eq]
    subst hq
    simp [standing, Standing.install, modify_concat, Installation.outline, hb, j]
  have hquiet : Quiet u ((platform inner u.installations.length).onBridge
      (fun b => { b with attached := true }) q) := by
    subst hq
    exact .of_silent rfl rfl rfl hj
  rw [hattach]
  refine ⟨hu.of_handle_eq ?_ ?_ (fun o hm => ?_) (congrArg Standing.handle hstanding)
    (congrArg Standing.loops hstanding) (congrArg Standing.frames hstanding) hquiet, ?_⟩
  · have hs := hu.ready.sound.install_attached (i := j.outline) ho rfl rfl
    rwa [hstanding, ← hlen]
  · rw [hstanding]
    exact Standing.later_install _ _ _ (hlen ▸ hu.grows)
  · rcases List.mem_cons.1 hm with rfl | hm
    · exact hu.ready.fresh _ (Nat.le_refl _)
    · exact hu.ready.starting o hm
  · rw [hstanding, ← hlen]
    exact Standing.exists_install.2 (.inl ⟨rfl, rfl⟩)

/-! ## The guest sets itself up -/

theorem onBridge_standing_running (inner : Performer) (owner : Nat) (q : Page) :
    ((platform inner owner).onBridge (fun b => { b with phase := .running }) q).standing =
      q.standing.startRunning owner := by
  rw [onBridge_eq]
  refine congrArg (fun installations => { q.standing with installations }) ?_
  refine List.ext_getElem? fun o => ?_
  simp only [List.getElem?_map, List.getElem?_modify, standing]
  rcases q.installations[o]? with _ | i
  · rfl
  · by_cases ho : owner = o
    · simp [ho, Installation.outline]
    · simp [ho]

/-- The guest sets itself up, and whatever it does meanwhile, its bridge runs if it returns. -/
theorem init_meets (hi : Follows S inner) {o : Nat} (width height : UInt32) :
    Meets (Reached S (o :: st) again p) ((platform inner o).init width height)
      (fun _ q => Reached S (o :: st) again p q ∧ q.standing.IsRunning o)
      (fun _ => Reached S (o :: st) again p) := by
  have hkeep : ∀ q, Reached S (o :: st) again p q →
      Reached S (o :: st) again p ((platform inner o).call (.init width height) q).2 :=
    fun q h => h.call hi ⟨h.ready.starting o (.head _),
      length_standing q ▸ (h.ready.sound.starting o (.head _)).1.lt⟩ fun hname =>
        absurd hname (not_isEventExport (by simp [EntryPoint.exportName]))
  have hcall : Keeps (Reached S (o :: st) again p)
      ((platform inner o).callGuest (.init width height)) := Platform.keeps_callGuest hkeep
  refine Platform.keeps_bridge.meets.bind fun b => ?_
  split
  · exact meets_fail fun _ h => h
  · refine hcall.meets.bind fun _ => Meets.bind
      (Q := fun _ q => Reached S (o :: st) again p q ∧ q.standing.IsRunning o) (fun q h => ?_)
      fun _ q h => ?_
    · have hs := onBridge_standing_running inner o q
      refine ⟨h.of_handle_eq ?_ ?_ h.ready.starting rfl rfl rfl (.refl q), ?_⟩
      · rw [hs]
        exact h.ready.sound.startRunning o
      · rw [hs]
        exact Standing.later_startRunning o _
      · rw [hs]
        exact Standing.isRunning_startRunning (h.ready.sound.starting o (.head _)).1
    · refine ⟨Platform.log_keeps (Reached.upholds p inner o) _ _ _ h.1, ?_⟩
      rw [show ((platform inner o).log _ _ _ q).standing = q.standing from
        standing_withCore (.log _ _ _ _)]
      exact h.2

/-! ## From the guest to the handle -/

/-- Listeners have been installed on page `u`, and nothing else has changed. -/
structure Listening (u : Page) (ls : List Listener) (q : Page) : Prop where
  standing : q.standing = { u.standing with listeners := u.listeners ++ ls }
  quiet : Quiet u q

theorem findInput_meets {P : Page → Prop} (id : Option String) :
    Meets P (findInput id) (fun input q => P q ∧ input.map Prod.fst = id) (fun _ => P) := by
  cases id with
  | none => exact meets_pure fun _ h => ⟨h, rfl⟩
  | some id =>
    refine keeps_get.meets.bind fun r => ?_
    split
    · exact meets_pure fun _ h => ⟨h, rfl⟩
    · exact meets_fail fun _ h => h

theorem listen_meets (l : Listener) (ls : List Listener) :
    Meets (Listening u ls) (listen l) (fun _ => Listening u (ls ++ [l]))
      (fun _ => Listening u ls) := by
  intro q h
  unfold listen
  split
  · rename_i t hr
    split at hr
    · cases hr
    · cases hr
      refine ⟨?_, h.quiet.trans (.did _ q)⟩
      have hl : q.listeners = u.listeners ++ ls := congrArg Standing.listeners h.standing
      rw [← List.append_assoc, ← hl]
      exact congrArg (fun s : Standing => { s with listeners := q.listeners ++ [l] }) h.standing
  · rename_i t hr
    split at hr
    · cases hr
      exact h
    · cases hr

/-- A listener is refused after any number of earlier ones were installed. -/
theorem listenAll_meets (more ls : List Listener) :
    Meets (Listening u ls) (listenAll more) (fun _ => Listening u (ls ++ more))
      (fun _ q => ∃ some, some <+: more ∧ Listening u (ls ++ some) q) := by
  induction more generalizing ls with
  | nil => exact meets_pure fun q h => by rwa [List.append_nil]
  | cons l more ih =>
    refine Meets.bind ((listen_meets l ls).mono (fun _ _ h => h)
      fun _ q h => ⟨[], List.nil_prefix, by rwa [List.append_nil]⟩) fun _ => ?_
    refine (ih (ls ++ [l])).mono (fun _ q h => ?_) fun _ q h => ?_
    · rwa [List.append_assoc] at h
    · obtain ⟨some, hp, h⟩ := h
      rw [List.append_assoc] at h
      exact ⟨l :: some, List.cons_prefix_cons.2 ⟨rfl, hp⟩, h⟩

/-- The bridge `o` is up on page `q`, from where its guest has left page `u`; the page does not hold
it yet. -/
structure Up (u : Page) (o : Nat) (input : Option (String × Nat)) (h : PageHandle) (q : Page) :
    Prop where
  handle : h = ⟨o, some u.loops.length⟩
  standing : ∃ id, q.standing = { u.standing with
    loops := u.loops ++ [{ owner := o, request := id }]
    frames := u.frames ++ [⟨id, u.loops.length⟩]
    listeners := u.listeners ++ listenersOf o input }
  quiet : Quiet u q

theorem startLoop_meets (o : Nat) (input : Option (String × Nat)) :
    Meets (Listening u (listenersOf o input)) (startLoop o)
      (fun loop q => Up u o input ⟨o, some loop⟩ q)
      (fun _ => Listening u (listenersOf o input)) := by
  intro q h
  have hl : q.loops = u.loops := congrArg Standing.loops h.standing
  have hf : q.frames = u.frames := congrArg Standing.frames h.standing
  unfold startLoop requestFrame
  simp only
  rcases q.script.refusal? "requestAnimationFrame" with _ | thrown
  · refine ⟨by rw [hl], ⟨q.nextFrame, ?_⟩, h.quiet.trans (.did _ q)⟩
    rw [← hl, ← hf]
    let started : Standing → Standing := fun s => { s with
      loops := q.loops ++ [{ owner := o, request := q.nextFrame }]
      frames := q.frames ++ [⟨q.nextFrame, q.loops.length⟩] }
    exact congrArg started h.standing
  · exact h

theorem Up.log {o : Nat} {input : Option (String × Nat)} {x : PageHandle} (h : Up u o input x q)
    (level : Log.Level) (target text : String) : Up u o input x (q.log level target text) :=
  ⟨h.handle, h.standing, h.quiet.trans (.note rfl q)⟩

section

variable {r : Page} {o : Nat} {input : Option (String × Nat)} {x : PageHandle}

theorem Up.requested (hs : r.standing.Sound st) (h : Up r o input x q) :
    ∀ y ∈ q.frames, ∃ l, q.loops[y.loop]? = some l ∧ l.request = y.id ∧
      (l.alive = true → l.cancelled = false) := by
  obtain ⟨id, hq⟩ := h.standing
  have hl : q.loops = r.loops ++ [{ owner := o, request := id }] := congrArg Standing.loops hq
  have hf : q.frames = r.frames ++ [⟨id, r.loops.length⟩] := congrArg Standing.frames hq
  intro y hy
  rw [hl]
  rcases List.mem_append.1 (hf ▸ hy) with hy | hy
  · obtain ⟨l, hloop, he⟩ := hs.requested y hy
    refine ⟨l, ?_, he⟩
    exact (List.getElem?_append_left (List.getElem?_eq_some_iff.1 hloop).1).trans hloop
  · obtain rfl := List.mem_singleton.1 hy
    exact ⟨{ owner := o, request := id }, by simp, rfl, fun _ => rfl⟩

theorem Up.prompt (hr : r.Prompt) (h : Up r o input x q) : q.Prompt := by
  obtain ⟨id, hq⟩ := h.standing
  have hl : q.loops = r.loops ++ [{ owner := o, request := id }] := congrArg Standing.loops hq
  have hf : q.frames = r.frames ++ [⟨id, r.loops.length⟩] := congrArg Standing.frames hq
  intro y hy
  unfold HasCallback
  rw [hl]
  rcases List.mem_append.1 (hf ▸ hy) with hy | hy
  · refine (hr y hy).imp (fun ⟨l, hloop, ha⟩ => ⟨l, ?_, ha⟩) (·.grown h.quiet.journal)
    exact (List.getElem?_append_left (List.getElem?_eq_some_iff.1 hloop).1).trans hloop
  · obtain rfl := List.mem_singleton.1 hy
    exact .inl ⟨{ owner := o, request := id }, by simp, rfl⟩

end

/-- What is left of a start that has failed with its bridge in place, before that is given up. -/
inductive Broken (S : Nat → Prop) (st : List Nat) (again : Nat → Prop) (p u q : Page) : Prop
  | early {canvas : String} (h : Placed u canvas q)
  | late {r : Page} {ls : List Listener} (h : Reached S (u.installations.length :: st) again p r)
    (hl : Listening r ls q) (ho : ∀ l ∈ ls, l.owner = u.installations.length)

/-- A start that has come to its end. -/
def Launched (S : Nat → Prop) (st : List Nat) (again : Nat → Prop) (p : Page)
    (options : BridgeOptions) (o : Nat) (x : PageHandle) (q : Page) : Prop :=
  ∃ r input, Reached S (o :: st) again p r ∧ r.standing.IsRunning o ∧
    r.standing.HasCanvas o options.canvasId ∧ Up r o input x q ∧
    input.map Prod.fst = options.equationInputId

theorem launch_meets (hi : Follows S inner) (hu : Reached S st again p u) (o : BridgeOptions)
    (width height : UInt32) :
    Meets (Placed u o.canvasId) (launch inner o u.installations.length width height)
      (Launched S st again p o u.installations.length)
      (fun _ => Broken S st again p u) := by
  refine Meets.bind ((instantiate_meets u o.moduleUrl).mono (fun _ _ h => h) fun _ _ => .early)
    fun _ => ?_
  refine Meets.bind ((keeps_requireExport _ _).meets_of fun _ _ h => .early h.1) fun _ => ?_
  refine Meets.bind ((keeps_requireExport _ _).meets_of fun _ _ h => .early h.1) fun _ => ?_
  refine Meets.bind ((attachGuest_meets hu).mapError fun _ _ => .early) fun _ t ⟨ht, hc⟩ => ?_
  have hnone : ∀ r, Listening r [] r := fun r => ⟨by rw [List.append_nil]; rfl, .refl r⟩
  refine Meets.bind ((init_meets hi width height).mapError fun _ r h =>
    .late (ht.trans_inner h) (hnone r) nofun) (fun _ r ⟨hinit, hrun⟩ => ?_) t (.refl ht.ready)
  have hr := ht.trans_inner hinit
  have hcanvas := hinit.later.hasCanvas hc
    (length_standing t ▸ (ht.ready.sound.starting _ (.head _)).1.lt)
  -- From here on nobody is entered: what follows is told from the page that the guest has left.
  have hlate : ∀ ls t, Listening r ls t → (∀ l ∈ ls, l.owner = u.installations.length) →
      Broken S st again p u t := fun ls t h ho => .late hr h ho
  refine Meets.bind ((findInput_meets o.equationInputId).mono (fun _ _ h => h)
    fun _ t h => hlate [] t h nofun) (fun input t ⟨ht, hid⟩ => ?_) r (hnone r)
  refine Meets.bind ((listenAll_meets (listenersOf _ input) []).mono (fun _ _ h => h)
    fun _ t ⟨ls, hls, h⟩ => hlate ls t h fun l hl =>
      owner_of_mem_listenersOf (hls.subset hl)) (fun _ => ?_) t ht
  refine Meets.bind ((startLoop_meets _ input).mono (fun _ _ h => h) fun _ t h =>
    hlate _ t h fun l => owner_of_mem_listenersOf) fun loop => ?_
  refine Meets.bind (Q := fun _ => Up r _ input ⟨_, some loop⟩) (fun t h => h.log _ _ _) fun _ => ?_
  exact meets_pure fun t h => ⟨r, input, hr, hrun, hcanvas, h, hid⟩

/-! ## Giving up -/

/-- Nothing on the page belongs to a bridge: no handle, no loop and no import. -/
structure Absent (o : Nat) (s : Standing) : Prop where
  owned : ¬ s.IsOwned o
  handle : ∀ h, s.handle = some h → h.owner ≠ o
  loops : ∀ l ∈ s.loops, l.owner ≠ o

/-- A bridge that is not there yet. -/
theorem absent_of_length {s : Standing} (hs : s.Sound st) {o : Nat}
    (ho : s.installations.length ≤ o) : Absent o s where
  owned h := Nat.not_le_of_lt h.lt ho
  handle h hh := Nat.ne_of_lt (Nat.lt_of_lt_of_le (hs.held h hh).1.lt ho)
  loops l hl := Nat.ne_of_lt (Nat.lt_of_lt_of_le (hs.installed l hl) ho)

/-- A bridge that has nothing but its place, and is not owned. -/
theorem absent_install {s : Standing} (hs : s.Sound st) {i : Installation} (hi : i.owned = false)
    (importer : Option Nat) : Absent s.installations.length (s.install i importer) := by
  have hnew : Absent s.installations.length s := absent_of_length hs (Nat.le_refl _)
  refine ⟨fun ho => ?_, hnew.handle, hnew.loops⟩
  rcases Standing.exists_install.1 ho with ⟨-, hown⟩ | hold
  · rw [hi] at hown
    cases hown
  · exact hnew.owned hold

/-- A bridge that is not held has no listeners to remove. -/
theorem filter_listeners {s : Standing} (hs : s.Sound st) {o : Nat}
    (ho : ∀ h, s.handle = some h → h.owner ≠ o) :
    s.listeners.filter (·.owner ≠ o) = s.listeners := by
  refine List.filter_eq_self.2 fun l hl => ?_
  obtain ⟨h, _, hh, -, he⟩ := hs.owner_of_listener hl
  simpa using he ▸ ho h hh

theorem abandon_standing (o : Nat) (q : Page) : (abandon o q).standing =
    { q.standing with listeners := q.listeners.filter (·.owner ≠ o) }.release o ∧
      Quiet q (abandon o q) := by
  obtain ⟨journal, he, hj⟩ := removeListeners_eq o q
  unfold abandon
  rw [standing_release, he]
  exact ⟨rfl, .of_silent rfl rfl rfl hj⟩

/-- What is left of a bridge that had only been given its place. -/
theorem Placed.standing_abandon (h : Placed u canvas q) (hs : u.standing.Sound st) :
    ∃ i importer, (Page.abandon u.installations.length q).standing =
        u.standing.install i importer ∧ i.owned = false ∧
      (importer = u.importer ∨ importer = some u.installations.length) ∧ Quiet u q := by
  obtain ⟨i, importer, journal, rfl, -, -, -, him, hj⟩ := h
  have hlen : u.standing.installations.length = u.installations.length := length_standing u
  have hnew := (absent_of_length hs (Nat.le_of_eq hlen)).handle
  let j : Installation := { i with owned := false }
  refine ⟨j.outline, importer, ?_, rfl, him, .of_silent rfl rfl rfl hj⟩
  rw [(abandon_standing _ _).1]
  show Standing.release _ { u.standing with
    installations := (u.installations ++ [i]).map Installation.outline, importer
    listeners := u.standing.listeners.filter _ } = _
  rw [filter_listeners hs hnew, List.map_append, Standing.release]
  simp only [← hlen]
  exact congrArg (fun installations => { u.standing with installations, importer })
    (modify_concat u.standing.installations i.outline _)

/-- What is left of a bridge whose guest has set itself up, and which has installed listeners. -/
theorem Listening.standing_abandon {o : Nat} {ls : List Listener} (h : Listening u ls q)
    (hs : u.standing.Sound (o :: st)) (ho : ∀ l ∈ ls, l.owner = o) :
    (Page.abandon o q).standing = u.standing.release o := by
  have hother := (hs.starting o (.head _)).2.2.1
  have hown : ls.filter (·.owner ≠ o) = [] :=
    List.filter_eq_nil_iff.2 fun l hl => by simp [ho l hl]
  have hlisteners : q.listeners.filter (·.owner ≠ o) = u.listeners := by
    rw [show q.listeners = u.listeners ++ ls from congrArg Standing.listeners h.standing,
      List.filter_append, hown, List.append_nil]
    exact filter_listeners hs hother
  rw [(abandon_standing o q).1, hlisteners, h.standing]
  rfl

theorem Broken.abandon (hu : Reached S st again p u) (h : Broken S st again p u q) :
    Reached S st again p (abandon u.installations.length q) ∧
      Absent u.installations.length (Page.abandon u.installations.length q).standing := by
  have hquiet : Quiet q (Page.abandon u.installations.length q) := (abandon_standing _ q).2
  have hlen : u.standing.installations.length = u.installations.length := length_standing u
  cases h with
  | early h =>
    obtain ⟨i, importer, hs, hi, him, hplaced⟩ := h.standing_abandon hu.ready.sound
    refine ⟨hu.of_handle_eq ?_ ?_ hu.ready.starting (congrArg Standing.handle hs)
      (congrArg Standing.loops hs) (congrArg Standing.frames hs) (hplaced.trans hquiet), ?_⟩
    · rw [hs]
      exact hu.ready.sound.install_released hi (hlen ▸ him)
    · rw [hs]
      exact Standing.later_install _ _ _ (hlen ▸ hu.grows)
    · rw [hs, ← hlen]
      exact absent_install hu.ready.sound hi importer
  | late h hl ho =>
    have hs := hl.standing_abandon h.ready.sound ho
    obtain ⟨-, -, hother, hloops⟩ := h.ready.sound.starting _ (.head _)
    have hnot : u.installations.length ∉ st := fun hm =>
      Nat.lt_irrefl _ (hlen ▸ (hu.ready.sound.starting _ hm).1.lt)
    refine ⟨h.of_handle_eq ?_ ?_ hu.ready.starting (congrArg Standing.handle hs)
      (congrArg Standing.loops hs) (congrArg Standing.frames hs) (hl.quiet.trans hquiet), ?_⟩
    · rw [hs]
      exact h.ready.sound.abandon hnot
    · rw [hs]
      exact Standing.later_release _ _
    · rw [hs]
      exact ⟨fun ho => (Standing.isOwned_release.1 ho).1 rfl, hother, hloops⟩

/-! ## Taking up -/

/-- To stop the bridge that is held once another one is up leaves what stopping it before would have
left. -/
theorem stop_takeUp {s : Standing} {o : Nat} (hs : s.Sound (o :: st)) {old : PageHandle}
    (hh : s.handle = some old) (request : Nat) (input : Option (String × Nat)) :
    (Standing.stop old { s with
        handle := some ⟨o, some s.loops.length⟩
        loops := s.loops ++ [{ owner := o, request }]
        frames := s.frames ++ [⟨request, s.loops.length⟩]
        listeners := s.listeners ++ listenersOf o input }).release old.owner =
      Standing.takeUp o request input
        { (s.stop old).release old.owner with handle := none } := by
  have hlisteners : (s.listeners ++ listenersOf o input).filter (·.owner ≠ old.owner) =
      listenersOf o input := by
    have hgone : s.listeners.filter (·.owner ≠ old.owner) = [] := hs.listeners_stop hh
    have hne : old.owner ≠ o := (hs.starting o (.head _)).2.2.1 old hh
    rw [List.filter_append, hgone, List.nil_append]
    refine List.filter_eq_self.2 fun l hl => ?_
    simpa [owner_of_mem_listenersOf hl] using Ne.symm hne
  have hlength : (s.stop old).loops.length = s.loops.length := Standing.length_stop old s
  have hloops : (Standing.stop old { s with loops := s.loops ++ [{ owner := o, request }] }).loops =
      (s.stop old).loops ++ [{ owner := o, request }] := by
    unfold Standing.stop
    rcases hl : old.loop with _ | loop
    · rfl
    · obtain ⟨l, hget, -⟩ := hs.looping old loop hh hl
      have hlt : loop < s.loops.length := (List.getElem?_eq_some_iff.1 hget).1
      refine List.ext_getElem? fun i => ?_
      simp only [List.getElem?_modify, List.getElem?_append, List.length_modify]
      rcases Nat.lt_or_ge i s.loops.length with hi | hi
      · simp [hi]
      · simp [Nat.not_lt_of_le hi, Nat.ne_of_lt (Nat.lt_of_lt_of_le hlt hi)]
  unfold Standing.release Standing.takeUp
  simp only [hlength, ← hloops]
  exact congrArg (fun listeners : List Listener => Standing.mk _ _ _ _ _ listeners) hlisteners

/-- What a start with some options has brought about: the page holds the bridge `o`, with its frame
loop and its listeners. -/
structure Started (options : BridgeOptions) (o : Nat) (q : Page) : Prop where
  handle : ∃ loop, q.handle = some ⟨o, some loop⟩
  listeners : ∃ input, q.listeners = listenersOf o input ∧
    input.map Prod.fst = options.equationInputId
  canvas : q.standing.HasCanvas o options.canvasId

/-- Once no bridge is held any more, however that came about, the bridge that is up is taken up. -/
theorem Reached.takeUp {options : BridgeOptions} {o : Nat} {input : Option (String × Nat)}
    {r t : Page} {s : Standing} (hr : Reached S (o :: st) again p r) (request : Nat) (hst : o ∉ st)
    (hp : p.installations.length ≤ o) (hs : s.Sound (o :: st)) (hrun : s.IsRunning o)
    (hcanvas : s.HasCanvas o options.canvasId) (hnone : s.handle = none)
    (hlater : Standing.Later p.installations.length again r.standing s)
    (hid : input.map Prod.fst = options.equationInputId)
    {frames : List FrameRequest} (hf : frames.Sublist (s.takeUp o request input).frames)
    (ht : t.standing = { s.takeUp o request input with frames }) (hquiet : Quiet r t)
    (hprompt : t.Prompt) (hdown : ∀ y, r.Holds y → ShutsDown r t) :
    Reached S st again p t ∧ Started options o t := by
  have hth : t.handle = some ⟨o, some s.loops.length⟩ := congrArg Standing.handle ht
  refine ⟨hr.of_standing ?_ ?_ (fun y hy => ?_) (fun z hz => hr.ready.starting z (.tail _ hz))
    hquiet hprompt fun y hy => .inr (hdown y hy),
    ⟨s.loops.length, hth⟩, ⟨input, congrArg Standing.listeners ht, hid⟩, ?_⟩
  · rw [ht]
    exact (hs.takeUp hst hrun hnone request input).of_frames_sublist hf
  · rw [ht]
    exact (hlater.trans (Standing.later_takeUp o request input s hp)).trans
      (.of_eq rfl rfl rfl (fun y hy => hf.subset hy) rfl)
  · obtain rfl := Option.some.inj (hth.symm.trans hy)
    exact hr.ready.starting o (.head _)
  · rw [ht]
    exact hcanvas

/-- The bridge that is up is taken up in place of the one that is held, if its guest has meanwhile
brought one up. -/
theorem keep_reached {options : BridgeOptions} {o : Nat} {x : PageHandle} (hst : o ∉ st)
    (hp : p.installations.length ≤ o) (h : Launched S st again p options o x q) :
    Reached S st again p (q.keep x) ∧ Started options o (q.keep x) := by
  obtain ⟨r, input, hr, hrun, hcanvas, hup, hid⟩ := h
  have hrequested := hup.requested hr.ready.sound
  have hprompt := hup.prompt hr.ready.prompt
  obtain ⟨rfl, ⟨request, hs⟩, hquiet⟩ := hup
  have hsound := hr.ready.sound
  have hhandle : q.handle = r.handle := congrArg Standing.handle hs
  unfold keep
  rw [hhandle]
  rcases hh : r.handle with _ | old
  · have hlisteners : r.listeners = [] := hsound.silent fun ⟨_, _, h, _⟩ => by
      cases hh.symm.trans h
    refine hr.takeUp request hst hp hsound hrun hcanvas hh (.refl _) hid (.refl _) ?_ hquiet hprompt
      fun y ⟨_, hy⟩ => nomatch hh.symm.trans hy
    rw [hlisteners, List.nil_append] at hs
    exact congrArg (fun s : Standing => { s with handle := some ⟨o, some r.loops.length⟩ }) hs
  · let q' : Page := { q with handle := some ⟨o, some r.loops.length⟩ }
    have hstopped := stop_stopped old q'
    obtain ⟨frames, hf, hstop⟩ := hstopped.standing
    have hq' : q'.standing = _ :=
      congrArg (fun s : Standing => { s with handle := some ⟨o, some r.loops.length⟩ }) hs
    have hdown : ShutsDown q (q'.discard old) := hstopped.record
    have hlater : Standing.Later p.installations.length again r.standing
        { r.standing.stop old with handle := none } := Standing.later_stop old _ nofun
    have hlength : (r.standing.stop old).loops.length = r.loops.length :=
      Standing.length_stop old _
    rw [show q'.frames = _ from congrArg Standing.frames hs, ← hlength] at hf
    refine hr.takeUp (s := { (r.standing.stop old).release old.owner with handle := none }) request
      hst hp (hsound.drop hh) (Standing.isRunning_release.2 hrun)
      ((Standing.exists_release fun _ => Iff.rfl).2 hcanvas) rfl
      (hlater.trans (Standing.later_release old.owner _)) hid hf ?_ (hquiet.trans hstopped.quiet)
      (hstopped.prompt hprompt hrequested) fun _ _ => hdown.after hquiet.journal
    unfold discard
    rw [standing_release, hstop, hq']
    exact congrArg (fun s : Standing => { s with frames }) (stop_takeUp hsound hh request input)

/-! ## Starting -/

/-- Whatever becomes of a start, it is a way of the page. If it succeeds, the page holds the new
bridge with its listeners, and if it fails, nothing of that bridge is there. -/
theorem start_meets (hi : Follows S inner) (o : BridgeOptions) (hq : Reached S st again p q) :
    Meets (· = q) (start inner o)
      (fun _ r => Reached S st again p r ∧ Started o q.installations.length r)
      (fun _ r => Reached S st again p r ∧ Absent q.installations.length r.standing) := by
  obtain ⟨hdropped, -, hlen⟩ := hq.dropHandle
  generalize hu : q.dropHandle = u at hdropped hlen
  rw [← hlen]
  have hup : Meets (· = u) (bringUp inner o)
      (Launched S st again p o u.installations.length)
      (fun _ r => Reached S st again p r ∧ Absent u.installations.length r.standing) := by
    have hcanvas : Keeps (fun r => Reached S st again p r ∧ r.standing = u.standing)
        (prepareCanvas o) := keeps_prepareCanvas (fun r e h => ⟨h.1.did e, h.2⟩) o
    have hnew : ∀ r : Page, r.standing = u.standing →
        r.installations.length = u.installations.length := fun r hr => by
      rw [← length_standing, hr, length_standing]
    have hprepared := hcanvas.meets_of (E := fun _ r =>
      Reached S st again p r ∧ Absent u.installations.length r.standing) fun _ t ht =>
        ⟨ht.1, absent_of_length ht.1.ready.sound
          (Nat.le_of_eq ((length_standing t).trans (hnew t ht.2)))⟩
    refine Meets.bind (P := (· = u)) (fun r hr => hprepared r ?_) fun size r ⟨hr, hs⟩ => ?_
    · rw [hr]
      exact ⟨hdropped, rfl⟩
    · rw [← hnew r hs]
      have hplace : Meets (· = r) (Page.install o.canvasId)
          (fun owner t => owner = r.installations.length ∧ Placed r o.canvasId t)
          (fun _ t => Reached S st again p t ∧ Absent r.installations.length t.standing) := by
        rintro _ rfl
        exact ⟨rfl, .install _ o.canvasId⟩
      refine hplace.bind (fun owner t ⟨ho, ht⟩ => ?_) r rfl
      subst ho
      exact (launch_meets hi hr o size.1 size.2).onError (fun _ t h => h.abandon hr) t ht
  have hlogged : Meets (· = u)
      ((bringUp inner o).onError fun e =>
        Page.log .error Log.Target.startup ("startup failed: " ++ e.message))
      (Launched S st again p o u.installations.length)
      (fun _ r => Reached S st again p r ∧ Absent u.installations.length r.standing) :=
    hup.onError fun _ r h => ⟨h.1.log _ _ _, h.2⟩
  refine Meets.bind (P := (· = q)) (Q := fun _ r => r = u) (fun r hr => hr ▸ hu) fun _ => ?_
  refine hlogged.bind fun x r hr => ?_
  have hnot : u.installations.length ∉ st := fun hm => Nat.lt_irrefl _
    ((length_standing u) ▸ (hdropped.ready.sound.starting _ hm).1.lt)
  exact keep_reached hnot hdropped.grows hr

end Page

end GuestBridge
