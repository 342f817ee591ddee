import GuestBridge.Page.Startup

/-!
# How the bridges of a page stand

`Page.standing` is what of a page decides which bridges are there, which of them is held, and what
can come to their guests: the installations up to what a bridge holds, the handle, the importer, the
frame loops with their requests, and the listeners. `Standing.Sound` is the invariant of a standing
while some bridges are being brought up, and `Standing.Later` says what a page does not take back as
it goes on. The bringing up and down of bridges is described by what it does to a standing:
`Standing.stop`, `release` and `takeUp`.
-/

set_option autoImplicit false

namespace GuestBridge

/-- An installation without what its bridge holds: of the bridge, only whether there is a guest and
whether it runs. -/
def Installation.outline (i : Installation) : Installation :=
  { i with bridge := { attached := i.bridge.attached, phase := i.bridge.phase } }

/-- What one installation may become. -/
structure Installation.Later (i j : Installation) : Prop where
  attached : i.bridge.attached = true → j.bridge.attached = true
  running : i.bridge.phase = .running → j.bridge.phase = .running
  canvasId : j.canvasId = i.canvasId
  hidden : j.hidden = i.hidden

theorem Installation.Later.refl (i : Installation) : i.Later i := ⟨id, id, rfl, rfl⟩

theorem Installation.Later.trans {i j k : Installation} (h : i.Later j) (h' : j.Later k) :
    i.Later k where
  attached hi := h'.attached (h.attached hi)
  running hi := h'.running (h.running hi)
  canvasId := h'.canvasId.trans h.canvasId
  hidden := h'.hidden.trans h.hidden

structure Standing where
  installations : List Installation
  handle : Option PageHandle
  importer : Option Nat
  loops : List FrameLoop
  frames : List FrameRequest
  listeners : List Listener

def Page.standing (p : Page) : Standing where
  installations := p.installations.map Installation.outline
  handle := p.handle
  importer := p.importer
  loops := p.loops
  frames := p.frames
  listeners := p.listeners

theorem Page.owner_of_mem_listenersOf {owner : Nat} {input : Option (String × Nat)} {l : Listener}
    (h : l ∈ listenersOf owner input) : l.owner = owner := by
  rcases List.mem_append.1 h with h | h
  · simp only [List.mem_cons, List.not_mem_nil, or_false] at h
    rcases h with rfl | rfl | rfl | rfl | rfl | rfl <;> rfl
  · obtain ⟨_, -, rfl⟩ := List.mem_map.1 h
    rfl

namespace Standing

variable {s t u : Standing} {st : List Nat} {o owner n : Nat}

/-! ## Bridges -/

def IsOwned (s : Standing) (o : Nat) : Prop := ∃ i, s.installations[o]? = some i ∧ i.owned = true

def IsAttached (s : Standing) (o : Nat) : Prop :=
  ∃ i, s.installations[o]? = some i ∧ i.bridge.attached = true

def IsRunning (s : Standing) (o : Nat) : Prop :=
  ∃ i, s.installations[o]? = some i ∧ i.bridge.phase = .running

/-- A bridge draws on the canvas with an id. -/
def HasCanvas (s : Standing) (o : Nat) (id : String) : Prop :=
  ∃ i, s.installations[o]? = some i ∧ i.canvasId = id

theorem IsOwned.lt (h : s.IsOwned o) : o < s.installations.length := by
  obtain ⟨i, hi, -⟩ := h
  exact (List.getElem?_eq_some_iff.1 hi).1

/-- Whether a handle is held whose frame loop goes on. -/
def Runs (s : Standing) : Prop := ∃ h loop, s.handle = some h ∧ h.loop = some loop

/-! ## The invariant -/

/-- What holds of a standing while the bridges `st`, which have a guest, are being brought up. -/
structure Sound (st : List Nat) (s : Standing) : Prop where
  owned : ∀ o, s.IsOwned o → o ∈ st ∨ ∃ h, s.handle = some h ∧ h.owner = o
  starting : ∀ o ∈ st, s.IsOwned o ∧ s.IsAttached o ∧ (∀ h, s.handle = some h → h.owner ≠ o) ∧
    ∀ l ∈ s.loops, l.owner ≠ o
  held : ∀ h, s.handle = some h → s.IsOwned h.owner ∧ s.IsAttached h.owner ∧ s.IsRunning h.owner
  looping : ∀ h loop, s.handle = some h → h.loop = some loop →
    ∃ l, s.loops[loop]? = some l ∧ l.owner = h.owner ∧ l.alive = true
  listening : ∀ h loop, s.handle = some h → h.loop = some loop →
    ∃ input, s.listeners = Page.listenersOf h.owner input
  silent : ¬ s.Runs → s.listeners = []
  alive : ∀ (loop : Nat) l, s.loops[loop]? = some l → l.alive = true →
    ∃ h, s.handle = some h ∧ h.loop = some loop
  requested : ∀ r ∈ s.frames, ∃ l, s.loops[r.loop]? = some l ∧ l.request = r.id ∧
    (l.alive = true → l.cancelled = false)
  once : (s.frames.map (·.loop)).Nodup
  installed : ∀ l ∈ s.loops, l.owner < s.installations.length
  importer : ∀ o, s.importer = some o → s.IsOwned o → s.IsAttached o

/-- Every listener is one of the bridge that is held. -/
theorem Sound.owner_of_listener (hs : s.Sound st) {l : Listener} (hl : l ∈ s.listeners) :
    ∃ h loop, s.handle = some h ∧ h.loop = some loop ∧ h.owner = l.owner := by
  by_cases hr : s.Runs
  · obtain ⟨h, loop, hh, hloop⟩ := hr
    obtain ⟨input, hi⟩ := hs.listening h loop hh hloop
    rw [hi] at hl
    exact ⟨h, loop, hh, hloop, (Page.owner_of_mem_listenersOf hl).symm⟩
  · rw [hs.silent hr] at hl
    cases hl

/-- A request may be gone. -/
theorem Sound.of_frames_sublist (hs : s.Sound st) {frames : List FrameRequest}
    (hf : frames.Sublist s.frames) : Sound st { s with frames } :=
  { hs with
    requested := fun r hr => hs.requested r (hf.subset hr)
    once := hs.once.sublist (hf.map _) }

/-! ## Going on -/

/-- What a page does not take back on its way from `s` to `t`. Bridges from `n` on are new, and only
the loops `again` may have got a request anew. -/
structure Later (n : Nat) (again : Nat → Prop) (s t : Standing) : Prop where
  grows : s.installations.length ≤ t.installations.length
  kept : ∀ o < n, ∀ i, s.installations[o]? = some i →
    ∃ j, t.installations[o]? = some j ∧ i.Later j
  handle : ∀ h, t.handle = some h → n ≤ h.owner ∨ ∃ h', s.handle = some h' ∧ h'.owner = h.owner ∧
    (h.loop = none ∨ h.loop = h'.loop ∧ t.listeners = s.listeners)
  loops : ∀ (loop : Nat) m, t.loops[loop]? = some m → s.loops.length ≤ loop ∧ n ≤ m.owner ∨
    ∃ l, s.loops[loop]? = some l ∧ l.owner = m.owner ∧ (m.alive = true → l.alive = true ∧
      (l.cancelled = false → m.cancelled = false ∨ again loop ∨ ∃ r ∈ s.frames, r.loop = loop))
  more : s.loops.length ≤ t.loops.length
  asks : ∀ r ∈ t.frames, again r.loop ∨ s.loops.length ≤ r.loop ∨ ∃ r' ∈ s.frames, r'.loop = r.loop

namespace Later

variable {again again' : Nat → Prop}

/-- Nothing was taken back where all that has changed is that requests are gone. -/
theorem of_eq (hi : t.installations = s.installations) (hh : t.handle = s.handle)
    (hl : t.loops = s.loops) (hf : ∀ r ∈ t.frames, r ∈ s.frames)
    (hr : t.listeners = s.listeners) : Later n again s t where
  grows := Nat.le_of_eq (by rw [hi])
  kept o _ i ho := ⟨i, by rw [hi, ho], .refl i⟩
  handle h ht := .inr ⟨h, by rw [← hh, ht], rfl, .inr ⟨rfl, hr⟩⟩
  loops loop m hm := .inr ⟨m, by rw [← hl, hm], rfl, fun ha => ⟨ha, .inl⟩⟩
  more := Nat.le_of_eq (by rw [hl])
  asks r hm := .inr (.inr ⟨r, hf r hm, rfl⟩)

theorem refl (s : Standing) : Later n again s s := .of_eq rfl rfl rfl (fun _ h => h) rfl

theorem mono {n' : Nat} (h : Later n' again s t) (hn : n ≤ n')
    (ha : ∀ loop, again loop → again' loop) : Later n again' s t where
  grows := h.grows
  kept o ho := h.kept o (by omega)
  handle x hx := (h.handle x hx).imp_left (Nat.le_trans hn)
  loops loop m hm := by
    rcases h.loops loop m hm with ⟨hlen, ho⟩ | ⟨l, hl, ho, hal⟩
    · exact .inl ⟨hlen, Nat.le_trans hn ho⟩
    · refine .inr ⟨l, hl, ho, fun hma => (hal hma).imp_right fun hc hlc => ?_⟩
      exact (hc hlc).imp_right (Or.imp_left (ha loop))
  more := h.more
  asks r hr := (h.asks r hr).imp_left (ha _)

theorem trans (h : Later n again s t) (h' : Later n again t u) : Later n again s u where
  grows := Nat.le_trans h.grows h'.grows
  kept o ho i hi := by
    obtain ⟨j, hj, hij⟩ := h.kept o ho i hi
    obtain ⟨k, hk, hjk⟩ := h'.kept o ho j hj
    exact ⟨k, hk, hij.trans hjk⟩
  handle x hx := by
    rcases h'.handle x hx with hn | ⟨y, hy, hyx, hloop⟩
    · exact .inl hn
    · rcases h.handle y hy with hn | ⟨z, hz, hzy, hloop'⟩
      · exact .inl (hyx ▸ hn)
      · refine .inr ⟨z, hz, hzy.trans hyx, ?_⟩
        rcases hloop with hnone | ⟨he, hl⟩
        · exact .inl hnone
        · rcases hloop' with hnone | ⟨he', hl'⟩
          · exact .inl (he.trans hnone)
          · exact .inr ⟨he.trans he', hl.trans hl'⟩
  loops loop m hm := by
    rcases h'.loops loop m hm with ⟨hlen, ho⟩ | ⟨k, hk, hkm, ha'⟩
    · exact .inl ⟨Nat.le_trans h.more hlen, ho⟩
    · rcases h.loops loop k hk with ⟨hlen, ho⟩ | ⟨l, hl, hlk, ha⟩
      · exact .inl ⟨hlen, hkm ▸ ho⟩
      · refine .inr ⟨l, hl, hlk.trans hkm, fun hma => ?_⟩
        obtain ⟨hka, hc'⟩ := ha' hma
        obtain ⟨hla, hc⟩ := ha hka
        refine ⟨hla, fun hlc => ?_⟩
        rcases hc hlc with hkc | hagain
        · rcases hc' hkc with hmc | hagain | ⟨r, hr, rfl⟩
          · exact .inl hmc
          · exact .inr (.inl hagain)
          · rcases h.asks r hr with hagain | hlen | hasked
            · exact .inr (.inl hagain)
            · exact absurd (List.getElem?_eq_some_iff.1 hl).1 (Nat.not_lt_of_le hlen)
            · exact .inr (.inr hasked)
        · exact .inr hagain
  more := Nat.le_trans h.more h'.more
  asks r hr := by
    rcases h'.asks r hr with ha | hlen | ⟨r', hr', he⟩
    · exact .inl ha
    · exact .inr (.inl (Nat.le_trans h.more hlen))
    · exact he ▸ h.asks r' hr'

theorem hasCanvas (h : Later n again s t) {id : String} (hs : s.HasCanvas o id) (ho : o < n) :
    t.HasCanvas o id := by
  obtain ⟨i, hi, rfl⟩ := hs
  obtain ⟨j, hj, hij⟩ := h.kept o ho i hi
  exact ⟨j, hj, hij.canvasId⟩

end Later

/-! ## Loops -/

section

variable {loop : Nat} {f : FrameLoop → FrameLoop}

theorem map_owner_modify (hf : ∀ l, (f l).owner = l.owner) (loops : List FrameLoop) (loop : Nat) :
    (loops.modify loop f).map (·.owner) = loops.map (·.owner) := by
  refine List.ext_getElem? fun i => ?_
  rw [List.getElem?_map, List.getElem?_map, List.getElem?_modify]
  rcases loops[i]? with _ | l
  · rfl
  · simp only [Option.map_eq_map, Option.map_some]
    split
    · rw [hf l]
    · rfl

theorem owner_of_mem_modify (hf : ∀ l, (f l).owner = l.owner) {loops : List FrameLoop}
    {m : FrameLoop} (hm : m ∈ loops.modify loop f) : ∃ l ∈ loops, l.owner = m.owner := by
  have h : m.owner ∈ (loops.modify loop f).map (·.owner) := List.mem_map_of_mem hm
  rw [map_owner_modify hf] at h
  exact List.mem_map.1 h

/-- A loop changes, and with it the requests, but neither owners nor callbacks do. -/
theorem Sound.modifyLoop (hs : s.Sound st) (ho : ∀ l, (f l).owner = l.owner)
    (ha : ∀ l, (f l).alive = l.alive) {frames : List FrameRequest}
    (hr : ∀ r ∈ frames, ∃ l, (s.loops.modify loop f)[r.loop]? = some l ∧ l.request = r.id ∧
      (l.alive = true → l.cancelled = false))
    (hn : (frames.map (·.loop)).Nodup) :
    Sound st { s with loops := s.loops.modify loop f, frames } :=
  { hs with
    starting := fun o hm => by
      obtain ⟨howned, hatt, hne, hl⟩ := hs.starting o hm
      refine ⟨howned, hatt, hne, fun m hm' => ?_⟩
      obtain ⟨l, hl', he⟩ := owner_of_mem_modify ho hm'
      exact he ▸ hl l hl'
    looping := fun h i hh hi => by
      obtain ⟨l, hl, hlo, hla⟩ := hs.looping h i hh hi
      refine ⟨if loop = i then f l else l, by simp [List.getElem?_modify, hl], ?_⟩
      split
      · exact ⟨(ho l).trans hlo, (ha l).trans hla⟩
      · exact ⟨hlo, hla⟩
    alive := fun i m hm hma => by
      rw [List.getElem?_modify] at hm
      obtain ⟨l, hl, rfl⟩ := Option.map_eq_some_iff.1 hm
      refine hs.alive i l hl ?_
      split at hma
      · rwa [ha] at hma
      · exact hma
    requested := hr
    once := hn
    installed := fun m hm => by
      obtain ⟨l, hl, he⟩ := owner_of_mem_modify ho hm
      exact he ▸ hs.installed l hl }

/-- Where a loop changes so, nothing is taken back. -/
theorem later_modifyLoop (again : Nat → Prop) (ho : ∀ l, (f l).owner = l.owner)
    (ha : ∀ l, (f l).alive = l.alive) (hc : again loop)
    {frames : List FrameRequest}
    (hr : ∀ r ∈ frames, again r.loop ∨ ∃ r' ∈ s.frames, r'.loop = r.loop) :
    Later n again s { s with loops := s.loops.modify loop f, frames } where
  grows := Nat.le_refl _
  kept o _ i hi := ⟨i, hi, .refl i⟩
  handle h hh := .inr ⟨h, hh, rfl, .inr ⟨rfl, rfl⟩⟩
  loops i m hm := by
    rw [List.getElem?_modify] at hm
    obtain ⟨l, hl, rfl⟩ := Option.map_eq_some_iff.1 hm
    refine .inr ⟨l, hl, ?_⟩
    split
    · rename_i he
      exact ⟨(ho l).symm, fun hla => ⟨ha l ▸ hla, fun _ => .inr (.inl (he ▸ hc))⟩⟩
    · exact ⟨rfl, fun hla => ⟨hla, .inl⟩⟩
  more := Nat.le_of_eq (List.length_modify _ _ _).symm
  asks r hm := (hr r hm).imp_right .inr

end

/-- A loop asks for its next frame. -/
def ask (loop id : Nat) (s : Standing) : Standing :=
  { s with
    loops := s.loops.modify loop fun l => { l with request := id }
    frames := s.frames ++ [⟨id, loop⟩] }

/-- A loop asks for a frame when it has none to come. -/
theorem Sound.ask (hs : s.Sound st) {loop : Nat} {l : FrameLoop} (hl : s.loops[loop]? = some l)
    (hc : l.cancelled = false) (hn : ∀ r ∈ s.frames, r.loop ≠ loop) (id : Nat) :
    (s.ask loop id).Sound st := by
  refine hs.modifyLoop (f := fun l => { l with request := id }) (fun _ => rfl) (fun _ => rfl)
    (fun r hr => ?_) ?_
  · rw [List.getElem?_modify]
    rcases List.mem_append.1 hr with hr | hr
    · obtain ⟨m, hm, he⟩ := hs.requested r hr
      exact ⟨m, by simp [hm, Ne.symm (hn r hr)], he⟩
    · obtain rfl := List.mem_singleton.1 hr
      exact ⟨{ l with request := id }, by simp [hl], rfl, fun _ => hc⟩
  · rw [List.map_append, List.nodup_append]
    refine ⟨hs.once, by simp, fun i hi j hj => ?_⟩
    obtain ⟨r, hr, rfl⟩ := List.mem_map.1 hi
    obtain rfl : j = loop := by simpa using hj
    exact hn r hr

theorem later_ask (loop id : Nat) (s : Standing) : Later n (· = loop) s (s.ask loop id) := by
  refine later_modifyLoop (f := fun l => { l with request := id }) (· = loop) (fun _ => rfl)
    (fun _ => rfl) rfl fun r hr => ?_
  rcases List.mem_append.1 hr with hr | hr
  · exact .inr ⟨r, hr, rfl⟩
  · obtain rfl := List.mem_singleton.1 hr
    exact .inl rfl

/-- A loop will not ask for a frame again. -/
def giveUp (loop : Nat) (s : Standing) : Standing :=
  { s with loops := s.loops.modify loop fun l => { l with cancelled := true } }

theorem Sound.giveUp (hs : s.Sound st) {loop : Nat} (hn : ∀ r ∈ s.frames, r.loop ≠ loop) :
    (s.giveUp loop).Sound st := by
  refine hs.modifyLoop (f := fun l => { l with cancelled := true }) (fun _ => rfl) (fun _ => rfl)
    (fun r hr => ?_) hs.once
  obtain ⟨l, hl, he⟩ := hs.requested r hr
  exact ⟨l, by simp [hl, Ne.symm (hn r hr)], he⟩

theorem later_giveUp (loop : Nat) (s : Standing) : Later n (· = loop) s (s.giveUp loop) :=
  later_modifyLoop (f := fun l => { l with cancelled := true }) (· = loop) (fun _ => rfl)
    (fun _ => rfl) rfl fun r hr => .inr ⟨r, hr, rfl⟩

/-! ## Down -/

/-- Lets go of a bridge. -/
def release (o : Nat) (s : Standing) : Standing :=
  { s with installations := s.installations.modify o fun i => { i with owned := false } }

/-- Stops the loop of a handle and removes its listeners. -/
def stop (h : PageHandle) (s : Standing) : Standing :=
  { s with
    loops := match h.loop with
      | some loop => s.loops.modify loop fun l => { l with cancelled := true, alive := false }
      | none => s.loops
    listeners := s.listeners.filter (·.owner ≠ h.owner) }

theorem isOwned_release : (s.release o).IsOwned owner ↔ owner ≠ o ∧ s.IsOwned owner := by
  unfold IsOwned release
  simp only [List.getElem?_modify]
  by_cases h : o = owner
  · simp [h]
  · simp [h, Ne.symm h]

theorem exists_release {P : Installation → Prop} (hP : ∀ i, P { i with owned := false } ↔ P i) :
    (∃ i, (s.release o).installations[owner]? = some i ∧ P i) ↔
      ∃ i, s.installations[owner]? = some i ∧ P i := by
  unfold release
  simp only [List.getElem?_modify]
  rcases s.installations[owner]? with _ | i
  · simp
  · by_cases h : o = owner
    · simp [h, hP]
    · simp [h]

theorem isAttached_release : (s.release o).IsAttached owner ↔ s.IsAttached owner :=
  exists_release fun _ => Iff.rfl

theorem isRunning_release : (s.release o).IsRunning owner ↔ s.IsRunning owner :=
  exists_release fun _ => Iff.rfl

section

variable {h : PageHandle}

/-- Once stopped, a handle's listeners are gone, and they were all that there were. -/
theorem Sound.listeners_stop (hs : s.Sound st) (hh : s.handle = some h) :
    (s.stop h).listeners = [] := by
  refine List.filter_eq_nil_iff.2 fun l hl => ?_
  obtain ⟨h', _, hh', -, ho⟩ := hs.owner_of_listener hl
  obtain rfl : h = h' := Option.some.inj (hh.symm.trans hh')
  simp [ho]

/-- Once stopped, a handle's loop has no callback, and no other had one. -/
theorem Sound.alive_stop (hs : s.Sound st) (hh : s.handle = some h) {loop : Nat} {m : FrameLoop}
    (hm : (s.stop h).loops[loop]? = some m) : m.alive = false := by
  have hdead : ∀ l, s.loops[loop]? = some l → l.alive = true → h.loop = some loop := by
    intro l hl hla
    obtain ⟨h', hh', hloop⟩ := hs.alive loop l hl hla
    rwa [Option.some.inj (hh.symm.trans hh')]
  cases ha : m.alive with
  | false => rfl
  | true =>
    unfold stop at hm
    rcases hl : h.loop with _ | i
    · simp only [hl] at hm
      exact absurd (hdead m hm ha) (by simp [hl])
    · simp only [hl, List.getElem?_modify] at hm
      obtain ⟨l, hl', rfl⟩ := Option.map_eq_some_iff.1 hm
      split at ha
      · cases ha
      · rename_i hne
        exact absurd (Option.some.inj (hl.symm.trans (hdead l hl' ha))) hne

theorem map_owner_stop (h : PageHandle) (s : Standing) :
    (s.stop h).loops.map (·.owner) = s.loops.map (·.owner) := by
  unfold stop
  cases h.loop with
  | none => rfl
  | some loop =>
    exact map_owner_modify (f := fun l => { l with cancelled := true, alive := false })
      (fun _ => rfl) s.loops loop

theorem length_stop (h : PageHandle) (s : Standing) :
    (s.stop h).loops.length = s.loops.length := by
  simpa using congrArg List.length (map_owner_stop h s)

theorem owner_of_mem_stop {m : FrameLoop} (hm : m ∈ (s.stop h).loops) :
    ∃ l ∈ s.loops, l.owner = m.owner := by
  have hm' : m.owner ∈ (s.stop h).loops.map (·.owner) := List.mem_map_of_mem hm
  rw [map_owner_stop] at hm'
  exact List.mem_map.1 hm'

theorem Sound.requested_stop (hs : s.Sound st) (h : PageHandle) :
    ∀ r ∈ s.frames, ∃ l, (s.stop h).loops[r.loop]? = some l ∧ l.request = r.id ∧
      (l.alive = true → l.cancelled = false) := by
  intro r hr
  obtain ⟨l, hl, he, hc⟩ := hs.requested r hr
  unfold stop
  cases h.loop with
  | none => exact ⟨l, hl, he, hc⟩
  | some loop =>
    refine ⟨_, by simp only [List.getElem?_modify, hl]; rfl, ?_⟩
    split
    · exact ⟨he, nofun⟩
    · exact ⟨he, hc⟩

/-- Shutting the held bridge down. -/
theorem Sound.shutdown (hs : s.Sound st) (hh : s.handle = some h) :
    Sound st { s.stop h with handle := some { h with loop := none } } where
  owned o ho := by
    refine (hs.owned o ho).imp_right fun ⟨h', hh', he⟩ => ⟨_, rfl, ?_⟩
    rw [← he, Option.some.inj (hh.symm.trans hh')]
  starting o hm := by
    obtain ⟨howned, hatt, hne, hl⟩ := hs.starting o hm
    refine ⟨howned, hatt, fun h' hh' => ?_, fun m hm' => ?_⟩
    · cases hh'
      exact hne h hh
    · obtain ⟨l, hl', he⟩ := owner_of_mem_stop hm'
      exact he ▸ hl l hl'
  held h' hh' := by
    cases hh'
    exact hs.held h hh
  looping h' loop hh' hloop := by
    cases hh'
    cases hloop
  listening h' loop hh' hloop := by
    cases hh'
    cases hloop
  silent _ := hs.listeners_stop hh
  alive loop m hm ha := by
    rw [hs.alive_stop hh hm] at ha
    cases ha
  requested := hs.requested_stop h
  once := hs.once
  installed m hm := by
    obtain ⟨l, hl, he⟩ := owner_of_mem_stop hm
    exact he ▸ hs.installed l hl
  importer := hs.importer

/-- Letting go of the held bridge. -/
theorem Sound.drop (hs : s.Sound st) (hh : s.handle = some h) :
    Sound st { (s.stop h).release h.owner with handle := none } where
  owned o ho := by
    obtain ⟨hne, ho⟩ := isOwned_release.1 ho
    rcases hs.owned o ho with hm | ⟨h', hh', he⟩
    · exact .inl hm
    · rw [← he, Option.some.inj (hh.symm.trans hh')] at hne
      exact absurd rfl hne
  starting o hm := by
    obtain ⟨howned, hatt, hne, hl⟩ := hs.starting o hm
    refine ⟨isOwned_release.2 ⟨Ne.symm (hne h hh), howned⟩, isAttached_release.2 hatt, nofun,
      fun m hm' => ?_⟩
    obtain ⟨l, hl', he⟩ := owner_of_mem_stop hm'
    exact he ▸ hl l hl'
  held := nofun
  looping := nofun
  listening := nofun
  silent _ := hs.listeners_stop hh
  alive loop m hm ha := by
    rw [hs.alive_stop hh hm] at ha
    cases ha
  requested := hs.requested_stop h
  once := hs.once
  installed m hm := by
    obtain ⟨l, hl, he⟩ := owner_of_mem_stop hm
    have := hs.installed l hl
    simp only [release, List.length_modify]
    exact he ▸ this
  importer o hi ho := isAttached_release.2 (hs.importer o hi (isOwned_release.1 ho).2)

/-- Stopping a handle takes nothing back but what it stands for. -/
theorem later_stop (h : PageHandle) (s : Standing) {again : Nat → Prop} {handle : Option PageHandle}
    (hh : ∀ x, handle = some x → ∃ y, s.handle = some y ∧ y.owner = x.owner ∧ x.loop = none) :
    Later n again s { s.stop h with handle } where
  grows := Nat.le_refl _
  kept o _ i hi := ⟨i, hi, .refl i⟩
  handle x hx := by
    obtain ⟨y, hy, he, hn⟩ := hh x hx
    exact .inr ⟨y, hy, he, .inl hn⟩
  loops loop m hm := by
    refine .inr ?_
    unfold stop at hm
    rcases hl : h.loop with _ | i <;> simp only [hl] at hm
    · exact ⟨m, hm, rfl, fun ha => ⟨ha, .inl⟩⟩
    · rw [List.getElem?_modify] at hm
      obtain ⟨l, hl', rfl⟩ := Option.map_eq_some_iff.1 hm
      refine ⟨l, hl', ?_⟩
      split
      · exact ⟨rfl, nofun⟩
      · exact ⟨rfl, fun ha => ⟨ha, .inl⟩⟩
  more := Nat.le_of_eq (length_stop h s).symm
  asks r hr := .inr (.inr ⟨r, hr, rfl⟩)

end

theorem later_release (o : Nat) (s : Standing) {again : Nat → Prop} :
    Later n again s (s.release o) where
  grows := Nat.le_of_eq (List.length_modify _ _ _).symm
  kept x _ i hi := by
    unfold release
    simp only [List.getElem?_modify, hi]
    refine ⟨_, rfl, ?_⟩
    split <;> exact ⟨id, id, rfl, rfl⟩
  handle h hh := .inr ⟨h, hh, rfl, .inr ⟨rfl, rfl⟩⟩
  loops loop m hm := .inr ⟨m, hm, rfl, fun ha => ⟨ha, .inl⟩⟩
  more := Nat.le_refl _
  asks r hr := .inr (.inr ⟨r, hr, rfl⟩)

/-! ## Up -/

/-- Makes a place for a bridge, with whose imports the module may have been instantiated. -/
def install (i : Installation) (importer : Option Nat) (s : Standing) : Standing :=
  { s with installations := s.installations ++ [i], importer }

theorem exists_install {P : Installation → Prop} {i : Installation} {importer : Option Nat} :
    (∃ j, (s.install i importer).installations[o]? = some j ∧ P j) ↔
      (o = s.installations.length ∧ P i) ∨ ∃ j, s.installations[o]? = some j ∧ P j := by
  unfold install
  rcases Nat.lt_trichotomy o s.installations.length with hlt | rfl | hgt
  · simp [List.getElem?_append_left hlt, Nat.ne_of_lt hlt]
  · simp
  · rw [List.getElem?_eq_none (by simp; omega), List.getElem?_eq_none (by omega)]
    simp
    omega

theorem later_install (i : Installation) (importer : Option Nat) (s : Standing)
    (hn : n ≤ s.installations.length) {again : Nat → Prop} :
    Later n again s (s.install i importer) where
  grows := by simp [install]
  kept o ho j hj := ⟨j, by rw [install, List.getElem?_append_left (by omega), hj], .refl j⟩
  handle h hh := .inr ⟨h, hh, rfl, .inr ⟨rfl, rfl⟩⟩
  loops loop m hm := .inr ⟨m, hm, rfl, fun ha => ⟨ha, .inl⟩⟩
  more := Nat.le_refl _
  asks r hr := .inr (.inr ⟨r, hr, rfl⟩)

/-- A bridge that has been given up at once leaves a place only. -/
theorem Sound.install_released (hs : s.Sound st) {i : Installation} (hi : i.owned = false)
    {importer : Option Nat}
    (him : importer = s.importer ∨ importer = some s.installations.length) :
    (s.install i importer).Sound st := by
  have howned : ∀ o, (s.install i importer).IsOwned o ↔ s.IsOwned o := fun o =>
    exists_install.trans (or_iff_right (by simp [hi]))
  have hatt : ∀ o, s.IsAttached o → (s.install i importer).IsAttached o := fun o ho =>
    exists_install.2 (.inr ho)
  exact
  { hs with
    owned := fun o ho => hs.owned o ((howned o).1 ho)
    starting := fun o ho => by
      obtain ⟨h₁, h₂, h₃⟩ := hs.starting o ho
      exact ⟨(howned o).2 h₁, hatt o h₂, h₃⟩
    held := fun h hh => by
      obtain ⟨h₁, h₂, h₃⟩ := hs.held h hh
      exact ⟨(howned _).2 h₁, hatt _ h₂, exists_install.2 (.inr h₃)⟩
    installed := fun l hl => by
      have := hs.installed l hl
      simp only [install, List.length_append]
      omega
    importer := fun o ho hown => by
      have hown := (howned o).1 hown
      rcases him with him | him <;> rw [show importer = some o from ho] at him
      · exact hatt o (hs.importer o him.symm hown)
      · cases him
        exact absurd hown.lt (Nat.lt_irrefl _) }

/-- A new bridge that has a guest is being brought up. -/
theorem Sound.install_attached (hs : s.Sound st) {i : Installation} (ho : i.owned = true)
    (ha : i.bridge.attached = true) {importer : Option Nat}
    (him : importer = some s.installations.length) :
    (s.install i importer).Sound (s.installations.length :: st) := by
  have hatt : ∀ o, s.IsAttached o → (s.install i importer).IsAttached o := fun o ho =>
    exists_install.2 (.inr ho)
  have howned : ∀ o, s.IsOwned o → (s.install i importer).IsOwned o := fun o ho =>
    exists_install.2 (.inr ho)
  exact
  { hs with
    owned := fun o h => by
      rcases exists_install.1 h with ⟨rfl, -⟩ | h
      · exact .inl (.head _)
      · exact (hs.owned o h).imp_left (.tail _)
    starting := fun o hm => by
      rcases List.mem_cons.1 hm with rfl | hm
      · refine ⟨exists_install.2 (.inl ⟨rfl, ho⟩), exists_install.2 (.inl ⟨rfl, ha⟩), ?_, ?_⟩
        · exact fun h hh => Nat.ne_of_lt (hs.held h hh).1.lt
        · exact fun l hl => Nat.ne_of_lt (hs.installed l hl)
      · obtain ⟨h₁, h₂, h₃⟩ := hs.starting o hm
        exact ⟨howned o h₁, hatt o h₂, h₃⟩
    held := fun h hh => by
      obtain ⟨h₁, h₂, h₃⟩ := hs.held h hh
      exact ⟨howned _ h₁, hatt _ h₂, exists_install.2 (.inr h₃)⟩
    installed := fun l hl => by
      have := hs.installed l hl
      simp only [install, List.length_append]
      omega
    importer := fun o hm _ => by
      rw [him] at hm
      cases hm
      exact exists_install.2 (.inl ⟨rfl, ha⟩) }

/-- A bridge starts running. -/
def startRunning (o : Nat) (s : Standing) : Standing :=
  { s with installations := s.installations.modify o fun i => { i with bridge.phase := .running } }

theorem exists_startRunning {P : Installation → Prop}
    (hP : ∀ i, P i → P { i with bridge.phase := .running })
    (h : ∃ i, s.installations[owner]? = some i ∧ P i) :
    ∃ i, (s.startRunning o).installations[owner]? = some i ∧ P i := by
  obtain ⟨i, hi, hp⟩ := h
  unfold startRunning
  refine ⟨_, by simp only [List.getElem?_modify, hi]; rfl, ?_⟩
  split
  · exact hP i hp
  · exact hp

theorem isOwned_startRunning : (s.startRunning o).IsOwned owner ↔ s.IsOwned owner := by
  refine ⟨fun ⟨i, hi, ho⟩ => ?_, exists_startRunning fun _ => id⟩
  unfold startRunning at hi
  rw [List.getElem?_modify] at hi
  obtain ⟨j, hj, rfl⟩ := Option.map_eq_some_iff.1 hi
  refine ⟨j, hj, ?_⟩
  split at ho <;> exact ho

theorem isRunning_startRunning (ho : s.IsOwned o) : (s.startRunning o).IsRunning o := by
  obtain ⟨i, hi, -⟩ := ho
  exact ⟨{ i with bridge.phase := .running }, by simp [startRunning, hi], rfl⟩

theorem Sound.startRunning (hs : s.Sound st) (o : Nat) : (s.startRunning o).Sound st := by
  have hatt : ∀ x, s.IsAttached x → (s.startRunning o).IsAttached x := fun x =>
    exists_startRunning fun _ => id
  exact
  { hs with
    owned := fun x hx => hs.owned x (isOwned_startRunning.1 hx)
    starting := fun x hx => by
      obtain ⟨h₁, h₂, h₃⟩ := hs.starting x hx
      exact ⟨isOwned_startRunning.2 h₁, hatt x h₂, h₃⟩
    held := fun h hh => by
      obtain ⟨h₁, h₂, h₃⟩ := hs.held h hh
      exact ⟨isOwned_startRunning.2 h₁, hatt _ h₂, exists_startRunning (fun _ _ => rfl) h₃⟩
    installed := fun l hl => by
      simpa [Standing.startRunning] using hs.installed l hl
    importer := fun x hx ho => hatt x (hs.importer x hx (isOwned_startRunning.1 ho)) }

theorem later_startRunning (o : Nat) (s : Standing) {again : Nat → Prop} :
    Later n again s (s.startRunning o) where
  grows := Nat.le_of_eq (List.length_modify _ _ _).symm
  kept x _ i hi := by
    unfold startRunning
    simp only [List.getElem?_modify, hi]
    refine ⟨_, rfl, ?_⟩
    split
    · exact ⟨id, fun _ => rfl, rfl, rfl⟩
    · exact .refl i
  handle h hh := .inr ⟨h, hh, rfl, .inr ⟨rfl, rfl⟩⟩
  loops loop m hm := .inr ⟨m, hm, rfl, fun ha => ⟨ha, .inl⟩⟩
  more := Nat.le_refl _
  asks r hr := .inr (.inr ⟨r, hr, rfl⟩)

/-- A bridge that is being brought up is given up. -/
theorem Sound.abandon (hs : s.Sound (o :: st)) (ho : o ∉ st) : (s.release o).Sound st :=
  { hs with
    owned := fun x hx => by
      obtain ⟨hne, hx⟩ := isOwned_release.1 hx
      rcases hs.owned x hx with hm | hh
      · exact .inl ((List.mem_cons.1 hm).resolve_left hne)
      · exact .inr hh
    starting := fun x hx => by
      obtain ⟨h₁, h₂, h₃⟩ := hs.starting x (.tail _ hx)
      exact ⟨isOwned_release.2 ⟨fun he => ho (he ▸ hx), h₁⟩, isAttached_release.2 h₂, h₃⟩
    held := fun h hh => by
      obtain ⟨h₁, h₂, h₃⟩ := hs.held h hh
      exact ⟨isOwned_release.2 ⟨(hs.starting o (.head _)).2.2.1 h hh, h₁⟩,
        isAttached_release.2 h₂, isRunning_release.2 h₃⟩
    installed := fun l hl => by simpa [release] using hs.installed l hl
    importer := fun x hx hxo => isAttached_release.2 (hs.importer x hx (isOwned_release.1 hxo).2) }

/-- Holds a bridge that is up, with its listeners and its first request. -/
def takeUp (o id : Nat) (input : Option (String × Nat)) (s : Standing) : Standing :=
  { s with
    handle := some ⟨o, some s.loops.length⟩
    loops := s.loops ++ [{ owner := o, request := id }]
    frames := s.frames ++ [⟨id, s.loops.length⟩]
    listeners := Page.listenersOf o input }

theorem Sound.takeUp (hs : s.Sound (o :: st)) (ho : o ∉ st) (hr : s.IsRunning o)
    (hh : s.handle = none) (id : Nat) (input : Option (String × Nat)) :
    (s.takeUp o id input).Sound st where
  owned x hx := by
    rcases hs.owned x hx with hm | ⟨h, hh', -⟩
    · rcases List.mem_cons.1 hm with rfl | hm
      · exact .inr ⟨_, rfl, rfl⟩
      · exact .inl hm
    · rw [hh] at hh'
      cases hh'
  starting x hx := by
    obtain ⟨h₁, h₂, -, h₄⟩ := hs.starting x (.tail _ hx)
    have hne : o ≠ x := fun he => ho (he ▸ hx)
    refine ⟨h₁, h₂, fun h hh' => ?_, fun l hl => ?_⟩
    · cases hh'
      exact hne
    · rcases List.mem_append.1 hl with hl | hl
      · exact h₄ l hl
      · obtain rfl := List.mem_singleton.1 hl
        exact hne
  held h hh' := by
    cases hh'
    obtain ⟨h₁, h₂, -⟩ := hs.starting o (.head _)
    exact ⟨h₁, h₂, hr⟩
  looping h loop hh' hl := by
    cases hh'
    cases hl
    exact ⟨{ owner := o, request := id }, by simp [Standing.takeUp], rfl, rfl⟩
  listening h loop hh' _ := by
    cases hh'
    exact ⟨input, rfl⟩
  silent hn := absurd ⟨_, _, rfl, rfl⟩ hn
  alive loop l hl ha := by
    unfold Standing.takeUp at hl
    rcases Nat.lt_or_ge loop s.loops.length with hlt | hge
    · rw [List.getElem?_append_left hlt] at hl
      obtain ⟨h, hh', -⟩ := hs.alive loop l hl ha
      rw [hh] at hh'
      cases hh'
    · have hlt := (List.getElem?_eq_some_iff.1 hl).1
      simp only [List.length_append, List.length_singleton] at hlt
      exact ⟨_, rfl, congrArg some (by omega)⟩
  requested r hr := by
    unfold Standing.takeUp at hr ⊢
    rcases List.mem_append.1 hr with hr | hr
    · obtain ⟨l, hl, he⟩ := hs.requested r hr
      exact ⟨l, by rw [List.getElem?_append_left (List.getElem?_eq_some_iff.1 hl).1, hl], he⟩
    · obtain rfl := List.mem_singleton.1 hr
      exact ⟨{ owner := o, request := id }, by simp, rfl, fun _ => rfl⟩
  once := by
    unfold Standing.takeUp
    rw [List.map_append, List.nodup_append]
    refine ⟨hs.once, by simp, fun i hi j hj => ?_⟩
    obtain ⟨r, hr, rfl⟩ := List.mem_map.1 hi
    obtain ⟨l, hl, -⟩ := hs.requested r hr
    obtain rfl : j = s.loops.length := by simpa using hj
    exact Nat.ne_of_lt (List.getElem?_eq_some_iff.1 hl).1
  installed l hl := by
    rcases List.mem_append.1 hl with hl | hl
    · exact hs.installed l hl
    · obtain rfl := List.mem_singleton.1 hl
      exact (hs.starting o (.head _)).1.lt
  importer := hs.importer

theorem later_takeUp (o id : Nat) (input : Option (String × Nat)) (s : Standing) (hn : n ≤ o)
    {again : Nat → Prop} : Later n again s (s.takeUp o id input) where
  grows := Nat.le_refl _
  kept x _ i hi := ⟨i, hi, .refl i⟩
  handle h hh := by
    cases hh
    exact .inl hn
  loops loop m hm := by
    unfold takeUp at hm
    rcases Nat.lt_or_ge loop s.loops.length with hlt | hge
    · rw [List.getElem?_append_left hlt] at hm
      exact .inr ⟨m, hm, rfl, fun ha => ⟨ha, .inl⟩⟩
    · rw [List.getElem?_append_right hge] at hm
      obtain rfl : _ = m := List.mem_singleton.1 (List.mem_of_getElem? hm) |>.symm
      exact .inl ⟨hge, hn⟩
  more := by simp [takeUp]
  asks r hr := by
    rcases List.mem_append.1 hr with hr | hr
    · exact .inr (.inr ⟨r, hr, rfl⟩)
    · obtain rfl := List.mem_singleton.1 hr
      exact .inr (.inl (Nat.le_refl _))

end Standing

end GuestBridge
