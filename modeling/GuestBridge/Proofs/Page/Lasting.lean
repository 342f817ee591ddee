import GuestBridge.Proofs.Page.Apart

/-!
# What lasts on a page

`Page.Lasts inner I` says of a property of pages that it is kept by what happens apart from fetches
and frames, by calls of guests that deliver neither, and by the steps that guests take. Such a
property is kept by all that listeners do, and by the bringing up of a bridge as far as its frame
loop. `Page.Endures inner I` says also that it is kept where fetches and frames are dealt with; then
it is kept by every step (`Endures.performWith`).
-/

set_option autoImplicit false

namespace GuestBridge

/-- Whether the guest is told of a frame or of an image. -/
def EntryPoint.isDelivery : EntryPoint → Bool
  | animationFrame _ | fetch .. => true
  | _ => false

theorem InputEvent.isDelivery_entryPoint (event : InputEvent) :
    event.entryPoint.isDelivery = false := by
  cases event <;> rfl

theorem Bridge.lastFrame_cancelPending (b : Bridge) : b.cancelPending.lastFrame = b.lastFrame := by
  obtain ⟨requests, he, -⟩ := b.cancelPending_eq
  rw [he]

namespace Page

open Attempt

variable {I : Page → Prop} {q r : Page} {inner : Performer} {owner : Nat}

structure Lasts (inner : Performer) (I : Page → Prop) : Prop where
  apart : ∀ {q r}, I q → Apart q r → I r
  alloc : ∀ q len, I q → I (q.note (.alloc len))
  call : ∀ q entry, entry.isDelivery = false → I q → I (q.note (.call entry))
  step : ∀ q step, I q → I (inner step q).2

namespace Lasts

variable (h : Lasts inner I)

include h

theorem note {e : Event} (he : e.isEntry = false) (hw : e.isWarning = false) (hq : I q) :
    I (q.note e) :=
  h.apart hq (.note he hw q)

theorem did (e : PageEvent) (hq : I q) : I (q.did e) := h.note rfl rfl hq

theorem log {level : Log.Level} {target text : String} (ht : target ≠ Log.Target.bridge)
    (hq : I q) : I (q.log level target text) :=
  h.note rfl (Event.isWarning_of_target ht) hq

theorem of_eq (hq : I q) (hi : r.installations = q.installations) (hqs : r.queues = q.queues)
    (hj : r.journal = q.journal) : I r :=
  h.apart hq (.of_eq hi hqs hj)

/-! ## Guests -/

theorem takeSteps (steps : List PageStep) (hq : I q) : I (takeSteps inner steps q).2 := by
  induction steps generalizing q with
  | nil => exact hq
  | cons step rest ih =>
    have hstep : I ((inner step q).2.note (.nested (inner step q).1)) :=
      h.note rfl rfl (h.step q step hq)
    unfold Page.takeSteps
    simp only
    split
    · exact hstep
    · exact ih hstep

theorem interlude (owner : Nat) (name : String) (hq : I q) :
    I (interlude inner owner name q).2 := by
  have hentered : I { q with
      guest.interludes := (q.guest.interludes.take name).2
      entered := owner :: q.entered
      visits := ⟨owner, name, q.holds owner⟩ :: q.visits } := h.of_eq hq rfl rfl rfl
  exact h.of_eq (h.takeSteps (q.guest.interludes.take name).1 hentered) rfl rfl rfl

theorem allocates (owner : Nat) (len : UInt32) (hq : I q) : I (Page.alloc inner owner len q).2 := by
  have hin := h.interlude owner allocatorExport (h.alloc q len hq)
  unfold Page.alloc
  split
  · rename_i thrown r hr
    rwa [hr] at hin
  · rename_i r hr
    rw [hr] at hin
    split <;> exact h.of_eq hin rfl rfl rfl

/-- A call of a guest, if to note it keeps the property. -/
theorem calls_of_note {entry : EntryPoint} (hq : I q) (hn : I (q.note (.call entry))) :
    I (Page.call inner owner entry q).2 := by
  have hin := h.interlude owner entry.exportName hn
  unfold Page.call
  simp only
  split
  · exact hq
  · split
    · rename_i thrown r hr
      rwa [hr] at hin
    · rename_i r hr
      rw [hr] at hin
      split <;> exact hin

theorem calls {entry : EntryPoint} (he : entry.isDelivery = false) (hq : I q) :
    I (Page.call inner owner entry q).2 :=
  h.calls_of_note hq (h.call q entry he hq)

/-! ## The platform -/

theorem logs (owner : Nat) {level : Log.Level} {target text : String}
    (hw : (Event.log ⟨level, target, text⟩).isWarning = false) (hq : I q) :
    I ((platform inner owner).log level target text q) :=
  h.apart hq (.withCore (fun _ => rfl) rfl (.push rfl _) (filter_isWarning_push hw q.journal))

theorem store (owner : Nat) (stores : List Store) :
    Keeps I ((platform inner owner).onCore (Core.store stores)) := by
  intro q hq
  have hs : ∀ c : Core ScriptedContext, (Core.store stores c).2.bridge = c.bridge ∧
      (Core.store stores c).2.journal = c.journal := fun c => by
    rcases Core.store_cases stores c with ⟨memory, hs⟩ | ⟨e, hs⟩ <;> rw [hs] <;> exact ⟨rfl, rfl⟩
  obtain ⟨hb, hj⟩ := hs (q.core owner)
  refine h.apart hq (.withCore (c := (Core.store stores (q.core owner)).2) (fun id => ?_) ?_ ?_ ?_)
  · rw [hb]
    rfl
  · rw [hb]
    rfl
  · rw [hj]
    exact .refl _
  · rw [hj]
    rfl

theorem onBridge {f : Bridge → Bridge} (hf : ∀ b id, (f b).accepted? id = b.accepted? id)
    (hl : ∀ b, (f b).lastFrame = b.lastFrame) (owner : Nat) (hq : I q) :
    I ((platform inner owner).onBridge f q) :=
  h.apart hq (.withCore (fun id => hf _ id) (hl _) (.refl _) rfl)

theorem callGuest (owner : Nat) {entry : EntryPoint} (he : entry.isDelivery = false) :
    Keeps I ((platform inner owner).callGuest entry) :=
  Platform.keeps_callGuest fun _ hq => h.calls he hq

theorem copyToGuest (owner : Nat) (bytes : List UInt8) :
    Keeps I ((platform inner owner).copyToGuest bytes) :=
  Platform.keeps_copyToGuest_of_store (h.store owner) bytes fun len _ hq => h.allocates owner len hq

theorem submitEquation (owner : Nat) (text : String) :
    Keeps I ((platform inner owner).submitEquation text) :=
  Platform.keeps_submitEquation_of_store (h.store owner) text
    (fun _ _ hq => h.logs owner (Event.isWarning_of_level (by decide)) hq)
    (fun len _ hq => h.allocates owner len hq) fun _ _ _ hq => h.calls rfl hq

theorem attachGuest (owner : Nat) : Keeps I (platform inner owner).attachGuest := by
  refine Platform.keeps_bridge.bind fun b => ?_
  split
  · exact keeps_fail _
  · exact keeps_modify fun q hq =>
      h.onBridge (f := fun b => { b with attached := true }) (fun _ _ => rfl) (fun _ => rfl) owner hq

theorem init (owner : Nat) (width height : UInt32) :
    Keeps I ((platform inner owner).init width height) := by
  refine Platform.keeps_bridge.bind fun b => ?_
  split
  · exact keeps_fail _
  · refine (h.callGuest owner rfl).bind fun _ =>
      (keeps_modify fun q hq => ?_).bind fun _ => keeps_modify fun q hq => ?_
    · exact h.onBridge (f := fun b => { b with phase := .running }) (fun _ _ => rfl) (fun _ => rfl)
        owner hq
    · exact h.logs owner (Event.isWarning_of_level (by decide)) hq

/-! ## Listeners -/

theorem forward (event : InputEvent) (hq : I q) : I (forward inner owner event q) := by
  have hcall := h.callGuest owner event.isDelivery_entryPoint q hq
  have hd : (platform inner owner).dispatchInput event =
    (platform inner owner).callGuest event.entryPoint := rfl
  unfold Page.forward
  rw [hd]
  split
  · rename_i r hr
    rwa [hr] at hcall
  · rename_i e r hr
    rw [hr] at hcall
    exact h.log (by decide) hcall

theorem submitInput (input : Nat) (hq : I q) : I (submitInput inner owner input q) := by
  have hsubmit := h.submitEquation owner (q.script.text input) q hq
  unfold Page.submitInput
  split
  · rename_i copy r hr
    rwa [hr] at hsubmit
  · rename_i e r hr
    rw [hr] at hsubmit
    exact h.log (by decide) hsubmit

theorem react (payload : Payload) (l : Listener) (hq : I q) : I (react inner payload l q) := by
  unfold Page.react
  split
  · exact h.forward (.resize _ _) (h.did _ (h.did _ hq))
  · split
    · exact h.submitInput _ hq
    · exact hq
  · split
    · exact h.forward _ hq
    · exact hq

theorem reactAll (payload : Payload) (ls : List Listener) (hq : I q) :
    I (reactAll inner payload ls q) := by
  induction ls generalizing q with
  | nil => exact hq
  | cons l rest ih =>
    refine ih (q := if q.listeners.contains l then Page.react inner payload l q else q) ?_
    split
    · exact h.react payload l hq
    · exact hq

theorem removeListeners (o : Nat) (hq : I q) : I (q.removeListeners o) := by
  have hdid : ∀ (ls : List Listener) (r : Page), I r →
      I (ls.foldl (fun p l => p.did (.removeEventListener l.target l.kind)) r) := by
    intro ls
    induction ls with
    | nil => exact fun _ hr => hr
    | cons l rest ih => exact fun r hr => ih _ (h.did _ hr)
  unfold Page.removeListeners
  simp only
  exact h.of_eq (hdid _ q hq) rfl rfl rfl

/-! ## Installations -/

theorem release (o : Nat) (hq : I q) : I (q.release o) :=
  h.apart hq (.of_bridges (core_bridge_modify fun _ => rfl) rfl rfl)

theorem install (canvasId : String) : Keeps I (install canvasId) := by
  refine keeps_state fun q hq => h.apart hq (.of_bridges (fun o => ?_) rfl rfl)
  unfold core
  rw [List.getElem?_append]
  split
  · rfl
  · rename_i hlen
    -- A new bridge is as one that is not there.
    rw [List.getElem?_eq_none (Nat.le_of_not_lt hlen)]
    cases o - q.installations.length <;> rfl

theorem instantiate (o : Nat) (url : String) : Keeps I (instantiate o url) := by
  refine (keeps_modify fun q hq => h.log (by decide) hq).bind fun _ =>
    (keeps_modify fun q hq => h.did _ hq).bind fun _ => keeps_get.bind fun r => ?_
  split
  · exact keeps_fail _
  · refine (keeps_modify fun q hq => h.did _ hq).bind fun _ => Keeps.bind (fun q hq =>
      h.apart hq (.of_bridges (core_bridge_modify fun _ => rfl) rfl rfl)) fun _ => ?_
    split
    · exact keeps_fail _
    · exact keeps_pure _

theorem listenAll (ls : List Listener) : Keeps I (listenAll ls) := by
  induction ls with
  | nil => exact keeps_pure _
  | cons l rest ih =>
    refine Keeps.bind (fun q hq => ?_) fun _ => ih
    unfold listen
    split
    · exact hq
    · exact h.of_eq (h.did _ hq) rfl rfl rfl

theorem submit (text : String) (x : PageHandle) (hq : I q) : I (submit inner text x q).2 := by
  have hsubmit := h.submitEquation x.owner text q hq
  unfold Page.submit
  split
  · rename_i copy r hr
    rwa [hr] at hsubmit
  · rename_i e r hr
    rwa [hr] at hsubmit

end Lasts

/-! ## Everything -/

structure Endures (inner : Performer) (I : Page → Prop) : Prop extends Lasts inner I where
  startLoop : ∀ o, Keeps I (startLoop o)
  stopLoop : ∀ q loop, I q → I (q.stopLoop loop)
  frame : ∀ q timestamp, I q → I (frame inner timestamp q).2
  runTasks : ∀ q, I q → I (runTasks inner q)
  runTimer : ∀ q, I q → I (runTimer inner q).2
  callImport : ∀ q name args, I q → I (callImport inner name args q).2

namespace Endures

variable (h : Endures inner I)

include h

theorem stop (x : PageHandle) (hq : I q) : I (q.stop x) := by
  -- What is done once the loop of the handle, if it has one, is stopped.
  have hrest : ∀ t, I t → I ((t.removeListeners x.owner).withCore x.owner
      ((t.removeListeners x.owner).core x.owner).shutdown) := fun t ht =>
    h.apart (h.removeListeners x.owner ht)
      (.withCore (fun id => Bridge.accepted?_cancelPending _ id) (Bridge.lastFrame_cancelPending _)
        (Core.Still.shutdown _).journal
        (filter_isWarning_push (Event.isWarning_of_level (by decide)) _))
  unfold Page.stop
  rcases x.loop with _ | loop
  · exact hrest q hq
  · exact hrest _ (h.stopLoop q loop hq)

theorem discard (x : PageHandle) (hq : I q) : I (q.discard x) := h.release x.owner (h.stop x hq)

theorem shutdown (x : PageHandle) (hq : I q) : I (q.shutdown x) :=
  h.of_eq (h.stop x hq) rfl rfl rfl

theorem dropHandle (hq : I q) : I q.dropHandle := by
  unfold Page.dropHandle
  split
  · exact h.discard _ (h.of_eq hq rfl rfl rfl)
  · exact hq

theorem keep (x : PageHandle) (hq : I q) : I (q.keep x) := by
  have hkept : I { q with handle := some x } := h.of_eq hq rfl rfl rfl
  unfold Page.keep
  split
  · exact h.discard _ hkept
  · exact hkept

theorem launch (options : BridgeOptions) (o : Nat) (width height : UInt32) :
    Keeps I (launch inner options o width height) := by
  refine (h.instantiate o _).bind fun _ => (keeps_requireExport o _).bind fun _ =>
    (keeps_requireExport o _).bind fun _ => ?_
  refine Keeps.bind (fun q hq => h.attachGuest o q hq) fun _ =>
    Keeps.bind (fun q hq => h.init o width height q hq) fun _ => ?_
  refine ((findInput_meets _).mono (fun _ _ hq => hq.1) fun _ _ hq => hq).keeps.bind fun input =>
    (h.listenAll _).bind fun _ => (h.startLoop o).bind fun loop => ?_
  exact (keeps_modify fun q hq => h.log (by decide) hq).bind fun _ => keeps_pure _

theorem bringUp (options : BridgeOptions) : Keeps I (bringUp inner options) := by
  refine (keeps_prepareCanvas (fun q e hq => h.did e hq) options).bind fun size =>
    (h.install _).bind fun o => ?_
  have hlaunch := (h.launch options o size.1 size.2).meets (P := I)
  exact (hlaunch.onError fun _ q hq => h.release o (h.removeListeners o hq)).keeps

theorem start (options : BridgeOptions) : Keeps I (start inner options) := by
  refine (keeps_modify fun q hq => h.dropHandle hq).bind fun _ => ?_
  have hup := (h.bringUp options).meets (P := I)
  refine Keeps.bind (hup.onError fun _ q hq => h.log (by decide) hq).keeps fun x => ?_
  exact keeps_modify fun q hq => h.keep x hq

theorem runAllFor (n : Nat) (hq : I q) : I (runAllFor inner n q) := by
  induction n generalizing q with
  | zero => exact hq
  | succ n ih =>
    have hsettled : I (Page.runTasks inner q).settleImages :=
      h.of_eq (h.runTasks q hq) rfl rfl rfl
    have htimer := h.runTimer _ (h.runTasks _ hsettled)
    unfold Page.runAllFor
    simp only
    split
    · rename_i r hr
      rw [hr] at htimer
      exact ih htimer
    · rename_i r hr
      rwa [hr] at htimer

theorem performWith (step : PageStep) (hq : I q) : I (performWith inner step q).2 := by
  cases step with
  | start =>
    have ho : q.startOptions? .start = some q.script.options := rfl
    rw [(performWith_start inner ho).1]
    exact h.start q.script.options q hq
  | startDefault =>
    have ho : q.startOptions? .startDefault = some {} := rfl
    rw [(performWith_start inner ho).1]
    exact h.start {} q hq
  | running => exact snd_withHandle hq fun _ _ => hq
  | submit text => exact snd_withHandle hq fun x _ => h.submit text x hq
  | shutdown => exact snd_withHandle hq fun x _ => h.shutdown x hq
  | drop => exact h.dropHandle hq
  | frame timestamp => exact h.frame q timestamp hq
  | event target kind payload => exact h.reactAll payload _ hq
  | runTasks => exact h.runTasks q hq
  | runTimer => exact h.runTimer q hq
  | runAll => exact h.runAllFor _ hq
  | importCall name args => exact h.callImport q name args hq
  -- The other steps only tell the page how to behave.
  | _ => exact h.of_eq hq rfl rfl rfl

end Endures

end Page

end GuestBridge
