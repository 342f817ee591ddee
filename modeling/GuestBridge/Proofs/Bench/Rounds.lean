import GuestBridge.Bench.Run

/-!
# Rounds of the queues

The loops of the host one round at a time: `poll` polls every task once, `takeUp` takes up one load
that has come back, and `handle` deals with one completion. `PollsTo`, `DeliversTo` and `PumpsTo`
are the loops themselves, run for as long as they go on: that one of them leads from a bench to
another one says that it comes to an end there.
-/

set_option autoImplicit false

namespace GuestBridge.Bench

variable {G C : Type} (inner : Performer G C)

/-- Takes up a load that has come back, if there is still a bridge to do it. -/
def takeUp (t : Task) (result : Except FetchError DecodedImage) (b : Bench G C) : Bench G C :=
  if b.isAlive then (platform inner).complete t.fetch result b else b

/-- Polls all tasks once. Answers whether any one ended. -/
def poll (b : Bench G C) : Bool × Bench G C :=
  let (waiting, ended, b) := pollEach inner b.tasks { b with tasks := [] }
  (ended, { b with tasks := waiting ++ b.tasks })

/-- Deals with a completion that was taken off its queue. -/
def handle (c : Completion) (b : Bench G C) : Bench G C :=
  if b.isAlive then (platform inner).deliver c b else b

variable {inner} {b : Bench G C} {t : Task}

theorem pollEach_cons_of_none (h : b.result? t = none) (rest : List Task) :
    pollEach inner (t :: rest) b =
      (t :: (pollEach inner rest b).1, (pollEach inner rest b).2) := by
  simp only [pollEach, h]

theorem pollEach_cons_of_some {result : Except FetchError DecodedImage}
    (h : b.result? t = some result) (rest : List Task) :
    pollEach inner (t :: rest) b =
      ((pollEach inner rest (takeUp inner t result b)).1, true,
        (pollEach inner rest (takeUp inner t result b)).2.2) := by
  simp only [pollEach, h]
  rfl

theorem runTasksFor_succ (n : Nat) (b : Bench G C) :
    runTasksFor inner (n + 1) b =
      if (poll inner b).1 then runTasksFor inner n (poll inner b).2 else (poll inner b).2 := rfl

theorem runOneDeferred_of_cons {c : Completion} {rest : List Completion}
    (h : b.deferred = c :: rest) :
    runOneDeferred inner b = (true, handle inner c { b with deferred := rest }) := by
  unfold runOneDeferred
  rw [h]
  rfl

theorem runOneDeferred_of_nil (h : b.deferred = []) : runOneDeferred inner b = (false, b) := by
  unfold runOneDeferred
  rw [h]

theorem runDeferredFor_succ_of_cons {c : Completion} {rest : List Completion}
    (h : b.deferred = c :: rest) (n : Nat) :
    runDeferredFor inner (n + 1) b =
      runDeferredFor inner n (handle inner c { b with deferred := rest }) := by
  simp only [runDeferredFor, runOneDeferred_of_cons h]

theorem runDeferredFor_succ_of_nil (h : b.deferred = []) (n : Nat) :
    runDeferredFor inner (n + 1) b = b := by
  simp only [runDeferredFor, runOneDeferred_of_nil h]

/-! ## Loops without a bound -/

variable (inner)

/-- Polling the tasks, over and over until a round ends none of them, comes to an end. -/
inductive PollsTo : Bench G C → Bench G C → Prop
  | last {b : Bench G C} (h : (poll inner b).1 = false) : PollsTo b (poll inner b).2
  | again {b b' : Bench G C} (h : (poll inner b).1 = true) (next : PollsTo (poll inner b).2 b') :
    PollsTo b b'

/-- Running completions until none is left comes to an end. -/
inductive DeliversTo : Bench G C → Bench G C → Prop
  | empty {b : Bench G C} (h : b.deferred = []) : DeliversTo b b
  | next {b b' : Bench G C} {c : Completion} {rest : List Completion} (h : b.deferred = c :: rest)
    (next : DeliversTo (handle inner c { b with deferred := rest }) b') : DeliversTo b b'

/-- Running tasks and completions in turn until no completion is waiting comes to an end. -/
inductive PumpsTo : Bench G C → Bench G C → Prop
  | last {b b' : Bench G C} (h : PollsTo inner b b') (hd : b'.deferred = []) : PumpsTo b b'
  | again {b b₁ b₂ b' : Bench G C} (h : PollsTo inner b b₁) (hd : b₁.deferred ≠ [])
    (h' : DeliversTo inner b₁ b₂) (next : PumpsTo b₂ b') : PumpsTo b b'

variable {inner}

/-! ## Tasks that wait -/

/-- No load has come back. -/
def Waits (b : Bench G C) : Prop := ∀ t ∈ b.tasks, b.result? t = none

theorem pollEach_of_waits {ts : List Task} (h : ∀ t ∈ ts, b.result? t = none) :
    pollEach inner ts b = (ts, false, b) := by
  induction ts with
  | nil => rfl
  | cons t rest ih =>
    rw [pollEach_cons_of_none (h t (.head _)), ih fun t' ht' => h t' (.tail _ ht')]

variable (inner) in
theorem poll_of_waits (h : b.Waits) : poll inner b = (false, b) := by
  unfold poll
  rw [pollEach_of_waits (b := { b with tasks := [] }) h]
  simp only [List.append_nil]

theorem PollsTo.of_waits (h : b.Waits) : PollsTo inner b b := by
  have hp := poll_of_waits inner h
  have hl : PollsTo inner b (poll inner b).2 := .last (congrArg Prod.fst hp)
  rwa [hp] at hl

theorem runTasks_of_waits (h : b.Waits) : runTasks inner b = b := by
  unfold runTasks
  rw [runTasksFor_succ, poll_of_waits inner h]
  rfl

end GuestBridge.Bench
