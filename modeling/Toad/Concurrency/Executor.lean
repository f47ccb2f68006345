import Mathlib.Data.Fin.Basic
import Mathlib.Data.Fintype.Basic
import Mathlib.Logic.Function.Basic
import Toad.Execution.Machine

/-!
# The executor's queue

`concurrency/executor.hpp`: the task queue, its condition variable, and the loop of
`worker_thread`. Workers take the mutex explicitly. The critical sections of other threads
(`spawn`, the destructor) contain no blocking call, so each is one step that needs the mutex
free; the notification that follows is a separate step without the mutex. After `is_done`
only tasks running on a worker spawn. `executor_dispatch` collects what holds in every
reachable state: tasks are popped in the order of their enqueue, a nonempty queue never
waits for a notification that nobody will send, and nothing is left when all have exited.
-/

namespace Toad.Executor

open Execution

/-- Where a worker stands in `worker_thread`: about to lock the mutex, evaluating the predicate of
`wait`, asleep in it, past it with the mutex held, running a task, running a task that is between
the enqueue and the notification of a `spawn`, or out of the loop. -/
inductive Worker (T : Type) where
  | locking
  | testing
  | blocked
  | chosen
  | running (task : T)
  | notifying (task : T)
  | exited
  deriving DecidableEq, Repr

/-- An executor with `n` workers. `owed` counts the `spawn` calls of other threads that have
enqueued and not yet notified, `closing` says that the destructor has set `is_done` and not yet
notified. `enqueued` and `popped` record the history of the queue. -/
structure State (n : Nat) (T : Type) where
  queue : List T := []
  isDone : Bool := false
  mutex : Option (Fin n) := none
  worker : Fin n → Worker T := fun _ => .locking
  owed : Nat := 0
  closing : Bool := false
  enqueued : List T := []
  popped : List T := []

/-- The steps. `woken` is the worker that a notification wakes, if any is asleep. -/
inductive Action (n : Nat) (T : Type) where
  | spawn (task : T)
  | notifyOne (woken : Option (Fin n))
  | spawnFrom (worker : Fin n) (task : T)
  | notifyFrom (worker : Fin n) (woken : Option (Fin n))
  | lock (worker : Fin n)
  | test (worker : Fin n)
  | choose (worker : Fin n)
  | finish (worker : Fin n)
  | wakeSpuriously (worker : Fin n)
  | shutdown
  | notifyAll
  deriving DecidableEq, Repr

variable {n : Nat} {T : Type}

/-- The worker sleeps in `wait`. -/
def Worker.asleep : Worker T → Bool
  | .blocked => true
  | _ => false

/-- The worker is out of its loop. -/
def Worker.gone : Worker T → Bool
  | .exited => true
  | _ => false

/-- Move one worker. -/
def State.move (state : State n T) (worker : Fin n) (place : Worker T) : State n T :=
  { state with worker := Function.update state.worker worker place }

/-- `_queue.emplace_back(task)`. -/
def State.enqueue (state : State n T) (task : T) : State n T :=
  { state with queue := state.queue ++ [task], enqueued := state.enqueued ++ [task] }

/-- `_condvar.notify_one()`: a sleeping worker goes back to locking the mutex, if there is one. -/
def State.notifyOne (state : State n T) : Option (Fin n) → Option (State n T)
  | some worker =>
      if (state.worker worker).asleep then some (state.move worker .locking) else none
  | none => if ∀ worker, (state.worker worker).asleep = false then some state else none

/-- `_condvar.notify_all()`. -/
def State.notifyAll (state : State n T) : State n T :=
  { state with
    worker := fun worker =>
      if (state.worker worker).asleep then .locking else state.worker worker }

/-- The part of `worker_thread` between `wait` and the release of the mutex. -/
def State.choose (state : State n T) (worker : Fin n) : State n T :=
  if state.isDone ∧ state.queue = [] then
    { state with mutex := none }.move worker .exited
  else
    match state.queue with
    | [] => { state with mutex := none }.move worker .locking
    | task :: rest =>
        { state with mutex := none, queue := rest, popped := state.popped ++ [task] }.move worker
          (.running task)

/-- One step. -/
def next (state : State n T) : Action n T → Option (State n T)
  | .spawn task =>
      -- other threads stop spawning once the destructor runs
      if state.isDone = false ∧ state.mutex = none then
        some { state.enqueue task with owed := state.owed + 1 }
      else none
  | .notifyOne woken =>
      if state.owed = 0 then none else { state with owed := state.owed - 1 }.notifyOne woken
  | .spawnFrom worker task =>
      match state.worker worker with
      | .running current =>
          if state.mutex = none then some ((state.enqueue task).move worker (.notifying current))
          else none
      | _ => none
  | .notifyFrom worker woken =>
      match state.worker worker with
      | .notifying current => (state.move worker (.running current)).notifyOne woken
      | _ => none
  | .lock worker =>
      match state.worker worker with
      | .locking =>
          if state.mutex = none then some ({ state with mutex := some worker }.move worker .testing)
          else none
      | _ => none
  | .test worker =>
      match state.worker worker with
      | .testing =>
          if state.isDone ∨ state.queue ≠ [] then some (state.move worker .chosen)
          else some ({ state with mutex := none }.move worker .blocked)
      | _ => none
  | .choose worker =>
      match state.worker worker with
      | .chosen => some (state.choose worker)
      | _ => none
  | .finish worker =>
      match state.worker worker with
      | .running _ => some (state.move worker .locking)
      | _ => none
  | .wakeSpuriously worker =>
      match state.worker worker with
      | .blocked => some (state.move worker .locking)
      | _ => none
  | .shutdown =>
      if state.isDone = false ∧ state.mutex = none then
        some { state with isDone := true, closing := true }
      else none
  | .notifyAll =>
      if state.closing then some { state.notifyAll with closing := false } else none

/-- An executor with `n` workers for tasks `T`. -/
def machine (n : Nat) (T : Type) : Machine (State n T) (Action n T) where
  init := {}
  next := next

/-- A queue that nobody will look at: every worker that has not left is asleep and no
notification is outstanding. -/
def Stalled (state : State n T) : Prop :=
  state.queue ≠ [] ∧
    (∀ worker, (state.worker worker).gone = true ∨ (state.worker worker).asleep = true) ∧
    state.owed = 0 ∧ state.closing = false

/-- Every worker has left its loop. -/
def AllGone (state : State n T) : Prop :=
  ∀ worker, (state.worker worker).gone = true

/-- The part of the invariant that does not depend on notifications. -/
structure Core (state : State n T) : Prop where
  fifo : state.popped ++ state.queue = state.enqueued
  gone_done : ∀ worker, (state.worker worker).gone = true → state.isDone = true
  gone_empty : AllGone state → state.queue = []

/-- The invariant: in addition, a nonempty queue has an outstanding notification or a worker that
is awake and in its loop. -/
structure Inv (state : State n T) : Prop extends Core state where
  attended : state.queue ≠ [] → 0 < state.owed ∨
    ∃ worker, (state.worker worker).gone = false ∧ (state.worker worker).asleep = false

/-- The worker moved to is where it was moved. -/
@[simp] theorem move_self (state : State n T) (worker : Fin n) (place : Worker T) :
    (state.move worker place).worker worker = place :=
  Function.update_self ..

/-- The other workers stay where they are. -/
theorem move_other (state : State n T) {worker other : Fin n} (place : Worker T)
    (h : other ≠ worker) : (state.move worker place).worker other = state.worker other :=
  Function.update_of_ne h ..

/-- A worker that is moved to a place where it is awake and in its loop looks after the queue,
whatever happens to the mutex. -/
theorem Core.move {state : State n T} (h : Core state) (worker : Fin n) (place : Worker T)
    (mutex : Option (Fin n)) (hgone : place.gone = false) (hasleep : place.asleep = false) :
    Inv ({ state with mutex := mutex }.move worker place) := by
  have hself : ({ state with mutex := mutex }.move worker place).worker worker = place :=
    move_self ..
  refine ⟨⟨h.fifo, ?_, ?_⟩, ?_⟩
  · intro other hother
    by_cases heq : other = worker
    · rw [heq, hself, hgone] at hother
      cases hother
    · rw [move_other _ _ heq] at hother
      exact h.gone_done other hother
  · intro hall
    have hcontra := hall worker
    rw [hself, hgone] at hcontra
    cases hcontra
  · intro _
    refine Or.inr ⟨worker, ?_, ?_⟩
    · rw [hself, hgone]
    · rw [hself, hasleep]

/-- Enqueuing keeps the core invariant while some worker is in its loop. -/
theorem Core.enqueue {state : State n T} (h : Core state) (task : T)
    (hlive : ¬ AllGone state) : Core (state.enqueue task) := by
  refine ⟨?_, h.gone_done, fun hall => absurd hall hlive⟩
  show state.popped ++ (state.queue ++ [task]) = state.enqueued ++ [task]
  rw [← List.append_assoc, h.fifo]

/-- A notification leaves an awake worker behind: the one it wakes, or, if nobody slept, any that
has not left. -/
theorem Core.notify_one {state following : State n T} {woken : Option (Fin n)} (h : Core state)
    (hnotify : state.notifyOne woken = some following) : Inv following := by
  cases woken with
  | some worker =>
      simp only [State.notifyOne] at hnotify
      split at hnotify
      · cases hnotify
        exact h.move worker .locking state.mutex rfl rfl
      · cases hnotify
  | none =>
      simp only [State.notifyOne] at hnotify
      split at hnotify
      · rename_i hawake
        cases hnotify
        refine ⟨h, fun hqueue => Or.inr ?_⟩
        have hlive : ¬ AllGone state := fun hall => hqueue (h.gone_empty hall)
        simp only [AllGone, not_forall, Bool.not_eq_true] at hlive
        obtain ⟨worker, hworker⟩ := hlive
        exact ⟨worker, hworker, hawake worker⟩
      · cases hnotify

/-- The choice after `wait`: leave on an empty queue after `is_done`, or take the oldest task. -/
theorem Core.choose {state : State n T} (h : Core state) (worker : Fin n) :
    Inv (state.choose worker) := by
  unfold State.choose
  split
  · rename_i hleave
    obtain ⟨hdone, hempty⟩ := hleave
    refine ⟨⟨h.fifo, fun _ _ => hdone, fun _ => hempty⟩, fun hqueue => ?_⟩
    exact absurd hempty hqueue
  · split
    · exact h.move worker .locking none rfl rfl
    · rename_i task rest hqueue
      have hpopped : Core { state with queue := rest, popped := state.popped ++ [task] } := by
        refine ⟨?_, h.gone_done, fun hall => ?_⟩
        · show state.popped ++ [task] ++ rest = state.enqueued
          rw [← h.fifo, hqueue, List.append_assoc]
          rfl
        · have hcontra := h.gone_empty hall
          rw [hqueue] at hcontra
          cases hcontra
      exact hpopped.move worker (.running task) none rfl rfl

/-- While some worker is at a place inside the loop, not all have left. -/
theorem not_all_gone {state : State n T} {worker : Fin n} {place : Worker T}
    (hplace : state.worker worker = place) (hgone : place.gone = false) : ¬ AllGone state := by
  intro hall
  have hcontra := hall worker
  rw [hplace, hgone] at hcontra
  cases hcontra

/-- Waking every sleeping worker keeps the invariant. -/
theorem Inv.notify_all {state : State n T} (h : Inv state) :
    Inv { state.notifyAll with closing := false } := by
  have hgone : ∀ worker, (state.notifyAll.worker worker).gone = (state.worker worker).gone := by
    intro worker
    show (if (state.worker worker).asleep then Worker.locking else state.worker worker).gone = _
    cases state.worker worker <;> rfl
  refine ⟨⟨h.fifo, ?_, ?_⟩, ?_⟩
  · intro worker hworker
    exact h.gone_done worker ((hgone worker).symm.trans hworker)
  · intro hall
    exact h.gone_empty (fun worker => (hgone worker).symm.trans (hall worker))
  · intro hqueue
    rcases h.attended hqueue with howed | ⟨worker, hlive, hawake⟩
    · exact Or.inl howed
    · refine Or.inr ⟨worker, (hgone worker).trans hlive, ?_⟩
      show (if (state.worker worker).asleep then Worker.locking else state.worker worker).asleep = _
      simp [hawake]

/-- Every step keeps the invariant. -/
theorem Inv.step (hn : 0 < n) {state following : State n T} {action : Action n T} (h : Inv state)
    (hnext : next state action = some following) : Inv following := by
  cases action with
  | spawn task =>
      simp only [next] at hnext
      split at hnext
      · rename_i hopen
        cases hnext
        have hlive : ¬ AllGone state := by
          intro hall
          have hdone := h.gone_done ⟨0, hn⟩ (hall _)
          rw [hopen.1] at hdone
          cases hdone
        have hcore := h.toCore.enqueue task hlive
        exact ⟨⟨hcore.fifo, hcore.gone_done, hcore.gone_empty⟩, fun _ => Or.inl (Nat.succ_pos _)⟩
      · cases hnext
  | notifyOne woken =>
      simp only [next] at hnext
      split at hnext
      · cases hnext
      · have hcore : Core { state with owed := state.owed - 1 } :=
          ⟨h.fifo, h.gone_done, h.gone_empty⟩
        exact hcore.notify_one hnext
  | spawnFrom worker task =>
      simp only [next] at hnext
      split at hnext
      · rename_i current hplace
        split at hnext
        · cases hnext
          exact (h.toCore.enqueue task (not_all_gone hplace rfl)).move worker (.notifying current)
            state.mutex rfl rfl
        · cases hnext
      · cases hnext
  | notifyFrom worker woken =>
      simp only [next] at hnext
      split at hnext
      · rename_i current hplace
        exact (h.toCore.move worker (.running current) state.mutex rfl rfl).toCore.notify_one hnext
      · cases hnext
  | lock worker =>
      simp only [next] at hnext
      split at hnext
      · split at hnext
        · cases hnext
          exact h.toCore.move worker .testing (some worker) rfl rfl
        · cases hnext
      · cases hnext
  | test worker =>
      simp only [next] at hnext
      split at hnext
      · split at hnext
        · cases hnext
          exact h.toCore.move worker .chosen state.mutex rfl rfl
        · -- only an empty queue is slept on
          rename_i hplace hpredicate
          cases hnext
          have hempty : state.queue = [] := by
            by_contra hqueue
            exact hpredicate (Or.inr hqueue)
          refine ⟨⟨h.fifo, ?_, fun _ => hempty⟩, fun hqueue => absurd hempty hqueue⟩
          intro other hother
          by_cases heq : other = worker
          · rw [heq, move_self] at hother
            cases hother
          · rw [move_other _ _ heq] at hother
            exact h.gone_done other hother
      · cases hnext
  | choose worker =>
      simp only [next] at hnext
      split at hnext
      · cases hnext
        exact h.toCore.choose worker
      · cases hnext
  | finish worker =>
      simp only [next] at hnext
      split at hnext
      · cases hnext
        exact h.toCore.move worker .locking state.mutex rfl rfl
      · cases hnext
  | wakeSpuriously worker =>
      simp only [next] at hnext
      split at hnext
      · cases hnext
        exact h.toCore.move worker .locking state.mutex rfl rfl
      · cases hnext
  | shutdown =>
      simp only [next] at hnext
      split at hnext
      · cases hnext
        exact ⟨⟨h.fifo, fun _ _ => rfl, h.gone_empty⟩, h.attended⟩
      · cases hnext
  | notifyAll =>
      simp only [next] at hnext
      split at hnext
      · cases hnext
        exact h.notify_all
      · cases hnext

/-- In every reachable state of an executor with at least one worker: what was popped is a prefix
of what was enqueued, in the same order, and the queue is the rest; the queue is not stalled; and
if all workers have left, every enqueued task was popped. -/
theorem executor_dispatch (hn : 0 < n) {state : State n T} (h : (machine n T).Reachable state) :
    state.popped ++ state.queue = state.enqueued ∧ ¬ Stalled state ∧
      (AllGone state → state.queue = [] ∧ state.popped = state.enqueued) := by
  have hinit : Inv (machine n T).init :=
    ⟨⟨rfl, by simp [machine, Worker.gone], fun _ => rfl⟩, fun hqueue => absurd rfl hqueue⟩
  have hinv : Inv state :=
    Machine.reachable_invariant hinit (fun _ _ _ hstate hnext => hstate.step hn hnext) h
  refine ⟨hinv.fifo, ?_, ?_⟩
  · intro hstalled
    obtain ⟨hqueue, hidle, howed, _⟩ := hstalled
    rcases hinv.attended hqueue with hpos | ⟨worker, hlive, hawake⟩
    · omega
    · rcases hidle worker with hgone | hasleep
      · rw [hlive] at hgone
        cases hgone
      · rw [hawake] at hasleep
        cases hasleep
  · intro hall
    have hempty := hinv.gone_empty hall
    refine ⟨hempty, ?_⟩
    have hfifo := hinv.fifo
    rwa [hempty, List.append_nil] at hfifo

/-- A worker sleeps, is notified of task 7, runs it during the shutdown while it spawns task 8,
runs that one too, and leaves. -/
def shutdownSchedule : List (Action 1 Nat) :=
  [.lock 0, .test 0, .spawn 7, .notifyOne (some 0), .lock 0, .test 0, .choose 0, .shutdown,
    .spawnFrom 0 8, .notifyAll, .notifyFrom 0 none, .finish 0, .lock 0, .test 0, .choose 0,
    .finish 0, .lock 0, .test 0, .choose 0]

/-- The task spawned during the shutdown is popped as well, and nothing is left behind. -/
theorem executor_dispatch_shutdown :
    ((machine 1 Nat).run shutdownSchedule).map State.popped = some [7, 8] ∧
      ∀ state, (machine 1 Nat).run shutdownSchedule = some state →
        ¬ Stalled state ∧ (AllGone state → state.popped = state.enqueued) := by
  refine ⟨rfl, fun state hrun => ?_⟩
  obtain ⟨_, hstalled, hgone⟩ := executor_dispatch (by decide) ⟨shutdownSchedule, hrun⟩
  exact ⟨hstalled, fun hall => (hgone hall).2⟩

end Toad.Executor
