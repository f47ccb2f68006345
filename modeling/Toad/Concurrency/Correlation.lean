import Mathlib.Logic.Function.Basic
import Toad.Concurrency.Future
import Toad.Execution.Machine

/-!
# Correlation ids

`Executor::spawn` stores the `thread_correlation_id_` of the calling thread as the parent of the
task it enqueues, so that a log line can be traced to the coroutine that spawned the one writing
it. The same function also puts back a coroutine that has suspended: `suspend` calls it for the
coroutine itself, `set_value` and `notify_all` for the ones that were waiting. The machine here
has any number of workers, outside threads (`main`, which also runs the event loop), coroutines,
futures, and notifies. In `notify_all` the store of the flag, the exchange of the head, and each
turn of the loop are steps of their own. A push is one step, and the stack of a `Notify` a list:
that is the atomic stack of `Toad.AwaiterStack`, with the condition there on the turns of the
loop. `parent_kept_iff` says which runs keep the parents.
-/

namespace Toad

namespace Correlation

open Execution

/-- A worker of the executor, or a thread on which no coroutine runs and whose `this_executor()` is
set, as it is where the executor was constructed. -/
inductive Thread (W O : Type) where
  | worker (worker : W)
  | outside (thread : O)
  deriving DecidableEq, Repr

/-- Where a worker stands in `worker_thread`: before a pop, inside a coroutine, in `await_suspend`
of a `Notify` that had not fired, in `final_suspend`, or past `task.resume()` with the ids of the
coroutine still set. -/
inductive Place (C N : Type) where
  | idle
  | running (coroutine : C)
  | pushing (coroutine : C) (notify : N)
  | finishing (coroutine : C)
  | returned (coroutine : C)
  deriving DecidableEq, Repr

/-- Where a thread stands in `notify_all`: outside, between the store of the flag and the exchange
of the head, or in the loop with the rest of what it has taken from the stack. -/
inductive Notifying (C N : Type) where
  | idle
  | exchanging (notify : N)
  | walking (notify : N) (rest : List C)
  deriving DecidableEq, Repr

/-- The thread is not in a `notify_all`, or at the end of its loop. -/
def Notifying.free {C N : Type} : Notifying C N → Bool
  | .idle | .walking _ [] => true
  | .exchanging _ | .walking _ (_ :: _) => false

/-- The life of a coroutine: not yet spawned, spawned, at its final suspension. -/
inductive Phase where
  | fresh
  | spawned
  | finished
  deriving DecidableEq, Repr

/-- Who makes a call: a coroutine, or code outside of any. -/
inductive Origin (C : Type) where
  | outside
  | coroutine (parent : C)
  deriving DecidableEq, Repr

/-- The members of a promise that do not change: `corr_id` is drawn when the coroutine is created,
and `set_corr_id` is never called. -/
structure Promise (N : Type) where
  corrId : UInt64
  continuations : N

/-- The mutable ids, the executor's queue, the workers, the futures that are alive, and the
notifies. `spawnedBy` records who spawned a coroutine first. -/
structure State (W O C F N : Type) where
  parentCorrId : C → UInt64 := fun _ => 0
  threadCorrelationId : Thread W O → UInt64 := fun _ => 0
  phase : C → Phase := fun _ => .fresh
  queue : List C := []
  place : W → Place C N := fun _ => .idle
  future : F → Option (FutureState Unit C) := fun _ => some {}
  fired : N → Bool := fun _ => false
  awaiters : N → List C := fun _ => []
  notifying : Thread W O → Notifying C N := fun _ => .idle
  spawnedBy : C → Option (Origin C) := fun _ => none

/-- The steps. `spawn` is the first spawn of a task; `notifyAll`, `exchange`, and `wake` are the
store of the flag, the exchange of the head, and one turn of the loop in `notify_all`. -/
inductive Action (W O C F N : Type) where
  | spawn (thread : Thread W O) (coroutine : C)
  | pop (worker : W)
  | suspend (worker : W)
  | awaitFuture (worker : W) (future : F)
  | setValue (thread : Thread W O) (future : F)
  | dropFuture (future : F)
  | awaitNotify (worker : W) (notify : N)
  | pushAwaiter (worker : W)
  | notifyAll (thread : Thread W O) (notify : N)
  | exchange (thread : Thread W O)
  | wake (thread : Thread W O)
  | coReturn (worker : W)
  | finalSuspend (worker : W)
  | leave (worker : W)
  deriving DecidableEq, Repr

section Machine

variable {W O C F N : Type} [DecidableEq W] [DecidableEq O] [DecidableEq C] [DecidableEq F]
  [DecidableEq N]

/-- The coroutine whose code the worker runs. -/
def Place.origin : Place C N → Origin C
  | .idle => .outside
  | .running coroutine | .pushing coroutine _ | .finishing coroutine | .returned coroutine =>
      .coroutine coroutine

/-- The coroutine whose code the thread runs. -/
def State.origin (state : State W O C F N) : Thread W O → Origin C
  | .worker worker => (state.place worker).origin
  | .outside _ => .outside

/-- The `corr_id` of a caller, 0 outside of any coroutine. -/
def Origin.corrId (promise : C → Promise N) : Origin C → UInt64
  | .outside => 0
  | .coroutine parent => (promise parent).corrId

/-- The thread runs code that is free to call anything: it is not in a `notify_all`, and a worker is
inside a coroutine. -/
def State.executing (state : State W O C F N) (thread : Thread W O) : Bool :=
  (state.notifying thread).free &&
    match thread with
    | .outside _ => true
    | .worker worker =>
        match state.place worker with
        | .running _ => true
        | _ => false

/-- Move one worker. -/
def State.move (state : State W O C F N) (worker : W) (place : Place C N) : State W O C F N :=
  { state with place := Function.update state.place worker place }

/-- Set the phase of one coroutine. -/
def State.mark (state : State W O C F N) (coroutine : C) (phase : Phase) : State W O C F N :=
  { state with phase := Function.update state.phase coroutine phase }

/-- `Executor::spawn` on a thread: the parent is set, and a task that is not done is enqueued. -/
def State.spawn (state : State W O C F N) (thread : Thread W O) (coroutine : C) :
    State W O C F N :=
  { state with
    parentCorrId :=
      Function.update state.parentCorrId coroutine (state.threadCorrelationId thread)
    queue :=
      if state.phase coroutine = .finished then state.queue else state.queue ++ [coroutine] }

/-- `fired_.store(true)`, the first step of `notify_all`. -/
def State.notifyAll (state : State W O C F N) (thread : Thread W O) (notify : N) :
    State W O C F N :=
  { state with
    fired := Function.update state.fired notify true
    notifying := Function.update state.notifying thread (.exchanging notify) }

/-- `head_.exchange(nullptr)`. -/
def State.exchange (state : State W O C F N) (thread : Thread W O) (notify : N) :
    State W O C F N :=
  { state with
    awaiters := Function.update state.awaiters notify []
    notifying := Function.update state.notifying thread
      (.walking notify (state.awaiters notify)) }

/-- One step. -/
def next (promise : C → Promise N) (state : State W O C F N) :
    Action W O C F N → Option (State W O C F N)
  | .spawn thread coroutine =>
      if state.executing thread ∧ state.phase coroutine = .fresh then
        some { (state.mark coroutine .spawned).spawn thread coroutine with
          spawnedBy := Function.update state.spawnedBy coroutine (some (state.origin thread)) }
      else none
  | .pop worker =>
      match state.place worker, state.queue with
      | .idle, coroutine :: rest =>
          let state := { state with
            queue := rest
            threadCorrelationId := Function.update state.threadCorrelationId (.worker worker)
              (promise coroutine).corrId }
          -- a task that is done is not resumed
          if state.phase coroutine = .finished then some (state.move worker (.returned coroutine))
          else some (state.move worker (.running coroutine))
      | _, _ => none
  | .suspend worker =>
      match state.place worker, (state.notifying (.worker worker)).free with
      | .running coroutine, true =>
          some ((state.spawn (.worker worker) coroutine).move worker (.returned coroutine))
      | _, _ => none
  | .awaitFuture worker future =>
      match state.place worker, (state.notifying (.worker worker)).free, state.future future with
      | .running coroutine, true, some shared =>
          match shared.awaitSuspend coroutine with
          | (_, false) => some state
          | (following, true) =>
              some ({ state with
                future := Function.update state.future future (some following) }.move worker
                  (.returned coroutine))
      | _, _, _ => none
  | .setValue thread future =>
      if state.executing thread then
        match FutureState.setValue (state.future future) () with
        | .expired | .neverAwaited => some state
        | .assertFailed => none
        | .stored following coroutine =>
            some ({ state with
              future := Function.update state.future future (some following) }.spawn thread
                coroutine)
      else none
  | .dropFuture future =>
      some { state with future := Function.update state.future future none }
  | .awaitNotify worker notify =>
      match state.place worker, (state.notifying (.worker worker)).free with
      | .running coroutine, true =>
          if state.fired notify then some state
          else some (state.move worker (.pushing coroutine notify))
      | _, _ => none
  | .pushAwaiter worker =>
      match state.place worker with
      | .pushing coroutine notify =>
          some ({ state with
            awaiters := Function.update state.awaiters notify
              (coroutine :: state.awaiters notify) }.move worker (.returned coroutine))
      | _ => none
  | .notifyAll thread notify =>
      if state.executing thread then some (state.notifyAll thread notify) else none
  | .exchange thread =>
      match state.notifying thread with
      | .exchanging notify => some (state.exchange thread notify)
      | _ => none
  | .wake thread =>
      match state.notifying thread with
      | .walking notify (coroutine :: rest) =>
          some ({ state with
            notifying := Function.update state.notifying thread (.walking notify rest) }.spawn
              thread coroutine)
      | _ => none
  | .coReturn worker =>
      match state.place worker, (state.notifying (.worker worker)).free with
      | .running coroutine, true =>
          some ((state.notifyAll (.worker worker) (promise coroutine).continuations).move worker
            (.finishing coroutine))
      | _, _ => none
  | .finalSuspend worker =>
      match state.place worker, (state.notifying (.worker worker)).free with
      | .finishing coroutine, true =>
          some ((state.mark coroutine .finished).move worker (.returned coroutine))
      | _, _ => none
  | .leave worker =>
      match state.place worker with
      | .returned _ =>
          some ({ state with
            threadCorrelationId := Function.update state.threadCorrelationId (.worker worker)
              0 }.move worker .idle)
      | _ => none

/-- Workers `W`, outside threads `O`, coroutines `C` with their promises, futures `F`, and
notifies `N`. -/
def machine (W O F : Type) [DecidableEq W] [DecidableEq O] [DecidableEq F]
    (promise : C → Promise N) : Machine (State W O C F N) (Action W O C F N) where
  init := {}
  next := next promise

/-- A coroutine that has been spawned and has not finished has the `corr_id` of the one that
spawned it first as its `parent_corr_id`. -/
def Kept (promise : C → Promise N) (state : State W O C F N) : Prop :=
  ∀ coroutine origin, state.spawnedBy coroutine = some origin →
    state.phase coroutine ≠ .finished →
    state.parentCorrId coroutine = origin.corrId promise

/-- The coroutine that the step puts back into the queue, and the thread that does. -/
def State.rescheduled (state : State W O C F N) :
    Action W O C F N → Option (Thread W O × C)
  | .suspend worker =>
      match state.place worker with
      | .running coroutine => some (.worker worker, coroutine)
      | _ => none
  | .setValue thread future =>
      match FutureState.setValue (state.future future) () with
      | .stored _ coroutine => some (thread, coroutine)
      | _ => none
  | .wake thread =>
      match state.notifying thread with
      | .walking _ (coroutine :: _) => some (thread, coroutine)
      | _ => none
  | _ => none

/-- A step that puts an unfinished coroutine back is made by code with the `corr_id` of the
coroutine's first spawner. -/
def AsFirstSpawner (promise : C → Promise N) (state : State W O C F N)
    (action : Action W O C F N) : Prop :=
  ∀ call ∈ state.rescheduled action, ∀ origin ∈ state.spawnedBy call.2,
    state.phase call.2 ≠ .finished →
      (state.origin call.1).corrId promise = origin.corrId promise

instance (promise : C → Promise N) (state : State W O C F N) (action : Action W O C F N) :
    Decidable (AsFirstSpawner promise state action) :=
  inferInstanceAs (Decidable (∀ call ∈ state.rescheduled action,
    ∀ origin ∈ state.spawnedBy call.2, state.phase call.2 ≠ .finished →
      (state.origin call.1).corrId promise = origin.corrId promise))

/-- What a step does to the parents. -/
inductive Effect (state following : State W O C F N) (action : Action W O C F N) : Prop where
  /-- nothing; at most a coroutine finishes -/
  | silent (hnone : state.rescheduled action = none)
      (hparent : following.parentCorrId = state.parentCorrId)
      (hspawned : following.spawnedBy = state.spawnedBy)
      (hphase : ∀ coroutine, state.phase coroutine = .finished →
        following.phase coroutine = .finished)
  /-- a task is spawned for the first time -/
  | first (thread : Thread W O) (coroutine : C) (hnone : state.rescheduled action = none)
      (hparent : following.parentCorrId =
        Function.update state.parentCorrId coroutine (state.threadCorrelationId thread))
      (hspawned : following.spawnedBy =
        Function.update state.spawnedBy coroutine (some (state.origin thread)))
      (hphase : ∀ other, state.phase other = .finished → following.phase other = .finished)
  /-- a coroutine is put back into the queue -/
  | again (thread : Thread W O) (coroutine : C)
      (hcall : state.rescheduled action = some (thread, coroutine))
      (hparent : following.parentCorrId =
        Function.update state.parentCorrId coroutine (state.threadCorrelationId thread))
      (hspawned : following.spawnedBy = state.spawnedBy)
      (hphase : following.phase = state.phase)

variable {promise : C → Promise N} {state following : State W O C F N}
  {action : Action W O C F N}

/-- Every step has one of these effects. -/
theorem next_effect (h : next promise state action = some following) :
    Effect state following action := by
  cases action with
  | spawn thread coroutine =>
      simp only [next] at h
      split at h
      case isTrue hfresh =>
          cases h
          refine .first thread coroutine rfl rfl rfl ?_
          intro other hother
          have hne : other ≠ coroutine := by
            intro heq
            rw [heq, hfresh.2] at hother
            cases hother
          exact (Function.update_of_ne hne ..).trans hother
      case isFalse => cases h
  | pop worker =>
      simp only [next] at h
      split at h
      · split at h <;> cases h <;> exact .silent rfl rfl rfl fun _ hother => hother
      · cases h
  | suspend worker =>
      simp only [next] at h
      split at h
      next coroutine hplace _ =>
          cases h
          refine .again (.worker worker) coroutine ?_ rfl rfl rfl
          simp only [State.rescheduled, hplace]
      next => cases h
  | awaitFuture worker future =>
      simp only [next] at h
      split at h
      · split at h <;> cases h <;> exact .silent rfl rfl rfl fun _ hother => hother
      · cases h
  | setValue thread future =>
      simp only [next] at h
      split at h
      · split at h
        next hvalue =>
            cases h
            exact .silent (by simp only [State.rescheduled, hvalue]) rfl rfl fun _ hother => hother
        next hvalue =>
            cases h
            exact .silent (by simp only [State.rescheduled, hvalue]) rfl rfl fun _ hother => hother
        next => cases h
        next stored coroutine hvalue =>
            cases h
            refine .again thread coroutine ?_ rfl rfl rfl
            simp only [State.rescheduled, hvalue]
      · cases h
  | dropFuture future =>
      cases h
      exact .silent rfl rfl rfl fun _ hother => hother
  | awaitNotify worker notify =>
      simp only [next] at h
      split at h
      · split at h <;> cases h <;> exact .silent rfl rfl rfl fun _ hother => hother
      · cases h
  | pushAwaiter worker =>
      simp only [next] at h
      split at h
      · cases h
        exact .silent rfl rfl rfl fun _ hother => hother
      · cases h
  | notifyAll thread notify =>
      simp only [next] at h
      split at h
      · cases h
        exact .silent rfl rfl rfl fun _ hother => hother
      · cases h
  | exchange thread =>
      simp only [next] at h
      split at h
      · cases h
        exact .silent rfl rfl rfl fun _ hother => hother
      · cases h
  | wake thread =>
      simp only [next] at h
      split at h
      next notify coroutine rest hwalking =>
          cases h
          refine .again thread coroutine ?_ rfl rfl rfl
          simp only [State.rescheduled, hwalking]
      next => cases h
  | coReturn worker =>
      simp only [next] at h
      split at h
      · cases h
        exact .silent rfl rfl rfl fun _ hother => hother
      · cases h
  | finalSuspend worker =>
      simp only [next] at h
      split at h
      next coroutine _ _ =>
          cases h
          refine .silent rfl rfl rfl fun other hother => ?_
          show Function.update state.phase coroutine .finished other = .finished
          by_cases heq : other = coroutine
          · rw [heq, Function.update_self]
          · rw [Function.update_of_ne heq, hother]
      next => cases h
  | leave worker =>
      simp only [next] at h
      split at h
      · cases h
        exact .silent rfl rfl rfl fun _ hother => hother
      · cases h

/-- Every thread has the id of the coroutine whose code it runs, 0 if it runs none. -/
def Labelled (promise : C → Promise N) (state : State W O C F N) : Prop :=
  ∀ thread, state.threadCorrelationId thread = (state.origin thread).corrId promise

omit [DecidableEq O] [DecidableEq C] [DecidableEq F] [DecidableEq N] in
/-- A worker that stays with its coroutine keeps its id. -/
theorem Labelled.move (h : Labelled promise state) {worker : W} {before place : Place C N}
    (hplace : state.place worker = before) (horigin : place.origin = before.origin) :
    Labelled promise (state.move worker place) := by
  intro thread
  rw [show (state.move worker place).threadCorrelationId = state.threadCorrelationId from rfl,
    h thread]
  cases thread with
  | outside thread => rfl
  | worker other =>
      show (state.place other).origin.corrId promise =
        (Function.update state.place worker place other).origin.corrId promise
      by_cases heq : other = worker
      · rw [heq, Function.update_self, hplace, horigin]
      · rw [Function.update_of_ne heq]

omit [DecidableEq C] [DecidableEq F] [DecidableEq N] in
/-- A worker that takes up another coroutine, or none, takes its id. -/
theorem Labelled.relabel (h : Labelled promise state) {worker : W} {place : Place C N}
    {id : UInt64} (hid : id = place.origin.corrId promise) :
    Labelled promise ({ state with
      threadCorrelationId :=
        Function.update state.threadCorrelationId (.worker worker) id }.move worker place) := by
  intro thread
  show Function.update state.threadCorrelationId (.worker worker) id thread = _
  cases thread with
  | outside thread => exact (Function.update_of_ne (by simp) ..).trans (h _)
  | worker other =>
      show _ = (Function.update state.place worker place other).origin.corrId promise
      by_cases heq : other = worker
      · rw [heq, Function.update_self, Function.update_self, hid]
      · rw [Function.update_of_ne heq, Function.update_of_ne (by simpa using heq)]
        exact h (.worker other)

/-- Every step keeps the ids of the threads. -/
theorem Labelled.step (h : Labelled promise state)
    (hnext : next promise state action = some following) : Labelled promise following := by
  cases action with
  | spawn thread coroutine =>
      simp only [next] at hnext
      split at hnext
      · cases hnext
        exact h
      · cases hnext
  | pop worker =>
      simp only [next] at hnext
      split at hnext
      next coroutine rest _ _ =>
          have hqueue : Labelled promise { state with queue := rest } := h
          split at hnext <;> cases hnext <;> exact hqueue.relabel rfl
      next => cases hnext
  | suspend worker =>
      simp only [next] at hnext
      split at hnext
      next coroutine hplace _ =>
          cases hnext
          have hspawn : Labelled promise (state.spawn (.worker worker) coroutine) := h
          exact hspawn.move hplace rfl
      next => cases hnext
  | awaitFuture worker future =>
      simp only [next] at hnext
      split at hnext
      next coroutine shared hplace _ _ =>
          split at hnext
          · cases hnext
            exact h
          next suspended _ =>
              cases hnext
              have hfuture : Labelled promise { state with
                future := Function.update state.future future (some suspended) } := h
              exact hfuture.move hplace rfl
      next => cases hnext
  | setValue thread future =>
      simp only [next] at hnext
      split at hnext
      · split at hnext <;> cases hnext <;> exact h
      · cases hnext
  | dropFuture future =>
      cases hnext
      exact h
  | awaitNotify worker notify =>
      simp only [next] at hnext
      split at hnext
      next coroutine hplace _ =>
          split at hnext
          · cases hnext
            exact h
          · cases hnext
            exact h.move hplace rfl
      next => cases hnext
  | pushAwaiter worker =>
      simp only [next] at hnext
      split at hnext
      next coroutine notify hplace =>
          cases hnext
          have hpushed : Labelled promise { state with
            awaiters := Function.update state.awaiters notify
              (coroutine :: state.awaiters notify) } := h
          exact hpushed.move hplace rfl
      next => cases hnext
  | notifyAll thread notify =>
      simp only [next] at hnext
      split at hnext
      · cases hnext
        exact h
      · cases hnext
  | exchange thread | wake thread =>
      simp only [next] at hnext
      split at hnext
      · cases hnext
        exact h
      · cases hnext
  | coReturn worker =>
      simp only [next] at hnext
      split at hnext
      next coroutine hplace _ =>
          cases hnext
          have hnotified : Labelled promise
            (state.notifyAll (.worker worker) (promise coroutine).continuations) := h
          exact hnotified.move hplace rfl
      next => cases hnext
  | finalSuspend worker =>
      simp only [next] at hnext
      split at hnext
      next coroutine hplace _ =>
          cases hnext
          have hfinished : Labelled promise (state.mark coroutine .finished) := h
          exact hfinished.move hplace rfl
      next => cases hnext
  | leave worker =>
      simp only [next] at hnext
      split at hnext
      · cases hnext
        exact h.relabel rfl
      · cases hnext

/-- A step that puts a coroutine back only as its first spawner keeps the parents. -/
theorem Kept.step (h : Kept promise state) (hlabelled : Labelled promise state)
    (hguard : AsFirstSpawner promise state action)
    (hnext : next promise state action = some following) : Kept promise following := by
  intro coroutine origin hby hphase
  cases next_effect hnext with
  | silent hnone hparent hspawned hlast =>
      rw [hparent]
      rw [hspawned] at hby
      exact h coroutine origin hby (mt (hlast coroutine) hphase)
  | first thread spawned hnone hparent hspawned hlast =>
      rw [hparent]
      rw [hspawned] at hby
      by_cases heq : coroutine = spawned
      · rw [heq, Function.update_self] at hby ⊢
        rw [← Option.some.inj hby]
        exact hlabelled thread
      · rw [Function.update_of_ne heq] at hby ⊢
        exact h coroutine origin hby (mt (hlast coroutine) hphase)
  | again thread rescheduled hcall hparent hspawned hlast =>
      rw [hparent]
      rw [hspawned] at hby
      rw [hlast] at hphase
      by_cases heq : coroutine = rescheduled
      · rw [heq] at hby hphase ⊢
        rw [Function.update_self, hlabelled thread]
        exact hguard (thread, rescheduled) hcall origin hby hphase
      · rw [Function.update_of_ne heq]
        exact h coroutine origin hby hphase

/-- A step that puts a coroutine back as anybody else loses its parent. -/
theorem not_kept_of_other (hlabelled : Labelled promise state)
    (hguard : ¬ AsFirstSpawner promise state action)
    (hnext : next promise state action = some following) : ¬ Kept promise following := by
  intro hkept
  apply hguard
  intro call hmem origin hby hphase
  cases next_effect hnext with
  | silent hnone | first _ _ hnone =>
      rw [hnone] at hmem
      cases hmem
  | again thread rescheduled hcall hparent hspawned hlast =>
      obtain rfl : (thread, rescheduled) = call := Option.some.inj (hcall.symm.trans hmem)
      have hafter := hkept rescheduled origin (hspawned ▸ hby) (hlast ▸ hphase)
      rw [hparent, Function.update_self, hlabelled thread] at hafter
      exact hafter

/-- A run keeps the parent of every coroutine, from its first spawn until it finishes, exactly when
each step that puts a coroutine back is made by code with the `corr_id` of the first spawner. -/
theorem parent_kept_iff (promise : C → Promise N) {schedule : List (Action W O C F N)}
    {state : State W O C F N} (h : (machine W O F promise).run schedule = some state) :
    (machine W O F promise).Guarded (AsFirstSpawner promise) schedule ↔
      (machine W O F promise).Always (Kept promise) schedule := by
  refine Machine.guarded_iff_always
    (I := fun state => Labelled promise state ∧ Kept promise state) ⟨?_, ?_⟩ ?_ ?_ ?_ h
  · intro thread
    cases thread <;> rfl
  · intro coroutine origin hby
    cases hby
  · intro state action following hinv hguard hnext
    exact ⟨hinv.1.step hnext, hinv.2.step hinv.1 hguard hnext⟩
  · intro state hinv
    exact hinv.2
  · intro state action following hinv hguard hnext
    exact not_kept_of_other hinv.1 hguard hnext

end Machine

/-- The promise of a single coroutine. -/
def lone (_ : Unit) : Promise Unit where
  corrId := 7
  continuations := ()

/-- A coroutine spawned by `main` that awaits a future. The event loop sets the value. -/
def awaitsIo : List (Action Unit Unit Unit Unit Unit) :=
  [.spawn (.outside ()) (), .pop (), .awaitFuture () (), .leave (), .setValue (.outside ()) (),
    .pop (), .coReturn (), .exchange (.worker ()), .finalSuspend (), .leave ()]

/-- It runs to its end, and its parent stays 0. -/
theorem parent_kept_awaits_io :
    ((machine Unit Unit Unit lone).run awaitsIo).isSome ∧
      (machine Unit Unit Unit lone).Always (Kept lone) awaitsIo :=
  ⟨rfl, (parent_kept_iff lone (h := rfl)).mp (by decide)⟩

/-- A coroutine spawned by `main` that suspends itself. -/
def suspendsOnce : List (Action Unit Unit Unit Unit Unit) :=
  [.spawn (.outside ()) (), .pop (), .suspend ()]

/-- It becomes its own parent. -/
theorem parent_lost_suspends_once :
    ∃ state, (machine Unit Unit Unit lone).run suspendsOnce = some state ∧
      state.spawnedBy () = some .outside ∧ state.phase () = .spawned ∧
      state.parentCorrId () = (lone ()).corrId ∧ ¬ Kept lone state := by
  refine ⟨_, rfl, rfl, rfl, rfl, fun hkept => ?_⟩
  have hparent : (7 : UInt64) = 0 := hkept () .outside rfl (by decide)
  exact absurd hparent (by decide)

end Correlation

end Toad
