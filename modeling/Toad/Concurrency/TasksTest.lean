import Mathlib.Logic.Function.Basic
import Toad.Concurrency.AwaiterStack

/-!
# What `wait_blocking` promises

The program of `tests/tasks.hpp`: the main thread spawns some coroutines that count themselves,
await a `Notify` and count themselves again, then a coroutine that calls `notify_all`, and blocks
in `Notify::wait_blocking`. When that returns, the test expects all of them to have passed both
counters. The executor is taken at the level of its queue: a task is popped in the order of the
spawns and runs on one of the threads up to its next suspension. The `Notify` is taken as the
atomic stack of `Toad.AwaiterStack` (`notify_is_atomic_stack`), with the store of `fired_`, the
exchange, and each turn of the loop as steps of their own.

`counts_guaranteed` says what the test can rely on. The first count is complete in every run exactly
if the executor has a single thread, and nothing at all is promised about the second one.
-/

namespace Toad

namespace TasksTest

open Execution

/-- A coroutine in the queue of the executor: a `worker` that has not run yet, one that comes back
from its `co_await`, or the `producer`. -/
inductive Job where
  | worker (index : Nat)
  | resumed (index : Nat)
  | producer
  deriving DecidableEq, Repr

/-- Where a thread of the executor stands: between two tasks; in a `worker` before it adds to
`before`, in `await_ready`, in `push_awaiter_`, or before it adds to `after`; in the `producer`
before it stores `fired_`, before it takes the list, or in the loop over it. -/
inductive Place where
  | idle
  | entering (index : Nat)
  | checking (index : Nat)
  | pushing (index : Nat)
  | leaving (index : Nat)
  | firing
  | exchanging
  | walking (rest : List Nat)
  deriving DecidableEq, Repr

/-- Where the main thread stands: it has spawned so many workers, waits, or has left
`wait_blocking` and read so many of the counters. -/
inductive Main where
  | spawning (count : Nat)
  | waiting
  | notified
  | counted (before : Nat)
  | asserting (before after : Nat)
  deriving DecidableEq, Repr

/-- The main thread, the executor with threads `W`, the `Notify` and the counters. -/
structure State (W : Type) where
  main : Main := .spawning 0
  queue : List Job := []
  place : W → Place := fun _ => .idle
  fired : Bool := false
  awaiters : List Nat := []
  before : Nat := 0
  after : Nat := 0

/-- The main thread takes its next step, a thread pops a task, or goes on in the one it runs. -/
inductive Action (W : Type) where
  | main
  | pop (thread : W)
  | run (thread : W)
  deriving DecidableEq, Repr

variable {W : Type} [DecidableEq W]

/-- Move a thread. -/
def State.move (state : State W) (thread : W) (place : Place) : State W :=
  { state with place := Function.update state.place thread place }

/-- The main thread of the test with `workers` workers. -/
def mainStep (workers : Nat) (state : State W) : Option (State W) :=
  match state.main with
  | .spawning count =>
      if count < workers then
        some { state with main := .spawning (count + 1), queue := state.queue ++ [.worker count] }
      else some { state with main := .waiting, queue := state.queue ++ [.producer] }
  | .waiting => if state.fired then some { state with main := .notified } else none
  | .notified => some { state with main := .counted state.before }
  | .counted before => some { state with main := .asserting before state.after }
  | .asserting _ _ => none

/-- Where a task starts. -/
def Job.entry : Job → Place
  | .worker index => .entering index
  | .resumed index => .leaving index
  | .producer => .firing

/-- A thread in a task. -/
def runStep (state : State W) (thread : W) : Option (State W) :=
  match state.place thread with
  | .idle => none
  | .entering index =>
      some ({ state with before := state.before + 1 }.move thread (.checking index))
  | .checking index =>
      if state.fired then some (state.move thread (.leaving index))
      else some (state.move thread (.pushing index))
  | .pushing index =>
      some ({ state with awaiters := index :: state.awaiters }.move thread .idle)
  | .leaving _ => some ({ state with after := state.after + 1 }.move thread .idle)
  | .firing => some ({ state with fired := true }.move thread .exchanging)
  | .exchanging => some ({ state with awaiters := [] }.move thread (.walking state.awaiters))
  | .walking [] => some (state.move thread .idle)
  | .walking (index :: rest) =>
      some ({ state with queue := state.queue ++ [Job.resumed index] }.move thread (.walking rest))

/-- One step. -/
def next (workers : Nat) (state : State W) : Action W → Option (State W)
  | .main => mainStep workers state
  | .pop thread =>
      match state.place thread, state.queue with
      | .idle, job :: rest => some ({ state with queue := rest }.move thread job.entry)
      | _, _ => none
  | .run thread => runStep state thread

/-- The test with `workers` workers on an executor with threads `W`. -/
def machine (W : Type) [DecidableEq W] (workers : Nat) : Machine (State W) (Action W) where
  init := {}
  next := next workers

/-- What the main thread has read from `before`. -/
def Main.before : Main → Option Nat
  | .counted before | .asserting before _ => some before
  | .spawning _ | .waiting | .notified => none

/-! ## One thread -/

/-- The producer has not been popped. So many workers have; all of them but the one that is about
to have been counted, and the others follow in the queue. -/
structure Opening (workers : Nat) (state : State W) (started : Nat) : Prop where
  fired : state.fired = false
  place : ∀ thread,
    match state.place thread with
    | .entering _ => state.before + 1 = started
    | .idle | .checking _ | .pushing _ => state.before = started
    | .leaving _ | .firing | .exchanging | .walking _ => False
  queue : ∃ count, started + count ≤ workers ∧
    ((state.main = .spawning (started + count) ∧
        state.queue = (List.range' started count).map .worker) ∨
      (started + count = workers ∧ state.main = .waiting ∧
        state.queue = (List.range' started count).map .worker ++ [.producer]))

/-- Every worker has been counted. -/
structure Closing (workers : Nat) (state : State W) : Prop where
  before : state.before = workers
  place : ∀ thread index, state.place thread ≠ .entering index
  queue : ∀ index, .worker index ∉ state.queue
  main : ∀ count, state.main ≠ .spawning count
  counted : ∀ before, state.main.before = some before → before = workers

section Steps

variable {workers : Nat} {state following : State W} {thread : W}

omit [DecidableEq W] in
/-- The main thread spawns. -/
theorem Opening.main_step {started : Nat} (h : Opening workers state started)
    (hnext : mainStep workers state = some following) : Opening workers following started := by
  obtain ⟨count, hcount, ⟨hmain, hqueue⟩ | ⟨_, hmain, _⟩⟩ := h.queue
  · simp only [mainStep, hmain] at hnext
    split at hnext
    next hmore =>
      obtain rfl := Option.some.inj hnext
      refine ⟨h.fired, h.place, count + 1, hmore, Or.inl ⟨rfl, ?_⟩⟩
      show state.queue ++ [Job.worker (started + count)] = _
      rw [hqueue, List.range'_concat, List.map_append, Nat.one_mul]
      rfl
    next hdone =>
      obtain rfl := Option.some.inj hnext
      refine ⟨h.fired, h.place, count, hcount, Or.inr ⟨by omega, rfl, ?_⟩⟩
      show state.queue ++ [Job.producer] = _
      rw [hqueue]
  · simp only [mainStep, hmain, h.fired] at hnext
    cases hnext

/-- The only thread pops a worker, or the producer once all workers are counted. -/
theorem Opening.pop [Subsingleton W] {started : Nat} (h : Opening workers state started)
    (hnext : next workers state (.pop thread) = some following) :
    Opening workers following (started + 1) ∨ Closing workers following := by
  simp only [next] at hnext
  split at hnext
  next job rest hidle hjobs =>
    obtain rfl := Option.some.inj hnext
    have hbefore : state.before = started := by
      have hplace := h.place thread
      rwa [hidle] at hplace
    have halone : ∀ other, (State.move { state with queue := rest } thread job.entry).place other =
        job.entry := by
      intro other
      rw [Subsingleton.elim other thread]
      exact Function.update_self ..
    obtain ⟨count, hcount, hqueue⟩ := h.queue
    cases count with
    | zero =>
        rcases hqueue with ⟨_, hqueue⟩ | ⟨hall, hmain, hqueue⟩
        · rw [hjobs] at hqueue
          cases hqueue
        · rw [hjobs] at hqueue
          obtain ⟨rfl, rfl⟩ := List.cons.inj hqueue
          right
          refine ⟨hbefore.trans hall, ?_, ?_, ?_, ?_⟩
          · intro other index hentering
            rw [halone other] at hentering
            cases hentering
          · intro index hmem
            cases hmem
          · intro count hspawning
            exact absurd (hmain.symm.trans hspawning) (by simp)
          · intro before hread
            change state.main.before = some before at hread
            rw [hmain] at hread
            cases hread
    | succ count =>
        left
        have hhead : job = .worker started ∧
            (rest = (List.range' (started + 1) count).map .worker ∧
                state.main = .spawning (started + (count + 1)) ∨
              rest = (List.range' (started + 1) count).map .worker ++ [.producer] ∧
                started + (count + 1) = workers ∧ state.main = .waiting) := by
          rcases hqueue with ⟨hmain, hqueue⟩ | ⟨hall, hmain, hqueue⟩
          · rw [hjobs, List.range'_succ] at hqueue
            obtain ⟨hjob, hrest⟩ := List.cons.inj hqueue
            exact ⟨hjob, Or.inl ⟨hrest, hmain⟩⟩
          · rw [hjobs, List.range'_succ] at hqueue
            obtain ⟨hjob, hrest⟩ := List.cons.inj hqueue
            exact ⟨hjob, Or.inr ⟨hrest, hall, hmain⟩⟩
        obtain ⟨rfl, hrest⟩ := hhead
        refine ⟨h.fired, ?_, count, by omega, ?_⟩
        · intro other
          rw [halone other]
          exact congrArg (· + 1) hbefore
        · rcases hrest with ⟨hrest, hmain⟩ | ⟨hrest, hall, hmain⟩
          · exact Or.inl ⟨by rw [Nat.add_right_comm]; exact hmain, hrest⟩
          · exact Or.inr ⟨by omega, hmain, hrest⟩
  next => cases hnext

/-- The only thread runs a worker. -/
theorem Opening.run [Subsingleton W] {started : Nat} (h : Opening workers state started)
    (hnext : runStep state thread = some following) : Opening workers following started := by
  have hplace := h.place thread
  have halone : ∀ (state : State W) (place : Place) other,
      (state.move thread place).place other = place := by
    intro state place other
    rw [Subsingleton.elim other thread]
    exact Function.update_self ..
  unfold runStep at hnext
  cases hthread : state.place thread with
  | idle => simp [hthread] at hnext
  | entering index =>
      simp only [hthread, Option.some.injEq] at hnext hplace
      subst hnext
      exact ⟨h.fired, fun other => by rw [halone]; exact hplace, h.queue⟩
  | checking index =>
      rw [hthread] at hplace
      obtain rfl : state.move thread (.pushing index) = following := by
        simpa [hthread, h.fired] using hnext
      exact ⟨h.fired, fun other => by rw [halone]; exact hplace, h.queue⟩
  | pushing index =>
      simp only [hthread, Option.some.injEq] at hnext hplace
      subst hnext
      exact ⟨h.fired, fun other => by rw [halone]; exact hplace, h.queue⟩
  | leaving | firing | exchanging | walking =>
      rw [hthread] at hplace
      exact hplace.elim

omit [DecidableEq W] in
/-- The main thread reads the complete count. -/
theorem Closing.main_step (h : Closing workers state)
    (hnext : mainStep workers state = some following) : Closing workers following := by
  unfold mainStep at hnext
  split at hnext
  next count hmain => exact absurd hmain (h.main count)
  next =>
    split at hnext
    next =>
      obtain rfl := Option.some.inj hnext
      exact ⟨h.before, h.place, h.queue, by simp, by simp [Main.before]⟩
    next => cases hnext
  next =>
    obtain rfl := Option.some.inj hnext
    exact ⟨h.before, h.place, h.queue, by simp, by simp [Main.before, h.before]⟩
  next before hmain =>
    obtain rfl := Option.some.inj hnext
    have hcounted := h.counted before (by rw [hmain]; rfl)
    exact ⟨h.before, h.place, h.queue, by simp, by simp [Main.before, hcounted]⟩
  next => cases hnext

/-- A thread that does not move to a worker's first step. -/
theorem Closing.move (h : Closing workers state) {place : Place}
    (hplace : ∀ index, place ≠ .entering index) : Closing workers (state.move thread place) := by
  refine ⟨h.before, ?_, h.queue, h.main, h.counted⟩
  intro other index
  by_cases heq : other = thread
  · rw [heq]
    exact fun hentering => hplace index ((Function.update_self ..).symm.trans hentering)
  · exact fun hentering => h.place other index ((Function.update_of_ne heq ..).symm.trans hentering)

/-- No worker is popped any more. -/
theorem Closing.pop (h : Closing workers state)
    (hnext : next workers state (.pop thread) = some following) : Closing workers following := by
  simp only [next] at hnext
  split at hnext
  next job rest _ hjobs =>
    obtain rfl := Option.some.inj hnext
    have hrest : Closing workers { state with queue := rest } :=
      { h with queue := fun index hmem => h.queue index (hjobs ▸ List.mem_cons_of_mem _ hmem) }
    refine hrest.move ?_
    intro index hentry
    cases job with
    | worker other => exact h.queue other (hjobs ▸ List.mem_cons_self)
    | resumed _ => cases hentry
    | producer => cases hentry
  next => cases hnext

/-- What a thread runs by then is no worker's first step. -/
theorem Closing.run (h : Closing workers state)
    (hnext : runStep state thread = some following) : Closing workers following := by
  unfold runStep at hnext
  split at hnext
  next => cases hnext
  next index hthread => exact absurd hthread (h.place thread index)
  next =>
    split at hnext
    next => exact Option.some.inj hnext ▸ h.move (by simp)
    next => exact Option.some.inj hnext ▸ h.move (by simp)
  next index _ =>
    obtain rfl := Option.some.inj hnext
    have hpushed : Closing workers { state with awaiters := index :: state.awaiters } := { h with }
    exact hpushed.move (by simp)
  next =>
    obtain rfl := Option.some.inj hnext
    have hcounted : Closing workers { state with after := state.after + 1 } := { h with }
    exact hcounted.move (by simp)
  next =>
    obtain rfl := Option.some.inj hnext
    have hfired : Closing workers { state with fired := true } := { h with }
    exact hfired.move (by simp)
  next =>
    obtain rfl := Option.some.inj hnext
    have htaken : Closing workers { state with awaiters := [] } := { h with }
    exact htaken.move (by simp)
  next => exact Option.some.inj hnext ▸ h.move (by simp)
  next index rest _ =>
    obtain rfl := Option.some.inj hnext
    have hspawned : Closing workers { state with queue := state.queue ++ [Job.resumed index] } :=
      { h with queue := by simpa using h.queue }
    exact hspawned.move (by simp)

/-- On a single thread, every worker is counted before the producer is popped. -/
theorem opening_or_closing [Subsingleton W] (h : (machine W workers).Reachable state) :
    (∃ started, Opening workers state started) ∨ Closing workers state := by
  refine Machine.reachable_invariant
    (I := fun state => (∃ started, Opening workers state started) ∨ Closing workers state)
    (Or.inl ⟨0, rfl, fun _ => rfl, 0, Nat.zero_le _, Or.inl ⟨rfl, rfl⟩⟩) ?_ h
  intro state action following hinv hnext
  cases action with
  | main =>
      rcases hinv with ⟨started, hopening⟩ | hclosing
      · exact Or.inl ⟨started, hopening.main_step hnext⟩
      · exact Or.inr (hclosing.main_step hnext)
  | pop thread =>
      rcases hinv with ⟨started, hopening⟩ | hclosing
      · exact (hopening.pop hnext).imp_left fun hpopped => ⟨started + 1, hpopped⟩
      · exact Or.inr (hclosing.pop hnext)
  | run thread =>
      rcases hinv with ⟨started, hopening⟩ | hclosing
      · exact Or.inl ⟨started, hopening.run hnext⟩
      · exact Or.inr (hclosing.run hnext)

end Steps

/-! ## Schedules -/

section Schedules

variable {workers : Nat} {state : State W} (thread : W)

/-- The main thread may spawn everything before the executor moves. -/
theorem reach_spawned (W : Type) [DecidableEq W] (workers : Nat) :
    (machine W workers).Reachable
      { main := .waiting, queue := (List.range' 0 workers).map .worker ++ [.producer] } := by
  have hspawning : ∀ count, count ≤ workers → (machine W workers).Reachable
      { main := .spawning count, queue := (List.range' 0 count).map .worker } := by
    intro count
    induction count with
    | zero => exact fun _ => ⟨[], rfl⟩
    | succ count ih =>
        intro hcount
        have hstep := ih (Nat.le_of_succ_le hcount)
        refine hstep.step .main ?_
        simp only [machine, next, mainStep, if_pos (Nat.lt_of_succ_le hcount), List.range'_concat,
          List.map_append, Nat.one_mul, Nat.zero_add]
        rfl
  refine (hspawning workers (Nat.le_refl _)).step .main ?_
  simp only [machine, next, mainStep, if_neg (Nat.lt_irrefl workers)]

/-- A thread may run the next worker up to its suspension. -/
theorem reach_worker (h : (machine W workers).Reachable state)
    (hidle : state.place thread = .idle) (hfired : state.fired = false) {index : Nat}
    {rest : List Job} (hqueue : state.queue = .worker index :: rest) :
    (machine W workers).Reachable
      { state with
        queue := rest, before := state.before + 1, awaiters := index :: state.awaiters } := by
  have hback : Function.update state.place thread .idle = state.place := by
    rw [← hidle, Function.update_eq_self]
  have hpop : (machine W workers).next state (.pop thread) =
      some (State.move { state with queue := rest } thread (.entering index)) := by
    simp [machine, next, hidle, hqueue, Job.entry]
  have hentered : (machine W workers).next
      (State.move { state with queue := rest } thread (.entering index)) (.run thread) =
        some (State.move { state with queue := rest, before := state.before + 1 } thread
          (.checking index)) := by
    simp [machine, next, runStep, State.move]
  have hchecked : (machine W workers).next
      (State.move { state with queue := rest, before := state.before + 1 } thread
        (.checking index)) (.run thread) =
        some (State.move { state with queue := rest, before := state.before + 1 } thread
          (.pushing index)) := by
    simp [machine, next, runStep, State.move, hfired]
  refine (((h.step _ hpop).step _ hentered).step _ hchecked).step (.run thread) ?_
  simp [machine, next, runStep, State.move, hback]

/-- A thread may run all the workers at the front of the queue up to their suspensions. -/
theorem reach_workers (h : (machine W workers).Reachable state)
    (hidle : state.place thread = .idle) (hfired : state.fired = false) {start count : Nat}
    {rest : List Job} (hqueue : state.queue = (List.range' start count).map .worker ++ rest) :
    ∃ awaiters, (machine W workers).Reachable
      { state with queue := rest, before := state.before + count, awaiters := awaiters } := by
  induction count generalizing state start with
  | zero =>
      refine ⟨state.awaiters, ?_⟩
      obtain rfl : state.queue = rest := hqueue
      exact h
  | succ count ih =>
      have hsplit : state.queue =
          .worker start :: ((List.range' (start + 1) count).map .worker ++ rest) := by
        rw [hqueue, List.range'_succ]
        rfl
      have hfirst := reach_worker thread h hidle hfired hsplit
      obtain ⟨awaiters, hrest⟩ := ih hfirst hidle hfired rfl
      refine ⟨awaiters, ?_⟩
      rw [Nat.add_comm count 1, ← Nat.add_assoc]
      exact hrest

/-- A thread may store `fired_` and be slower from then on than the main thread, which reads the
counters as they are. -/
theorem reach_asserting (h : (machine W workers).Reachable state)
    (hidle : state.place thread = .idle) (hmain : state.main = .waiting)
    (hqueue : state.queue = [.producer]) :
    ∃ final, (machine W workers).Reachable final ∧
      final.main = .asserting state.before state.after := by
  have hpop : (machine W workers).next state (.pop thread) =
      some (State.move { state with queue := [] } thread .firing) := by
    simp [machine, next, hidle, hqueue, Job.entry]
  have hfired : (machine W workers).next (State.move { state with queue := [] } thread .firing)
      (.run thread) =
        some (State.move { state with queue := [], fired := true } thread .exchanging) := by
    simp [machine, next, runStep, State.move]
  obtain ⟨notified, hnotified, hread⟩ : ∃ notified : State W,
      (machine W workers).next
        (State.move { state with queue := [], fired := true } thread .exchanging) .main =
          some notified ∧
      notified = { State.move { state with queue := [], fired := true } thread .exchanging with
        main := .notified } := by
    simp [machine, next, mainStep, State.move, hmain]
  have hreached := ((h.step _ hpop).step _ hfired).step _ hnotified
  subst hread
  exact ⟨_, (hreached.step .main rfl).step .main rfl, rfl⟩

end Schedules

/-! ## The stack -/

/-- What a thread in the loop of `notify_all` has still to wake. -/
def Place.left : Place → List Nat
  | .walking rest => rest
  | .idle | .entering _ | .checking _ | .pushing _ | .leaving _ | .firing | .exchanging => []

/-- The stack of the `Notify`, and what has been taken from it. -/
def State.stack (state : State W) : AwaiterStack.Stack Nat W where
  stack := state.awaiters
  taken := fun thread => (state.place thread).left

/-- What a step does to the stack. -/
def onNotify (state : State W) : Action W → Option (AwaiterStack.Event Nat W)
  | .run thread =>
      match state.place thread with
      | .pushing index => some (.push index)
      | .exchanging => some (.take thread)
      | .walking (index :: _) => some (.wake thread index)
      | _ => none
  | .main | .pop _ => none

section Stacks

variable {workers : Nat} {state following : State W} {thread : W}

/-- What a thread has taken moves with its place. -/
theorem taken_move (state : State W) (thread : W) (place : Place) :
    (state.move thread place).stack.taken =
      Function.update state.stack.taken thread place.left := by
  funext other
  show (Function.update state.place thread place other).left = _
  by_cases heq : other = thread
  · rw [heq, Function.update_self, Function.update_self]
  · rw [Function.update_of_ne heq, Function.update_of_ne heq]
    rfl

/-- A thread that has taken nothing, and takes nothing, leaves the stack alone. -/
theorem stack_move (state : State W) {thread : W} {place : Place}
    (hbefore : (state.place thread).left = []) (hafter : place.left = []) :
    (state.move thread place).stack = state.stack := by
  have htaken : (state.move thread place).stack.taken = state.stack.taken := by
    rw [taken_move, hafter, ← hbefore]
    exact Function.update_eq_self ..
  exact congrArg (AwaiterStack.Stack.mk state.awaiters) htaken

/-- A thread moves between places at which it has nothing left. -/
theorem quiet_step {before : State W} {place : Place}
    (hevent : onNotify state (.run thread) = none) (hleft : (state.place thread).left = [])
    (hawaiters : before.awaiters = state.awaiters) (hplaces : before.place = state.place)
    (hafter : place.left = []) :
    (AwaiterStack.atomic Nat W).runFrom state.stack (onNotify state (.run thread)).toList =
      some (before.move thread place).stack := by
  have hsame : before.stack = state.stack := by simp only [State.stack, hawaiters, hplaces]
  rw [hevent, stack_move before (by rw [hplaces]; exact hleft) hafter, hsame]
  rfl

/-- A step of a thread is one on the stack, or leaves it alone. -/
theorem run_step_stack (hnext : runStep state thread = some following) :
    (AwaiterStack.atomic Nat W).runFrom state.stack (onNotify state (.run thread)).toList =
      some following.stack := by
  unfold runStep at hnext
  cases hplace : state.place thread with
  | idle => simp [hplace] at hnext
  | entering index | leaving index =>
      simp only [hplace, Option.some.injEq] at hnext
      subst hnext
      exact quiet_step (by simp only [onNotify, hplace]) (by simp only [hplace, Place.left]) rfl rfl
        (by simp only [Place.left])
  | firing =>
      simp only [hplace, Option.some.injEq] at hnext
      subst hnext
      exact quiet_step (by simp only [onNotify, hplace]) (by simp only [hplace, Place.left]) rfl rfl
        (by simp only [Place.left])
  | checking index =>
      have hevent : onNotify state (.run thread) = none := by simp only [onNotify, hplace]
      have hleft : (state.place thread).left = [] := by simp only [hplace, Place.left]
      simp only [hplace] at hnext
      split at hnext <;> cases hnext <;>
        exact quiet_step hevent hleft rfl rfl (by simp only [Place.left])
  | pushing index =>
      simp only [hplace, Option.some.injEq] at hnext
      subst hnext
      have hevent : onNotify state (.run thread) = some (.push index) := by
        simp only [onNotify, hplace]
      have hleft : (state.place thread).left = [] := by simp only [hplace, Place.left]
      have hidle : Place.idle.left = [] := by simp only [Place.left]
      rw [hevent]
      exact congrArg some
        (stack_move { state with awaiters := index :: state.awaiters } hleft hidle).symm
  | exchanging =>
      simp only [hplace, Option.some.injEq] at hnext
      subst hnext
      have hevent : onNotify state (.run thread) = some (.take thread) := by
        simp only [onNotify, hplace]
      have htaken := taken_move { state with awaiters := [] } thread (.walking state.awaiters)
      rw [hevent]
      exact congrArg some (congrArg (AwaiterStack.Stack.mk []) htaken.symm)
  | walking rest =>
      cases rest with
      | nil =>
          simp only [hplace, Option.some.injEq] at hnext
          subst hnext
          exact quiet_step (by simp only [onNotify, hplace]) (by simp only [hplace, Place.left]) rfl
            rfl (by simp only [Place.left])
      | cons index rest =>
          simp only [hplace, Option.some.injEq] at hnext
          subst hnext
          have hevent : onNotify state (.run thread) = some (.wake thread index) := by
            simp only [onNotify, hplace]
          have hleft : state.stack.taken thread = index :: rest := by
            simp only [State.stack, hplace, Place.left]
          have hwake : AwaiterStack.step state.stack (.wake thread index) =
              some { state.stack with taken := Function.update state.stack.taken thread rest } := by
            simp only [AwaiterStack.step, hleft, if_true]
          have htaken := taken_move
            { state with queue := state.queue ++ [Job.resumed index] } thread (.walking rest)
          rw [hevent]
          refine Machine.run_from_step _ hwake ?_
          exact congrArg some (congrArg (AwaiterStack.Stack.mk state.awaiters) htaken.symm)

/-- Every step is one on the stack, or leaves it alone. -/
theorem stack_step {action : Action W} (hnext : next workers state action = some following) :
    (AwaiterStack.atomic Nat W).runFrom state.stack (onNotify state action).toList =
      some following.stack := by
  cases action with
  | main =>
      have hsame : following.awaiters = state.awaiters ∧ following.place = state.place := by
        simp only [next, mainStep] at hnext
        repeat' split at hnext
        all_goals first | (cases hnext; exact ⟨rfl, rfl⟩) | cases hnext
      simp only [State.stack, hsame]
      rfl
  | pop thread =>
      simp only [next] at hnext
      split at hnext
      next job rest hidle _ =>
        obtain rfl := Option.some.inj hnext
        have hentry : job.entry.left = [] := by cases job <;> rfl
        have hsame := stack_move { state with queue := rest }
          (show (state.place thread).left = [] by rw [hidle]; rfl) hentry
        exact congrArg some hsame.symm
      next => cases hnext
  | run thread => exact run_step_stack hnext

end Stacks

/-- In every run of the test the `Notify` is an atomic stack: its pushes, exchanges, and turns of
the loop, in their order, are a run of the stack that the code's `Notify` refines. -/
theorem notify_is_atomic_stack {workers : Nat} {schedule : List (Action W)} {state : State W}
    (h : (machine W workers).run schedule = some state) :
    (AwaiterStack.atomic Nat W).run ((machine W workers).observed onNotify schedule) =
      some state.stack := by
  obtain ⟨stack, hrun, rfl⟩ := Machine.refines (R := fun state stack => stack = State.stack state)
    rfl (fun state stack action following hstack hnext =>
      ⟨following.stack, hstack ▸ stack_step hnext, rfl⟩) h
  exact hrun

/-- For every number of workers and every executor: when the main thread leaves `wait_blocking`, it
reads a complete first count in every run exactly if the executor does not have two threads, and
some run lets it read a complete first count and 0 for the second one. -/
theorem counts_guaranteed (W : Type) [DecidableEq W] [Nonempty W] {workers : Nat}
    (hworkers : 0 < workers) :
    ((∀ state, (machine W workers).Reachable state →
        ∀ before, state.main.before = some before → before = workers) ↔ Subsingleton W) ∧
      ∃ state, (machine W workers).Reachable state ∧ state.main = .asserting workers 0 := by
  have hspawned := reach_spawned W workers
  refine ⟨⟨?_, ?_⟩, ?_⟩
  · intro hcomplete
    refine ⟨fun slow thread => ?_⟩
    by_contra hne
    -- `slow` takes the first worker and does not get to count it; `thread` does all the rest
    obtain ⟨others, rfl⟩ : ∃ others, workers = others + 1 := ⟨workers - 1, by omega⟩
    have hpop : (machine W (others + 1)).next
        { main := .waiting, queue := (List.range' 0 (others + 1)).map .worker ++ [.producer] }
          (.pop slow) =
        some (State.move
          { main := .waiting, queue := (List.range' 1 others).map .worker ++ [.producer] } slow
            (.entering 0)) := by
      simp [machine, next, List.range'_succ, Job.entry]
    have hidle : (State.move (W := W)
        { main := .waiting, queue := (List.range' 1 others).map .worker ++ [.producer] } slow
          (.entering 0)).place thread = .idle := Function.update_of_ne (Ne.symm hne) ..
    obtain ⟨awaiters, hall⟩ := reach_workers thread (hspawned.step _ hpop) hidle rfl rfl
    obtain ⟨final, hfinal, hmain⟩ := reach_asserting thread hall hidle rfl rfl
    have hread := hcomplete final hfinal (0 + others) (by rw [hmain]; rfl)
    omega
  · intro _ state hreachable before hbefore
    rcases opening_or_closing hreachable with ⟨started, hopening⟩ | hclosing
    · obtain ⟨count, _, ⟨hmain, _⟩ | ⟨_, hmain, _⟩⟩ := hopening.queue
      · rw [hmain] at hbefore
        cases hbefore
      · rw [hmain] at hbefore
        cases hbefore
    · exact hclosing.counted before hbefore
  · obtain ⟨thread⟩ := ‹Nonempty W›
    obtain ⟨awaiters, hall⟩ := reach_workers thread hspawned rfl rfl rfl
    obtain ⟨final, hfinal, hmain⟩ := reach_asserting thread hall rfl rfl rfl
    refine ⟨final, hfinal, ?_⟩
    rw [hmain]
    exact congrArg (Main.asserting · 0) (Nat.zero_add workers)

/-- Ten workers, as in the largest run of the test, on one thread and on two. -/
theorem counts_guaranteed_ten :
    (∀ state, (machine Unit 10).Reachable state →
        ∀ before, state.main.before = some before → before = 10) ∧
      ¬ (∀ state, (machine Bool 10).Reachable state →
        ∀ before, state.main.before = some before → before = 10) ∧
      ∃ state, (machine Unit 10).Reachable state ∧ state.main = .asserting 10 0 := by
  have hunit := counts_guaranteed Unit (show 0 < 10 by decide)
  have hbool := counts_guaranteed Bool (show 0 < 10 by decide)
  refine ⟨hunit.1.mpr inferInstance, ?_, hunit.2⟩
  intro hcomplete
  exact absurd ((hbool.1.mp hcomplete).elim true false) (by decide)

end TasksTest

end Toad
