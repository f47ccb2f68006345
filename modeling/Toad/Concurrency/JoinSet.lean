import Mathlib.Data.Fintype.Fin
import Toad.Concurrency.Notify

/-!
# Joining tasks

`concurrency/join.hpp`. `JoinSet::spawn` checks that the set has not been joined, counts the
task, and spawns a watcher coroutine that spawns the task, awaits its end, and counts it out
again; the watcher that counts out the last task notifies the owner. The owner's steps, the
watchers, the tasks, and every step of the two kinds of `Notify` involved interleave freely.
The counter may reach zero before the owner has counted its next task: then the set is
notified too early.

The watcher is a coroutine of a temporary `[this]` closure. It starts suspended, and when it runs
the closure has been destroyed: what it takes for `this` is whatever stands in that memory by
then, and through it go the `fetch_sub`, the `notify_all`, and the `notify_one`. The `Notify` that
it awaits is in the frame of its task, which a worker destroys once the task is done
(`Toad.Watcher`). And a call of `notify_all` reads the `next` of an awaiter after it has spawned
the continuation; whoever is resumed in between takes the awaiter away (`Toad.Traversal`).
`join_set_joins_all` says that the set is correct for up to 2^32 tasks exactly as long as the
watchers find the set and the frames, nobody is resumed too early, and the counter does not reach
zero too early.

The last watcher touches the set after it has notified the owner, which may destroy it by then;
the lifetime of the set is not part of the model, and neither is what the executor does with the
frames of the owner and of the watchers (`Toad.Task`). The condition variable serves
`wait_blocking` only; the two are in `Toad.JoinWaiters`.
-/

namespace Toad.JoinSet

open Execution

/-- Where the owner stands: in `spawn` before the `ASSERT`, before `fetch_add`, or before
`toad::spawn(std::move(proc))`; in `co_await`; past it; past the destructor; or stopped by an
`ASSERT`. -/
inductive Owner (n : Nat) where
  | checking (task : Fin n)
  | adding (task : Fin n)
  | launching (task : Fin n)
  | joining
  | continued
  | destroyed
  | aborted
  deriving DecidableEq, Repr

/-- The owner in front of a `spawn` of the given task, or of `co_await` after the last one. -/
def Owner.turn (n index : Nat) : Owner n :=
  if h : index < n then .checking ⟨index, h⟩ else .joining

/-- Where a watcher stands: not spawned yet, before it spawns the task, in `co_await awaiter`,
before `fetch_sub`, in `notify_all`, or done. -/
inductive Watcher where
  | unspawned
  | spawned
  | awaiting
  | woken
  | notifying
  | done
  deriving DecidableEq, Repr

/-- A task that its watcher has not spawned, one that runs, and one whose body has returned and
that goes through `final_suspend`. -/
inductive Body where
  | unspawned
  | running
  | finished
  deriving DecidableEq, Repr

/-- The closure of a watcher: not made yet, destroyed with its memory as it was, or destroyed with
something else in its memory. -/
inductive Closure where
  | unmade
  | destroyed
  | overwritten
  deriving DecidableEq, Repr

/-- A set of `n` tasks. `notify` has one awaiter, the owner, and one possible `notify_all` call for
each watcher; `continuations` of a task has one awaiter, its watcher, and one call. `destroyed` is
about the frames of the tasks, and `astray` says that a watcher has taken something else for the
set or for the `Notify` of its task, or a `notify_all` something else for its awaiter. -/
structure State (n : Nat) where
  awaiting : UInt32 := 0
  notify : Notify.State Unit (Fin n) := {}
  owner : Owner n := .turn n 0
  watcher : Fin n → Watcher := fun _ => .unspawned
  body : Fin n → Body := fun _ => .unspawned
  continuations : Fin n → Notify.State Unit Unit := fun _ => {}
  closure : Fin n → Closure := fun _ => .unmade
  destroyed : Fin n → Bool := fun _ => false
  astray : Bool := false

/-- The steps of the owner, of the watchers, and of the tasks, the destruction of the frame of a
task, and a store into the memory of a closure. `onNotify` is a step on the set's `Notify`,
`onContinuations` one on the task's; a turn of the loop of `notify_all` is one step. An early
resumption comes in the middle of such a turn, in the call of the watcher or of the task. -/
inductive Action (n : Nat) where
  | check
  | fetchAdd
  | launch
  | onNotify (action : Notify.Action Unit (Fin n))
  | resumeOwner
  | resumeOwnerEarly (task : Fin n)
  | destruct
  | spawnTask (task : Fin n)
  | finish (task : Fin n)
  | onContinuations (task : Fin n) (action : Notify.Action Unit Unit)
  | resumeWatcher (task : Fin n)
  | resumeWatcherEarly (task : Fin n)
  | fetchSub (task : Fin n)
  | destroyFrame (task : Fin n)
  | overwrite (task : Fin n)
  deriving DecidableEq, Repr

variable {n : Nat}

/-- The task whose watcher takes the step through the overwritten memory of its closure, or to a
frame that has been destroyed, or whose `notify_all` loses its awaiter in the step. The watcher
reads `this` for `awaiting_.fetch_sub` and for `notify.notify_all()`, which begins with the store
of the flag. -/
def State.dangling (state : State n) : Action n → Option (Fin n)
  | .fetchSub task | .onNotify (.storeFired task) =>
      if state.closure task = .overwritten then some task else none
  | .onContinuations task action =>
      if action.touchesNotify ∧ state.destroyed task then some task else none
  | .resumeOwnerEarly task | .resumeWatcherEarly task => some task
  | _ => none

/-- An awaiter continues when it found the flag set or when its continuation was spawned. -/
def continues {K : Type} (notify : Notify.State Unit K) : Bool :=
  notify.awaiter () = .passed ∨ (notify.awaiter () = .suspended ∧ 0 < notify.spawned ())

/-- Move one watcher. -/
def State.move (state : State n) (task : Fin n) (place : Watcher) : State n :=
  { state with watcher := Function.update state.watcher task place }

/-- Spawn the watcher of a task and turn to the next one. The closure has been destroyed at the end
of the declaration of `proc`. -/
def State.launch (state : State n) (task : Fin n) : State n :=
  { state with
    owner := .turn n (task + 1)
    closure := Function.update state.closure task .destroyed }.move task .spawned

/-- The owner is the only awaiter of the set's `Notify`, and a watcher calls `notify_all` after it
has counted out the last task. -/
def State.mayNotify (state : State n) (action : Notify.Action Unit (Fin n)) : Bool :=
  match action.call with
  | none => state.owner = .joining
  | some task => state.watcher task = .notifying

/-- The watcher is the only awaiter of its task, and the task calls `notify_all` in
`final_suspend`. -/
def State.mayContinue (state : State n) (task : Fin n) (action : Notify.Action Unit Unit) : Bool :=
  match action.call with
  | none => state.watcher task = .awaiting
  | some _ => state.body task = .finished

/-- One step, if it finds what it goes to. -/
def perform (state : State n) : Action n → Option (State n)
  | .check =>
      match state.owner with
      | .checking task =>
          if state.notify.notify.fired then some { state with owner := .aborted }
          else some { state with owner := .adding task }
      | _ => none
  | .fetchAdd =>
      match state.owner with
      | .adding task =>
          some { state with awaiting := state.awaiting + 1, owner := .launching task }
      | _ => none
  | .launch =>
      match state.owner with
      | .launching task => some (state.launch task)
      | _ => none
  | .onNotify action =>
      if state.mayNotify action then
        (Notify.next state.notify action).map fun notify => { state with notify := notify }
      else none
  | .resumeOwner =>
      if state.owner = .joining ∧ continues state.notify then
        some { state with owner := .continued }
      else none
  -- the call has the owner's awaiter in `current`: it spawns the continuation, but has not read on
  | .resumeOwnerEarly task =>
      if state.mayNotify (.spawnNext task) ∧
          state.notify.notifier task = .walking (some ()) then
        some state
      else none
  | .destruct =>
      if state.owner = .continued then
        if state.awaiting = 0 then some { state with owner := .destroyed }
        else some { state with owner := .aborted }
      else none
  | .spawnTask task =>
      if state.watcher task = .spawned then
        some ({ state with body := Function.update state.body task .running }.move task .awaiting)
      else none
  | .finish task =>
      if state.body task = .running then
        some { state with body := Function.update state.body task .finished }
      else none
  | .onContinuations task action =>
      if state.mayContinue task action then
        (Notify.next (state.continuations task) action).map fun notify =>
          { state with continuations := Function.update state.continuations task notify }
      else none
  | .resumeWatcher task =>
      if state.watcher task = .awaiting ∧ continues (state.continuations task) then
        some (state.move task .woken)
      else none
  | .resumeWatcherEarly task =>
      if state.mayContinue task (.spawnNext ()) ∧
          (state.continuations task).notifier () = .walking (some ()) then
        some state
      else none
  | .fetchSub task =>
      if state.watcher task = .woken then
        if state.awaiting = 1 then
          some ({ state with awaiting := state.awaiting - 1 }.move task .notifying)
        else some ({ state with awaiting := state.awaiting - 1 }.move task .done)
      else none
  | .destroyFrame task =>
      if (state.continuations task).notifier () = .walking none ∧
          state.destroyed task = false then
        some { state with destroyed := Function.update state.destroyed task true }
      else none
  | .overwrite task =>
      if state.closure task = .destroyed then
        some { state with closure := Function.update state.closure task .overwritten }
      else none

/-- A watcher goes on with something else than the set or the `Notify` of its task, or a
`notify_all` with something else than its awaiter. What comes of it is left out. -/
def State.stray (state : State n) (task : Fin n) : State n :=
  { state with astray := true }.move task .done

/-- One step. One that goes through memory that is no longer what it was goes astray. -/
def next (state : State n) (action : Action n) : Option (State n) :=
  (perform state action).map fun following =>
    match state.dangling action with
    | none => following
    | some task => state.stray task

/-- An owner that spawns `n` tasks and awaits the set. -/
def machine (n : Nat) : Machine (State n) (Action n) where
  init := {}
  next := next

/-- The steps that `perform` takes, one constructor for each branch of the source. -/
inductive Step (state : State n) : Action n → State n → Prop where
  | abort (task : Fin n) (howner : state.owner = .checking task)
      (hfired : state.notify.notify.fired = true) :
      Step state .check { state with owner := .aborted }
  | pass (task : Fin n) (howner : state.owner = .checking task) :
      Step state .check { state with owner := .adding task }
  | fetchAdd (task : Fin n) (howner : state.owner = .adding task) :
      Step state .fetchAdd
        { state with awaiting := state.awaiting + 1, owner := .launching task }
  | launch (task : Fin n) (howner : state.owner = .launching task) :
      Step state .launch (state.launch task)
  | onNotify (action : Notify.Action Unit (Fin n)) (notify : Notify.State Unit (Fin n))
      (hmay : state.mayNotify action = true)
      (hnext : Notify.next state.notify action = some notify) :
      Step state (.onNotify action) { state with notify := notify }
  | resumeOwner (howner : state.owner = .joining) (hcontinues : continues state.notify = true) :
      Step state .resumeOwner { state with owner := .continued }
  | resumeOwnerEarly (task : Fin n) (hmay : state.mayNotify (.spawnNext task) = true) :
      Step state (.resumeOwnerEarly task) state
  | destruct (howner : state.owner = .continued) (hzero : state.awaiting = 0) :
      Step state .destruct { state with owner := .destroyed }
  | destructEarly (howner : state.owner = .continued) (hremaining : state.awaiting ≠ 0) :
      Step state .destruct { state with owner := .aborted }
  | spawnTask (task : Fin n) (hplace : state.watcher task = .spawned) :
      Step state (.spawnTask task)
        ({ state with body := Function.update state.body task .running }.move task .awaiting)
  | finish (task : Fin n) (hbody : state.body task = .running) :
      Step state (.finish task)
        { state with body := Function.update state.body task .finished }
  | onContinuations (task : Fin n) (action : Notify.Action Unit Unit)
      (notify : Notify.State Unit Unit) (hmay : state.mayContinue task action = true)
      (hnext : Notify.next (state.continuations task) action = some notify) :
      Step state (.onContinuations task action)
        { state with continuations := Function.update state.continuations task notify }
  | resumeWatcher (task : Fin n) (hplace : state.watcher task = .awaiting)
      (hcontinues : continues (state.continuations task) = true) :
      Step state (.resumeWatcher task) (state.move task .woken)
  | resumeWatcherEarly (task : Fin n) (hmay : state.mayContinue task (.spawnNext ()) = true) :
      Step state (.resumeWatcherEarly task) state
  | countLast (task : Fin n) (hplace : state.watcher task = .woken) (hone : state.awaiting = 1) :
      Step state (.fetchSub task)
        ({ state with awaiting := state.awaiting - 1 }.move task .notifying)
  | countOut (task : Fin n) (hplace : state.watcher task = .woken) (hmore : state.awaiting ≠ 1) :
      Step state (.fetchSub task)
        ({ state with awaiting := state.awaiting - 1 }.move task .done)
  | destroyFrame (task : Fin n)
      (hnotified : (state.continuations task).notifier () = .walking none) :
      Step state (.destroyFrame task)
        { state with destroyed := Function.update state.destroyed task true }
  | overwrite (task : Fin n) (hdestroyed : state.closure task = .destroyed) :
      Step state (.overwrite task)
        { state with closure := Function.update state.closure task .overwritten }

/-- Every transition of `perform` is one of these steps. -/
theorem perform_step {state following : State n} {action : Action n}
    (hnext : perform state action = some following) : Step state action following := by
  cases action with
  | check =>
      simp only [perform] at hnext
      split at hnext
      · rename_i task howner
        split at hnext
        · rename_i hfired
          obtain rfl := Option.some.inj hnext
          exact .abort task howner hfired
        · obtain rfl := Option.some.inj hnext
          exact .pass task howner
      · cases hnext
  | fetchAdd =>
      simp only [perform] at hnext
      split at hnext
      · rename_i task howner
        obtain rfl := Option.some.inj hnext
        exact .fetchAdd task howner
      · cases hnext
  | launch =>
      simp only [perform] at hnext
      split at hnext
      · rename_i task howner
        obtain rfl := Option.some.inj hnext
        exact .launch task howner
      · cases hnext
  | onNotify action =>
      simp only [perform, Option.ite_none_right_eq_some, Option.map_eq_some_iff] at hnext
      obtain ⟨hmay, notify, hstep, rfl⟩ := hnext
      exact .onNotify action notify hmay hstep
  | resumeOwner =>
      simp only [perform, Option.ite_none_right_eq_some, Option.some.injEq] at hnext
      obtain ⟨⟨howner, hcontinues⟩, rfl⟩ := hnext
      exact .resumeOwner howner hcontinues
  | resumeOwnerEarly task =>
      simp only [perform, Option.ite_none_right_eq_some, Option.some.injEq] at hnext
      obtain ⟨⟨hmay, _⟩, rfl⟩ := hnext
      exact .resumeOwnerEarly task hmay
  | destruct =>
      simp only [perform, Option.ite_none_right_eq_some] at hnext
      obtain ⟨howner, hnext⟩ := hnext
      split at hnext
      · rename_i hzero
        obtain rfl := Option.some.inj hnext
        exact .destruct howner hzero
      · rename_i hremaining
        obtain rfl := Option.some.inj hnext
        exact .destructEarly howner hremaining
  | spawnTask task =>
      simp only [perform, Option.ite_none_right_eq_some, Option.some.injEq] at hnext
      obtain ⟨hplace, rfl⟩ := hnext
      exact .spawnTask task hplace
  | finish task =>
      simp only [perform, Option.ite_none_right_eq_some, Option.some.injEq] at hnext
      obtain ⟨hbody, rfl⟩ := hnext
      exact .finish task hbody
  | onContinuations task action =>
      simp only [perform, Option.ite_none_right_eq_some, Option.map_eq_some_iff] at hnext
      obtain ⟨hmay, notify, hstep, rfl⟩ := hnext
      exact .onContinuations task action notify hmay hstep
  | resumeWatcher task =>
      simp only [perform, Option.ite_none_right_eq_some, Option.some.injEq] at hnext
      obtain ⟨⟨hplace, hcontinues⟩, rfl⟩ := hnext
      exact .resumeWatcher task hplace hcontinues
  | resumeWatcherEarly task =>
      simp only [perform, Option.ite_none_right_eq_some, Option.some.injEq] at hnext
      obtain ⟨⟨hmay, _⟩, rfl⟩ := hnext
      exact .resumeWatcherEarly task hmay
  | fetchSub task =>
      simp only [perform, Option.ite_none_right_eq_some] at hnext
      obtain ⟨hplace, hnext⟩ := hnext
      split at hnext
      · rename_i hone
        obtain rfl := Option.some.inj hnext
        exact .countLast task hplace hone
      · rename_i hmore
        obtain rfl := Option.some.inj hnext
        exact .countOut task hplace hmore
  | destroyFrame task =>
      simp only [perform, Option.ite_none_right_eq_some, Option.some.injEq] at hnext
      obtain ⟨⟨hnotified, _⟩, rfl⟩ := hnext
      exact .destroyFrame task hnotified
  | overwrite task =>
      simp only [perform, Option.ite_none_right_eq_some, Option.some.injEq] at hnext
      obtain ⟨hdestroyed, rfl⟩ := hnext
      exact .overwrite task hdestroyed

/-- The step finds the set, the frame, or the awaiter that it goes to. -/
def Finds (state : State n) (action : Action n) : Prop :=
  state.dangling action = none

instance (state : State n) (action : Action n) : Decidable (Finds state action) :=
  inferInstanceAs (Decidable (_ = _))

/-- A step that finds what it goes to is what the source says. -/
theorem next_of_finds {state : State n} {action : Action n} (h : Finds state action) :
    next state action = perform state action := by
  have hnone : state.dangling action = none := h
  simp only [next, hnone, Option.map_id']

/-- Any other step goes astray. -/
theorem next_astray {state following : State n} {action : Action n}
    (h : ¬ Finds state action) (hnext : next state action = some following) :
    ∃ task performed, state.dangling action = some task ∧ following = state.stray task ∧
      perform state action = some performed := by
  obtain ⟨task, hdangling⟩ := Option.ne_none_iff_exists'.mp h
  simp only [next, hdangling, Option.map_eq_some_iff] at hnext
  obtain ⟨performed, hperformed, rfl⟩ := hnext
  exact ⟨task, performed, hdangling, rfl, hperformed⟩

/-- A step goes astray when its watcher has been woken, or when the task has finished. -/
theorem dangling_place {state following : State n} {action : Action n} {task : Fin n}
    (hdangling : state.dangling action = some task)
    (h : perform state action = some following) :
    state.watcher task = .woken ∨ state.watcher task = .notifying ∨
      state.destroyed task = true ∨ state.body task = .finished := by
  cases perform_step h with
  | countLast other hplace | countOut other hplace =>
      simp only [State.dangling, Option.ite_none_right_eq_some, Option.some.injEq] at hdangling
      exact Or.inl (hdangling.2 ▸ hplace)
  | onNotify step notify hmay =>
      cases step with
      | storeFired other =>
          simp only [State.dangling, Option.ite_none_right_eq_some, Option.some.injEq] at hdangling
          exact Or.inr (Or.inl (hdangling.2 ▸ of_decide_eq_true hmay))
      | awaitReady | loadHead | setNext | compareExchange | exchange | spawnNext =>
          cases hdangling
  | resumeOwnerEarly other hmay =>
      obtain rfl := Option.some.inj hdangling
      exact Or.inr (Or.inl (of_decide_eq_true hmay))
  | onContinuations other =>
      simp only [State.dangling, Option.ite_none_right_eq_some, Option.some.injEq] at hdangling
      exact Or.inr (Or.inr (Or.inl (hdangling.2 ▸ hdangling.1.2)))
  | resumeWatcherEarly other hmay =>
      obtain rfl := Option.some.inj hdangling
      exact Or.inr (Or.inr (Or.inr (of_decide_eq_true hmay)))
  | abort | pass | fetchAdd | launch | resumeOwner | destruct | destructEarly | spawnTask | finish
  | resumeWatcher | destroyFrame | overwrite => cases hdangling

/-- A step that finds what it goes to does not go astray. -/
theorem perform_astray {state following : State n} {action : Action n}
    (h : perform state action = some following) : following.astray = state.astray := by
  cases perform_step h <;> rfl

/-- No `ASSERT` has failed, nobody has gone astray, and an owner past `co_await` finds every
task finished and the counter at zero. -/
def Safe (state : State n) : Prop :=
  state.owner ≠ .aborted ∧ state.astray = false ∧
    (state.owner = .continued ∨ state.owner = .destroyed →
      (∀ task, state.body task = .finished) ∧ state.awaiting = 0)

/-- How many `fetch_add`s the owner has still to make. -/
def Owner.remaining : Owner n → Nat
  | .checking task | .adding task => n - task
  | .launching task => n - (task + 1)
  | .joining | .continued | .destroyed | .aborted => 0

/-- How many watchers the owner has spawned. -/
def Owner.launched : Owner n → Nat
  | .checking task | .adding task | .launching task => task
  | .joining | .continued | .destroyed | .aborted => n

/-- The step does not take the counter to zero while the owner has still tasks to count. -/
def CountsOutLast (state : State n) : Action n → Prop
  | .fetchSub _ => state.awaiting = 1 → state.owner.remaining = 0
  | _ => True

instance (state : State n) : ∀ action, Decidable (CountsOutLast state action)
  | .fetchSub _ => inferInstanceAs (Decidable (_ → _))
  | .check | .fetchAdd | .launch | .onNotify _ | .resumeOwner | .resumeOwnerEarly _ | .destruct
  | .spawnTask _ | .finish _ | .onContinuations _ _ | .resumeWatcher _ | .resumeWatcherEarly _
  | .destroyFrame _ | .overwrite _ => isTrue trivial

/-- The step finds what it goes to, and the counter does not get to zero too early. -/
def Orderly (state : State n) (action : Action n) : Prop :=
  Finds state action ∧ CountsOutLast state action

instance (state : State n) (action : Action n) : Decidable (Orderly state action) :=
  inferInstanceAs (Decidable (_ ∧ _))

/-- The watcher has counted out its task. -/
def Watcher.released : Watcher → Bool
  | .notifying | .done => true
  | .unspawned | .spawned | .awaiting | .woken => false

/-- The watcher has not spawned its task yet. -/
def Watcher.waits : Watcher → Bool
  | .unspawned | .spawned => true
  | .awaiting | .woken | .notifying | .done => false

/-- How many tasks have been counted out. -/
def State.released (state : State n) : Nat :=
  (Finset.univ.filter fun task => (state.watcher task).released = true).card

/-- Every task has been counted out. -/
def AllReleased (state : State n) : Prop :=
  ∀ task, (state.watcher task).released = true

/-- The invariant of runs in which the counter reaches zero only once. -/
structure Inv (state : State n) : Prop where
  count : ∃ outstanding, state.released + state.owner.remaining + outstanding = n ∧
    state.awaiting = UInt32.ofNat outstanding
  launched : ∀ task, state.watcher task ≠ .unspawned → task < state.owner.launched
  woken : ∀ task, state.watcher task = .woken ∨ (state.watcher task).released = true →
    state.body task = .finished
  continuations : ∀ task, Notify.Silent (state.continuations task) ∨ state.body task = .finished
  notify : Notify.Silent state.notify ∨ AllReleased state
  notifying : ∀ task, state.watcher task = .notifying → AllReleased state
  not_aborted : state.owner ≠ .aborted
  continued : state.owner = .continued ∨ state.owner = .destroyed → AllReleased state
  unstarted : ∀ task, (state.watcher task).waits = true → state.body task = .unspawned
  fresh : state.owner.launched < n → state.notify.awaiter () = .start

/-- The counter and the watchers agree with what the owner has counted. -/
structure Counted (state : State n) : Prop where
  count : ∃ outstanding, state.released + state.owner.remaining + outstanding = n ∧
    state.awaiting = UInt32.ofNat outstanding
  launched : ∀ task, state.watcher task ≠ .unspawned → task < state.owner.launched

/-! ## Counting -/

theorem remaining_turn (task : Fin n) : (Owner.turn n (task + 1)).remaining = n - (task + 1) := by
  unfold Owner.turn
  split
  · rfl
  · simp only [Owner.remaining]
    omega

theorem launched_turn (task : Fin n) : (Owner.turn n (task + 1)).launched = task + 1 := by
  unfold Owner.turn
  split
  · rfl
  · simp only [Owner.launched]
    omega

/-- A watcher is spawned after its task was counted. -/
theorem launched_add_remaining_le (owner : Owner n) : owner.launched + owner.remaining ≤ n := by
  cases owner <;> simp only [Owner.launched, Owner.remaining] <;> omega

/-- All tasks have been counted out when their number is `n`. -/
theorem all_released_iff (state : State n) : AllReleased state ↔ state.released = n := by
  have hcard := Finset.card_filter_eq_iff (s := Finset.univ)
    (p := fun task => (state.watcher task).released = true)
  rw [Finset.card_univ, Fintype.card_fin] at hcard
  simpa [AllReleased, State.released] using hcard.symm

/-- Moving a watcher that stays on its side of `fetch_sub`. -/
theorem released_move_same (state : State n) (task : Fin n) (place : Watcher)
    (h : place.released = (state.watcher task).released) :
    (state.move task place).released = state.released := by
  unfold State.released
  congr 1
  ext other
  rw [Finset.mem_filter, Finset.mem_filter]
  by_cases hother : other = task
  · simp [State.move, hother, h]
  · simp [State.move, Function.update_of_ne hother]

/-- Moving a watcher past `fetch_sub`. -/
theorem released_move_succ (state : State n) (task : Fin n) (place : Watcher)
    (hbefore : (state.watcher task).released = false) (hafter : place.released = true) :
    (state.move task place).released = state.released + 1 := by
  unfold State.released
  rw [← Finset.card_insert_of_notMem (a := task) (by simp [hbefore])]
  congr 1
  ext other
  rw [Finset.mem_insert, Finset.mem_filter, Finset.mem_filter]
  by_cases hother : other = task
  · simp [State.move, hother, hafter]
  · simp [State.move, hother]

/-- A watcher that has not counted out its task leaves the number of released tasks below the
number of spawned watchers. -/
theorem Counted.released_lt {state : State n} (h : Counted state) {task : Fin n}
    (hspawned : state.watcher task ≠ .unspawned)
    (hbefore : (state.watcher task).released = false) : state.released < state.owner.launched := by
  have hsubset : insert task (Finset.univ.filter fun other =>
      (state.watcher other).released = true) ⊆
      Finset.univ.filter fun other : Fin n => other < state.owner.launched := by
    intro other hmem
    have hne : state.watcher other ≠ .unspawned := by
      rcases Finset.mem_insert.mp hmem with rfl | hreleased
      · exact hspawned
      · intro hplace
        rw [Finset.mem_filter, hplace] at hreleased
        simp [Watcher.released] at hreleased
    simpa using h.launched other hne
  have hcard := Finset.card_le_card hsubset
  rw [Finset.card_insert_of_notMem (by simp [hbefore]), Fin.card_filter_val_lt] at hcard
  have hmin := min_le_right n state.owner.launched
  exact Nat.lt_of_succ_le (hcard.trans hmin)

/-- The watcher that is spawned next has not been spawned before. -/
theorem Counted.unspawned {state : State n} (h : Counted state) {task : Fin n}
    (howner : state.owner.launched = task) : state.watcher task = .unspawned := by
  by_contra hspawned
  have hlt := h.launched task hspawned
  omega

/-- The owner moves on without counting a task or spawning a watcher. -/
theorem Counted.move_owner {state : State n} (h : Counted state) (owner : Owner n)
    (hremaining : owner.remaining = state.owner.remaining)
    (hlaunched : owner.launched = state.owner.launched) :
    Counted { state with owner := owner } where
  count := by simpa only [State.released, hremaining] using h.count
  launched := by simpa only [hlaunched] using h.launched

/-- `fetch_add`. -/
theorem Counted.fetch_add {state : State n} (h : Counted state) {task : Fin n}
    (howner : state.owner = .adding task) :
    Counted { state with awaiting := state.awaiting + 1, owner := .launching task } := by
  obtain ⟨outstanding, hsum, hawaiting⟩ := h.count
  refine ⟨⟨outstanding + 1, ?_, ?_⟩, ?_⟩
  · simp only [howner, Owner.remaining] at hsum
    simp only [State.released, Owner.remaining] at hsum ⊢
    omega
  · simp [hawaiting, UInt32.ofNat_add]
  · simpa only [howner, Owner.launched] using h.launched

/-- `toad::spawn(std::move(proc))`. -/
theorem Counted.launch {state : State n} (h : Counted state) {task : Fin n}
    (howner : state.owner = .launching task) : Counted (state.launch task) := by
  have hlaunched : state.owner.launched = task := by rw [howner]; rfl
  have hunspawned := h.unspawned hlaunched
  obtain ⟨outstanding, hsum, hawaiting⟩ := h.count
  refine ⟨⟨outstanding, ?_, hawaiting⟩, ?_⟩
  · rw [howner] at hsum
    rw [State.launch, released_move_same _ _ _ (by simp [hunspawned, Watcher.released])]
    exact (congrArg (state.released + · + outstanding) (remaining_turn task)).trans hsum
  · intro other hother
    simp only [State.launch, State.move, launched_turn]
    by_cases hsame : other = task
    · rw [hsame]
      omega
    · have := h.launched other (by simpa [State.launch, State.move, hsame] using hother)
      omega

/-- A watcher that was spawned stays below the number of spawned watchers wherever it moves. -/
theorem Counted.launched_move {state : State n} (h : Counted state) {task : Fin n}
    {place : Watcher} (hspawned : state.watcher task ≠ .unspawned) :
    ∀ other, (state.move task place).watcher other ≠ .unspawned → other < state.owner.launched := by
  intro other hother
  by_cases hsame : other = task
  · exact h.launched other (hsame ▸ hspawned)
  · exact h.launched other (by simpa [State.move, hsame] using hother)

/-- A watcher moves without reaching `fetch_sub` or having passed it. -/
theorem Counted.move_watcher {state : State n} (h : Counted state) {task : Fin n}
    {place : Watcher} (hspawned : state.watcher task ≠ .unspawned)
    (hbefore : (state.watcher task).released = false) (hafter : place.released = false) :
    Counted (state.move task place) := by
  obtain ⟨outstanding, hsum, hawaiting⟩ := h.count
  refine ⟨⟨outstanding, ?_, hawaiting⟩, h.launched_move hspawned⟩
  rw [released_move_same _ _ _ (hafter.trans hbefore.symm)]
  exact hsum

/-- `fetch_sub` counts one task out. -/
theorem Counted.fetch_sub {state : State n} (h : Counted state) {task : Fin n} {place : Watcher}
    (hplace : state.watcher task = .woken) (hafter : place.released = true) :
    Counted ({ state with awaiting := state.awaiting - 1 }.move task place) := by
  have hbefore : (state.watcher task).released = false := by rw [hplace]; rfl
  have hspawned : state.watcher task ≠ .unspawned := by simp [hplace]
  have hlt := h.released_lt hspawned hbefore
  have hle := launched_add_remaining_le state.owner
  obtain ⟨outstanding, hsum, hawaiting⟩ := h.count
  have hpositive : 1 ≤ outstanding := by omega
  refine ⟨⟨outstanding - 1, ?_, ?_⟩, h.launched_move hspawned⟩
  · rw [released_move_succ { state with awaiting := state.awaiting - 1 } task place hbefore hafter]
    show state.released + 1 + state.owner.remaining + (outstanding - 1) = n
    omega
  · show state.awaiting - 1 = UInt32.ofNat (outstanding - 1)
    rw [hawaiting, UInt32.ofNat_sub hpositive]
    rfl

/-- The counting part of the invariant. -/
theorem Inv.counted {state : State n} (h : Inv state) : Counted state :=
  ⟨h.count, h.launched⟩

/-! ## One step -/

theorem Inv.init : Inv (machine n).init := by
  have hremaining : (Owner.turn n 0).remaining = n := by
    unfold Owner.turn
    split
    · rfl
    · simp only [Owner.remaining]
      omega
  have hplace : Owner.turn n 0 = .joining ∨ ∃ task, Owner.turn n 0 = .checking task := by
    unfold Owner.turn
    split
    · exact Or.inr ⟨_, rfl⟩
    · exact Or.inl rfl
  refine ⟨⟨0, ?_, rfl⟩, by simp [machine], by simp [machine, Watcher.released],
    fun _ => Or.inl ⟨rfl, by simp [machine], fun _ => rfl, fun _ => rfl⟩,
    Or.inl ⟨rfl, by simp [machine], fun _ => rfl, fun _ => rfl⟩, by simp [machine], ?_, ?_,
    fun _ _ => rfl, fun _ => rfl⟩
  · simpa [machine, State.released, Watcher.released] using hremaining
  · rcases hplace with hjoining | ⟨task, hchecking⟩
    · simp [machine, hjoining]
    · simp [machine, hchecking]
  · rcases hplace with hjoining | ⟨task, hchecking⟩
    · simp [machine, hjoining]
    · simp [machine, hchecking]

/-- The owner moves on without counting a task or spawning a watcher. -/
theorem Inv.move_owner {state : State n} (h : Inv state) (owner : Owner n)
    (hremaining : owner.remaining = state.owner.remaining)
    (hlaunched : owner.launched = state.owner.launched) (habort : owner ≠ .aborted)
    (hcontinued : owner = .continued ∨ owner = .destroyed → AllReleased state) :
    Inv { state with owner := owner } where
  count := (h.counted.move_owner owner hremaining hlaunched).count
  launched := (h.counted.move_owner owner hremaining hlaunched).launched
  woken := h.woken
  continuations := h.continuations
  notify := h.notify
  notifying := h.notifying
  not_aborted := habort
  continued := hcontinued
  unstarted := h.unstarted
  fresh := by simpa only [hlaunched] using h.fresh

/-- `fetch_add`. -/
theorem Inv.fetch_add {state : State n} (h : Inv state) {task : Fin n}
    (howner : state.owner = .adding task) :
    Inv { state with awaiting := state.awaiting + 1, owner := .launching task } := by
  obtain ⟨hcount, hlaunched⟩ := h.counted.fetch_add howner
  exact ⟨hcount, hlaunched, h.woken, h.continuations, h.notify, h.notifying, by simp, by simp,
    h.unstarted, fun _ => h.fresh (by rw [howner]; exact task.isLt)⟩

/-- Nobody is released before the watcher of every task has been spawned. -/
theorem Inv.not_all_released {state : State n} (h : Inv state) {task : Fin n}
    (howner : state.owner.launched = task) : ¬ AllReleased state := by
  intro hall
  have := hall task
  simp [h.counted.unspawned howner, Watcher.released] at this

/-- `toad::spawn(std::move(proc))`. -/
theorem Inv.launch {state : State n} (h : Inv state) {task : Fin n}
    (howner : state.owner = .launching task) : Inv (state.launch task) := by
  have hlaunched : state.owner.launched = task := by rw [howner]; rfl
  have hunspawned := h.counted.unspawned hlaunched
  have hnot := h.not_all_released hlaunched
  obtain ⟨hcount, hspawned⟩ := h.counted.launch howner
  refine ⟨hcount, hspawned, ?_, h.continuations, ?_, ?_, ?_, ?_, ?_,
    fun _ => h.fresh (by rw [hlaunched]; exact task.isLt)⟩
  · intro other hother
    by_cases hsame : other = task
    · simp [State.launch, State.move, hsame, Watcher.released] at hother
    · exact h.woken other (by simpa [State.launch, State.move, hsame] using hother)
  · exact Or.inl (h.notify.resolve_right hnot)
  · intro other hother
    by_cases hsame : other = task
    · simp [State.launch, State.move, hsame] at hother
    · have hbefore : state.watcher other = .notifying := by
        simpa [State.launch, State.move, hsame] using hother
      exact absurd (h.notifying other hbefore) hnot
  · simp only [State.launch, State.move, Owner.turn]
    split <;> simp
  · simp only [State.launch, State.move, Owner.turn]
    split <;> simp
  · intro other hother
    by_cases hsame : other = task
    · exact hsame ▸ h.unstarted task (by rw [hunspawned]; rfl)
    · exact h.unstarted other (by simpa [State.launch, State.move, hsame] using hother)

/-- A watcher moves without reaching `fetch_sub` or having passed it. -/
theorem Inv.move_watcher {state : State n} (h : Inv state) {task : Fin n} {place : Watcher}
    (hspawned : state.watcher task ≠ .unspawned)
    (hbefore : (state.watcher task).released = false) (hafter : place.released = false)
    (hstarted : place.waits = false)
    (hwoken : place = .woken → state.body task = .finished) : Inv (state.move task place) := by
  have hnot : ¬ AllReleased state := fun hall => by simpa [hbefore] using hall task
  obtain ⟨hcount, hlaunched⟩ := h.counted.move_watcher hspawned hbefore hafter
  refine ⟨hcount, hlaunched, ?_, h.continuations,
    Or.inl (h.notify.resolve_right hnot), ?_, h.not_aborted,
    fun howner => absurd (h.continued howner) hnot, ?_, h.fresh⟩
  · intro other hother
    by_cases hsame : other = task
    · subst hsame
      refine hwoken ?_
      simpa [State.move, hafter] using hother
    · exact h.woken other (by simpa [State.move, hsame] using hother)
  · intro other hother
    by_cases hsame : other = task
    · have hplace : place = .notifying := by simpa [State.move, hsame] using hother
      simp [hplace, Watcher.released] at hafter
    · exact absurd (h.notifying other (by simpa [State.move, hsame] using hother)) hnot
  · intro other hother
    by_cases hsame : other = task
    · simp [State.move, hsame, hstarted] at hother
    · exact h.unstarted other (by simpa [State.move, hsame] using hother)

/-- A step on the set's `Notify`: as long as a task is outstanding, it is a step of the owner. -/
theorem Inv.on_notify {state : State n} (h : Inv state) {action : Notify.Action Unit (Fin n)}
    {notify : Notify.State Unit (Fin n)} (hmay : state.mayNotify action = true)
    (hnext : Notify.next state.notify action = some notify) :
    Inv { state with notify := notify } := by
  refine ⟨h.count, h.launched, h.woken, h.continuations, ?_, h.notifying, h.not_aborted,
    h.continued, h.unstarted, fun hlaunched => ?_⟩
  · rcases h.notify with hsilent | hall
    · cases hcall : action.call with
      | none => exact Or.inl (hsilent.step hcall hnext)
      | some task =>
          simp only [State.mayNotify, hcall, decide_eq_true_eq] at hmay
          exact Or.inr (h.notifying task hmay)
    · exact Or.inr hall
  · -- an owner that still spawns tasks does not await, and nobody notifies it
    cases hcall : action.call with
    | none =>
        simp only [State.mayNotify, hcall, decide_eq_true_eq] at hmay
        simp [hmay, Owner.launched] at hlaunched
    | some task =>
        simp only [State.mayNotify, hcall, decide_eq_true_eq] at hmay
        have hnot := h.not_all_released
          (show state.owner.launched = (⟨_, hlaunched⟩ : Fin n) from rfl)
        exact absurd (h.notifying task hmay) hnot

/-- A step on a task's `Notify`: as long as its body runs, it is a step of the watcher. -/
theorem Inv.on_continuations {state : State n} (h : Inv state) {task : Fin n}
    {action : Notify.Action Unit Unit} {notify : Notify.State Unit Unit}
    (hmay : state.mayContinue task action = true)
    (hnext : Notify.next (state.continuations task) action = some notify) :
    Inv { state with continuations := Function.update state.continuations task notify } := by
  refine ⟨h.count, h.launched, h.woken, fun other => ?_, h.notify, h.notifying, h.not_aborted,
    h.continued, h.unstarted, h.fresh⟩
  by_cases hsame : other = task
  · subst hsame
    rcases h.continuations other with hsilent | hfinished
    · cases hcall : action.call with
      | none =>
          refine Or.inl ?_
          simpa using hsilent.step hcall hnext
      | some call =>
          simp only [State.mayContinue, hcall, decide_eq_true_eq] at hmay
          exact Or.inr hmay
    · exact Or.inr hfinished
  · simpa [hsame] using h.continuations other

/-- A body that has not finished may go on. -/
theorem Inv.move_body {state : State n} (h : Inv state) {task : Fin n} {body : Body}
    (hstarted : (state.watcher task).waits = false) (hbefore : state.body task ≠ .finished) :
    Inv { state with body := Function.update state.body task body } := by
  refine ⟨h.count, h.launched, fun other hother => ?_, fun other => ?_, h.notify, h.notifying,
    h.not_aborted, h.continued, fun other hother => ?_, h.fresh⟩
  · have hfinished := h.woken other hother
    by_cases hsame : other = task
    · exact absurd (hsame ▸ hfinished) hbefore
    · simpa [hsame] using hfinished
  · by_cases hsame : other = task
    · exact Or.inl ((h.continuations other).resolve_right (hsame ▸ hbefore))
    · simpa [hsame] using h.continuations other
  · by_cases hsame : other = task
    · simp [hsame, hstarted] at hother
    · simpa [hsame] using h.unstarted other hother

/-- An awaiter that goes on has been notified. -/
theorem continues_not_silent {K : Type} {notify : Notify.State Unit K}
    (h : continues notify = true) : ¬ Notify.Silent notify := by
  intro hsilent
  simp [continues, hsilent.not_passed, hsilent.unspawned] at h

/-- `fetch_sub`: with at most 2^32 tasks, the watcher that reads 1 after the last `fetch_add` is
the last one. -/
theorem Inv.fetch_sub {state : State n} (h : Inv state) (hn : n ≤ 2 ^ 32) {task : Fin n}
    {place : Watcher} (hplace : state.watcher task = .woken) (hafter : place.released = true)
    (hlast : place = .notifying → state.awaiting = 1 ∧ state.owner.remaining = 0) :
    Inv ({ state with awaiting := state.awaiting - 1 }.move task place) := by
  have hbefore : (state.watcher task).released = false := by rw [hplace]; rfl
  have hnot : ¬ AllReleased state := fun hall => by simpa [hbefore] using hall task
  have hreleased : ({ state with awaiting := state.awaiting - 1 }.move task place).released =
      state.released + 1 :=
    released_move_succ { state with awaiting := state.awaiting - 1 } task place hbefore hafter
  have hlt := h.counted.released_lt (by simp [hplace]) hbefore
  have hle := launched_add_remaining_le state.owner
  obtain ⟨outstanding, hsum, hawaiting⟩ := h.count
  obtain ⟨hcount, hlaunched⟩ := h.counted.fetch_sub hplace hafter
  refine ⟨hcount, hlaunched, ?_, h.continuations,
    Or.inl (h.notify.resolve_right hnot), ?_, h.not_aborted,
    fun howner => absurd (h.continued howner) hnot, ?_, h.fresh⟩
  · intro other hother
    by_cases hsame : other = task
    · exact h.woken other (Or.inl (hsame ▸ hplace))
    · exact h.woken other (by simpa [State.move, hsame] using hother)
  · intro other hother
    by_cases hsame : other = task
    · have hnotifying : place = .notifying := by simpa [State.move, hsame] using hother
      obtain ⟨hone, hremaining⟩ := hlast hnotifying
      -- the counter is the number of outstanding tasks modulo 2^32, which is not zero
      have houtstanding : outstanding = 1 := by
        have hmod : outstanding % 2 ^ 32 = 1 := by
          rw [← UInt32.toNat_ofNat', ← hawaiting, hone]
          rfl
        omega
      rw [all_released_iff, hreleased]
      omega
    · exact absurd (h.notifying other (by simpa [State.move, hsame] using hother)) hnot
  · intro other hother
    by_cases hsame : other = task
    · have hwaits : place.waits = true := by simpa [State.move, hsame] using hother
      cases place <;> simp [Watcher.waits, Watcher.released] at hwaits hafter
    · exact h.unstarted other (by simpa [State.move, hsame] using hother)

/-- The counter is zero once every task has been counted out. -/
theorem Inv.awaiting_zero {state : State n} (h : Inv state) (hall : AllReleased state) :
    state.awaiting = 0 := by
  obtain ⟨outstanding, hsum, hawaiting⟩ := h.count
  rw [all_released_iff] at hall
  obtain rfl : outstanding = 0 := by omega
  exact hawaiting

/-- Every step that finds what it goes to and does not take the counter to zero too early preserves
the invariant. -/
theorem Inv.step {state following : State n} (h : Inv state) (hn : n ≤ 2 ^ 32)
    {action : Action n} (hlast : CountsOutLast state action)
    (hnext : perform state action = some following) : Inv following := by
  cases perform_step hnext with
  | abort task howner hfired =>
      have hlaunched : state.owner.launched = task := by rw [howner]; rfl
      have hclear := (h.notify.resolve_right (h.not_all_released hlaunched)).clear
      rw [hclear] at hfired
      cases hfired
  | pass task howner =>
      exact h.move_owner _ (by rw [howner]; rfl) (by rw [howner]; rfl) (by simp) (by simp)
  | fetchAdd task howner => exact h.fetch_add howner
  | launch task howner => exact h.launch howner
  | onNotify action notify hmay hstep => exact h.on_notify hmay hstep
  | resumeOwner howner hcontinues =>
      have hall := h.notify.resolve_left (continues_not_silent hcontinues)
      exact h.move_owner _ (by rw [howner]; rfl) (by rw [howner]; rfl) (by simp) (fun _ => hall)
  | destruct howner =>
      have hall := h.continued (Or.inl howner)
      exact h.move_owner _ (by rw [howner]; rfl) (by rw [howner]; rfl) (by simp) (fun _ => hall)
  | destructEarly howner hremaining =>
      exact absurd (h.awaiting_zero (h.continued (Or.inl howner))) hremaining
  | spawnTask task hplace =>
      have hbody := h.unstarted task (by rw [hplace]; rfl)
      have hmoved : Inv (state.move task .awaiting) :=
        h.move_watcher (by simp [hplace]) (by rw [hplace]; rfl) rfl rfl (by simp)
      exact hmoved.move_body (by simp [State.move, Watcher.waits]) (by simp [State.move, hbody])
  | finish task hbody =>
      refine h.move_body ?_ (by simp [hbody])
      by_contra hwaits
      simp [h.unstarted task (by simpa using hwaits)] at hbody
  | onContinuations task action notify hmay hstep => exact h.on_continuations hmay hstep
  | resumeWatcher task hplace hcontinues =>
      have hfinished := (h.continuations task).resolve_left (continues_not_silent hcontinues)
      exact h.move_watcher (by simp [hplace]) (by rw [hplace]; rfl) rfl rfl
        (fun _ => hfinished)
  | countLast task hplace hone =>
      exact h.fetch_sub hn hplace rfl (fun _ => ⟨hone, hlast hone⟩)
  | countOut task hplace hmore => exact h.fetch_sub hn hplace rfl (by simp)
  | resumeOwnerEarly | resumeWatcherEarly => exact h
  | destroyFrame | overwrite => exact { h with }

/-- Every orderly step preserves the invariant, and nobody goes astray. -/
theorem Inv.orderly {state following : State n} (h : Inv state) (hn : n ≤ 2 ^ 32)
    (hfound : state.astray = false) {action : Action n} (horderly : Orderly state action)
    (hnext : next state action = some following) : Inv following ∧ following.astray = false := by
  rw [next_of_finds horderly.1] at hnext
  exact ⟨h.step hn horderly.2 hnext, (perform_astray hnext).trans hfound⟩

/-- The invariant gives what the owner relies on. -/
theorem Inv.safe {state : State n} (h : Inv state) (hfound : state.astray = false) :
    Safe state := by
  refine ⟨h.not_aborted, hfound, fun howner => ?_⟩
  have hall := h.continued howner
  exact ⟨fun task => h.woken task (Or.inr (hall task)), h.awaiting_zero hall⟩

theorem next_launch {state : State n} {task : Fin n} (howner : state.owner = .launching task) :
    next state .launch = some (state.launch task) := by
  rw [next_of_finds (show Finds state .launch from rfl)]
  simp only [perform, howner, State.launch]

/-- An owner in front of its next `spawn` finds a set that has been notified, and aborts. -/
theorem check_aborts {state : State n} {task : Fin n} (howner : state.owner = .checking task)
    (hfired : state.notify.notify.fired = true) :
    next state .check = some { state with owner := .aborted } := by
  rw [next_of_finds (show Finds state .check from rfl)]
  simp [perform, howner, hfired]

/-- An owner that has counted its last task awaits a set that has been notified, and continues
before the task has started. -/
theorem joins_early_unsafe {state : State n} {task : Fin n}
    (howner : state.owner = .launching task) (hfired : state.notify.notify.fired = true)
    (hawaiter : state.notify.awaiter () = .start) (hlast : ¬ task + 1 < n)
    (hbody : state.body task = .unspawned) :
    (machine n).LeadsTo (fun finish => ¬ Safe finish) state := by
  have hjoining : (state.launch task).owner = .joining := by
    simp only [State.launch, State.move, Owner.turn, dif_neg hlast]
  have hawait : Notify.next state.notify (.awaitReady ()) =
      some (state.notify.moveAwaiter () .passed) := by
    simp [Notify.next, hawaiter, hfired]
  have hpassed : next (state.launch task) (.onNotify (.awaitReady ())) =
      some { state.launch task with notify := state.notify.moveAwaiter () .passed } := by
    have hfinds : Finds (state.launch task) (.onNotify (.awaitReady ())) := rfl
    have hmay : (state.launch task).mayNotify (.awaitReady ()) = true := by
      simp [State.mayNotify, Notify.Action.call, hjoining]
    rw [next_of_finds hfinds, perform, if_pos hmay]
    exact congrArg (Option.map _) hawait
  have hcontinue : next { state.launch task with notify := state.notify.moveAwaiter () .passed }
      .resumeOwner = some { state.launch task with
        notify := state.notify.moveAwaiter () .passed, owner := .continued } := by
    have hpasses : continues (state.notify.moveAwaiter () .passed) = true := by
      simp [continues, Notify.State.moveAwaiter]
    have hmay : (state.launch task).owner = .joining ∧
        continues (state.notify.moveAwaiter () .passed) = true := ⟨hjoining, hpasses⟩
    rw [next_of_finds (show Finds _ Action.resumeOwner from rfl), perform, if_pos hmay]
  refine (((Machine.LeadsTo.here fun hsafe => ?_).step hcontinue).step hpassed).step
    (next_launch howner)
  have hfinished : state.body task = .finished := (hsafe.2.2 (Or.inl rfl)).1 task
  rw [hbody] at hfinished
  cases hfinished

/-- A set that has been notified while the owner has still tasks to count: the owner may abort at
its next `spawn`, or continue past `co_await` before its last task has even started. -/
theorem notified_early_unsafe {state : State n} (hfired : state.notify.notify.fired = true)
    (hawaiter : state.notify.awaiter () = .start) (hearly : state.owner.remaining ≠ 0)
    (hbody : ∀ task, state.owner = .adding task → state.body task = .unspawned) :
    (machine n).LeadsTo (fun finish => ¬ Safe finish) state := by
  have haborted : ∀ (before : State n) (task : Fin n), before.owner = .checking task →
      before.notify = state.notify → (machine n).LeadsTo (fun finish => ¬ Safe finish) before :=
    fun before task howner hnotify =>
      (Machine.LeadsTo.here fun hsafe => hsafe.1 rfl).step
        (check_aborts howner (hnotify ▸ hfired))
  -- the owner's next `spawn` after that of `task`
  have haborts : ∀ (before : State n) (task : Fin n), before.owner = .launching task →
      before.notify = state.notify → task + 1 < n →
        (machine n).LeadsTo (fun finish => ¬ Safe finish) before := by
    intro before task howner hnotify hmore
    have hturn : (before.launch task).owner = .checking ⟨task + 1, hmore⟩ := by
      simp only [State.launch, State.move, Owner.turn, dif_pos hmore]
    exact (haborted _ _ hturn hnotify).step (next_launch howner)
  cases howner : state.owner with
  | checking task => exact haborted state task howner rfl
  | adding task =>
      have hadd : next state .fetchAdd =
          some { state with awaiting := state.awaiting + 1, owner := .launching task } := by
        rw [next_of_finds (show Finds state .fetchAdd from rfl)]
        simp only [perform, howner]
      have hadded : (machine n).LeadsTo (fun finish => ¬ Safe finish)
          { state with awaiting := state.awaiting + 1, owner := .launching task } := by
        by_cases hmore : task + 1 < n
        · exact haborts _ task rfl rfl hmore
        · exact joins_early_unsafe rfl hfired hawaiter hmore (hbody task howner)
      exact hadded.step hadd
  | launching task =>
      rw [howner] at hearly
      exact haborts state task howner rfl (by simp only [Owner.remaining] at hearly; omega)
  | joining | continued | destroyed | aborted =>
      rw [howner] at hearly
      exact absurd rfl hearly

/-- The state after the watcher of `task` has counted it out and stored the flag. -/
def State.notifiedBy (state : State n) (task : Fin n) : State n :=
  { state with
    awaiting := state.awaiting - 1
    notify := { state.notify with
      notify := state.notify.notify.storeFired }.moveNotifier task .exchanging }.move task
        .notifying

/-- A step that takes the counter to zero too early can be followed by a failed `ASSERT` or by an
owner that continues too early. -/
theorem early_zero_unsafe {state following : State n} {action : Action n} (h : Inv state)
    (hfinds : Finds state action) (hearly : ¬ CountsOutLast state action)
    (hnext : next state action = some following) :
    (machine n).LeadsTo (fun finish => ¬ Safe finish) following := by
  cases action with
  | fetchSub task =>
      have hone : state.awaiting = 1 := by
        by_contra hne
        exact hearly fun heq => absurd heq hne
      have hremaining : state.owner.remaining ≠ 0 := fun hzero => hearly fun _ => hzero
      rw [next_of_finds hfinds] at hnext
      simp only [perform, Option.ite_none_right_eq_some, if_pos hone, Option.some.injEq] at hnext
      obtain ⟨hplace, rfl⟩ := hnext
      have hnot : ¬ AllReleased state := fun hall => by
        simpa [hplace, Watcher.released] using hall task
      have hsilent := h.notify.resolve_right hnot
      have hle := launched_add_remaining_le state.owner
      have hawaiter := h.fresh (by omega)
      -- the watcher that reads 1 stores the flag at once, and finds `this` as it has just done
      have hfire : next ({ state with awaiting := state.awaiting - 1 }.move task .notifying)
          (.onNotify (.storeFired task)) = some (state.notifiedBy task) := by
        have hfinds : Finds ({ state with awaiting := state.awaiting - 1 }.move task
            .notifying) (.onNotify (.storeFired task)) := hfinds
        rw [next_of_finds hfinds]
        simp [perform, State.mayNotify, Notify.Action.call, State.move, Notify.next,
          hsilent.idle task, State.notifiedBy]
      have hbody : ∀ other, state.owner = .adding other → state.body other = .unspawned := by
        intro other howner
        have hlaunched : state.owner.launched = other := by rw [howner]; rfl
        have hunspawned := h.counted.unspawned hlaunched
        exact h.unstarted other (by rw [hunspawned]; rfl)
      have hnotified : (machine n).LeadsTo (fun finish => ¬ Safe finish)
          (state.notifiedBy task) :=
        notified_early_unsafe rfl hawaiter hremaining hbody
      exact hnotified.step hfire
  | check | fetchAdd | launch | onNotify | resumeOwner | resumeOwnerEarly | destruct | spawnTask
  | finish | onContinuations | resumeWatcher | resumeWatcherEarly | destroyFrame
  | overwrite => exact absurd trivial hearly

/-- A step against the condition can be followed by steps into an unsafe state. -/
theorem disorder_unsafe {state following : State n} {action : Action n} (h : Inv state)
    (hdisorder : ¬ Orderly state action) (hnext : next state action = some following) :
    (machine n).LeadsTo (fun finish => ¬ Safe finish) following := by
  by_cases hfinds : Finds state action
  · exact early_zero_unsafe h hfinds (fun hlast => hdisorder ⟨hfinds, hlast⟩) hnext
  · obtain ⟨task, _, _, rfl, _⟩ := next_astray hfinds hnext
    refine Machine.LeadsTo.here fun hsafe => ?_
    cases hsafe.2.1

/-- A set none of whose tasks has finished: no watcher is past its `co_await`, nobody has been
notified, the owner is not past its own, and no frame has been destroyed. -/
structure Unfinished (state : State n) : Prop where
  body : ∀ task, state.body task ≠ .finished
  watcher : ∀ task, (state.watcher task).waits = true ∨ state.watcher task = .awaiting
  continuations : ∀ task, Notify.Silent (state.continuations task)
  notify : Notify.Silent state.notify
  owner : state.owner ≠ .continued ∧ state.owner ≠ .destroyed
  frame : ∀ task, state.destroyed task = false

theorem Unfinished.init : Unfinished ({} : State n) := by
  refine ⟨by simp, fun _ => Or.inl rfl, fun _ => ⟨rfl, by simp, fun _ => rfl, fun _ => rfl⟩,
    ⟨rfl, by simp, fun _ => rfl, fun _ => rfl⟩, ?_, fun _ => rfl⟩
  show Owner.turn n 0 ≠ _ ∧ Owner.turn n 0 ≠ _
  unfold Owner.turn
  split <;> simp

/-- The owner's own steps in front of `co_await`. -/
theorem Unfinished.move_owner {state : State n} (h : Unfinished state) (awaiting : UInt32)
    {owner : Owner n} (howner : owner ≠ .continued ∧ owner ≠ .destroyed) :
    Unfinished { state with awaiting := awaiting, owner := owner } :=
  ⟨h.body, h.watcher, h.continuations, h.notify, howner, h.frame⟩

/-- A watcher that gets as far as its `co_await`. -/
theorem Unfinished.move_watcher {state : State n} (h : Unfinished state) (task : Fin n)
    {place : Watcher} (hplace : place.waits = true ∨ place = .awaiting) :
    Unfinished (state.move task place) := by
  refine ⟨h.body, fun other => ?_, h.continuations, h.notify, h.owner, h.frame⟩
  by_cases hsame : other = task
  · rw [hsame]
    simpa [State.move] using hplace
  · simpa [State.move, hsame] using h.watcher other

/-- As long as no task finishes, the owner does not get past `co_await`. -/
theorem Unfinished.perform {state following : State n} {action : Action n} (h : Unfinished state)
    (hfinish : ∀ task, action ≠ .finish task) (hnext : perform state action = some following) :
    Unfinished following := by
  -- a watcher that has been woken, or that notifies, contradicts the invariant
  have hplaces : ∀ task place, state.watcher task = place →
      place ≠ .woken ∧ place ≠ .notifying := by
    rintro task place rfl
    rcases h.watcher task with hwaits | hawaiting
    · cases hplace : state.watcher task <;> simp_all [Watcher.waits]
    · simp [hawaiting]
  cases perform_step hnext with
  | abort task howner hfired => simp [h.notify.clear] at hfired
  | pass task howner => exact h.move_owner state.awaiting (by simp)
  | fetchAdd task howner => exact h.move_owner _ (by simp)
  | launch task howner =>
      have hturn : Owner.turn n (task + 1) ≠ .continued ∧ Owner.turn n (task + 1) ≠ .destroyed := by
        unfold Owner.turn
        split <;> simp
      have hmoved : Unfinished ({ state with owner := .turn n (task + 1) }.move task .spawned) :=
        (h.move_owner state.awaiting hturn).move_watcher task (Or.inl rfl)
      exact { hmoved with }
  | onNotify action notify hmay hstep =>
      refine ⟨h.body, h.watcher, h.continuations, h.notify.step ?_ hstep, h.owner, h.frame⟩
      cases hcall : action.call with
      | none => rfl
      | some task =>
          simp only [State.mayNotify, hcall, decide_eq_true_eq] at hmay
          exact absurd rfl (hplaces task _ hmay).2
  | resumeOwner howner hcontinues => exact absurd h.notify (continues_not_silent hcontinues)
  | destruct howner | destructEarly howner => exact absurd howner h.owner.1
  | spawnTask task hplace =>
      have hmoved := h.move_watcher task (Or.inr rfl)
      refine ⟨fun other => ?_, hmoved.watcher, h.continuations, h.notify, h.owner, h.frame⟩
      by_cases hsame : other = task
      · simp [State.move, hsame]
      · simpa [State.move, hsame] using h.body other
  | finish task hbody => exact absurd rfl (hfinish task)
  | onContinuations task action notify hmay hstep =>
      refine ⟨h.body, h.watcher, fun other => ?_, h.notify, h.owner, h.frame⟩
      have hcall : action.call = none := by
        cases hcall : action.call with
        | none => rfl
        | some _ =>
            simp only [State.mayContinue, hcall, decide_eq_true_eq] at hmay
            exact absurd hmay (h.body task)
      by_cases hsame : other = task
      · subst hsame
        simpa using (h.continuations other).step hcall hstep
      · simpa [hsame] using h.continuations other
  | resumeWatcher task hplace hcontinues =>
      exact absurd (h.continuations task) (continues_not_silent hcontinues)
  | countLast task hplace | countOut task hplace =>
      exact absurd rfl (hplaces task _ hplace).1
  | destroyFrame task hnotified => simp [(h.continuations task).idle ()] at hnotified
  | resumeOwnerEarly | resumeWatcherEarly => exact h
  | overwrite task hdestroyed => exact { h with }

/-- And nobody goes astray: no watcher has been woken, and no task has finished. -/
theorem Unfinished.step {state following : State n} {action : Action n} (h : Unfinished state)
    (hfinish : ∀ task, action ≠ .finish task) (hnext : next state action = some following) :
    Unfinished following := by
  by_cases hfinds : Finds state action
  · exact h.perform hfinish (next_of_finds hfinds ▸ hnext)
  · obtain ⟨task, performed, hdangling, rfl, hperformed⟩ := next_astray hfinds hnext
    rcases dangling_place hdangling hperformed with hplace | hplace | hdestroyed | hbody
    · simpa [hplace, Watcher.waits] using h.watcher task
    · simpa [hplace, Watcher.waits] using h.watcher task
    · simp [h.frame task] at hdestroyed
    · exact absurd hbody (h.body task)

/-- For up to 2^32 tasks and any interleaving in which the watchers find the set and the frames of
their tasks, nobody is resumed in the middle of a turn of `notify_all`, and the counter does not
reach zero before the owner has counted its last task: no `ASSERT` fails, and the owner continues
only when every task has finished and the counter is zero.
The condition cannot be dropped anywhere: a step against it can always be followed by a run into
an unsafe state. -/
theorem join_set_joins_all (hn : n ≤ 2 ^ 32) {schedule : List (Action n)} {state : State n}
    (h : (machine n).run schedule = some state)
    (hguard : (machine n).Guarded Orderly schedule) :
    Safe state ∧
      ∀ action following, next state action = some following → ¬ Orderly state action →
        ∃ more finish, (machine n).runFrom following more = some finish ∧ ¬ Safe finish := by
  obtain ⟨halways, hneeded⟩ :=
    Machine.guarded_always_needed (I := fun state => Inv state ∧ state.astray = false)
      (S := Safe) ⟨Inv.init, rfl⟩
      (fun _ _ _ hinv horderly hnext => hinv.1.orderly hn hinv.2 horderly hnext)
      (fun _ hinv => hinv.1.safe hinv.2)
      (fun _ _ _ hinv hdisorder hnext => disorder_unsafe hinv.1 hdisorder hnext) h hguard
  exact ⟨halways schedule state (List.prefix_refl _) h, hneeded⟩

/-- The run of a watcher and its task from the spawn of the task to the `fetch_sub`. -/
def watched (task : Fin n) : List (Action n) :=
  [.spawnTask task, .finish task, .onContinuations task (.storeFired ()),
    .onContinuations task (.awaitReady ()), .resumeWatcher task, .fetchSub task]

/-- Both tasks are counted before the first one finishes. -/
def countedFirst : List (Action 2) :=
  [.check, .fetchAdd, .launch, .check, .fetchAdd, .launch] ++ watched 0 ++ watched 1 ++
    [.onNotify (.storeFired 1), .onNotify (.awaitReady ()), .resumeOwner, .destruct]

/-- A run of two tasks that reaches the end of the set. -/
theorem join_set_joins_two :
    ((machine 2).run countedFirst).map State.owner = some .destroyed ∧
      ∀ state, (machine 2).run countedFirst = some state → Safe state := by
  refine ⟨by decide +kernel, fun state hrun => ?_⟩
  exact (join_set_joins_all (by decide) hrun (by decide +kernel)).1

/-- The first task finishes before the second one is spawned, and the `ASSERT` in `spawn` fails. And
with the closure of its watcher overwritten, a task finishes without being counted out: the owner
is suspended in `co_await`. -/
theorem join_set_aborts :
    (∃ state, (machine 2).run ([.check, .fetchAdd, .launch] ++ watched 0 ++
      [.onNotify (.storeFired 0), .check]) = some state ∧ state.owner = .aborted ∧
        ¬ Safe state) ∧
    ∃ state, (machine 1).run ([.check, .fetchAdd, .launch, .overwrite 0] ++ watched 0 ++
      [.onNotify (.awaitReady ()), .onNotify (.loadHead ()), .onNotify (.setNext ()),
        .onNotify (.compareExchange () false)]) = some state ∧ state.owner = .joining ∧
        state.notify.awaiter () = .suspended ∧ state.body 0 = .finished ∧ state.awaiting = 1 ∧
        ¬ Safe state :=
  ⟨⟨_, rfl, rfl, fun hsafe => hsafe.1 rfl⟩,
    ⟨_, rfl, rfl, rfl, rfl, rfl, fun hsafe => nomatch hsafe.2.1⟩⟩

end Toad.JoinSet
