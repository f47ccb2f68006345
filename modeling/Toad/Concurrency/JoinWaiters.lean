import Toad.Concurrency.JoinSet

/-!
# Waiting for a join set

`JoinSet::wait_blocking` and `co_await` of `concurrency/join.hpp`. A thread in `wait_blocking`
holds `mu_` while it compares the counter with zero and gives it up in the moment it blocks; the
last watcher notifies the coroutine and then wakes one blocked thread with `cv_.notify_one`,
without taking `mu_`. A waiter is left behind when it goes to sleep after the last call that
could wake it, or when it shares the one wakeup with others: a set without tasks makes no call
at all. And nobody may make the call after a step that goes astray, as in `Toad.JoinSet`: the
`notify_one` of a watcher goes through its closure too. `waiters_released_iff` says that these are
the only ways, for every number of tasks and of threads.

The machine of `Toad.JoinSet` runs unchanged below the threads, except for the destructor: the
set outlives the calls of `wait_blocking`.
-/

namespace Toad.JoinWaiters

open Execution

variable {n m : Nat}

/-- Where a thread in `wait_blocking` stands: in front of `mu_`, in front of the predicate, with
the predicate false and `mu_` still held, blocked on `cv_`, or back from the call. -/
inductive Thread where
  | locking
  | checking
  | releasing
  | blocked
  | returned
  deriving DecidableEq, Repr

/-- A set of `n` tasks with `m` threads in `wait_blocking`. `signalled` says which watchers have
made their call of `cv_.notify_one`, and `mutex` who holds `mu_`. -/
structure State (n m : Nat) where
  set : JoinSet.State n := {}
  signalled : Fin n → Bool := fun _ => false
  mutex : Option (Fin m) := none
  thread : Fin m → Thread := fun _ => .locking

/-- A step of the set, the `cv_.notify_one` of a watcher with the thread it wakes, and the steps
of a thread. -/
inductive Action (n m : Nat) where
  | onSet (action : JoinSet.Action n)
  | notifyOne (task : Fin n) (woken : Option (Fin m))
  | lock (thread : Fin m)
  | check (thread : Fin m)
  | block (thread : Fin m)
  deriving DecidableEq, Repr

/-- Move one thread. -/
def State.move (state : State n m) (thread : Fin m) (place : Thread) : State n m :=
  { state with thread := Function.update state.thread thread place }

/-- The watcher has left `notify.notify_all` and is in front of `cv_.notify_one`. -/
def State.maySignal (state : State n m) (task : Fin n) : Bool :=
  state.set.watcher task = .notifying ∧ state.set.notify.notifier task = .walking none ∧
    state.signalled task = false

/-- Record the `cv_.notify_one` of a watcher. -/
def State.signal (state : State n m) (task : Fin n) : State n m :=
  { state with signalled := Function.update state.signalled task true }

/-- A watcher calls `cv_.notify_one` on something else than the set. -/
def State.stray (state : State n m) (task : Fin n) : State n m :=
  { state.signal task with set := { state.set with astray := true } }

/-- One step. A woken thread takes `mu_` again and goes back to the predicate. -/
def next (state : State n m) : Action n m → Option (State n m)
  | .onSet action =>
      if action = .destruct then none
      else (JoinSet.next state.set action).map fun set => { state with set := set }
  | .notifyOne task woken =>
      if state.maySignal task then
        if state.set.closure task = .overwritten then some (state.stray task)
        else
          match woken with
          | some thread =>
              if state.thread thread = .blocked then
                some ((state.signal task).move thread .locking)
              else none
          | none =>
              if ∀ thread, state.thread thread ≠ .blocked then some (state.signal task)
              else none
      else none
  | .lock thread =>
      if state.thread thread = .locking ∧ state.mutex = none then
        some ({ state with mutex := some thread }.move thread .checking)
      else none
  | .check thread =>
      if state.thread thread = .checking then
        if state.set.awaiting = 0 then some ({ state with mutex := none }.move thread .returned)
        else some (state.move thread .releasing)
      else none
  | .block thread =>
      if state.thread thread = .releasing then
        some ({ state with mutex := none }.move thread .blocked)
      else none

/-- An owner that spawns `n` tasks and awaits the set, and `m` threads in `wait_blocking`. -/
def machine (n m : Nat) : Machine (State n m) (Action n m) where
  init := {}
  next := next

/-- Neither the owner nor a watcher, a task, or a thread has a step to take. A store into the memory
of a closure is none of theirs. -/
def Halted (state : State n m) : Prop :=
  ∀ action, (∀ task, action ≠ .onSet (.overwrite task)) → next state action = none

/-- Every watcher has come to its end. -/
def Finished (state : State n m) : Prop :=
  ∀ task, state.set.watcher task = .done ∨
    (state.set.watcher task = .notifying ∧ state.signalled task = true)

instance (state : State n m) : Decidable (Finished state) :=
  inferInstanceAs (Decidable (∀ _, _))

/-- No thread is blocked in `wait_blocking`, and the coroutine is not suspended in `co_await`. -/
def Released (state : State n m) : Prop :=
  (∀ thread, state.thread thread ≠ .blocked) ∧
    ¬ (state.set.owner = .joining ∧ state.set.notify.awaiter () = .suspended)

/-- The watcher has not counted out its task, or it is inside its notifications with a step of them
`pending`. -/
def Ahead (watcher : Fin n → JoinSet.Watcher) (pending : Fin n → Prop) (task : Fin n) : Prop :=
  (watcher task).released = false ∨ (watcher task = .notifying ∧ pending task)

instance (watcher : Fin n → JoinSet.Watcher) (pending : Fin n → Prop) [DecidablePred pending]
    (task : Fin n) : Decidable (Ahead watcher pending task) :=
  inferInstanceAs (Decidable (_ ∨ _))

/-- The call of `notify_all` has not exchanged the head. -/
def BeforeExchange {K : Type} (notify : Notify.State Unit K) (call : K) : Prop :=
  notify.notifier call = .idle ∨ notify.notifier call = .exchanging

instance {K : Type} (notify : Notify.State Unit K) : DecidablePred (BeforeExchange notify) :=
  fun _ => inferInstanceAs (Decidable (_ ∨ _))

/-- The watcher has the exchange of `notify_all` ahead, or may yet be the one to make it. -/
def ExchangeAhead (state : JoinSet.State n) (task : Fin n) : Prop :=
  Ahead state.watcher (BeforeExchange state.notify) task

instance (state : JoinSet.State n) (task : Fin n) : Decidable (ExchangeAhead state task) :=
  inferInstanceAs (Decidable (Ahead _ _ _))

/-- The watcher has its `cv_.notify_one` ahead, or may yet be the one to call it. -/
def SignalAhead (state : State n m) (task : Fin n) : Prop :=
  Ahead state.set.watcher (fun other => state.signalled other = false) task

instance (state : State n m) (task : Fin n) : Decidable (SignalAhead state task) :=
  inferInstanceAs (Decidable (Ahead _ _ _))

/-- The watchers find the set, also for `cv_.notify_one`, and the frames. -/
def Finds (state : State n m) : Action n m → Prop
  | .onSet action => JoinSet.Finds state.set action
  | .notifyOne task _ => state.set.closure task ≠ .overwritten
  | .lock _ | .check _ | .block _ => True

instance (state : State n m) : ∀ action, Decidable (Finds state action)
  | .onSet action => inferInstanceAs (Decidable (JoinSet.Finds state.set action))
  | .notifyOne _ _ => inferInstanceAs (Decidable (¬ _))
  | .lock _ | .check _ | .block _ => isTrue trivial

/-- The coroutine pushes its awaiter only while a watcher has the exchange ahead, a thread blocks
only while a watcher has its `cv_.notify_one` ahead, and a `cv_.notify_one` leaves a thread
blocked only if another watcher has one ahead. -/
def WakesAll (state : State n m) : Action n m → Prop
  | .onSet (.onNotify step) =>
      Notify.Pushes state.set.notify step → ∃ task, ExchangeAhead state.set task
  | .block _ => ∃ task, SignalAhead state task
  | .notifyOne task woken =>
      (∃ thread, state.thread thread = .blocked ∧ woken ≠ some thread) →
        ∃ other, other ≠ task ∧ SignalAhead state other
  | _ => True

instance (state : State n m) : ∀ action, Decidable (WakesAll state action)
  | .onSet (.onNotify _) => inferInstanceAs (Decidable (_ → _))
  | .block _ => inferInstanceAs (Decidable (∃ _, _))
  | .notifyOne _ _ => inferInstanceAs (Decidable (_ → _))
  | .onSet .check | .onSet .fetchAdd | .onSet .launch | .onSet .resumeOwner | .onSet .destruct
  | .onSet (.resumeOwnerEarly _) | .onSet (.spawnTask _) | .onSet (.finish _)
  | .onSet (.onContinuations _ _) | .onSet (.resumeWatcher _) | .onSet (.resumeWatcherEarly _)
  | .onSet (.fetchSub _) | .onSet (.destroyFrame _) | .onSet (.overwrite _) | .lock _
  | .check _ => isTrue trivial

/-- The step finds what it goes to, and nobody sleeps through the last call. -/
def Reaches (state : State n m) (action : Action n m) : Prop :=
  Finds state action ∧ WakesAll state action

instance (state : State n m) (action : Action n m) : Decidable (Reaches state action) :=
  inferInstanceAs (Decidable (_ ∧ _))

/-! ## The counter -/

/-- The counter agrees with the watchers until the owner aborts, and an owner that aborts leaves a
task unspawned. -/
def Counts (state : JoinSet.State n) : Prop :=
  JoinSet.Counted state ∨
    (state.owner = .aborted ∧ ∃ task, state.watcher task = .unspawned)

/-- What a step of the set does to the watchers and to the `Notify`. -/
inductive Effect (state following : JoinSet.State n) : JoinSet.Action n → Prop where
  | elsewhere (action : JoinSet.Action n) (hwatcher : following.watcher = state.watcher)
      (hnotify : following.notify = state.notify)
      (howner : state.owner = .joining →
        following.owner = .joining ∨ JoinSet.continues state.notify = true) :
      Effect state following action
  | early (action : JoinSet.Action n) (task : Fin n) (place : JoinSet.Watcher)
      (hwatcher : following.watcher = Function.update state.watcher task place)
      (hnotify : following.notify = state.notify)
      (hbefore : (state.watcher task).released = false) (hafter : place.released = false) :
      Effect state following action
  | countOut (action : JoinSet.Action n) (task : Fin n) (place : JoinSet.Watcher)
      (hwatcher : following.watcher = Function.update state.watcher task place)
      (hnotify : following.notify = state.notify)
      (hbefore : state.watcher task = .woken) (hafter : place.released = true)
      (hlast : place = .notifying ∨
        ∃ other, other ≠ task ∧ (state.watcher other).released = false) :
      Effect state following action
  | notify (step : Notify.Action Unit (Fin n)) (hwatcher : following.watcher = state.watcher)
      (howner : following.owner = state.owner) (hmay : state.mayNotify step = true)
      (hnext : Notify.next state.notify step = some following.notify) :
      Effect state following (.onNotify step)

section Counting

variable {state following : JoinSet.State n}

/-- A step that moves the watcher of a task that has been spawned leaves unspawned ones alone. -/
theorem unspawned_move {task : Fin n} {place : JoinSet.Watcher}
    (hspawned : state.watcher task ≠ .unspawned) (h : ∃ other, state.watcher other = .unspawned) :
    ∃ other, (state.move task place).watcher other = .unspawned := by
  obtain ⟨other, hother⟩ := h
  have hne : other ≠ task := by
    intro heq
    exact hspawned (heq ▸ hother)
  exact ⟨other, by simpa [JoinSet.State.move, hne] using hother⟩

/-- A task other than the last one is counted out: another one has still to be. -/
theorem Counts.other_unreleased (h : Counts state) {task : Fin n}
    (hplace : state.watcher task = .woken) (hmore : state.awaiting ≠ 1) :
    ∃ other, other ≠ task ∧ (state.watcher other).released = false := by
  rcases h with hcounted | ⟨_, other, hother⟩
  · by_contra hnone
    have hall : JoinSet.AllReleased
        ({ state with awaiting := state.awaiting - 1 }.move task .done) := by
      intro other
      by_cases hsame : other = task
      · simp [JoinSet.State.move, hsame, JoinSet.Watcher.released]
      · have hreleased : (state.watcher other).released ≠ false :=
          fun hfalse => hnone ⟨other, hsame, hfalse⟩
        simpa [JoinSet.State.move, hsame] using hreleased
    -- after this `fetch_sub` nobody is outstanding, so the counter went from one to zero
    have hafter : JoinSet.Counted
        ({ state with awaiting := state.awaiting - 1 }.move task .done) :=
      hcounted.fetch_sub hplace rfl
    obtain ⟨outstanding, hsum, hawaiting⟩ := hafter.count
    rw [JoinSet.all_released_iff] at hall
    obtain rfl : outstanding = 0 := by omega
    have hzero : state.awaiting - 1 = 0 := hawaiting
    refine hmore ?_
    calc
      state.awaiting = state.awaiting - 1 + 1 := (UInt32.sub_add_cancel ..).symm
      _ = 1 := by rw [hzero]; rfl
  · refine ⟨other, ?_, by rw [hother]; rfl⟩
    rintro rfl
    rw [hplace] at hother
    cases hother

/-- The count depends on the counter, the owner, and the watchers only. -/
theorem Counts.congr (h : Counts state) (hawaiting : following.awaiting = state.awaiting)
    (howner : following.owner = state.owner) (hwatcher : following.watcher = state.watcher) :
    Counts following := by
  rcases h with hcounted | ⟨haborted, hunspawned⟩
  · refine Or.inl ⟨?_, ?_⟩
    · simpa only [JoinSet.State.released, hawaiting, howner, hwatcher] using hcounted.count
    · simpa only [howner, hwatcher] using hcounted.launched
  · exact Or.inr ⟨howner.trans haborted, hwatcher ▸ hunspawned⟩

/-- A spawned watcher moves without counting out its task. -/
theorem Counts.move_watcher (h : Counts state) {task : Fin n} {place : JoinSet.Watcher}
    (hspawned : state.watcher task ≠ .unspawned)
    (hbefore : (state.watcher task).released = false) (hafter : place.released = false) :
    Counts (state.move task place) := by
  rcases h with hcounted | ⟨howner, hunspawned⟩
  · exact Or.inl (hcounted.move_watcher hspawned hbefore hafter)
  · exact Or.inr ⟨howner, unspawned_move hspawned hunspawned⟩

/-- A watcher counts out its task. -/
theorem Counts.fetch_sub (h : Counts state) {task : Fin n} {place : JoinSet.Watcher}
    (hplace : state.watcher task = .woken) (hafter : place.released = true) :
    Counts ({ state with awaiting := state.awaiting - 1 }.move task place) := by
  rcases h with hcounted | ⟨howner, hunspawned⟩
  · exact Or.inl (hcounted.fetch_sub hplace hafter)
  · exact Or.inr ⟨howner, unspawned_move (by simp [hplace]) hunspawned⟩

/-- An owner that has not aborted has counted its tasks. -/
theorem Counts.counted (h : Counts state) (howner : state.owner ≠ .aborted) :
    JoinSet.Counted state :=
  h.resolve_right fun haborted => howner haborted.1

/-- The set before the first `spawn`. -/
theorem counts_init : Counts ({} : JoinSet.State n) :=
  Or.inl (JoinSet.Inv.init (n := n)).counted

/-- Every step that finds the set, but the destructor, keeps the count and has one of the
effects. -/
theorem Counts.step (h : Counts state) {action : JoinSet.Action n} (haction : action ≠ .destruct)
    (hnext : JoinSet.perform state action = some following) :
    Counts following ∧ Effect state following action := by
  cases JoinSet.perform_step hnext with
  | abort task howner =>
      have hcounted := h.counted (by simp [howner])
      have hunspawned := hcounted.unspawned (show state.owner.launched = task by rw [howner]; rfl)
      exact ⟨Or.inr ⟨rfl, task, hunspawned⟩, .elsewhere _ rfl rfl (by simp [howner])⟩
  | pass task howner =>
      have hcounted := h.counted (by simp [howner])
      exact ⟨Or.inl (hcounted.move_owner _ (by rw [howner]; rfl) (by rw [howner]; rfl)),
        .elsewhere _ rfl rfl (by simp [howner])⟩
  | fetchAdd task howner =>
      exact ⟨Or.inl ((h.counted (by simp [howner])).fetch_add howner),
        .elsewhere _ rfl rfl (by simp [howner])⟩
  | launch task howner =>
      have hcounted := h.counted (by simp [howner])
      have hunspawned := hcounted.unspawned (show state.owner.launched = task by rw [howner]; rfl)
      exact ⟨Or.inl (hcounted.launch howner),
        .early _ task .spawned rfl rfl (by rw [hunspawned]; rfl) rfl⟩
  | onNotify step notify hmay hstep =>
      exact ⟨h.congr rfl rfl rfl, .notify step rfl rfl hmay hstep⟩
  | resumeOwner howner hcontinues =>
      have hcounted := h.counted (by simp [howner])
      exact ⟨Or.inl (hcounted.move_owner _ (by rw [howner]; rfl) (by rw [howner]; rfl)),
        .elsewhere _ rfl rfl fun _ => Or.inr hcontinues⟩
  | destruct | destructEarly => exact absurd rfl haction
  | spawnTask task hplace =>
      have hbody : Counts { state with body := Function.update state.body task .running } :=
        h.congr rfl rfl rfl
      exact ⟨hbody.move_watcher (by simp [hplace]) (by simp only [hplace]; rfl) rfl,
        .early _ task .awaiting rfl rfl (by rw [hplace]; rfl) rfl⟩
  | finish | onContinuations | destroyFrame | overwrite =>
      exact ⟨h.congr rfl rfl rfl, .elsewhere _ rfl rfl Or.inl⟩
  | resumeOwnerEarly | resumeWatcherEarly => exact ⟨h, .elsewhere _ rfl rfl Or.inl⟩
  | resumeWatcher task hplace =>
      exact ⟨h.move_watcher (by simp [hplace]) (by rw [hplace]; rfl) rfl,
        .early _ task .woken rfl rfl (by rw [hplace]; rfl) rfl⟩
  | countLast task hplace =>
      exact ⟨h.fetch_sub hplace rfl, .countOut _ task .notifying rfl rfl hplace rfl (Or.inl rfl)⟩
  | countOut task hplace hmore =>
      exact ⟨h.fetch_sub hplace rfl,
        .countOut _ task .done rfl rfl hplace rfl (Or.inr (h.other_unreleased hplace hmore))⟩

end Counting

/-! ## The awaiter of the coroutine -/

section Awaiting

variable {K : Type} [DecidableEq K] {notify after : Notify.State Unit K}
  {action : Notify.Action Unit K}

/-- A call that has come to the end of its loop takes no step, and a step moves no other call. -/
theorem notifier_next (hnext : Notify.next notify action = some after) (call : K) :
    after.notifier call = notify.notifier call ∨
      (action.call = some call ∧ notify.notifier call ≠ .walking none) := by
  have hmoved : ∀ (before : Notify.State Unit K) (other : K) (place : Notify.Notifier Unit),
      other ≠ call → (before.moveNotifier other place).notifier call = before.notifier call :=
    fun _ _ _ hne => Function.update_of_ne (Ne.symm hne) ..
  cases Notify.next_step hnext with
  | pass | enter | load | link | push | retry => exact Or.inl rfl
  | fire other hplace | capture other hplace =>
      by_cases hsame : other = call
      · exact Or.inr ⟨congrArg some hsame, by simp [← hsame, hplace]⟩
      · exact Or.inl (hmoved _ other _ hsame)
  | spawn other awaiter hplace =>
      by_cases hsame : other = call
      · exact Or.inr ⟨congrArg some hsame, by simp [← hsame, hplace]⟩
      · exact Or.inl (hmoved _ other _ hsame)

/-- A suspended awaiter and a call at the end of its loop take no step. -/
theorem next_eq_none (hawaiter : action.call = none → notify.awaiter () = .suspended)
    (hcall : ∀ call, action.call = some call → notify.notifier call = .walking none) :
    Notify.next notify action = none := by
  cases action with
  | awaitReady awaiter | loadHead awaiter | setNext awaiter | compareExchange awaiter spurious =>
      have hsuspended : notify.awaiter awaiter = .suspended := hawaiter rfl
      simp [Notify.next, hsuspended]
  | storeFired call | exchange call | spawnNext call => simp [Notify.next, hcall call rfl]

/-- Only a push puts an awaiter on the stack. -/
theorem head_next (hnext : Notify.next notify action = some after)
    (hhead : after.notify.head ≠ none) :
    after.notify.head = notify.notify.head ∨ Notify.Pushes notify action := by
  cases Notify.next_step hnext with
  | pass | enter | load | link | retry | fire | spawn => exact Or.inl rfl
  | push awaiter hplace => exact Or.inr hplace
  | capture => exact absurd rfl hhead

/-- A call stays in front of its exchange as long as the stack is not emptied. -/
theorem before_exchange_next (hnext : Notify.next notify action = some after)
    (hhead : after.notify.head ≠ none) {call : K} (h : BeforeExchange notify call) :
    BeforeExchange after call := by
  cases Notify.next_step hnext with
  | pass | enter | load | link | retry | push => exact h
  | fire other hplace =>
      by_cases hsame : call = other
      · exact Or.inr (by simp [hsame])
      · simpa [BeforeExchange, Notify.State.moveNotifier, hsame] using h
  | capture => exact absurd rfl hhead
  | spawn other awaiter hplace =>
      have hne : call ≠ other := by
        intro heq
        simp [BeforeExchange, heq, hplace] at h
      simpa [BeforeExchange, Notify.State.moveNotifier, Notify.State.spawn, hne] using h

end Awaiting

/-! ## One step -/

section Effects

variable {state following : JoinSet.State n} {action : JoinSet.Action n}
  {pending after : Fin n → Prop}

/-- Whoever has a notification ahead, a step of the set leaves somebody who has. -/
theorem Effect.ahead (h : Effect state following action)
    (hahead : ∃ task, Ahead state.watcher pending task)
    (hkept : ∀ task, pending task → after task)
    (hfresh : ∀ task, state.watcher task ≠ .notifying → after task) :
    ∃ task, Ahead following.watcher after task := by
  obtain ⟨task, htask⟩ := hahead
  have hsame : Ahead state.watcher after task :=
    htask.imp_right fun hnotifying => ⟨hnotifying.1, hkept task hnotifying.2⟩
  cases h with
  | elsewhere action hwatcher | notify step hwatcher => exact ⟨task, hwatcher ▸ hsame⟩
  | early action other place hwatcher hnotify hbefore hafter =>
      by_cases heq : task = other
      · exact ⟨other, Or.inl (by simpa [hwatcher] using hafter)⟩
      · exact ⟨task, by simpa [Ahead, hwatcher, heq] using hsame⟩
  | countOut action other place hwatcher hnotify hbefore hafter hlast =>
      by_cases heq : task = other
      · -- the watcher that counted out notifies, or it was not the last one
        rcases hlast with rfl | ⟨rest, hne, hrest⟩
        · exact ⟨other, Or.inr ⟨by simp [hwatcher], hfresh other (by simp [hbefore])⟩⟩
        · exact ⟨rest, Or.inl (by simpa [hwatcher, hne] using hrest)⟩
      · exact ⟨task, by simpa [Ahead, hwatcher, heq] using hsame⟩

/-- Once nobody has a notification ahead, no watcher moves. -/
theorem Effect.watcher_eq (h : Effect state following action)
    (hnone : ∀ task, ¬ Ahead state.watcher pending task) : following.watcher = state.watcher := by
  cases h with
  | elsewhere action hwatcher | notify step hwatcher => exact hwatcher
  | early action task place hwatcher hnotify hbefore => exact absurd (Or.inl hbefore) (hnone task)
  | countOut action task place hwatcher hnotify hbefore =>
      exact absurd (Or.inl (by rw [hbefore]; rfl)) (hnone task)

end Effects

/-- What holds of the set while the watchers find it. -/
structure SetSound (set : JoinSet.State n) : Prop where
  counts : Counts set
  idle : ∀ task, set.watcher task ≠ .notifying → set.notify.notifier task = .idle
  stacked : Notify.Stacked set.notify

section Sets

variable {set following : JoinSet.State n} {action : JoinSet.Action n}

/-- A step that finds the set has one of the effects. -/
theorem SetSound.effect (h : SetSound set) (haction : action ≠ .destruct)
    (hnext : JoinSet.perform set action = some following) : Effect set following action :=
  (h.counts.step haction hnext).2

/-- A watcher inside its notifications does not move. -/
theorem Effect.notifying (h : Effect set following action) {task : Fin n}
    (hwatching : set.watcher task = .notifying) : following.watcher task = .notifying := by
  have hother : ∀ other place, following.watcher = Function.update set.watcher other place →
      (set.watcher other).released = false → following.watcher task = .notifying := by
    intro other place hwatcher hbefore
    have hne : task ≠ other := by
      rintro rfl
      rw [hwatching] at hbefore
      cases hbefore
    simpa [hwatcher, hne] using hwatching
  cases h with
  | elsewhere action hwatcher | notify step hwatcher => exact hwatcher ▸ hwatching
  | early action other place hwatcher hnotify hbefore => exact hother other place hwatcher hbefore
  | countOut action other place hwatcher hnotify hbefore =>
      exact hother other place hwatcher (by rw [hbefore]; rfl)

/-- A watcher past its `notify_all` stays there. -/
theorem Effect.ended (h : Effect set following action) {task : Fin n}
    (hwatching : set.watcher task = .notifying)
    (hended : set.notify.notifier task = .walking none) :
    following.watcher task = .notifying ∧ following.notify.notifier task = .walking none := by
  refine ⟨h.notifying hwatching, ?_⟩
  cases h with
  | elsewhere action hwatcher hnotify | early action other place hwatcher hnotify
  | countOut action other place hwatcher hnotify => exact hnotify ▸ hended
  | notify step hwatcher howner hmay hstep =>
      rcases notifier_next hstep task with hsame | ⟨_, hrunning⟩
      · exact hsame.trans hended
      · exact absurd hended hrunning

/-- Every step that finds the set keeps its invariant. -/
theorem SetSound.step (h : SetSound set) (haction : action ≠ .destruct)
    (hnext : JoinSet.perform set action = some following) : SetSound following := by
  obtain ⟨hcounts, heffect⟩ := h.counts.step haction hnext
  refine ⟨hcounts, fun task htask => ?_, ?_⟩
  · have hbefore : set.watcher task ≠ .notifying :=
      fun hwatching => htask (heffect.notifying hwatching)
    cases heffect with
    | elsewhere action hwatcher hnotify | early action other place hwatcher hnotify
    | countOut action other place hwatcher hnotify => exact hnotify ▸ h.idle task hbefore
    | notify step hwatcher howner hmay hstep =>
        rcases notifier_next hstep task with hsame | ⟨hcall, _⟩
        · exact hsame.trans (h.idle task hbefore)
        · simp [JoinSet.State.mayNotify, hcall, hbefore] at hmay
  · cases heffect with
    | elsewhere action hwatcher hnotify | early action other place hwatcher hnotify
    | countOut action other place hwatcher hnotify => exact hnotify ▸ h.stacked
    | notify step hwatcher howner hmay hstep => exact h.stacked.step hstep

end Sets

/-- What holds while the watchers find the set: one that has signalled is past its `notify_all`. -/
structure Sound (state : State n m) : Prop where
  set : SetSound state.set
  signalled : ∀ task, state.signalled task = true →
    state.set.watcher task = .notifying ∧ state.set.notify.notifier task = .walking none

/-- Nothing has gone astray, an awaiter on the stack is waited for by an exchange, and a blocked
thread by a `cv_.notify_one`. -/
structure Covered (state : State n m) : Prop where
  found : state.set.astray = false
  sound : Sound state
  exchange : state.set.notify.notify.head ≠ none → ∃ task, ExchangeAhead state.set task
  signal : (∃ thread, state.thread thread = .blocked) → ∃ task, SignalAhead state task

/-- The coroutine is suspended, and no call has captured its awaiter or will. -/
structure Abandoned (set : JoinSet.State n) : Prop where
  joining : set.owner = .joining
  suspended : set.notify.awaiter () = .suspended
  unspawned : set.notify.spawned () = 0
  uncaptured : ∀ task, set.notify.notifier task ≠ .walking (some ())
  exchanged : ∀ task, ¬ ExchangeAhead set task

/-- A waiter is left behind for good. -/
structure LeftBehind (state : State n m) : Prop where
  sound : Sound state
  waiter : Abandoned state.set ∨
    ((∃ thread, state.thread thread = .blocked) ∧ ∀ task, ¬ SignalAhead state task)

/-- Something has gone astray, or a waiter is left behind. -/
def Lost (state : State n m) : Prop :=
  state.set.astray = true ∨ LeftBehind state

/-- The steps that find the set and the frames, one constructor for each branch. -/
inductive Step (state : State n m) : Action n m → State n m → Prop where
  | onSet (action : JoinSet.Action n) (set : JoinSet.State n) (haction : action ≠ .destruct)
      (hnext : JoinSet.perform state.set action = some set) :
      Step state (.onSet action) { state with set := set }
  | wake (task : Fin n) (thread : Fin m) (hmay : state.maySignal task = true)
      (hplace : state.thread thread = .blocked) :
      Step state (.notifyOne task (some thread)) ((state.signal task).move thread .locking)
  | wakeNobody (task : Fin n) (hmay : state.maySignal task = true)
      (hnobody : ∀ thread, state.thread thread ≠ .blocked) :
      Step state (.notifyOne task none) (state.signal task)
  | lock (thread : Fin m) (hplace : state.thread thread = .locking) (hmutex : state.mutex = none) :
      Step state (.lock thread) ({ state with mutex := some thread }.move thread .checking)
  | returns (thread : Fin m) (hplace : state.thread thread = .checking)
      (hzero : state.set.awaiting = 0) :
      Step state (.check thread) ({ state with mutex := none }.move thread .returned)
  | refuse (thread : Fin m) (hplace : state.thread thread = .checking) :
      Step state (.check thread) (state.move thread .releasing)
  | block (thread : Fin m) (hplace : state.thread thread = .releasing) :
      Step state (.block thread) ({ state with mutex := none }.move thread .blocked)

section Steps

variable {state following : State n m} {action : Action n m}

/-- Every transition that finds the set is one of these steps. -/
theorem next_step (hfinds : Finds state action) (hnext : next state action = some following) :
    Step state action following := by
  cases action with
  | onSet action =>
      simp only [next, Option.ite_none_left_eq_some, Option.map_eq_some_iff,
        JoinSet.next_of_finds hfinds] at hnext
      obtain ⟨haction, set, hset, rfl⟩ := hnext
      exact .onSet action set haction hset
  | notifyOne task woken =>
      have hclosure : state.set.closure task ≠ .overwritten := hfinds
      simp only [next, if_neg hclosure, Option.ite_none_right_eq_some] at hnext
      obtain ⟨hmay, hnext⟩ := hnext
      cases woken with
      | some thread =>
          simp only [Option.ite_none_right_eq_some, Option.some.injEq] at hnext
          obtain ⟨hplace, rfl⟩ := hnext
          exact .wake task thread hmay hplace
      | none =>
          simp only [Option.ite_none_right_eq_some, Option.some.injEq] at hnext
          obtain ⟨hnobody, rfl⟩ := hnext
          exact .wakeNobody task hmay hnobody
  | lock thread =>
      simp only [next, Option.ite_none_right_eq_some, Option.some.injEq] at hnext
      obtain ⟨⟨hplace, hmutex⟩, rfl⟩ := hnext
      exact .lock thread hplace hmutex
  | check thread =>
      simp only [next, Option.ite_none_right_eq_some] at hnext
      obtain ⟨hplace, hnext⟩ := hnext
      split at hnext
      · rename_i hzero
        obtain rfl := Option.some.inj hnext
        exact .returns thread hplace hzero
      · obtain rfl := Option.some.inj hnext
        exact .refuse thread hplace
  | block thread =>
      simp only [next, Option.ite_none_right_eq_some, Option.some.injEq] at hnext
      obtain ⟨hplace, rfl⟩ := hnext
      exact .block thread hplace

/-- Any other transition goes astray. -/
theorem next_astray (hfinds : ¬ Finds state action)
    (hnext : next state action = some following) : following.set.astray = true := by
  cases action with
  | onSet action =>
      simp only [next, Option.ite_none_left_eq_some, Option.map_eq_some_iff] at hnext
      obtain ⟨_, set, hset, rfl⟩ := hnext
      obtain ⟨_, _, _, rfl, _⟩ := JoinSet.next_astray hfinds hset
      rfl
  | notifyOne task woken =>
      have hclosure : state.set.closure task = .overwritten := not_not.mp hfinds
      simp only [next, if_pos hclosure, Option.ite_none_right_eq_some, Option.some.injEq] at hnext
      obtain ⟨_, rfl⟩ := hnext
      rfl
  | lock | check | block => exact absurd trivial hfinds

/-- Nothing else goes astray, or comes back. -/
theorem next_keeps_astray (hfinds : Finds state action)
    (hnext : next state action = some following) : following.set.astray = state.set.astray := by
  cases next_step hfinds hnext with
  | onSet action set haction hset => exact JoinSet.perform_astray hset
  | wake | wakeNobody | lock | returns | refuse | block => rfl

/-- A watcher in front of `cv_.notify_one` has come to the end of `notify_all`. -/
theorem may_signal_iff {task : Fin n} :
    state.maySignal task = true ↔ state.set.watcher task = .notifying ∧
      state.set.notify.notifier task = .walking none ∧ state.signalled task = false := by
  simp [State.maySignal]

/-- A thread moves. -/
theorem Sound.move (h : Sound state) (thread : Fin m) (place : Thread) (mutex : Option (Fin m)) :
    Sound ({ state with mutex := mutex }.move thread place) :=
  ⟨h.set, h.signalled⟩

/-- A watcher signals. -/
theorem Sound.signal (h : Sound state) {task : Fin n} (hmay : state.maySignal task = true) :
    Sound (state.signal task) := by
  refine ⟨h.set, fun other hother => ?_⟩
  by_cases hsame : other = task
  · obtain ⟨hwatching, hended, _⟩ := may_signal_iff.mp hmay
    subst hsame
    exact ⟨hwatching, hended⟩
  · exact h.signalled other (by simpa [State.signal, hsame] using hother)

/-- Every step that finds the set keeps what holds as long as all do. -/
theorem Sound.step (h : Sound state) (hfinds : Finds state action)
    (hnext : next state action = some following) : Sound following := by
  cases next_step hfinds hnext with
  | onSet action set haction hset =>
      refine ⟨h.set.step haction hset, fun task htask => ?_⟩
      obtain ⟨hwatching, hended⟩ := h.signalled task htask
      exact (h.set.effect haction hset).ended hwatching hended
  | wake task thread hmay => exact (h.signal hmay).move thread .locking _
  | wakeNobody task hmay => exact h.signal hmay
  | lock thread | returns thread | refuse thread | block thread => exact h.move thread _ _

/-- A thread that moves somewhere else blocks nobody. -/
theorem blocked_of_move {thread : Fin m} {place : Thread} (hplace : place ≠ .blocked)
    (h : ∃ other, (state.move thread place).thread other = .blocked) :
    ∃ other, other ≠ thread ∧ state.thread other = .blocked := by
  obtain ⟨other, hother⟩ := h
  have hne : other ≠ thread := by
    rintro rfl
    exact hplace (by simpa [State.move] using hother)
  exact ⟨other, hne, by simpa [State.move, hne] using hother⟩

/-- A `cv_.notify_one` takes only the caller's own signal away. -/
theorem signal_ahead_other {task other : Fin n} (hne : other ≠ task) :
    SignalAhead (state.signal task) other ↔ SignalAhead state other := by
  simp [SignalAhead, Ahead, State.signal, hne]

/-- A step of the set that meets the guard keeps an exchange ahead of the stack. -/
theorem Covered.exchange_step (h : Covered state) {action : JoinSet.Action n}
    {set : JoinSet.State n} (haction : action ≠ .destruct)
    (hguard : WakesAll state (.onSet action)) (hnext : JoinSet.perform state.set action = some set)
    (hhead : set.notify.notify.head ≠ none) : ∃ task, ExchangeAhead set task := by
  have heffect := h.sound.set.effect haction hnext
  have hidle : ∀ task, state.set.watcher task ≠ .notifying →
      BeforeExchange state.set.notify task := fun task htask => Or.inl (h.sound.set.idle task htask)
  have hunchanged : set.notify = state.set.notify → ∃ task, ExchangeAhead set task := by
    intro hnotify
    have hahead := h.exchange (by rwa [← hnotify])
    unfold ExchangeAhead
    rw [hnotify]
    exact heffect.ahead hahead (fun _ => id) hidle
  cases heffect with
  | elsewhere action hwatcher hnotify => exact hunchanged hnotify
  | early action task place hwatcher hnotify => exact hunchanged hnotify
  | countOut action task place hwatcher hnotify => exact hunchanged hnotify
  | notify step hwatcher howner hmay hstep =>
      have hahead : ∃ task, ExchangeAhead state.set task := by
        rcases head_next hstep hhead with hsame | hpushes
        · exact h.exchange (hsame ▸ hhead)
        · exact hguard hpushes
      have hkept : ∀ task, BeforeExchange state.set.notify task → BeforeExchange set.notify task :=
        fun task => before_exchange_next hstep hhead
      have heffect := h.sound.set.effect haction hnext
      exact heffect.ahead hahead hkept fun task htask => hkept task (hidle task htask)

/-- Threads move while every blocked one was blocked before. -/
theorem Covered.move (h : Covered state) {thread : Fin m} {place : Thread}
    {mutex : Option (Fin m)} (hplace : place ≠ .blocked) :
    Covered ({ state with mutex := mutex }.move thread place) := by
  refine ⟨h.found, h.sound.move thread place mutex, h.exchange, fun hblocked => ?_⟩
  obtain ⟨other, _, hother⟩ := blocked_of_move hplace hblocked
  exact h.signal ⟨other, hother⟩

/-- Every step that meets the guard keeps the waiters covered. -/
theorem Covered.step (h : Covered state) (hreaches : Reaches state action)
    (hnext : next state action = some following) : Covered following := by
  obtain ⟨hfinds, hguard⟩ := hreaches
  have hfound := (next_keeps_astray hfinds hnext).trans h.found
  have hsound := h.sound.step hfinds hnext
  cases next_step hfinds hnext with
  | onSet action set haction hset =>
      refine ⟨hfound, hsound, h.exchange_step haction hguard hset, fun hblocked => ?_⟩
      refine (h.sound.set.effect haction hset).ahead (h.signal hblocked) (fun _ => id) ?_
      intro task htask
      -- a watcher that has not come to its notifications has not signalled
      by_contra hsignalled
      exact htask (h.sound.signalled task (by simpa using hsignalled)).1
  | wake task thread hmay hplace =>
      refine ⟨hfound, hsound, h.exchange, fun hblocked => ?_⟩
      obtain ⟨other, hne, hother⟩ := blocked_of_move (by simp) hblocked
      obtain ⟨rest, hrest, hahead⟩ := hguard ⟨other, hother, by simp [Ne.symm hne]⟩
      exact ⟨rest, (signal_ahead_other hrest).mpr hahead⟩
  | wakeNobody task hmay hnobody =>
      refine ⟨hfound, hsound, h.exchange, fun hblocked => ?_⟩
      obtain ⟨thread, hthread⟩ := hblocked
      exact absurd hthread (hnobody thread)
  | lock thread | returns thread | refuse thread => exact h.move (by simp)
  | block thread => exact ⟨hfound, hsound, h.exchange, fun _ => hguard⟩

/-- A step of the set against the guard is a push with no exchange ahead. -/
theorem late_push {action : JoinSet.Action n} (h : ¬ WakesAll state (.onSet action)) :
    ∃ step, action = .onNotify step ∧ Notify.Pushes state.set.notify step ∧
      ∀ task, ¬ ExchangeAhead state.set task := by
  cases action with
  | onNotify step =>
      simp only [WakesAll, not_forall, not_exists] at h
      obtain ⟨hpushes, hnone⟩ := h
      exact ⟨step, rfl, hpushes, hnone⟩
  | check | fetchAdd | launch | resumeOwner | resumeOwnerEarly | destruct | spawnTask | finish
  | onContinuations | resumeWatcher | resumeWatcherEarly | fetchSub | destroyFrame
  | overwrite => exact absurd trivial h

/-- A coroutine that pushes its awaiter with no exchange ahead is abandoned. -/
theorem SetSound.abandoned {set following : JoinSet.State n} {step : Notify.Action Unit (Fin n)}
    (h : SetSound set) (hpushes : Notify.Pushes set.notify step)
    (hnone : ∀ task, ¬ ExchangeAhead set task)
    (hnext : JoinSet.perform set (.onNotify step) = some following) : Abandoned following := by
  simp only [JoinSet.perform, Option.ite_none_right_eq_some, Option.map_eq_some_iff] at hnext
  obtain ⟨hmay, notify, hstep, rfl⟩ := hnext
  cases Notify.next_step hstep with
  | push awaiter hplace =>
      obtain ⟨_, hwalking, hspawned⟩ := h.stacked.fresh (by simp [hplace])
      have hjoining : set.owner = .joining := by
        simpa [JoinSet.State.mayNotify, Notify.Action.call] using hmay
      exact ⟨hjoining, by simp [Notify.State.moveAwaiter], hspawned, hwalking, hnone⟩
  | retry awaiter spurious old hplace hfail =>
      cases spurious with
      | true => exact absurd hpushes id
      | false =>
          have hsame : Notify.Awaiter.swapping old = .swapping set.notify.notify.head :=
            hplace.symm.trans hpushes
          exact absurd ⟨(Notify.Awaiter.swapping.inj hsame).symm, rfl⟩ hfail
  | pass | enter | load | link | fire | capture | spawn => exact absurd hpushes id

/-- A step that finds the set, but that is not in time, leaves a waiter behind. -/
theorem Covered.leaves_behind (h : Covered state) (hfinds : Finds state action)
    (hguard : ¬ WakesAll state action) (hnext : next state action = some following) :
    LeftBehind following := by
  have hsound := h.sound.step hfinds hnext
  cases next_step hfinds hnext with
  | onSet action set haction hset =>
      obtain ⟨step, rfl, hpushes, hnone⟩ := late_push hguard
      exact ⟨hsound, Or.inl (h.sound.set.abandoned hpushes hnone hset)⟩
  | wake task thread hmay hplace =>
      simp only [WakesAll, not_forall, not_exists, not_and] at hguard
      obtain ⟨⟨other, hother, hne⟩, hnone⟩ := hguard
      refine ⟨hsound, Or.inr ⟨⟨other, ?_⟩, fun rest hrest => ?_⟩⟩
      · have hdistinct : other ≠ thread := fun heq => hne (congrArg some heq.symm)
        simpa [State.move, State.signal, hdistinct] using hother
      · obtain ⟨hwatching, _, _⟩ := may_signal_iff.mp hmay
        by_cases hsame : rest = task
        · -- the caller itself has just signalled
          rcases hrest with hunreleased | ⟨_, hsignalled⟩
          · simp [State.move, State.signal, hsame, hwatching, JoinSet.Watcher.released]
              at hunreleased
          · simp [State.move, State.signal, hsame] at hsignalled
        · exact hnone rest hsame ((signal_ahead_other hsame).mp hrest)
  | wakeNobody task hmay hnobody =>
      refine absurd (fun hblocked => ?_) hguard
      obtain ⟨thread, hthread, _⟩ := hblocked
      exact absurd hthread (hnobody thread)
  | lock | returns | refuse => exact absurd trivial hguard
  | block thread hplace =>
      refine ⟨hsound, Or.inr ⟨⟨thread, by simp [State.move]⟩, fun task htask => ?_⟩⟩
      exact hguard ⟨task, htask⟩

/-- A step against the guard goes astray or leaves a waiter behind. -/
theorem Covered.lost (h : Covered state) (hreaches : ¬ Reaches state action)
    (hnext : next state action = some following) : Lost following := by
  by_cases hfinds : Finds state action
  · exact Or.inr (h.leaves_behind hfinds (fun hguard => hreaches ⟨hfinds, hguard⟩) hnext)
  · exact Or.inl (next_astray hfinds hnext)

/-- No step on the `Notify` is left for an abandoned coroutine or the calls. -/
theorem Abandoned.notify_stuck {set : JoinSet.State n} {step : Notify.Action Unit (Fin n)}
    (h : Abandoned set) (hmay : set.mayNotify step = true) :
    Notify.next set.notify step = none := by
  refine next_eq_none (fun _ => h.suspended) fun task hcall => ?_
  have hwatching : set.watcher task = .notifying := by
    simpa [JoinSet.State.mayNotify, hcall] using hmay
  cases hplace : set.notify.notifier task with
  | idle => exact absurd (Or.inr ⟨hwatching, Or.inl hplace⟩) (h.exchanged task)
  | exchanging => exact absurd (Or.inr ⟨hwatching, Or.inr hplace⟩) (h.exchanged task)
  | walking current =>
      cases current with
      | none => rfl
      | some awaiter => exact absurd hplace (h.uncaptured task)

/-- Nothing wakes an abandoned coroutine. -/
theorem Abandoned.step {set following : JoinSet.State n} {action : JoinSet.Action n}
    (h : Abandoned set) (heffect : Effect set following action) : Abandoned following := by
  have hwatcher := heffect.watcher_eq h.exchanged
  cases heffect with
  | elsewhere action _ hnotify howner =>
      have hjoining : following.owner = .joining := by
        refine (howner h.joining).resolve_right ?_
        simp [JoinSet.continues, h.suspended, h.unspawned]
      refine ⟨hjoining, hnotify ▸ h.suspended, hnotify ▸ h.unspawned, hnotify ▸ h.uncaptured, ?_⟩
      unfold ExchangeAhead
      rw [hwatcher, hnotify]
      exact h.exchanged
  | early action task place _ _ hbefore => exact absurd (Or.inl hbefore) (h.exchanged task)
  | countOut action task place _ _ hbefore =>
      exact absurd (Or.inl (by rw [hbefore]; rfl)) (h.exchanged task)
  | notify step _ howner hmay hstep =>
      rw [h.notify_stuck hmay] at hstep
      cases hstep

/-- A waiter that is left behind stays behind as long as the watchers find the set. -/
theorem LeftBehind.step (h : LeftBehind state) (hfinds : Finds state action)
    (hnext : next state action = some following) : LeftBehind following := by
  have hsound := h.sound.step hfinds hnext
  refine ⟨hsound, ?_⟩
  rcases h.waiter with habandoned | ⟨⟨waiter, hwaiter⟩, hnone⟩
  · refine Or.inl ?_
    cases next_step hfinds hnext with
    | onSet action set haction hset => exact habandoned.step (h.sound.set.effect haction hset)
    | wake | wakeNobody | lock | returns | refuse | block => exact habandoned
  · -- the thread would have to be woken by a watcher, and none has a signal ahead
    have hsignal : ∀ task, state.maySignal task ≠ true := by
      intro task hmay
      obtain ⟨hwatching, _, hunsignalled⟩ := may_signal_iff.mp hmay
      exact hnone task (Or.inr ⟨hwatching, hunsignalled⟩)
    have hstays : ∀ thread place, state.thread thread ≠ .blocked →
        (state.move thread place).thread waiter = .blocked := by
      intro thread place hplace
      have hne : waiter ≠ thread := fun heq => hplace (heq ▸ hwaiter)
      simpa [State.move, hne] using hwaiter
    refine Or.inr ?_
    cases next_step hfinds hnext with
    | onSet action set haction hset =>
        refine ⟨⟨waiter, hwaiter⟩, ?_⟩
        unfold SignalAhead
        rw [(h.sound.set.effect haction hset).watcher_eq hnone]
        exact hnone
    | wake task thread hmay | wakeNobody task hmay => exact absurd hmay (hsignal task)
    | lock thread hplace | returns thread hplace | refuse thread hplace
    | block thread hplace => exact ⟨⟨waiter, hstays thread _ (by simp [hplace])⟩, hnone⟩

/-- Nothing that is lost is found again. -/
theorem Lost.step (h : Lost state) (hnext : next state action = some following) :
    Lost following := by
  by_cases hfinds : Finds state action
  · exact h.imp (next_keeps_astray hfinds hnext).trans fun hbehind => hbehind.step hfinds hnext
  · exact Or.inl (next_astray hfinds hnext)

/-- With a waiter left behind not everybody is released. -/
theorem LeftBehind.not_released (h : LeftBehind state) : ¬ Released state := by
  intro hreleased
  obtain ⟨hthreads, hcoroutine⟩ := hreleased
  rcases h.waiter with habandoned | ⟨⟨thread, hthread⟩, _⟩
  · exact hcoroutine ⟨habandoned.joining, habandoned.suspended⟩
  · exact hthreads thread hthread

/-- The initial state waits for nobody. -/
theorem covered_init : Covered (machine n m).init := by
  refine ⟨rfl, ⟨⟨counts_init, fun _ _ => rfl, ?_⟩, by simp [machine]⟩, ?_, ?_⟩
  · exact ⟨by simp [machine], fun _ => ⟨rfl, by simp [machine], rfl⟩⟩
  · simp [machine]
  · simp [machine]

/-- Watchers that have finished have nothing ahead that is done before the signal. -/
theorem Finished.not_ahead (h : Finished state) {pending : Fin n → Prop}
    (hpending : ∀ task, state.signalled task = true → ¬ pending task) (task : Fin n) :
    ¬ Ahead state.set.watcher pending task := by
  intro hahead
  rcases h task with hdone | ⟨hnotifying, hsignalled⟩
  · simp [Ahead, hdone, JoinSet.Watcher.released] at hahead
  · rcases hahead with hunreleased | ⟨_, htask⟩
    · simp [hnotifying, JoinSet.Watcher.released] at hunreleased
    · exact hpending task hsignalled htask

/-- When the watchers have finished and nothing can move, covered waiters are released. -/
theorem Covered.released (h : Covered state) (hhalted : Halted state)
    (hfinished : Finished state) : Released state := by
  refine ⟨fun thread hthread => ?_, fun hcoroutine => ?_⟩
  · obtain ⟨task, hahead⟩ := h.signal ⟨thread, hthread⟩
    exact hfinished.not_ahead (fun _ hsignalled => by simp [hsignalled]) task hahead
  · obtain ⟨howner, hsuspended⟩ := hcoroutine
    rcases h.sound.set.stacked.tracked hsuspended with hhead | ⟨task, hwalking⟩ | hspawned
    · obtain ⟨task, hahead⟩ := h.exchange (by simp [hhead])
      refine hfinished.not_ahead (fun other hsignalled => ?_) task hahead
      simp [BeforeExchange, (h.sound.signalled other hsignalled).2]
    · -- the call that captured the awaiter has not come to its end
      have hwatching : state.set.watcher task = .notifying := by
        by_contra hnot
        rw [h.sound.set.idle task hnot] at hwalking
        cases hwalking
      rcases hfinished task with hdone | ⟨_, hsignalled⟩
      · rw [hwatching] at hdone
        cases hdone
      · rw [(h.sound.signalled task hsignalled).2] at hwalking
        cases hwalking
    · have hresume := hhalted (.onSet .resumeOwner) (by simp)
      simp [next, JoinSet.next, JoinSet.perform, howner, JoinSet.continues, hsuspended,
        hspawned] at hresume

end Steps

/-- For every number of tasks, every number of threads in `wait_blocking` and every interleaving
that ends with all watchers finished and no step to take: nothing has gone astray, no thread is
left blocked, and the coroutine is not left suspended, exactly if every step found what it went to,
nobody went to sleep after the last call that could wake it, and no `cv_.notify_one` had to serve
more threads than the one it woke. -/
theorem waiters_released_iff {schedule : List (Action n m)} {state : State n m}
    (hrun : (machine n m).run schedule = some state) (hhalted : Halted state)
    (hfinished : Finished state) :
    (state.set.astray = false ∧ Released state) ↔ (machine n m).Guarded Reaches schedule := by
  rcases Machine.guarded_or_lost (M := machine n m) (G := Covered) (L := Lost) covered_init
    (fun _ _ _ => Covered.step) (fun _ _ _ => Covered.lost) (fun _ _ _ => Lost.step) hrun
    with ⟨hguarded, hcovered⟩ | ⟨hbroken, hlost⟩
  · exact iff_of_true ⟨hcovered.found, hcovered.released hhalted hfinished⟩ hguarded
  · refine iff_of_false (fun hreleased => ?_) hbroken
    rcases hlost with hastray | hbehind
    · rw [hreleased.1] at hastray
      cases hastray
    · exact hbehind.not_released hreleased.2

/-- The owner is past `co_await` or suspended without having been spawned, the watchers have
finished, the tasks have notified them and are gone, and the threads are blocked or have
returned. -/
structure AtRest (state : State n m) : Prop where
  owner : state.set.owner = .continued ∨
    (state.set.owner = .joining ∧ state.set.notify.awaiter () = .suspended ∧
      state.set.notify.spawned () = 0)
  finished : Finished state
  notified : ∀ task, state.set.watcher task = .notifying →
    state.set.notify.notifier task = .walking none
  tasks : ∀ task, state.set.body task = .finished ∧
    (state.set.continuations task).notifier () = .walking none ∧
      state.set.destroyed task = true
  threads : ∀ thread, state.thread thread = .blocked ∨ state.thread thread = .returned

instance (state : State n m) : Decidable (AtRest state) :=
  decidable_of_iff (_ ∧ _ ∧ _ ∧ _ ∧ _)
    ⟨fun h => ⟨h.1, h.2.1, h.2.2.1, h.2.2.2.1, h.2.2.2.2⟩,
      fun h => ⟨h.owner, h.finished, h.notified, h.tasks, h.threads⟩⟩

/-- At rest no watcher has anything to do before its notifications. -/
theorem AtRest.watcher {state : State n m} (h : AtRest state) (task : Fin n) :
    state.set.watcher task ≠ .spawned ∧ state.set.watcher task ≠ .awaiting ∧
      state.set.watcher task ≠ .woken := by
  rcases h.finished task with hdone | ⟨hnotifying, _⟩
  · simp [hdone]
  · simp [hnotifying]

/-- At rest the set takes no step. -/
theorem AtRest.set_stuck {state : State n m} (h : AtRest state) {action : JoinSet.Action n}
    (haction : action ≠ .destruct) (hstore : ∀ task, action ≠ .overwrite task) :
    JoinSet.next state.set action = none := by
  rw [JoinSet.next, Option.map_eq_none_iff]
  cases action with
  | check | fetchAdd | launch =>
      rcases h.owner with howner | ⟨howner, _⟩
      · simp [JoinSet.perform, howner]
      · simp [JoinSet.perform, howner]
  | onNotify step =>
      simp only [JoinSet.perform, ite_eq_right_iff, Option.map_eq_none_iff]
      intro hmay
      refine next_eq_none (fun hcall => ?_) (fun task hcall => ?_)
      · have hjoining : state.set.owner = .joining := by
          simpa [JoinSet.State.mayNotify, hcall] using hmay
        rcases h.owner with howner | ⟨_, hsuspended, _⟩
        · rw [hjoining] at howner
          cases howner
        · exact hsuspended
      · exact h.notified task (by simpa [JoinSet.State.mayNotify, hcall] using hmay)
  | resumeOwner =>
      rcases h.owner with howner | ⟨howner, hsuspended, hspawned⟩
      · simp [JoinSet.perform, howner]
      · simp [JoinSet.perform, JoinSet.continues, hsuspended, hspawned]
  | resumeOwnerEarly task =>
      simp only [JoinSet.perform, ite_eq_right_iff]
      rintro ⟨hmay, hwalking⟩
      rw [h.notified task (of_decide_eq_true hmay)] at hwalking
      cases hwalking
  | destruct => exact absurd rfl haction
  | spawnTask task => simp [JoinSet.perform, (h.watcher task).1]
  | finish task => simp [JoinSet.perform, (h.tasks task).1]
  | onContinuations task step =>
      simp only [JoinSet.perform, ite_eq_right_iff, Option.map_eq_none_iff]
      intro hmay
      refine next_eq_none (fun hcall => ?_) (fun _ _ => (h.tasks task).2.1)
      simp [JoinSet.State.mayContinue, hcall, (h.watcher task).2.1] at hmay
  | resumeWatcher task => simp [JoinSet.perform, (h.watcher task).2.1]
  | resumeWatcherEarly task => simp [JoinSet.perform, (h.tasks task).2.1]
  | fetchSub task => simp [JoinSet.perform, (h.watcher task).2.2]
  | destroyFrame task => simp [JoinSet.perform, (h.tasks task).2.2]
  | overwrite task => exact absurd rfl (hstore task)

/-- At rest no step can be taken. -/
theorem AtRest.halted {state : State n m} (h : AtRest state) : Halted state := by
  intro action hstore
  have hthread : ∀ thread, state.thread thread ≠ .locking ∧ state.thread thread ≠ .checking ∧
      state.thread thread ≠ .releasing := by
    intro thread
    rcases h.threads thread with hblocked | hreturned
    · simp [hblocked]
    · simp [hreturned]
  cases action with
  | onSet action =>
      simp only [next, ite_eq_left_iff, Option.map_eq_none_iff]
      exact fun haction => h.set_stuck haction fun task htask => hstore task (by rw [htask])
  | notifyOne task woken =>
      have hsignalled : state.maySignal task ≠ true := by
        rw [ne_eq, may_signal_iff]
        rintro ⟨hwatching, _, hunsignalled⟩
        rcases h.finished task with hdone | ⟨_, hsignalled⟩
        · simp [hwatching] at hdone
        · simp [hunsignalled] at hsignalled
      simp [next, hsignalled]
  | lock thread => simp [next, (hthread thread).1]
  | check thread => simp [next, (hthread thread).2.1]
  | block thread => simp [next, (hthread thread).2.2]

/-- The owner counts its next task and spawns it. -/
def spawnOne : List (Action n m) :=
  [.onSet .check, .onSet .fetchAdd, .onSet .launch]

/-- The task runs, returns, and is destroyed, and its watcher counts it out and is about to
notify. -/
def watchOne (task : Fin n) : List (Action n m) :=
  (JoinSet.watched task ++
    [JoinSet.Action.onContinuations task (.exchange ()), .destroyFrame task]).map .onSet

/-- The thread finds the counter above zero and blocks. -/
def blocks (thread : Fin m) : List (Action n m) :=
  [.lock thread, .check thread, .block thread]

/-- The owner finds the flag clear and pushes its awaiter. -/
def suspends : List (Action n m) :=
  [.onSet (.onNotify (.awaitReady ())), .onSet (.onNotify (.loadHead ())),
    .onSet (.onNotify (.setNext ())), .onSet (.onNotify (.compareExchange () false))]

/-- The owner finds the flag set and continues. -/
def passes : List (Action n m) :=
  [.onSet (.onNotify (.awaitReady ())), .onSet .resumeOwner]

/-- The watcher's `notify_all` up to the exchange. -/
def notifies (task : Fin n) : List (Action n m) :=
  [.onSet (.onNotify (.storeFired task)), .onSet (.onNotify (.exchange task))]

/-- A thread is woken and finds the counter at zero. -/
def wakes (task : Fin n) (thread : Fin m) : List (Action n m) :=
  [.notifyOne task (some thread), .lock thread, .check thread]

/-- A thread and the coroutine wait before the task ends, and both are woken. -/
def waitedFor (task : Fin n) (thread : Fin m) : List (Action n m) :=
  List.flatten [spawnOne, blocks thread, suspends, watchOne task, notifies task,
    [.onSet (.onNotify (.spawnNext task))], wakes task thread, [.onSet .resumeOwner]]

/-- Both waiters of one task go to sleep in time and are released. -/
theorem waiters_released_one :
    ∃ state, (machine 1 1).run (waitedFor 0 0) = some state ∧ Halted state ∧
      Finished state ∧ state.set.astray = false ∧ Released state := by
  obtain ⟨state, hrun, hrest⟩ :
      ∃ state, (machine 1 1).run (waitedFor 0 0) = some state ∧ AtRest state :=
    ⟨_, rfl, by decide⟩
  refine ⟨state, hrun, hrest.halted, hrest.finished, ?_⟩
  exact (waiters_released_iff hrun hrest.halted hrest.finished).mpr (by decide)

/-- A thread reads the counter before the `fetch_sub` and blocks after the `cv_.notify_one`. -/
def lostWakeup (task : Fin n) (thread : Fin m) : List (Action n m) :=
  List.flatten [spawnOne, [.lock thread, .check thread], watchOne task, notifies task,
    [.notifyOne task none, .block thread], passes]

/-- Two threads block, and `cv_.notify_one` wakes the first. -/
def sharedWakeup (task : Fin n) (first second : Fin m) : List (Action n m) :=
  List.flatten [spawnOne, blocks first, blocks second, watchOne task, notifies task,
    wakes task first, passes]

/-- The memory of the watcher's closure is overwritten before the task ends. -/
def overwritten (task : Fin n) (thread : Fin m) : List (Action n m) :=
  List.flatten [spawnOne, [.onSet (.overwrite task)], blocks thread, suspends, watchOne task]

/-- A set without tasks never notifies, and the coroutine that awaits it stays suspended. A thread
that blocks after the only `cv_.notify_one` stays blocked, and so does the second of two threads
that wait for one task, and a thread whose watcher does not find the set. -/
theorem waiters_left_behind :
    (∃ state, (machine 0 0).run suspends = some state ∧ Halted state ∧
      Finished state ∧ state.set.owner = .joining ∧
      state.set.notify.awaiter () = .suspended ∧ ¬ Released state) ∧
    (∃ state, (machine 1 1).run (lostWakeup 0 0) = some state ∧ Halted state ∧
      Finished state ∧ state.thread 0 = .blocked ∧ ¬ Released state) ∧
    (∃ state, (machine 1 2).run (sharedWakeup 0 0 1) = some state ∧ Halted state ∧
      Finished state ∧ state.thread 1 = .blocked ∧ ¬ Released state) ∧
    ∃ state, (machine 1 1).run (overwritten 0 0) = some state ∧ Halted state ∧
      Finished state ∧ state.thread 0 = .blocked ∧ state.set.owner = .joining ∧
      state.set.notify.awaiter () = .suspended ∧ ¬ Released state := by
  have hempty : ∃ state, (machine 0 0).run suspends = some state ∧ AtRest state ∧
      state.set.owner = .joining ∧ state.set.notify.awaiter () = .suspended :=
    ⟨_, rfl, by decide, rfl, rfl⟩
  have hlost : ∃ state, (machine 1 1).run (lostWakeup 0 0) = some state ∧ AtRest state ∧
      state.thread 0 = .blocked :=
    ⟨_, rfl, by decide, rfl⟩
  have hshared : ∃ state, (machine 1 2).run (sharedWakeup 0 0 1) = some state ∧ AtRest state ∧
      state.thread 1 = .blocked :=
    ⟨_, rfl, by decide, rfl⟩
  have hoverwritten : ∃ state, (machine 1 1).run (overwritten 0 0) = some state ∧ AtRest state ∧
      state.thread 0 = .blocked ∧ state.set.owner = .joining ∧
      state.set.notify.awaiter () = .suspended :=
    ⟨_, rfl, by decide, rfl, rfl, rfl⟩
  refine ⟨?_, ?_, ?_, ?_⟩
  · obtain ⟨state, hrun, hrest, howner, hsuspended⟩ := hempty
    exact ⟨state, hrun, hrest.halted, hrest.finished, howner, hsuspended,
      fun hreleased => hreleased.2 ⟨howner, hsuspended⟩⟩
  · obtain ⟨state, hrun, hrest, hblocked⟩ := hlost
    exact ⟨state, hrun, hrest.halted, hrest.finished, hblocked,
      fun hreleased => hreleased.1 0 hblocked⟩
  · obtain ⟨state, hrun, hrest, hblocked⟩ := hshared
    exact ⟨state, hrun, hrest.halted, hrest.finished, hblocked,
      fun hreleased => hreleased.1 1 hblocked⟩
  · obtain ⟨state, hrun, hrest, hblocked, howner, hsuspended⟩ := hoverwritten
    exact ⟨state, hrun, hrest.halted, hrest.finished, hblocked, howner, hsuspended,
      fun hreleased => hreleased.1 0 hblocked⟩

end Toad.JoinWaiters
