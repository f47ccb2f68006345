import Toad.Concurrency.AwaiterStack
import Toad.Concurrency.Correlation

/-!
# Wakeups in the whole system

A coroutine that finds a `Notify` unfired goes on to push its awaiter. A `notify_all` whose
exchange of the head comes between the two leaves it on the stack for good; one that has stored
the flag by then, but not exchanged the head, still finds it there. The machine is that of
`Toad.Correlation`: any number of workers, threads, and coroutines that spawn each other, await,
notify, and return, where a return notifies the continuations of the coroutine.
`no_waiter_left_iff` says when nobody is left behind anywhere in such a system.
`one_worker_leaves_no_waiter` is what a program may rely on: on an executor with a single worker
the two can only come apart if a thread from outside notifies.

Each `Notify` of the machine is the atomic stack that the code's refines (`Toad.AwaiterStack`):
`notify_is_atomic_stack`.
-/

namespace Toad

namespace Correlation

open Execution

variable {W O C F N : Type}

/-- Every `notify_all` that has stored the flag of the `Notify` has exchanged its head. -/
def State.Exchanged (state : State W O C F N) (notify : N) : Prop :=
  ∀ thread, state.notifying thread ≠ .exchanging notify

/-- Nobody is on the stack of a `Notify` that has fired and whose head has been exchanged, or about
to be. -/
def NoWaiterLeft (state : State W O C F N) : Prop :=
  ∀ notify, state.fired notify = true → state.Exchanged notify →
    state.awaiters notify = [] ∧
      ∀ worker coroutine, state.place worker ≠ .pushing coroutine notify

/-- The last exchange of the head of a `Notify` that is under way is not made while a worker is
about to push an awaiter to it. -/
def ExchangesApart (state : State W O C F N) : Action W O C F N → Prop
  | .exchange thread => ∀ notify, state.notifying thread = .exchanging notify →
      (∀ other, other ≠ thread → state.notifying other ≠ .exchanging notify) →
        ∀ worker coroutine, state.place worker ≠ .pushing coroutine notify
  | _ => True

/-- The step is a `notify_all` of a thread that is no worker. -/
def Action.notifiesOutside : Action W O C F N → Prop
  | .notifyAll (.outside _) _ => True
  | _ => False

section Steps

variable [DecidableEq N]

/-- What the thread has taken from the stack of the `Notify` and not woken yet. -/
def Notifying.left (notify : N) : Notifying C N → List C
  | .walking from' rest => if from' = notify then rest else []
  | .idle | .exchanging _ => []

/-- The stack of one `Notify`, and what the threads in its loop have still to wake. -/
def State.stackOf (state : State W O C F N) (notify : N) : AwaiterStack.Stack C (Thread W O) where
  stack := state.awaiters notify
  taken := fun thread => (state.notifying thread).left notify

/-- What a step does to the stack of one `Notify`. -/
def onNotify (notify : N) (state : State W O C F N) :
    Action W O C F N → Option (AwaiterStack.Event C (Thread W O))
  | .pushAwaiter worker =>
      match state.place worker with
      | .pushing coroutine other => if other = notify then some (.push coroutine) else none
      | _ => none
  | .exchange thread =>
      match state.notifying thread with
      | .exchanging other => if other = notify then some (.take thread) else none
      | _ => none
  | .wake thread =>
      match state.notifying thread with
      | .walking other (coroutine :: _) =>
          if other = notify then some (.wake thread coroutine) else none
      | _ => none
  | _ => none

variable [DecidableEq W] [DecidableEq O] [DecidableEq C] [DecidableEq F]
  {promise : C → Promise N} {state following : State W O C F N} {action : Action W O C F N}

/-- What a step does to the flags, to the stacks, to the exchanges under way, and to the workers
that are about to push. -/
inductive Waits (state following : State W O C F N) (action : Action W O C F N) : Prop where
  /-- nothing, and nobody starts to push -/
  | still (hevent : ∀ notify, onNotify notify state action = none)
      (hsame : following.fired = state.fired ∧ following.awaiters = state.awaiters)
      (hnotifying : following.notifying = state.notifying)
      (hplace : ∀ worker coroutine notify,
        following.place worker = .pushing coroutine notify →
          state.place worker = .pushing coroutine notify)
  /-- a coroutine has found the `Notify` unfired -/
  | enter (worker : W) (coroutine : C) (notify : N)
      (hevent : ∀ notify, onNotify notify state action = none)
      (hunfired : state.fired notify = false)
      (hfree : (state.notifying (.worker worker)).free = true)
      (hsame : following.fired = state.fired ∧ following.awaiters = state.awaiters)
      (hnotifying : following.notifying = state.notifying)
      (hplace : following.place = Function.update state.place worker (.pushing coroutine notify))
  /-- a coroutine has pushed its awaiter -/
  | push (worker : W) (coroutine : C) (notify : N) (haction : action = .pushAwaiter worker)
      (hpushing : state.place worker = .pushing coroutine notify)
      (hfired : following.fired = state.fired)
      (hawaiters : following.awaiters =
        Function.update state.awaiters notify (coroutine :: state.awaiters notify))
      (hnotifying : following.notifying = state.notifying)
      (hplace : following.place = Function.update state.place worker (.returned coroutine))
  /-- a `notify_all` stores the flag -/
  | fire (thread : Thread W O) (notify : N)
      (hevent : ∀ notify, onNotify notify state action = none)
      (hfree : (state.notifying thread).free = true)
      (hcaller : match thread with
        | .outside _ => action.notifiesOutside
        | .worker worker => ∀ coroutine other, following.place worker ≠ .pushing coroutine other)
      (hfired : following.fired = Function.update state.fired notify true)
      (hawaiters : following.awaiters = state.awaiters)
      (hnotifying : following.notifying =
        Function.update state.notifying thread (.exchanging notify))
      (hplace : ∀ worker coroutine other,
        following.place worker = .pushing coroutine other →
          state.place worker = .pushing coroutine other)
  /-- a `notify_all` exchanges the head -/
  | capture (thread : Thread W O) (notify : N) (haction : action = .exchange thread)
      (hexchanging : state.notifying thread = .exchanging notify)
      (hafter : following = state.exchange thread notify)
  /-- a turn of the loop -/
  | wake (thread : Thread W O) (notify : N) (coroutine : C) (rest : List C)
      (haction : action = .wake thread)
      (hwalking : state.notifying thread = .walking notify (coroutine :: rest))
      (hsame : following.fired = state.fired ∧ following.awaiters = state.awaiters ∧
        following.place = state.place)
      (hnotifying : following.notifying =
        Function.update state.notifying thread (.walking notify rest))

omit [DecidableEq O] [DecidableEq C] [DecidableEq F] [DecidableEq N] in
/-- A worker that moves to a place other than a push starts none. -/
theorem pushing_of_move {worker other : W} {place : Place C N} {coroutine : C} {notify : N}
    (hmoved : ∀ coroutine notify, place ≠ .pushing coroutine notify)
    (h : (state.move worker place).place other = .pushing coroutine notify) :
    other ≠ worker ∧ state.place other = .pushing coroutine notify := by
  change Function.update state.place worker place other = .pushing coroutine notify at h
  rw [Function.update_apply, ite_eq_iff] at h
  exact h.resolve_left fun hself => hmoved coroutine notify hself.2

/-- Every step has one of these effects. -/
theorem next_waits (h : next promise state action = some following) :
    Waits state following action := by
  cases action with
  | spawn thread coroutine =>
      simp only [next] at h
      split at h
      · cases h
        exact .still (fun _ => rfl) ⟨rfl, rfl⟩ rfl fun _ _ _ hplace => hplace
      · cases h
  | pop worker =>
      simp only [next] at h
      split at h
      · split at h <;> cases h <;> exact .still (fun _ => rfl) ⟨rfl, rfl⟩ rfl
          fun _ _ _ hplace => (pushing_of_move (by simp) hplace).2
      · cases h
  | suspend worker =>
      simp only [next] at h
      split at h
      · cases h
        exact .still (fun _ => rfl) ⟨rfl, rfl⟩ rfl
          fun _ _ _ hplace => (pushing_of_move (by simp) hplace).2
      · cases h
  | awaitFuture worker future =>
      simp only [next] at h
      split at h
      · split at h
        · cases h
          exact .still (fun _ => rfl) ⟨rfl, rfl⟩ rfl fun _ _ _ hplace => hplace
        · cases h
          exact .still (fun _ => rfl) ⟨rfl, rfl⟩ rfl
            fun _ _ _ hplace => (pushing_of_move (by simp) hplace).2
      · cases h
  | setValue thread future =>
      simp only [next] at h
      split at h
      · split at h <;> cases h <;>
          exact .still (fun _ => rfl) ⟨rfl, rfl⟩ rfl fun _ _ _ hplace => hplace
      · cases h
  | dropFuture future =>
      cases h
      exact .still (fun _ => rfl) ⟨rfl, rfl⟩ rfl fun _ _ _ hplace => hplace
  | awaitNotify worker notify =>
      simp only [next] at h
      split at h
      next coroutine _ hfree =>
          split at h
          · cases h
            exact .still (fun _ => rfl) ⟨rfl, rfl⟩ rfl fun _ _ _ hplace => hplace
          next hfired =>
              cases h
              exact .enter worker coroutine notify (fun _ => rfl) (by simpa using hfired) hfree
                ⟨rfl, rfl⟩ rfl rfl
      next => cases h
  | pushAwaiter worker =>
      simp only [next] at h
      split at h
      next coroutine notify hplace =>
          cases h
          exact .push worker coroutine notify rfl hplace rfl rfl rfl rfl
      next => cases h
  | notifyAll thread notify =>
      simp only [next] at h
      split at h
      next hexecuting =>
          cases h
          simp only [State.executing, Bool.and_eq_true] at hexecuting
          refine .fire thread notify (fun _ => rfl) hexecuting.1 ?_ rfl rfl rfl
            fun _ _ _ hplace => hplace
          cases thread with
          | outside thread => exact trivial
          | worker worker =>
              intro coroutine other hpushing
              have hplace : state.place worker = .pushing coroutine other := hpushing
              simp [hplace] at hexecuting
      next => cases h
  | exchange thread =>
      simp only [next] at h
      split at h
      next notify hexchanging =>
          cases h
          exact .capture thread notify rfl hexchanging rfl
      next => cases h
  | wake thread =>
      simp only [next] at h
      split at h
      next notify coroutine rest hwalking =>
          cases h
          exact .wake thread notify coroutine rest rfl hwalking ⟨rfl, rfl, rfl⟩ rfl
      next => cases h
  | coReturn worker =>
      simp only [next] at h
      split at h
      next coroutine hrunning hfree =>
          cases h
          refine .fire (.worker worker) (promise coroutine).continuations (fun _ => rfl) hfree ?_
            rfl rfl rfl fun _ _ _ hplace => (pushing_of_move (by simp) hplace).2
          exact fun _ _ hplace => (pushing_of_move (by simp) hplace).1 rfl
      next => cases h
  | finalSuspend worker =>
      simp only [next] at h
      split at h
      · cases h
        exact .still (fun _ => rfl) ⟨rfl, rfl⟩ rfl
          fun _ _ _ hplace => (pushing_of_move (by simp) hplace).2
      · cases h
  | leave worker =>
      simp only [next] at h
      split at h
      · cases h
        exact .still (fun _ => rfl) ⟨rfl, rfl⟩ rfl
          fun _ _ _ hplace => (pushing_of_move (by simp) hplace).2
      · cases h

omit [DecidableEq C] [DecidableEq F] in
/-- The exchange of a head ends one of the exchanges under way. -/
theorem exchanging_exchange {caller other : Thread W O} {notify found : N} :
    (state.exchange caller notify).notifying other = .exchanging found ↔
      other ≠ caller ∧ state.notifying other = .exchanging found := by
  show Function.update state.notifying caller _ other = _ ↔ _
  rw [Function.update_apply, ite_eq_iff]
  simp

omit [DecidableEq N] [DecidableEq C] [DecidableEq F] in
/-- A turn of the loop leaves the exchanges under way alone. -/
theorem exchanging_wake {thread other : Thread W O} {notify found : N} {coroutine : C}
    {rest : List C} (hwalking : state.notifying thread = .walking notify (coroutine :: rest)) :
    Function.update state.notifying thread (.walking notify rest) other = .exchanging found ↔
      state.notifying other = .exchanging found := by
  by_cases heq : other = thread
  · rw [heq, Function.update_self, hwalking]
    simp
  · rw [Function.update_of_ne heq]

/-- A `Notify` whose head is about to be exchanged has fired. -/
def FiredFirst (state : State W O C F N) : Prop :=
  ∀ thread notify, state.notifying thread = .exchanging notify → state.fired notify = true

/-- The flag is stored before the exchange, and never cleared. -/
theorem FiredFirst.step (h : FiredFirst state)
    (hnext : next promise state action = some following) : FiredFirst following := by
  intro thread notify hexchanging
  cases next_waits hnext with
  | still hevent hsame hnotifying =>
      rw [hsame.1]
      exact h thread notify (hnotifying ▸ hexchanging)
  | wake caller other coroutine rest haction hwalking hsame hnotifying =>
      rw [hnotifying, exchanging_wake hwalking] at hexchanging
      rw [hsame.1]
      exact h thread notify hexchanging
  | enter worker coroutine other hevent hunfired hfree hsame hnotifying =>
      rw [hnotifying] at hexchanging
      rw [hsame.1]
      exact h thread notify hexchanging
  | push worker coroutine other haction hpushing hfired hawaiters hnotifying =>
      rw [hnotifying] at hexchanging
      rw [hfired]
      exact h thread notify hexchanging
  | fire caller fired hevent hfree hcaller hfired hawaiters hnotifying =>
      rw [hnotifying, Function.update_apply, ite_eq_iff] at hexchanging
      rw [hfired]
      rcases hexchanging with ⟨_, hnew⟩ | ⟨_, hbefore⟩
      · cases hnew
        exact Function.update_self ..
      · by_cases heq : notify = fired
        · rw [heq]
          exact Function.update_self ..
        · rw [Function.update_of_ne heq]
          exact h thread notify hbefore
  | capture caller other haction hcalled hafter =>
      subst hafter
      exact h thread notify (exchanging_exchange.mp hexchanging).2

/-- A step that exchanges apart from the pushes leaves nobody behind. -/
theorem NoWaiterLeft.step (h : NoWaiterLeft state) (hguard : ExchangesApart state action)
    (hnext : next promise state action = some following) : NoWaiterLeft following := by
  intro notify hfired hexchanged
  cases next_waits hnext with
  | still hevent hsame hnotifying hplace =>
      rw [hsame.1] at hfired
      rw [hsame.2]
      obtain ⟨hempty, hnone⟩ := h notify hfired (by rwa [State.Exchanged, ← hnotifying])
      exact ⟨hempty, fun worker coroutine hpushing =>
        hnone worker coroutine (hplace worker coroutine notify hpushing)⟩
  | wake caller other coroutine rest haction hwalking hsame hnotifying =>
      rw [hsame.1] at hfired
      rw [hsame.2.1, hsame.2.2]
      refine h notify hfired fun thread hexchanging => hexchanged thread ?_
      rwa [hnotifying, exchanging_wake hwalking]
  | enter entering coroutine other hevent hunfired hfree hsame hnotifying hplace =>
      rw [hsame.1] at hfired
      rw [hsame.2, hplace]
      obtain ⟨hempty, hnone⟩ := h notify hfired (by rwa [State.Exchanged, ← hnotifying])
      refine ⟨hempty, fun worker found hpushing => ?_⟩
      rw [Function.update_apply, ite_eq_iff] at hpushing
      rcases hpushing with ⟨_, hnew⟩ | ⟨_, hbefore⟩
      · cases hnew
        exact absurd (hunfired.symm.trans hfired) (by simp)
      · exact hnone worker found hbefore
  | push pushing coroutine other haction hpushing hsame hawaiters hnotifying hplace =>
      rw [hsame] at hfired
      obtain ⟨hempty, hnone⟩ := h notify hfired (by rwa [State.Exchanged, ← hnotifying])
      -- the push goes to another stack
      have hne : notify ≠ other := by
        intro heq
        exact hnone pushing coroutine (heq ▸ hpushing)
      rw [hawaiters, Function.update_of_ne hne, hplace]
      exact ⟨hempty, fun worker found hfound =>
        hnone worker found (pushing_of_move (by simp) hfound).2⟩
  | fire caller fired hevent hfree hcaller hset hawaiters hnotifying hplace =>
      rw [State.Exchanged, hnotifying] at hexchanged
      have hne : notify ≠ fired := by
        rintro rfl
        exact hexchanged caller (Function.update_self ..)
      rw [hset, Function.update_of_ne hne] at hfired
      rw [hawaiters]
      obtain ⟨hempty, hnone⟩ := h notify hfired fun thread hexchanging => by
        by_cases heq : thread = caller
        · rw [heq] at hexchanging
          simp [hexchanging, Notifying.free] at hfree
        · exact hexchanged thread (by rwa [Function.update_of_ne heq])
      exact ⟨hempty, fun worker coroutine hpushing =>
        hnone worker coroutine (hplace worker coroutine notify hpushing)⟩
  | capture caller other haction hcalled hafter =>
      subst hafter haction
      have hothers : ∀ thread, thread ≠ caller → state.notifying thread ≠ .exchanging notify := by
        intro thread hne
        exact fun hbefore => hexchanged thread (exchanging_exchange.mpr ⟨hne, hbefore⟩)
      by_cases heq : notify = other
      · subst heq
        exact ⟨Function.update_self .., hguard notify hcalled hothers⟩
      · have hstack : (state.exchange caller other).awaiters notify = state.awaiters notify :=
          Function.update_of_ne heq ..
        rw [hstack]
        refine h notify hfired fun thread hexchanging => ?_
        by_cases hsame : thread = caller
        · rw [hsame, hcalled] at hexchanging
          cases hexchanging
          exact heq rfl
        · exact hothers thread hsame hexchanging

/-- The last exchange of a head while a worker is about to push leaves its coroutine behind. -/
theorem waiter_left_of_exchanged (hfirst : FiredFirst state)
    (hguard : ¬ ExchangesApart state action)
    (hnext : next promise state action = some following) : ¬ NoWaiterLeft following := by
  intro hnone
  cases action with
  | exchange thread =>
      simp only [ExchangesApart, not_forall, not_not] at hguard
      obtain ⟨notify, hexchanging, hothers, worker, coroutine, hpushing⟩ := hguard
      simp only [next, hexchanging, Option.some.injEq] at hnext
      subst hnext
      refine (hnone notify (hfirst thread notify hexchanging) fun other hother => ?_).2 worker
        coroutine hpushing
      obtain ⟨hne, hbefore⟩ := exchanging_exchange.mp hother
      exact hothers other hne hbefore
  | _ => exact hguard trivial

/-- In a run of any number of workers, threads, and coroutines nobody is ever left on the stack of
a `Notify` that has fired and whose head has been exchanged, or about to be, exactly when no last
exchange of a head is made while a worker is between `await_ready` and the push. -/
theorem no_waiter_left_iff (promise : C → Promise N) {schedule : List (Action W O C F N)}
    {state : State W O C F N} (h : (machine W O F promise).run schedule = some state) :
    (machine W O F promise).Guarded ExchangesApart schedule ↔
      (machine W O F promise).Always NoWaiterLeft schedule := by
  refine Machine.guarded_iff_always (I := fun state => FiredFirst state ∧ NoWaiterLeft state)
    ⟨?_, ?_⟩ ?_ (fun _ hboth => hboth.2) ?_ h
  · intro thread notify hexchanging
    cases hexchanging
  · intro notify hfired
    cases hfired
  · exact fun state action following hboth hguard hnext =>
      ⟨hboth.1.step hnext, hboth.2.step hguard hnext⟩
  · exact fun state action following hboth hguard hnext =>
      waiter_left_of_exchanged hboth.1 hguard hnext

/-! ## One worker -/

/-- Only workers are in front of an exchange, and a worker that is, is inside a coroutine and not
about to push. -/
structure Inside (state : State W O C F N) : Prop where
  workers : ∀ thread notify, state.notifying (.outside thread) ≠ .exchanging notify
  places : ∀ worker notify, state.notifying (.worker worker) = .exchanging notify →
    ∀ coroutine other, state.place worker ≠ .pushing coroutine other

/-- Every step but a `notify_all` from outside keeps it so. -/
theorem Inside.step (h : Inside state) (hinside : ¬ action.notifiesOutside)
    (hnext : next promise state action = some following) : Inside following := by
  cases next_waits hnext with
  | still hevent hsame hnotifying hplace =>
      refine ⟨by rw [hnotifying]; exact h.workers, fun worker notify hexchanging coroutine other
        hpushing => ?_⟩
      exact h.places worker notify (hnotifying ▸ hexchanging) coroutine other
        (hplace worker coroutine other hpushing)
  | wake caller other coroutine rest haction hwalking hsame hnotifying =>
      refine ⟨fun thread notify hexchanging => ?_, fun worker notify hexchanging => ?_⟩
      · rw [hnotifying, exchanging_wake hwalking] at hexchanging
        exact h.workers thread notify hexchanging
      · rw [hnotifying, exchanging_wake hwalking] at hexchanging
        rw [hsame.2.2]
        exact h.places worker notify hexchanging
  | enter entering coroutine fresh hevent hunfired hfree hsame hnotifying hplace =>
      refine ⟨by rw [hnotifying]; exact h.workers, fun worker notify hexchanging found other
        hpushing => ?_⟩
      rw [hnotifying] at hexchanging
      rw [hplace, Function.update_apply, ite_eq_iff] at hpushing
      rcases hpushing with ⟨rfl, _⟩ | ⟨_, hbefore⟩
      · simp [hexchanging, Notifying.free] at hfree
      · exact h.places worker notify hexchanging found other hbefore
  | push pushing coroutine stack haction hpushing hfired hawaiters hnotifying hplace =>
      refine ⟨by rw [hnotifying]; exact h.workers, fun worker notify hexchanging found other
        hfound => ?_⟩
      rw [hnotifying] at hexchanging
      rw [hplace] at hfound
      exact h.places worker notify hexchanging found other (pushing_of_move (by simp) hfound).2
  | fire caller fired hevent hfree hcaller hfired hawaiters hnotifying hplace =>
      have hcases : ∀ thread notify, following.notifying thread = .exchanging notify →
          thread = caller ∨ state.notifying thread = .exchanging notify := by
        intro thread notify hexchanging
        rw [hnotifying, Function.update_apply, ite_eq_iff] at hexchanging
        exact hexchanging.imp And.left And.right
      refine ⟨fun thread notify hexchanging => ?_, fun worker notify hexchanging coroutine other
        hpushing => ?_⟩
      · rcases hcases _ notify hexchanging with rfl | hbefore
        · exact hinside hcaller
        · exact h.workers thread notify hbefore
      · rcases hcases _ notify hexchanging with rfl | hbefore
        · exact hcaller coroutine other hpushing
        · exact h.places worker notify hbefore coroutine other
            (hplace worker coroutine other hpushing)
  | capture caller fired haction hcalled hafter =>
      subst hafter
      exact ⟨fun thread notify hexchanging =>
          h.workers thread notify (exchanging_exchange.mp hexchanging).2,
        fun worker notify hexchanging =>
          h.places worker notify (exchanging_exchange.mp hexchanging).2⟩

omit [DecidableEq W] [DecidableEq O] [DecidableEq C] [DecidableEq F] [DecidableEq N] in
/-- A single worker that exchanges a head is not about to push. -/
theorem Inside.exchanges_apart [Subsingleton W] (h : Inside state) (action : Action W O C F N) :
    ExchangesApart state action := by
  cases action with
  | exchange thread =>
      intro notify hexchanging _ worker coroutine
      cases thread with
      | outside thread => exact absurd hexchanging (h.workers thread notify)
      | worker other =>
          rw [Subsingleton.elim worker other]
          exact h.places other notify hexchanging coroutine notify
  | _ => exact trivial

/-- On an executor with one worker, whatever the coroutines do, nobody is ever left on the stack of
a `Notify` that has fired and whose head has been exchanged, as long as only coroutines notify. -/
theorem one_worker_leaves_no_waiter [Subsingleton W] (promise : C → Promise N)
    {schedule : List (Action W O C F N)}
    (hinside : ∀ action ∈ schedule, ¬ action.notifiesOutside) :
    (machine W O F promise).Always NoWaiterLeft schedule := by
  intro earlier middle hshorter hrun
  refine (Machine.run_induction
    (P := fun taken state => (∀ action ∈ taken, ¬ action.notifiesOutside) →
      Inside state ∧ NoWaiterLeft state) ?_ ?_ hrun
    fun action hmem => hinside action (hshorter.subset hmem)).2
  · refine fun _ => ⟨⟨?_, ?_⟩, ?_⟩
    · intro thread notify hexchanging
      cases hexchanging
    · intro worker notify hexchanging
      cases hexchanging
    · intro notify hfired
      cases hfired
  · intro taken state action following _ ih hnext hall
    have hbefore := ih fun other hmem => hall other (List.mem_append_left _ hmem)
    have hlast := hall action (List.mem_append_right _ List.mem_cons_self)
    exact ⟨hbefore.1.step hlast hnext, hbefore.2.step (hbefore.1.exchanges_apart action) hnext⟩

/-! ## The stacks -/

omit [DecidableEq C] [DecidableEq F] in
/-- A thread that moves on in `notify_all` has something else left. -/
theorem taken_update {thread : Thread W O} {place : Notifying C N}
    (hnotifying : following.notifying = Function.update state.notifying thread place)
    (notify : N) : (following.stackOf notify).taken =
      Function.update (state.stackOf notify).taken thread (place.left notify) := by
  funext other
  show (following.notifying other).left notify = _
  rw [hnotifying]
  by_cases heq : other = thread
  · rw [heq, Function.update_self, Function.update_self]
  · rw [Function.update_of_ne heq, Function.update_of_ne heq]
    rfl

omit [DecidableEq C] [DecidableEq F] in
/-- One that has nothing left of the `Notify`, and will have nothing, leaves its stack alone. -/
theorem stack_of_update {thread : Thread W O} {place : Notifying C N} {notify : N}
    (hnotifying : following.notifying = Function.update state.notifying thread place)
    (hbefore : (state.notifying thread).left notify = []) (hafter : place.left notify = [])
    (hawaiters : following.awaiters notify = state.awaiters notify) :
    following.stackOf notify = state.stackOf notify := by
  have htaken : (following.stackOf notify).taken = (state.stackOf notify).taken := by
    rw [taken_update hnotifying, hafter, ← hbefore]
    exact Function.update_eq_self ..
  exact congrArg₂ AwaiterStack.Stack.mk hawaiters htaken

/-- Every step is one on the stack of the `Notify`, or leaves it alone. -/
theorem stack_step (notify : N) (hnext : next promise state action = some following) :
    (AwaiterStack.atomic C (Thread W O)).runFrom (state.stackOf notify)
      (onNotify notify state action).toList = some (following.stackOf notify) := by
  have hnothing : onNotify notify state action = none →
      following.stackOf notify = state.stackOf notify →
      (AwaiterStack.atomic C (Thread W O)).runFrom (state.stackOf notify)
        (onNotify notify state action).toList = some (following.stackOf notify) := by
    intro hevent hstack
    rw [hevent, hstack]
    rfl
  cases next_waits hnext with
  | still hevent hsame hnotifying =>
      refine hnothing (hevent notify) ?_
      simp only [State.stackOf, hsame.2, hnotifying]
  | enter worker coroutine other hevent hunfired hfree hsame hnotifying =>
      refine hnothing (hevent notify) ?_
      simp only [State.stackOf, hsame.2, hnotifying]
  | push worker coroutine other haction hpushing hfired hawaiters hnotifying =>
      subst haction
      by_cases heq : other = notify
      · subst heq
        simp only [onNotify, hpushing, if_true, Option.toList_some, Machine.run_from_cons]
        simp [AwaiterStack.atomic, AwaiterStack.step, State.stackOf, hawaiters, hnotifying]
      · refine hnothing (by simp only [onNotify, hpushing, if_neg heq]) ?_
        simp only [State.stackOf, hawaiters, hnotifying, Function.update_of_ne (Ne.symm heq)]
  | fire thread other hevent hfree hcaller hfired hawaiters hnotifying =>
      refine hnothing (hevent notify) (stack_of_update hnotifying ?_ rfl (by rw [hawaiters]))
      cases hplace : state.notifying thread with
      | idle => rfl
      | exchanging notify => rfl
      | walking from' rest =>
          cases rest with
          | nil => simp [Notifying.left]
          | cons coroutine rest => simp [hplace, Notifying.free] at hfree
  | capture thread other haction hexchanging hafter =>
      subst haction hafter
      by_cases heq : other = notify
      · subst heq
        have hevent : onNotify other state (.exchange thread) = some (.take thread) := by
          simp only [onNotify, hexchanging, if_true]
        have hstack : ((state.exchange thread other).stackOf other).stack = [] :=
          Function.update_self ..
        have htaken : ((state.exchange thread other).stackOf other).taken =
            Function.update (state.stackOf other).taken thread (state.stackOf other).stack := by
          rw [taken_update rfl other]
          exact congrArg _ (if_pos rfl)
        rw [hevent]
        exact congrArg some (congrArg₂ AwaiterStack.Stack.mk hstack.symm htaken.symm)
      · refine hnothing (by simp only [onNotify, hexchanging, if_neg heq]) ?_
        refine stack_of_update rfl (by rw [hexchanging]; rfl) (if_neg heq) ?_
        exact Function.update_of_ne (Ne.symm heq) ..
  | wake thread other coroutine rest haction hwalking hsame hnotifying =>
      subst haction
      by_cases heq : other = notify
      · subst heq
        have hevent : onNotify other state (.wake thread) = some (.wake thread coroutine) := by
          simp only [onNotify, hwalking, if_true]
        have hleft : (state.stackOf other).taken thread = coroutine :: rest := by
          show (state.notifying thread).left other = _
          rw [hwalking]
          exact if_pos rfl
        have htaken : (following.stackOf other).taken =
            Function.update (state.stackOf other).taken thread rest := by
          rw [taken_update hnotifying]
          exact congrArg _ (if_pos rfl)
        have hwake : AwaiterStack.step (state.stackOf other) (.wake thread coroutine) =
            some (following.stackOf other) := by
          simp only [AwaiterStack.step, hleft, if_true, ← htaken]
          exact congrArg some (congrArg₂ AwaiterStack.Stack.mk
            (congrFun hsame.2.1 other).symm rfl)
        rw [hevent]
        exact Machine.run_from_step _ hwake rfl
      · refine hnothing (by simp only [onNotify, hwalking, if_neg heq]) ?_
        refine stack_of_update hnotifying (by rw [hwalking]; exact if_neg heq) (if_neg heq) ?_
        rw [hsame.2.1]

/-- In every run of the system each `Notify` is an atomic stack: its pushes, exchanges, and turns of
the loop, in their order, are a run of the stack that the code's `Notify` refines. -/
theorem notify_is_atomic_stack (promise : C → Promise N) (notify : N)
    {schedule : List (Action W O C F N)} {state : State W O C F N}
    (h : (machine W O F promise).run schedule = some state) :
    (AwaiterStack.atomic C (Thread W O)).run
      ((machine W O F promise).observed (onNotify notify) schedule) =
        some (state.stackOf notify) := by
  obtain ⟨stack, hrun, rfl⟩ := Machine.refines
    (R := fun state stack => stack = state.stackOf notify) rfl
    (fun state stack action following hstack hnext =>
      ⟨following.stackOf notify, hstack ▸ stack_step notify hnext, rfl⟩) h
  exact hrun

end Steps

/-- Two coroutines. The continuations of each are a `Notify` of their own; `none` is one more. -/
def pair (coroutine : Bool) : Promise (Option Bool) where
  corrId := 0
  continuations := some coroutine

/-- One coroutine has found the `Notify` unfired when the other, on a second worker, stores the flag
and exchanges the head. -/
def exchangesBetween : List (Action Bool Unit Bool Unit (Option Bool)) :=
  [.spawn (.outside ()) false, .spawn (.outside ()) true, .pop false, .pop true,
    .awaitNotify false none, .notifyAll (.worker true) none, .exchange (.worker true)]

/-- The run goes against the condition: the first coroutine is about to be left behind. -/
theorem no_waiter_left_exchanges_between :
    ((machine Bool Unit Unit pair).run exchangesBetween).isSome ∧
      ¬ (machine Bool Unit Unit pair).Guarded ExchangesApart exchangesBetween := by
  refine ⟨rfl, fun hguarded => ?_⟩
  have halways := (no_waiter_left_iff pair (h := rfl)).mp hguarded
  refine (halways exchangesBetween _ (List.prefix_refl _) rfl none rfl ?_).2 false false rfl
  intro thread
  cases thread with
  | worker worker => cases worker <;> decide
  | outside thread =>
      cases thread
      decide

/-- A push between the store of the flag and the exchange is in time: the coroutine is woken. -/
example : ((machine Bool Unit Unit pair).run (exchangesBetween.take 6 ++
    [.pushAwaiter false, .exchange (.worker true), .wake (.worker true)])).map State.queue =
      some [false] :=
  rfl

/-- One coroutine waits and the other notifies, on a single worker. -/
def notifiedOnOneWorker : List (Action Unit Unit Bool Unit (Option Bool)) :=
  [.spawn (.outside ()) false, .spawn (.outside ()) true, .pop (), .awaitNotify () none,
    .pushAwaiter (), .leave (), .pop (), .notifyAll (.worker ()) none, .exchange (.worker ()),
    .wake (.worker ()), .coReturn (), .exchange (.worker ()), .finalSuspend (), .leave (), .pop (),
    .coReturn (), .exchange (.worker ()), .finalSuspend ()]

/-- Nobody is left behind. -/
theorem one_worker_leaves_no_waiter_notified :
    ((machine Unit Unit Unit pair).run notifiedOnOneWorker).isSome ∧
      (machine Unit Unit Unit pair).Always NoWaiterLeft notifiedOnOneWorker := by
  refine ⟨rfl, one_worker_leaves_no_waiter pair ?_⟩
  intro action hmem hnotifies
  simp only [notifiedOnOneWorker, List.mem_cons, List.not_mem_nil, or_false] at hmem
  rcases hmem with rfl | rfl | rfl | rfl | rfl | rfl | rfl | rfl | rfl | rfl | rfl | rfl | rfl |
    rfl | rfl | rfl | rfl | rfl <;> exact hnotifies

end Correlation

end Toad
