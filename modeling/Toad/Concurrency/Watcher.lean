import Toad.Concurrency.Notify

/-!
# The watcher and its child

`JoinSet::spawn` of `concurrency/join.hpp` wraps each task in a watcher coroutine. The watcher
takes a reference to the `Notify` inside the child's promise, gives the child away to the
executor, and then awaits that `Notify`. The worker that runs the child calls `notify_all` from
`final_suspend` and destroys the finished frame, and the `Notify` with it, when `resume`
returns. Nothing makes the worker wait for the watcher: the frame is safe as long as the child
comes to its end after the watcher has pushed its awaiter, and a child that comes to its end
before may be destroyed under the watcher's hands.
-/

namespace Toad

namespace Watcher

open Execution

/-- Where the watcher stands. Past the spawn it is in `co_await`, and the place of its awaiter
says how far. -/
inductive Watching where
  | takingReference
  | spawning
  | awaiting
  deriving DecidableEq, Repr

/-- Where the child stands: not spawned, queued, resumed by a worker, inside the `notify_all` of
`final_suspend`, returned to the worker, or destroyed. -/
inductive Child where
  | owned
  | queued
  | running
  | notifying
  | returned
  | destroyed
  deriving DecidableEq, Repr

/-- The watcher, the child, and the child's `Notify` with the watcher's awaiter and the child's
`notify_all` call. `staleAccess` records an access to the `Notify` after the destruction. -/
structure State where
  watching : Watching := .takingReference
  child : Child := .owned
  notify : Notify.State Unit Unit := {}
  staleAccess : Bool := false

/-- The steps of the watcher and of the worker that runs the child. -/
inductive Action where
  | takeReference
  | spawnChild
  | watch (step : Notify.Action Unit Unit)
  | resume
  | finalSuspend
  | notifyAll (step : Notify.Action Unit Unit)
  | suspendFinally
  | destroy
  deriving DecidableEq, Repr

/-- One step of the watcher or of the worker. -/
def next (state : State) : Action → Option State
  | .takeReference =>
      if state.watching = .takingReference then some { state with watching := .spawning }
      else none
  | .spawnChild =>
      if state.watching = .spawning then
        some { state with watching := .awaiting, child := .queued }
      else none
  | .watch step =>
      if state.watching = .awaiting ∧ step.call = none then
        (Notify.next state.notify step).map fun following =>
          { state with
            notify := following
            staleAccess := state.staleAccess ||
              (step.touchesNotify && decide (state.child = .destroyed)) }
      else none
  | .resume =>
      if state.child = .queued then some { state with child := .running } else none
  | .finalSuspend =>
      if state.child = .running then some { state with child := .notifying } else none
  | .notifyAll step =>
      if state.child = .notifying ∧ step.call = some () then
        (Notify.next state.notify step).map fun following => { state with notify := following }
      else none
  | .suspendFinally =>
      if state.child = .notifying ∧ state.notify.notifier () = .walking none then
        some { state with child := .returned }
      else none
  | .destroy =>
      if state.child = .returned then some { state with child := .destroyed } else none

/-- A watcher and the worker that runs its child. -/
def machine : Machine State Action where
  init := {}
  next := next

/-- The watcher has not touched the `Notify` of a destroyed frame. -/
def Safe (state : State) : Prop :=
  state.staleAccess = false

/-- The watcher has pushed its awaiter. -/
def Pushed (state : State) : Prop :=
  state.watching = .awaiting ∧ state.notify.awaiter () = .suspended

instance (state : State) : Decidable (Pushed state) :=
  inferInstanceAs (Decidable (_ ∧ _))

/-- The child comes to its `final_suspend` only after the watcher has pushed its awaiter. -/
def EndsLater (state : State) (action : Action) : Prop :=
  action = .finalSuspend → Pushed state

instance (state : State) (action : Action) : Decidable (EndsLater state action) :=
  inferInstanceAs (Decidable (_ → _))

/-- The child has not come to its `final_suspend`. -/
def Child.unfinished : Child → Bool
  | .owned | .queued | .running => true
  | .notifying | .returned | .destroyed => false

/-- The invariant of a run in which the child ends later. -/
structure Inv (state : State) : Prop where
  spawned : state.child ≠ .owned → state.watching = .awaiting
  silent : state.child.unfinished = true → Notify.Silent state.notify
  pushed : state.child.unfinished = false → Pushed state
  stacked : Notify.Stacked state.notify
  safe : Safe state

section Steps

variable {state following : State} {action : Action}

theorem Inv.init : Inv machine.init where
  spawned := by simp [machine]
  silent := fun _ => ⟨rfl, by simp [machine], fun _ => rfl, fun _ => rfl⟩
  pushed := by simp [machine, Child.unfinished]
  stacked := ⟨by simp [machine], fun _ => ⟨rfl, by simp [machine], rfl⟩⟩
  safe := rfl

/-- An awaiter that has been pushed takes no further step. -/
theorem suspended_stays {notify after : Notify.State Unit Unit} {step : Notify.Action Unit Unit}
    (hsuspended : notify.awaiter () = .suspended) (hnext : Notify.next notify step = some after) :
    step.call ≠ none ∧ after.awaiter () = .suspended := by
  cases Notify.next_step hnext with
  | pass awaiter hplace | enter awaiter hplace | load awaiter hplace =>
      exact absurd (hplace.symm.trans hsuspended) (by simp)
  | link awaiter old hplace => exact absurd (hplace.symm.trans hsuspended) (by simp)
  | push awaiter hplace => exact absurd (hplace.symm.trans hsuspended) (by simp)
  | retry awaiter spurious old hplace => exact absurd (hplace.symm.trans hsuspended) (by simp)
  | fire | capture | spawn => exact ⟨by simp [Notify.Action.call], hsuspended⟩

/-- The child moves on: before its `final_suspend`, into it, or after it. -/
theorem Inv.move_child (h : Inv state) {child : Child} (hplace : state.watching = .awaiting)
    (hsilent : child.unfinished = true → state.child.unfinished = true)
    (hpushed : child.unfinished = false → Pushed state) :
    Inv { state with child := child } where
  spawned := fun _ => hplace
  silent := fun hunfinished => h.silent (hsilent hunfinished)
  pushed := hpushed
  stacked := h.stacked
  safe := h.safe

/-- A step of a run in which the child ends later keeps the invariant. -/
theorem Inv.step (h : Inv state) (hguard : EndsLater state action)
    (hnext : next state action = some following) : Inv following := by
  cases action with
  | takeReference =>
      simp only [next, Option.ite_none_right_eq_some, Option.some.injEq] at hnext
      obtain ⟨hplace, rfl⟩ := hnext
      have howned : state.child = .owned := by
        by_contra hchild
        exact absurd (hplace.symm.trans (h.spawned hchild)) (by simp)
      exact ⟨fun hchild => absurd howned hchild, h.silent, by simp [howned, Child.unfinished],
        h.stacked, h.safe⟩
  | spawnChild =>
      simp only [next, Option.ite_none_right_eq_some, Option.some.injEq] at hnext
      obtain ⟨hplace, rfl⟩ := hnext
      have hunfinished : state.child.unfinished = true := by
        by_contra hfinished
        exact absurd (hplace.symm.trans (h.pushed (by simpa using hfinished)).1) (by simp)
      exact ⟨fun _ => rfl, fun _ => h.silent hunfinished, by simp [Child.unfinished], h.stacked,
        h.safe⟩
  | watch step =>
      simp only [next, Option.ite_none_right_eq_some, Option.map_eq_some_iff] at hnext
      obtain ⟨⟨hplace, hcall⟩, after, hafter, rfl⟩ := hnext
      -- the watcher moves, so it has not pushed yet, and the child is not near its end
      have hunfinished : state.child.unfinished = true := by
        by_contra hfinished
        have hpushed := h.pushed (by simpa using hfinished)
        exact (suspended_stays hpushed.2 hafter).1 hcall
      have halive : state.child ≠ .destroyed := by
        intro hchild
        rw [hchild] at hunfinished
        cases hunfinished
      have hsafe : state.staleAccess = false := h.safe
      exact ⟨fun _ => hplace, fun _ => (h.silent hunfinished).step hcall hafter,
        fun hfinished => by simp [hunfinished] at hfinished, h.stacked.step hafter,
        by simp [Safe, hsafe, halive]⟩
  | resume =>
      simp only [next, Option.ite_none_right_eq_some, Option.some.injEq] at hnext
      obtain ⟨hplace, rfl⟩ := hnext
      exact h.move_child (h.spawned (by simp [hplace]))
        (fun _ => by simp [hplace, Child.unfinished]) (by simp [Child.unfinished])
  | finalSuspend =>
      simp only [next, Option.ite_none_right_eq_some, Option.some.injEq] at hnext
      obtain ⟨hplace, rfl⟩ := hnext
      exact h.move_child (h.spawned (by simp [hplace])) (by simp [Child.unfinished])
        (fun _ => hguard rfl)
  | notifyAll step =>
      simp only [next, Option.ite_none_right_eq_some, Option.map_eq_some_iff] at hnext
      obtain ⟨⟨hplace, _⟩, after, hafter, rfl⟩ := hnext
      have hpushed := h.pushed (by simp [hplace, Child.unfinished])
      exact ⟨h.spawned, by simp [hplace, Child.unfinished],
        fun _ => ⟨hpushed.1, (suspended_stays hpushed.2 hafter).2⟩, h.stacked.step hafter, h.safe⟩
  | suspendFinally =>
      simp only [next, Option.ite_none_right_eq_some, Option.some.injEq] at hnext
      obtain ⟨⟨hplace, _⟩, rfl⟩ := hnext
      exact h.move_child (h.spawned (by simp [hplace])) (by simp [Child.unfinished])
        (fun _ => h.pushed (by simp [hplace, Child.unfinished]))
  | destroy =>
      simp only [next, Option.ite_none_right_eq_some, Option.some.injEq] at hnext
      obtain ⟨hplace, rfl⟩ := hnext
      exact h.move_child (h.spawned (by simp [hplace])) (by simp [Child.unfinished])
        (fun _ => h.pushed (by simp [hplace, Child.unfinished]))

/-- The child's `Notify` after a `notify_all` that finds no awaiter. -/
def emptied (notify : Notify.State Unit Unit) : Notify.State Unit Unit :=
  { notify with notify := notify.notify.storeFired.exchanged }.moveNotifier () (.walking none)

/-- The end of a child that finds no awaiter, from `final_suspend` to its destruction. -/
def childEnds : List Action :=
  [.notifyAll (.storeFired ()), .notifyAll (.exchange ()), .suspendFinally, .destroy]

/-- A child that finds no awaiter notifies nobody, returns, and is destroyed. -/
theorem destroyed_soon (hchild : state.child = .notifying)
    (hidle : state.notify.notifier () = .idle) (hempty : state.notify.notify.head = none) :
    machine.runFrom state childEnds =
      some { state with child := .destroyed, notify := emptied state.notify } := by
  have hfire : next state (.notifyAll (.storeFired ())) = some { state with
      notify := { state.notify with
        notify := state.notify.notify.storeFired }.moveNotifier () .exchanging } := by
    simp [next, hchild, Notify.Action.call, Notify.next, hidle]
  have hcapture : next { state with
      notify := { state.notify with
        notify := state.notify.notify.storeFired }.moveNotifier () .exchanging }
      (.notifyAll (.exchange ())) = some { state with notify := emptied state.notify } := by
    simp [next, hchild, Notify.Action.call, Notify.next, emptied, Notify.State.moveNotifier,
      Notify.storeFired, hempty]
  have hreturn : next { state with notify := emptied state.notify } .suspendFinally =
      some { state with child := .returned, notify := emptied state.notify } := by
    simp [next, hchild, emptied]
  exact machine.run_from_step hfire (machine.run_from_step hcapture
    (machine.run_from_step hreturn (machine.run_from_step rfl rfl)))

/-- An access to a destroyed frame is recorded. -/
theorem access_unsafe {step : Notify.Action Unit Unit} (hchild : state.child = .destroyed)
    (hplace : state.watching = .awaiting) (hcall : step.call = none)
    (htouches : step.touchesNotify = true) (hstep : (Notify.next state.notify step).isSome) :
    machine.LeadsTo (fun finish => ¬ Safe finish) state := by
  obtain ⟨after, hafter⟩ := Option.isSome_iff_exists.mp hstep
  have hnext : machine.next state (.watch step) = some { state with
      notify := after
      staleAccess := state.staleAccess ||
        (step.touchesNotify && decide (state.child = .destroyed)) } := by
    simp only [machine, next, hplace, hcall, hafter, and_self, if_true, Option.map_some]
  have hunsafe : ¬ Safe { state with
      notify := after
      staleAccess := state.staleAccess ||
        (step.touchesNotify && decide (state.child = .destroyed)) } := by
    simp [Safe, htouches, hchild]
  exact (Machine.LeadsTo.here (S := fun finish => ¬ Safe finish) hunsafe).step hnext

/-- So is a compare-exchange. -/
theorem swapping_unsafe {old : Option Unit} (hchild : state.child = .destroyed)
    (hplace : state.watching = .awaiting) (hawaiter : state.notify.awaiter () = .swapping old) :
    machine.LeadsTo (fun finish => ¬ Safe finish) state := by
  have hexchange : (Notify.next state.notify (.compareExchange () true)).isSome := by
    simp [Notify.next, hawaiter]
  exact access_unsafe hchild hplace rfl rfl hexchange

/-- The watcher has stored `next`. -/
def State.linked (state : State) (old : Option Unit) : State :=
  { state with notify := { state.notify with
      notify := state.notify.notify.setNext () old }.moveAwaiter () (.swapping old) }

/-- A watcher that has not got through `co_await` goes on in a frame that has been destroyed. -/
theorem accesses_destroyed (hchild : state.child = .destroyed)
    (hplace : state.watching = .awaiting) (hpassed : state.notify.awaiter () ≠ .passed)
    (hsuspended : state.notify.awaiter () ≠ .suspended) :
    machine.LeadsTo (fun finish => ¬ Safe finish) state := by
  cases hawaiter : state.notify.awaiter () with
  | start =>
      have hready : (Notify.next state.notify (.awaitReady ())).isSome := by
        simp only [Notify.next, hawaiter]
        split <;> rfl
      exact access_unsafe hchild hplace rfl rfl hready
  | loading =>
      have hload : (Notify.next state.notify (.loadHead ())).isSome := by
        simp [Notify.next, hawaiter]
      exact access_unsafe hchild hplace rfl rfl hload
  | linking old =>
      -- the store of `next` is in the watcher's own frame, and the compare-exchange comes after it
      have hlink : machine.next state (.watch (.setNext ())) = some (state.linked old) := by
        simp [machine, next, hplace, Notify.Action.call, Notify.next, hawaiter, State.linked,
          Notify.Action.touchesNotify]
      have hdestroyed : (state.linked old).child = .destroyed := hchild
      have hswapping : (state.linked old).notify.awaiter () = .swapping old := by
        simp [State.linked, Notify.State.moveAwaiter]
      have hunsafe := swapping_unsafe hdestroyed hplace hswapping
      exact hunsafe.step hlink
  | swapping old => exact swapping_unsafe hchild hplace hawaiter
  | passed => exact absurd hawaiter hpassed
  | suspended => exact absurd hawaiter hsuspended

/-- A child that comes to its end too early can be destroyed before the watcher's next access. -/
theorem Inv.ends_early_unsafe (h : Inv state) (hguard : ¬ EndsLater state action)
    (hnext : next state action = some following) :
    machine.LeadsTo (fun finish => ¬ Safe finish) following := by
  obtain ⟨rfl, hunpushed⟩ : action = .finalSuspend ∧ ¬ Pushed state := by
    simpa [EndsLater] using hguard
  simp only [next, Option.ite_none_right_eq_some, Option.some.injEq] at hnext
  obtain ⟨hplace, rfl⟩ := hnext
  have hawaiting := h.spawned (by simp [hplace])
  have hsilent := h.silent (by simp [hplace, Child.unfinished])
  have hsuspended : state.notify.awaiter () ≠ .suspended :=
    fun hsuspended => hunpushed ⟨hawaiting, hsuspended⟩
  have hchild : { state with child := .notifying }.child = Child.notifying := rfl
  have hdestroyed := destroyed_soon hchild (hsilent.idle ()) (h.stacked.fresh hsuspended).1
  have haccesses : machine.LeadsTo (fun finish => ¬ Safe finish)
      { state with child := .destroyed, notify := emptied state.notify } :=
    accesses_destroyed rfl hawaiting (hsilent.not_passed ()) hsuspended
  exact haccesses.after hdestroyed

end Steps

/-- Over every interleaving of the watcher with the worker in which the child comes to its
`final_suspend` after the watcher has pushed its awaiter, every access of the watcher finds the
frame alive. The condition cannot be dropped anywhere: a child that comes to its end before can be
destroyed before the watcher's next access. -/
theorem watcher_safe {schedule : List Action} {state : State}
    (hrun : machine.run schedule = some state) (hguard : machine.Guarded EndsLater schedule) :
    machine.Always Safe schedule ∧
      ∀ action following, next state action = some following → ¬ EndsLater state action →
        ∃ more finish, machine.runFrom following more = some finish ∧ ¬ Safe finish :=
  Machine.guarded_always_needed Inv.init (fun _ _ _ => Inv.step) (fun _ => Inv.safe)
    (fun _ _ _ => Inv.ends_early_unsafe) hrun hguard

/-- A watcher that suspends before its child finishes. -/
def watcherFirst : List Action :=
  [.takeReference, .spawnChild, .resume, .watch (.awaitReady ()), .watch (.loadHead ()),
    .watch (.setNext ()), .watch (.compareExchange () false), .finalSuspend,
    .notifyAll (.storeFired ()), .notifyAll (.exchange ()), .notifyAll (.spawnNext ()),
    .suspendFinally, .destroy]

/-- The frame is destroyed at the end of the run, and no access came after. -/
theorem watcher_first_safe :
    (machine.run watcherFirst).map (fun state => (state.child, state.staleAccess)) =
      some (.destroyed, false) ∧ machine.Always Safe watcherFirst :=
  ⟨rfl, (watcher_safe rfl (by decide)).1⟩

/-- A child that runs to its end right after it is spawned. -/
def quickChild : List Action :=
  [.takeReference, .spawnChild, .resume, .finalSuspend] ++ childEnds ++ [.watch (.awaitReady ())]

/-- The frame is destroyed before the watcher evaluates `await_ready`. -/
theorem quick_child_destroyed_first :
    (machine.run quickChild).map (fun state => (state.child, state.staleAccess)) =
      some (.destroyed, true) ∧ ¬ machine.Always Safe quickChild := by
  refine ⟨rfl, ?_⟩
  intro halways
  have hsafe := halways _ _ (List.prefix_refl _) rfl
  cases hsafe

end Watcher

end Toad
