import Toad.Concurrency.Future

/-!
# The lifetime of the value in a `FutureState`

The union member of `FutureState` in `concurrency/future.hpp` is constructed by `set_value` and
destroyed by `await_resume` and by `~FutureState`. The state lives as long as the `Future` or
the pointer that a running `set_value` has locked. `~FutureState` runs the destructor of the
value exactly when `is_ready` is false, that is, when there is none, and does not run it on a
value that nobody has taken. So the books balance only for a future that was taken.
-/

namespace Toad

namespace FutureValue

open Execution

variable {T : Type}

/-- Where the awaiting coroutine stands in `co_await future`. -/
inductive Awaiting where
  | start
  | suspending
  | suspended
  | resuming
  | returned
  deriving DecidableEq, Repr

/-- Where the producer stands: before `set_value`, holding the locked pointer before or after
the critical section, or done. -/
inductive Producer where
  | idle
  | holding
  | leaving
  | done
  deriving DecidableEq, Repr

/-- One future with its coroutine and its producer. `constructed` and `destroyed` count the
values, `rawDestroys` the runs of the destructor on raw storage; `released` says that
`~FutureState` has run. -/
structure State (T : Type) where
  future : FutureState T Unit := {}
  awaiting : Awaiting := .start
  producer : Producer := .idle
  futureAlive : Bool := true
  coroutineAlive : Bool := true
  spawned : Bool := false
  constructed : Nat := 0
  destroyed : Nat := 0
  rawDestroys : Nat := 0
  released : Bool := false

/-- `_value.~T()`. -/
def State.destroyValue (state : State T) : State T :=
  match state.future.value with
  | some _ =>
      { state with
        future := { state.future with value := none }
        destroyed := state.destroyed + 1 }
  | none => { state with rawDestroys := state.rawDestroys + 1 }

/-- `~FutureState`. -/
def State.destruct (state : State T) : State T :=
  if state.future.isReady then { state with released := true }
  else { state.destroyValue with released := true }

/-- The steps of a life cycle. -/
inductive Action (T : Type) where
  | awaitReady
  | awaitSuspend
  | resume
  | awaitResume
  | lock
  | setValue (value : T)
  | unlock
  | destroyFuture
  | destroyCoroutine
  deriving DecidableEq, Repr

/-- The coroutine can go on: neither it nor its `Future` is gone. -/
def State.canAwait (state : State T) : Bool :=
  state.coroutineAlive && state.futureAlive

/-- One step. The critical sections of `set_value` and `await_suspend` are one step each; the
coroutine is suspended whenever `set_value` gets as far as storing a value. -/
def next (state : State T) : Action T → Option (State T)
  | .awaitReady =>
      if state.awaiting = .start ∧ state.canAwait then
        some { state with
          awaiting := if state.future.awaitReady then .resuming else .suspending }
      else none
  | .awaitSuspend =>
      if state.awaiting = .suspending ∧ state.canAwait then
        match state.future.awaitSuspend () with
        | (future, true) => some { state with future := future, awaiting := .suspended }
        | (future, false) => some { state with future := future, awaiting := .resuming }
      else none
  | .resume =>
      if state.awaiting = .suspended ∧ state.spawned ∧ state.canAwait then
        some { state with awaiting := .resuming, spawned := false }
      else none
  | .awaitResume =>
      -- a failed assertion ends the process
      if state.awaiting = .resuming ∧ state.canAwait ∧ state.future.isReady then
        some { state.destroyValue with awaiting := .returned }
      else none
  | .lock =>
      if state.producer = .idle then
        some { state with producer := if state.released then .done else .holding }
      else none
  | .setValue value =>
      if state.producer = .holding then
        match FutureState.setValue (some state.future) value with
        | .expired | .neverAwaited => some { state with producer := .leaving }
        | .assertFailed => none
        | .stored future _ =>
            some { state with
              future := future
              producer := .leaving
              spawned := true
              constructed := state.constructed + 1 }
      else none
  | .unlock =>
      if state.producer = .leaving then
        if state.futureAlive then some { state with producer := .done }
        else some { state.destruct with producer := .done }
      else none
  | .destroyFuture =>
      if state.futureAlive then
        if state.producer = .holding ∨ state.producer = .leaving then
          some { state with futureAlive := false }
        else some { state.destruct with futureAlive := false }
      else none
  | .destroyCoroutine =>
      if state.coroutineAlive then some { state with coroutineAlive := false } else none

/-- Every life cycle of one future. -/
def machine (T : Type) : Machine (State T) (Action T) where
  init := {}
  next := next

/-- The destructor of the value never ran on raw storage, and once the `FutureState` is destroyed
every value constructed in it has been destroyed exactly once. -/
def Balanced (state : State T) : Prop :=
  state.rawDestroys = 0 ∧ state.destroyed ≤ state.constructed ∧
    (state.released = true → state.destroyed = state.constructed)

/-- The step gives up the last reference to the `FutureState`. -/
def Releases (state : State T) : Action T → Prop
  | .destroyFuture => state.producer ≠ .holding ∧ state.producer ≠ .leaving
  | .unlock => state.futureAlive = false
  | _ => False

instance (state : State T) (action : Action T) : Decidable (Releases state action) :=
  match action with
  | .destroyFuture => inferInstanceAs (Decidable (_ ∧ _))
  | .unlock => inferInstanceAs (Decidable (_ = _))
  | .awaitReady | .awaitSuspend | .resume | .awaitResume => isFalse id
  | .lock | .setValue _ | .destroyCoroutine => isFalse id

/-- The last reference is given up only after `await_resume` has taken the value. -/
def TakenFirst (state : State T) (action : Action T) : Prop :=
  Releases state action → state.awaiting = .returned

instance (state : State T) (action : Action T) : Decidable (TakenFirst state action) :=
  inferInstanceAs (Decidable (_ → _))

/-- The invariant of a life cycle whose value was taken before the release. -/
structure Inv (state : State T) : Prop where
  ready_of_value : state.future.value.isSome = true → state.future.isReady = true
  value_of_ready : state.future.isReady = true → state.awaiting ≠ .returned →
    state.future.value.isSome = true
  taken : state.awaiting = .returned →
    state.future.isReady = true ∧ state.future.value = none
  resuming : state.awaiting = .resuming → state.future.isReady = true
  count : state.constructed = state.destroyed + state.future.value.toList.length
  not_raw : state.rawDestroys = 0
  released : state.released = true → state.awaiting = .returned
  awaited : state.future.isReady = true → state.awaiting ≠ .start ∧ state.awaiting ≠ .suspending
  registered : state.future.continuation ≠ none → state.awaiting ≠ .start ∧
    state.awaiting ≠ .suspending
  spawned : state.spawned = true → state.future.isReady = true

section Steps

variable {state following : State T} {action : Action T}

/-- Destroying a value that is there leaves raw storage and counts it. -/
theorem destroy_value_some {value : T} (h : state.future.value = some value) :
    state.destroyValue = { state with
      future := { state.future with value := none }
      destroyed := state.destroyed + 1 } := by
  simp [State.destroyValue, h]

/-- The step of `~FutureState` on a future that was taken changes nothing else. -/
theorem destruct_taken (h : state.future.isReady = true) :
    state.destruct = { state with released := true } := by
  simp [State.destruct, h]

/-- A future that is not ready holds no value. -/
theorem value_none (hready : state.future.value.isSome = true → state.future.isReady = true)
    (hset : state.future.isReady = false) : state.future.value = none := by
  cases hvalue : state.future.value with
  | none => rfl
  | some value => exact absurd (hset.symm.trans (hready (by simp [hvalue]))) (by simp)

/-- Who holds references does not matter until the last one is given up. -/
theorem Inv.frame (h : Inv state) (hfuture : following.future = state.future)
    (hawaiting : following.awaiting = state.awaiting) (hspawned : following.spawned = state.spawned)
    (hconstructed : following.constructed = state.constructed)
    (hdestroyed : following.destroyed = state.destroyed)
    (hraw : following.rawDestroys = state.rawDestroys)
    (hreleased : following.released = true → state.awaiting = .returned) : Inv following := by
  obtain ⟨hready, hvalue, htaken, hresuming, hcount, hnone, _, hawaited, hregistered, hqueued⟩ := h
  refine ⟨?_, ?_, ?_, ?_, ?_, ?_, ?_, ?_, ?_, ?_⟩
  · rwa [hfuture]
  · rwa [hfuture, hawaiting]
  · rwa [hfuture, hawaiting]
  · rwa [hfuture, hawaiting]
  · rwa [hfuture, hconstructed, hdestroyed]
  · rwa [hraw]
  · rwa [hawaiting]
  · rwa [hfuture, hawaiting]
  · rwa [hfuture, hawaiting]
  · rwa [hfuture, hspawned]

/-- A step that releases only a taken future keeps the invariant. -/
theorem Inv.step (h : Inv state) (hguard : TakenFirst state action)
    (hnext : next state action = some following) : Inv following := by
  have hinv := h
  obtain ⟨hready, hvalue, htaken, hresuming, hcount, hraw, hreleased, hawaited, hregistered,
    hspawned⟩ := h
  cases action with
  | awaitReady =>
      simp only [next, Option.ite_none_right_eq_some, Option.some.injEq] at hnext
      obtain ⟨⟨hplace, _⟩, rfl⟩ := hnext
      have hnot : state.future.isReady = false := by grind
      refine ⟨hready, ?_, ?_, ?_, hcount, hraw, ?_, ?_, ?_, hspawned⟩
      all_goals simp [FutureState.awaitReady, hnot]
      all_goals grind
  | awaitSuspend =>
      simp only [next, Option.ite_none_right_eq_some] at hnext
      obtain ⟨⟨hplace, _⟩, hnext⟩ := hnext
      have hnot : state.future.isReady = false := by grind
      simp only [FutureState.awaitSuspend, hnot, Bool.false_eq_true, if_false,
        Option.some.injEq] at hnext
      subst hnext
      refine ⟨?_, ?_, ?_, ?_, hcount, hraw, ?_, ?_, ?_, ?_⟩
      all_goals grind
  | resume =>
      simp only [next, Option.ite_none_right_eq_some, Option.some.injEq] at hnext
      obtain ⟨⟨hplace, hqueued, _⟩, rfl⟩ := hnext
      refine ⟨hready, ?_, ?_, ?_, hcount, hraw, ?_, ?_, ?_, ?_⟩
      all_goals grind
  | awaitResume =>
      simp only [next, Option.ite_none_right_eq_some, Option.some.injEq] at hnext
      obtain ⟨⟨hplace, _, hset⟩, rfl⟩ := hnext
      obtain ⟨value, hstored⟩ := Option.isSome_iff_exists.mp (hvalue hset (by simp [hplace]))
      rw [destroy_value_some hstored]
      refine ⟨?_, ?_, ?_, ?_, ?_, hraw, ?_, ?_, ?_, ?_⟩
      all_goals grind
  | lock =>
      simp only [next, Option.ite_none_right_eq_some, Option.some.injEq] at hnext
      obtain ⟨_, rfl⟩ := hnext
      exact hinv.frame rfl rfl rfl rfl rfl rfl hreleased
  | setValue value =>
      simp only [next, Option.ite_none_right_eq_some] at hnext
      obtain ⟨_, hnext⟩ := hnext
      cases hhandle : state.future.continuation with
      | none =>
          simp only [FutureState.setValue, hhandle, Option.some.injEq] at hnext
          subst hnext
          exact hinv.frame rfl rfl rfl rfl rfl rfl hreleased
      | some handle =>
          -- somebody has suspended, and a future that is ready already would abort
          cases hset : state.future.isReady with
          | true => simp [FutureState.setValue, hhandle, hset] at hnext
          | false =>
              simp only [FutureState.setValue, hhandle, hset, Bool.false_eq_true, if_false,
                Option.some.injEq] at hnext
              subst hnext
              have hempty : state.future.value = none := value_none hready hset
              refine ⟨?_, ?_, ?_, ?_, ?_, hraw, hreleased, ?_, ?_, ?_⟩
              all_goals grind
  | unlock =>
      simp only [next, Option.ite_none_right_eq_some] at hnext
      obtain ⟨_, hnext⟩ := hnext
      split at hnext
      · cases hnext
        exact hinv.frame rfl rfl rfl rfl rfl rfl hreleased
      · rename_i hgone
        have hreturned := hguard (show Releases state .unlock by simpa [Releases] using hgone)
        rw [destruct_taken (htaken hreturned).1] at hnext
        cases hnext
        exact hinv.frame rfl rfl rfl rfl rfl rfl fun _ => hreturned
  | destroyFuture =>
      simp only [next, Option.ite_none_right_eq_some] at hnext
      obtain ⟨_, hnext⟩ := hnext
      split at hnext
      · cases hnext
        exact hinv.frame rfl rfl rfl rfl rfl rfl hreleased
      · rename_i hlast
        have hreturned := hguard (not_or.mp hlast)
        rw [destruct_taken (htaken hreturned).1] at hnext
        cases hnext
        exact hinv.frame rfl rfl rfl rfl rfl rfl fun _ => hreturned
  | destroyCoroutine =>
      simp only [next, Option.ite_none_right_eq_some, Option.some.injEq] at hnext
      obtain ⟨_, rfl⟩ := hnext
      exact hinv.frame rfl rfl rfl rfl rfl rfl hreleased

/-- Destroying the state of a future that was not taken breaks the books: either there is no value
and the destructor runs on raw storage, or there is one and it does not run. -/
theorem Inv.destruct_unbalanced (h : Inv state) (hplace : state.awaiting ≠ .returned) :
    ¬ (state.destruct.rawDestroys = 0 ∧ state.destruct.destroyed = state.destruct.constructed) := by
  cases hset : state.future.isReady with
  | false =>
      have hempty : state.future.value = none := value_none h.ready_of_value hset
      simp [State.destruct, State.destroyValue, hset, hempty]
  | true =>
      obtain ⟨value, hstored⟩ := Option.isSome_iff_exists.mp (h.value_of_ready hset hplace)
      have hcount := h.count
      rw [hstored] at hcount
      simp only [Option.toList_some, List.length_cons, List.length_nil] at hcount
      rw [destruct_taken hset]
      show ¬ (_ ∧ state.destroyed = state.constructed)
      omega

/-- Releasing a future that was not taken breaks the books. -/
theorem Inv.released_early (h : Inv state) (hguard : ¬ TakenFirst state action)
    (hnext : next state action = some following) : ¬ Balanced following := by
  obtain ⟨hreleases, hplace⟩ : Releases state action ∧ state.awaiting ≠ .returned := by
    simpa [TakenFirst] using hguard
  have hunbalanced := h.destruct_unbalanced hplace
  have hreleased : state.destruct.released = true := by
    simp only [State.destruct]
    split <;> rfl
  intro hbalanced
  cases action with
  | awaitReady | awaitSuspend | resume | awaitResume => exact hreleases
  | lock | setValue | destroyCoroutine => exact hreleases
  | unlock =>
      have hgone : state.futureAlive = false := hreleases
      simp only [next, hgone, Option.ite_none_right_eq_some, Bool.false_eq_true, if_false,
        Option.some.injEq] at hnext
      obtain ⟨_, rfl⟩ := hnext
      exact hunbalanced ⟨hbalanced.1, hbalanced.2.2 hreleased⟩
  | destroyFuture =>
      have hlast : ¬ (state.producer = .holding ∨ state.producer = .leaving) :=
        not_or.mpr hreleases
      simp only [next, if_neg hlast, Option.ite_none_right_eq_some, Option.some.injEq] at hnext
      obtain ⟨_, rfl⟩ := hnext
      exact hunbalanced ⟨hbalanced.1, hbalanced.2.2 hreleased⟩

/-- The invariant balances the books. -/
theorem Inv.balanced (h : Inv state) : Balanced state := by
  have hcount := h.count
  refine ⟨h.not_raw, by omega, ?_⟩
  intro hreleased
  rw [(h.taken (h.released hreleased)).2] at hcount
  simpa using hcount.symm

end Steps

/-- In every life cycle the value is constructed and destroyed in balance exactly if the last
reference to the `FutureState` is given up only after `await_resume` has taken the value. -/
theorem value_balanced_iff {schedule : List (Action T)} {state : State T}
    (hrun : (machine T).run schedule = some state) :
    (machine T).Guarded TakenFirst schedule ↔ (machine T).Always Balanced schedule := by
  have hinit : Inv (machine T).init := by
    constructor
    all_goals simp [machine]
  exact Machine.guarded_iff_always hinit (fun _ _ _ => Inv.step) (fun _ => Inv.balanced)
    (fun _ _ _ => Inv.released_early) hrun

/-- A future that is awaited, set, taken and then destroyed. -/
theorem value_balanced_taken :
    ((machine Nat).run [.awaitReady, .awaitSuspend, .lock, .setValue 7, .resume, .awaitResume,
      .destroyFuture, .unlock]).map (fun state => (state.released, state.destroyed)) =
        some (true, 1) ∧
      (machine Nat).Always Balanced [.awaitReady, .awaitSuspend, .lock, .setValue 7, .resume,
        .awaitResume, .destroyFuture, .unlock] :=
  ⟨rfl, (value_balanced_iff rfl).mp (by decide)⟩

/-- A future that is dropped without having been set runs the destructor on raw storage, and one
that is dropped between `set_value` and the resumption never destroys its value. -/
theorem dropped_future_unbalanced :
    ((machine Nat).run [.destroyFuture]).map (fun state => (state.released, state.rawDestroys)) =
        some (true, 1) ∧
      ((machine Nat).run [.awaitReady, .awaitSuspend, .lock, .setValue 7, .unlock,
        .destroyCoroutine, .destroyFuture]).map
          (fun state => (state.released, state.constructed, state.destroyed)) =
            some (true, 1, 0) ∧
      ¬ (machine Nat).Always Balanced [.destroyFuture] ∧
      ¬ (machine Nat).Always Balanced [.awaitReady, .awaitSuspend, .lock, .setValue 7, .unlock,
        .destroyCoroutine, .destroyFuture] := by
  refine ⟨rfl, rfl, ?_, ?_⟩
  · intro halways
    obtain ⟨hraw, _⟩ := halways _ _ (List.prefix_refl _) rfl
    cases hraw
  · intro halways
    obtain ⟨_, _, hreleased⟩ := halways _ _ (List.prefix_refl _) rfl
    cases hreleased rfl

end FutureValue

end Toad
