import Toad.Execution.Machine

/-!
# Futures

`concurrency/future.hpp`. A `FutureState` is shared by the `Future` that a coroutine awaits
and by the `FutureHandle` through which a producer sets the value. `setValue`,
`awaitSuspend`, and `awaitResume` follow the source; the first two are critical sections of
the state's mutex, so each is one step. `Delivery.machine` interleaves one producer with one
awaiting coroutine. A value set before the continuation is registered is dropped, and
`set_value_delivery_iff` says that this is the only way to lose one.
-/

namespace Toad

open Execution

/-- `FutureState<T>`. `value` is the union member, `none` while its storage is raw;
`continuation` is `none` for the null handle. -/
structure FutureState (T H : Type) where
  value : Option T := none
  isReady : Bool := false
  continuation : Option H := none
  deriving DecidableEq

namespace FutureState

variable {T H : Type}

/-- What `FutureHandle::set_value` did: the future is gone, or nobody has suspended on it, or
the assertion on a second value failed, or the value was stored and `handle` spawned. -/
inductive SetValue (T H : Type) where
  | expired
  | neverAwaited
  | assertFailed
  | stored (state : FutureState T H) (handle : H)
  deriving DecidableEq

/-- `FutureHandle::set_value`, on what `_state.lock()` returned. The moved-from continuation is
a plain pointer and keeps its value. -/
def setValue (locked : Option (FutureState T H)) (value : T) : SetValue T H :=
  match locked with
  | none => .expired
  | some state =>
      match state.continuation with
      | none => .neverAwaited
      | some handle =>
          if state.isReady then .assertFailed
          else .stored { state with isReady := true, value := some value } handle

/-- `Future::await_ready`. -/
def awaitReady (state : FutureState T H) : Bool :=
  state.isReady

/-- `Future::await_suspend`: the new state and whether the coroutine stays suspended. -/
def awaitSuspend (state : FutureState T H) (handle : H) : FutureState T H × Bool :=
  if state.isReady then (state, false)
  else ({ state with continuation := some handle }, true)

/-- `Future::await_resume`: `none` if its assertion fails, otherwise what was moved out of the
storage (`none` if that was raw) and the state after the in-place destructor. -/
def awaitResume (state : FutureState T H) : Option (Option T × FutureState T H) :=
  if state.isReady then some (state.value, { state with value := none }) else none

/-- Calls of `set_value` one after another on a live future: the final state and the spawned
handles, or `none` if an assertion fails. -/
def settle (state : FutureState T H) : List T → Option (FutureState T H × List H)
  | [] => some (state, [])
  | value :: rest =>
      match setValue (some state) value with
      | .expired | .neverAwaited => settle state rest
      | .assertFailed => none
      | .stored following handle =>
          (settle following rest).map (fun (final, handles) => (final, handle :: handles))

/-- A future on which a coroutine has suspended. -/
def awaiting (handle : H) : FutureState T H :=
  { continuation := some handle }

/-- An awaited future that holds `value`. -/
def fulfilled (handle : H) (value : T) : FutureState T H :=
  { value := some value, isReady := true, continuation := some handle }

/-- A value is stored only in a future that was not ready. -/
theorem set_value_stored {locked : Option (FutureState T H)} {value : T}
    {following : FutureState T H} {handle : H}
    (h : setValue locked value = .stored following handle) :
    ∃ state, locked = some state ∧ state.isReady = false ∧
      following = { state with isReady := true, value := some value } := by
  cases locked with
  | none => cases h
  | some state =>
      simp only [setValue] at h
      split at h
      · cases h
      · split at h
        · cases h
        · rename_i hready
          cases h
          exact ⟨state, rfl, by simpa using hready, rfl⟩

/-- An awaited future ends up holding `value`, with its coroutine spawned once, exactly if
`set_value` was called once, with `value`. -/
theorem settle_awaiting_iff {handle : H} {values : List T} {value : T} :
    settle (awaiting handle) values = some (fulfilled handle value, [handle]) ↔
      values = [value] := by
  match values with
  | [] => simp [settle]
  | [only] =>
      show some (fulfilled handle only, [handle]) = _ ↔ _
      simp [fulfilled]
  | first :: second :: rest =>
      -- the second call meets a future that is already set
      have hsecond : settle (awaiting handle) (first :: second :: rest) = none := rfl
      rw [hsecond]
      simp

end FutureState

namespace Delivery

variable {T : Type}

/-- Where the awaiting coroutine stands in `co_await future`. -/
inductive Coroutine (T : Type) where
  | start
  | suspending
  | suspended
  | resuming
  | returned (result : Option T)
  deriving DecidableEq

/-- One producer, one awaiting coroutine, and the executor queue between them. `continues`
counts how often the coroutine was made to continue, by not suspending or by a spawn. -/
structure State (T : Type) where
  future : FutureState T Unit := {}
  produced : Bool := false
  coroutine : Coroutine T := .start
  queued : Nat := 0
  continues : Nat := 0
  aborted : Bool := false
  deriving DecidableEq

/-- The steps of the two parties. `dispatch` is a worker that pops the spawned continuation and
resumes it. -/
inductive Action where
  | setValue
  | awaitReady
  | awaitSuspend
  | dispatch
  | awaitResume
  deriving DecidableEq, Repr

/-- The producer's call of `set_value(value)` on a live future. -/
def produce (value : T) (state : State T) : State T :=
  match FutureState.setValue (some state.future) value with
  | .expired => { state with produced := true }
  | .neverAwaited => { state with produced := true }
  | .assertFailed => { state with produced := true, aborted := true }
  | .stored future _ =>
      { state with
        future := future, produced := true
        queued := state.queued + 1, continues := state.continues + 1 }

/-- One step. The producer calls `set_value` once; a failed assertion ends the process. -/
def next (value : T) (state : State T) (action : Action) : Option (State T) :=
  if state.aborted then none
  else
    match action, state.coroutine with
    | .setValue, _ => if state.produced then none else some (produce value state)
    | .awaitReady, .start =>
        if state.future.awaitReady then
          some { state with coroutine := .resuming, continues := state.continues + 1 }
        else some { state with coroutine := .suspending }
    | .awaitSuspend, .suspending =>
        match state.future.awaitSuspend () with
        | (future, true) => some { state with future := future, coroutine := .suspended }
        | (future, false) =>
            some { state with
              future := future, coroutine := .resuming, continues := state.continues + 1 }
    | .dispatch, .suspended =>
        if state.queued = 0 then none
        else some { state with coroutine := .resuming, queued := state.queued - 1 }
    | .awaitResume, .resuming =>
        match state.future.awaitResume with
        | none => some { state with aborted := true }
        | some (result, future) =>
            some { state with future := future, coroutine := .returned result }
    | _, _ => none

/-- The producer that sets `value`, interleaved with the awaiting coroutine. -/
def machine (value : T) : Machine (State T) Action where
  init := {}
  next := next value

/-- The coroutine was made to continue exactly once, got exactly `value`, and no assertion
failed. -/
def Delivered (value : T) (state : State T) : Prop :=
  state.continues = 1 ∧ state.coroutine = .returned (some value) ∧ state.aborted = false

/-- The step is not a `set_value` on a future without a registered continuation. -/
def SetAfterSuspend (state : State T) (action : Action) : Prop :=
  action = .setValue → state.future.continuation.isSome

instance (state : State T) (action : Action) : Decidable (SetAfterSuspend state action) :=
  inferInstanceAs (Decidable (_ → _))

/-- The states of a run in which the continuation was registered before the value was set. -/
inductive InTime (value : T) : State T → Prop where
  | start : InTime value {}
  | suspending : InTime value { coroutine := .suspending }
  | suspended : InTime value { future := { continuation := some () }, coroutine := .suspended }
  | stored :
      InTime value
        { future := { value := some value, isReady := true, continuation := some () }
          produced := true, coroutine := .suspended, queued := 1, continues := 1 }
  | resuming :
      InTime value
        { future := { value := some value, isReady := true, continuation := some () }
          produced := true, coroutine := .resuming, continues := 1 }
  | returned :
      InTime value
        { future := { isReady := true, continuation := some () }
          produced := true, coroutine := .returned (some value), continues := 1 }

/-- The states of a run in which the value was set first and therefore dropped. -/
inductive Dropped : State T → Prop where
  | start : Dropped { produced := true }
  | suspending : Dropped { produced := true, coroutine := .suspending }
  | suspended :
      Dropped
        { future := { continuation := some () }, produced := true, coroutine := .suspended }

/-- A step that does not set the value early stays in time. -/
theorem in_time_step {value : T} {state following : State T} {action : Action}
    (h : InTime value state) (hguard : SetAfterSuspend state action)
    (hnext : next value state action = some following) : InTime value following := by
  cases h with
  | start =>
      cases action with
      | setValue => exact absurd (hguard rfl) (by simp)
      | awaitReady =>
          cases hnext
          exact .suspending
      | awaitSuspend | dispatch | awaitResume => cases hnext
  | suspending =>
      cases action with
      | setValue => exact absurd (hguard rfl) (by simp)
      | awaitSuspend =>
          cases hnext
          exact .suspended
      | awaitReady | dispatch | awaitResume => cases hnext
  | suspended =>
      cases action with
      | setValue =>
          cases hnext
          exact .stored
      | awaitReady | awaitSuspend | dispatch | awaitResume => cases hnext
  | stored =>
      cases action with
      | dispatch =>
          cases hnext
          exact .resuming
      | setValue | awaitReady | awaitSuspend | awaitResume => cases hnext
  | resuming =>
      cases action with
      | awaitResume =>
          cases hnext
          exact .returned
      | setValue | awaitReady | awaitSuspend | dispatch => cases hnext
  | returned => cases action <;> cases hnext

/-- Setting the value before the continuation is registered drops it. -/
theorem early_set_drops {value : T} {state following : State T} {action : Action}
    (h : InTime value state) (hguard : ¬ SetAfterSuspend state action)
    (hnext : next value state action = some following) : Dropped following := by
  have haction : action = .setValue := by
    by_contra hne
    exact hguard fun heq => absurd heq hne
  subst haction
  cases h with
  | start =>
      cases hnext
      exact .start
  | suspending =>
      cases hnext
      exact .suspending
  | suspended | stored | resuming | returned => exact absurd (fun _ => rfl) hguard

/-- A dropped value stays dropped. -/
theorem dropped_step {value : T} {state following : State T} {action : Action}
    (h : Dropped state) (hnext : next value state action = some following) :
    Dropped following := by
  cases h with
  | start =>
      cases action with
      | awaitReady =>
          cases hnext
          exact .suspending
      | setValue | awaitSuspend | dispatch | awaitResume => cases hnext
  | suspending =>
      cases action with
      | awaitSuspend =>
          cases hnext
          exact .suspended
      | setValue | awaitReady | dispatch | awaitResume => cases hnext
  | suspended => cases action <;> cases hnext

/-- A final state of a run that was in time has the value delivered. -/
theorem in_time_halted {value : T} {state : State T} (h : InTime value state)
    (hfinal : (machine value).Halted state) : Delivered value state := by
  cases h with
  | start => cases hfinal .awaitReady
  | suspending => cases hfinal .awaitSuspend
  | suspended => cases hfinal .setValue
  | stored => cases hfinal .dispatch
  | resuming => cases hfinal .awaitResume
  | returned => exact ⟨rfl, rfl, rfl⟩

/-- A coroutine whose value was dropped never continues. -/
theorem dropped_not_delivered {value : T} {state : State T} (h : Dropped state) :
    ¬ Delivered value state := by
  intro hdelivered
  obtain ⟨hcontinues, _⟩ := hdelivered
  cases h <;> cases hcontinues

/-- In every final state of every interleaving, the value was delivered, once and unchanged,
exactly if `await_suspend` had registered the continuation when `set_value` ran. -/
theorem set_value_delivery_iff (value : T) {schedule : List Action} {state : State T}
    (hrun : (machine value).run schedule = some state)
    (hfinal : (machine value).Halted state) :
    Delivered value state ↔ (machine value).Guarded SetAfterSuspend schedule := by
  rcases Machine.guarded_or_lost (M := machine value) (G := InTime value) (L := Dropped)
    .start (fun _ _ _ => in_time_step) (fun _ _ _ => early_set_drops)
    (fun _ _ _ => dropped_step) hrun with ⟨hguarded, hstate⟩ | ⟨hbroken, hstate⟩
  · exact iff_of_true (in_time_halted hstate hfinal) hguarded
  · exact iff_of_false (dropped_not_delivered hstate) hbroken

/-- The schedule in which the coroutine suspends first ends with the value delivered. -/
theorem set_value_delivery_suspended_first :
    Delivered 7
      { future := { isReady := true, continuation := some () }
        produced := true, coroutine := .returned (some 7), continues := 1 } := by
  refine (set_value_delivery_iff 7 (show (machine 7).run
    [.awaitReady, .awaitSuspend, .setValue, .dispatch, .awaitResume] = some _ from rfl) ?_).mpr
    (by decide)
  intro action
  cases action <;> rfl

/-- If `set_value(7)` runs before `await_suspend`, the coroutine stays suspended for ever. -/
theorem set_value_first_hangs :
    ∃ state, (machine 7).run [.awaitReady, .setValue, .awaitSuspend] = some state ∧
      (machine 7).Halted state ∧ state.coroutine = .suspended ∧ ¬ Delivered 7 state := by
  refine ⟨_, rfl, fun action => ?_, rfl, ?_⟩
  · cases action <;> rfl
  · exact fun h => absurd h.1 (by decide)

end Delivery

end Toad
