import Toad.Concurrency.IOContext

/-!
# The accept loop

`Socks5Server::serve_socks5`: submit an accept, await its future, spawn the handshake of the
client, and start over. The event loop may handle the completion of the accept at any moment after
its submission, also before the coroutine has registered its continuation; then `set_value`
drops the client. There is only one accept at a time, so the server never gets over it:
`serve_accepts_iff`.
-/

namespace Toad.Socks5

namespace Serve

open Execution IOContext

/-- Where the coroutine stands: before `submit_accept_ipv4`, in `await_ready`, in `await_suspend`,
suspended, or before `await_resume`. -/
inductive Place where
  | submitting
  | checking
  | suspending
  | suspended
  | resuming
  deriving DecidableEq, Repr

/-- The coroutine with the future of its last accept, whether that accept is in flight and whether
the continuation is in the executor's queue. `completed` are the results of the accepts that the
event loop has handled, `spawned` the clients whose handshakes have been spawned. -/
structure State where
  place : Place := .submitting
  future : FutureState Socket Unit := {}
  inFlight : Bool := false
  queued : Bool := false
  submitted : Nat := 0
  completed : List Int := []
  spawned : List Socket := []

/-- The steps of the coroutine, of the worker that resumes it, and of the event loop. -/
inductive Action where
  | submitAccept
  | awaitReady
  | awaitSuspend
  | complete (res : Int)
  | resume
  | awaitResume
  deriving DecidableEq, Repr

/-- One step. -/
def next (listener : Int) (state : State) : Action → Option State
  | .submitAccept =>
      match state.place with
      | .submitting =>
          some { state with
            place := .checking, future := {}, inFlight := true, submitted := state.submitted + 1 }
      | _ => none
  | .awaitReady =>
      match state.place with
      | .checking =>
          if state.future.awaitReady then some { state with place := .resuming }
          else some { state with place := .suspending }
      | _ => none
  | .awaitSuspend =>
      match state.place with
      | .suspending =>
          match state.future.awaitSuspend () with
          | (future, true) => some { state with future := future, place := .suspended }
          | (future, false) => some { state with future := future, place := .resuming }
      | _ => none
  | .complete res =>
      if state.inFlight then
        match state.future.settle (handlePendingListen res ⟨listener⟩).values with
        -- the assertion on a second value
        | none => none
        | some (future, handles) =>
            some { state with
              future := future
              inFlight := false
              queued := state.queued || !handles.isEmpty
              completed := state.completed ++ [res] }
      else none
  | .resume =>
      match state.place with
      | .suspended =>
          if state.queued then some { state with queued := false, place := .resuming } else none
      | _ => none
  | .awaitResume =>
      match state.place with
      | .resuming =>
          match state.future.awaitResume with
          | some (some client, future) =>
              some { state with
                future := future, place := .submitting, spawned := state.spawned ++ [client] }
          -- the assertion that the future is ready, or a read of raw storage
          | some (none, _) => none
          | none => none
      | _ => none

/-- The accept loop on a listening socket. -/
def machine (listener : Int) : Machine State Action where
  init := {}
  next := next listener

/-- The results whose clients have got a handshake. -/
def State.served (state : State) : List Int :=
  state.spawned.map Socket.sockfd

/-- A result has been lost and nothing is left that could wake the coroutine. -/
structure Deaf (state : State) : Prop where
  place : state.place = .checking ∨ state.place = .suspending ∨ state.place = .suspended
  not_ready : state.future.isReady = false
  not_in_flight : state.inFlight = false
  not_queued : state.queued = false
  lost : ∃ res, state.completed = state.served ++ [res]

/-- A completion is handled after the coroutine has suspended on the future. -/
def CompletesAwaited (state : State) : Action → Prop
  | .complete _ => state.place = .suspended
  | .submitAccept | .awaitReady | .awaitSuspend | .resume | .awaitResume => True

/-- Nothing is lost: every result is served, or on its way to the coroutine, place by place. -/
def Serving (state : State) : Prop :=
  match state.place with
  | .submitting =>
      state.inFlight = false ∧ state.queued = false ∧ state.completed = state.served
  | .checking | .suspending =>
      state.inFlight = true ∧ state.queued = false ∧ state.future = {} ∧
        state.completed = state.served
  | .suspended =>
      (state.inFlight = true ∧ state.queued = false ∧ state.future = .awaiting () ∧
        state.completed = state.served) ∨
      (state.inFlight = false ∧ state.queued = true ∧
        ∃ res, state.future = .fulfilled () ⟨res⟩ ∧ state.completed = state.served ++ [res])
  | .resuming =>
      state.inFlight = false ∧ state.queued = false ∧
        ∃ res, state.future = .fulfilled () ⟨res⟩ ∧ state.completed = state.served ++ [res]

/-- Every accept has completed except for the one in flight. -/
def Counted (state : State) : Prop :=
  state.submitted = state.completed.length + state.inFlight.toNat

section Steps

variable {listener : Int} {state following : State} {action : Action}

/-- A step in which completions find the coroutine suspended loses nothing. -/
theorem Serving.step (h : Serving state) (hguard : CompletesAwaited state action)
    (hnext : next listener state action = some following) : Serving following := by
  cases action with
  | submitAccept =>
      simp only [next] at hnext
      split at hnext
      next hplace =>
          cases hnext
          simp only [Serving, hplace] at h
          exact ⟨rfl, h.2.1, rfl, h.2.2⟩
      next => cases hnext
  | awaitReady =>
      simp only [next] at hnext
      split at hnext
      next hplace =>
          simp only [Serving, hplace] at h
          rw [h.2.2.1] at hnext
          cases hnext
          exact ⟨h.1, h.2.1, rfl, h.2.2.2⟩
      next => cases hnext
  | awaitSuspend =>
      simp only [next] at hnext
      split at hnext
      next hplace =>
          simp only [Serving, hplace] at h
          rw [h.2.2.1] at hnext
          cases hnext
          exact Or.inl ⟨h.1, h.2.1, rfl, h.2.2.2⟩
      next => cases hnext
  | complete res =>
      have hplace : state.place = .suspended := hguard
      simp only [next] at hnext
      split at hnext
      next hinFlight =>
          simp only [Serving, hplace, hinFlight, Bool.true_eq_false, false_and, or_false,
            true_and] at h
          rw [h.2.1] at hnext
          cases hnext
          simp only [Serving, hplace]
          refine Or.inr ⟨trivial, by simp, res, rfl, ?_⟩
          show state.completed ++ [res] = state.served ++ [res]
          rw [h.2.2]
      next => cases hnext
  | resume =>
      simp only [next] at hnext
      split at hnext
      next hplace =>
          split at hnext
          next hqueued =>
              cases hnext
              simp only [Serving, hplace, hqueued, Bool.true_eq_false, false_and, and_false,
                false_or, true_and] at h
              exact ⟨h.1, rfl, h.2⟩
          next => cases hnext
      next => cases hnext
  | awaitResume =>
      simp only [next] at hnext
      split at hnext
      next hplace =>
          simp only [Serving, hplace] at h
          obtain ⟨hinFlight, hqueued, res, hfuture, hcompleted⟩ := h
          rw [hfuture] at hnext
          cases hnext
          refine ⟨hinFlight, hqueued, ?_⟩
          show state.completed = (state.spawned ++ [Socket.mk res]).map Socket.sockfd
          rw [List.map_append]
          exact hcompleted
      next => cases hnext

/-- A completion that comes before the coroutine has suspended is lost. -/
theorem Serving.deaf_of_early (h : Serving state) (hguard : ¬ CompletesAwaited state action)
    (hnext : next listener state action = some following) : Deaf following := by
  cases action with
  | complete res =>
      have hplace : state.place ≠ .suspended := hguard
      simp only [next] at hnext
      split at hnext
      next hinFlight =>
          cases hcases : state.place with
          | submitting | resuming => simp [Serving, hcases, hinFlight] at h
          | suspended => exact absurd hcases hplace
          | checking | suspending =>
              simp only [Serving, hcases] at h
              rw [h.2.2.1] at hnext
              cases hnext
              refine ⟨by simp [hcases], rfl, rfl, by simp [h.2.1], res, ?_⟩
              show state.completed ++ [res] = state.served ++ [res]
              rw [h.2.2.2]
      next => cases hnext
  | submitAccept | awaitReady | awaitSuspend | resume | awaitResume =>
      exact absurd trivial hguard

/-- There is no way back, and no more clients. -/
theorem Deaf.step (h : Deaf state) (hnext : next listener state action = some following) :
    Deaf following ∧ following.spawned = state.spawned := by
  obtain ⟨hplaces, hready, hinFlight, hqueued, res, hlost⟩ := h
  cases action with
  | submitAccept =>
      simp only [next] at hnext
      split at hnext
      next hplace => simp [hplace] at hplaces
      next => cases hnext
  | awaitReady =>
      simp only [next, FutureState.awaitReady, hready] at hnext
      split at hnext
      · cases hnext
        exact ⟨⟨Or.inr (Or.inl rfl), hready, hinFlight, hqueued, res, hlost⟩, rfl⟩
      · cases hnext
  | awaitSuspend =>
      simp only [next, FutureState.awaitSuspend, hready] at hnext
      split at hnext
      · cases hnext
        exact ⟨⟨Or.inr (Or.inr rfl), rfl, hinFlight, hqueued, res, hlost⟩, rfl⟩
      · cases hnext
  | complete other =>
      rw [next, hinFlight] at hnext
      cases hnext
  | resume =>
      simp only [next, hqueued] at hnext
      split at hnext <;> cases hnext
  | awaitResume =>
      simp only [next] at hnext
      split at hnext
      next hplace => simp [hplace] at hplaces
      next => cases hnext

/-- What has been lost stays lost, over any number of steps. -/
theorem Deaf.run {rest : List Action} {final : State} (h : Deaf state)
    (hrun : (machine listener).runFrom state rest = some final) :
    Deaf final ∧ final.spawned = state.spawned := by
  induction rest generalizing state with
  | nil =>
      obtain rfl : state = final := Option.some.inj hrun
      exact ⟨h, rfl⟩
  | cons action rest ih =>
      obtain ⟨middle, hnext, hrest⟩ := Option.bind_eq_some_iff.mp hrun
      obtain ⟨hdeaf, hspawned⟩ := h.step hnext
      obtain ⟨hfinal, hsame⟩ := ih hdeaf hrest
      exact ⟨hfinal, hsame.trans hspawned⟩

/-- A server that has lost nothing is not deaf. -/
theorem Serving.not_deaf (h : Serving state) : ¬ Deaf state := by
  intro hdeaf
  obtain ⟨hplaces, _, hinFlight, hqueued, _⟩ := hdeaf
  rcases hplaces with hplace | hplace | hplace <;>
    simp [Serving, hplace, hinFlight, hqueued] at h

/-- The clients with a handshake are the first ones accepted, and at most one is missing. -/
theorem served_in_order (h : Serving state ∨ Deaf state) :
    ∃ rest, state.completed = state.served ++ rest ∧ rest.length ≤ 1 := by
  rcases h with hserving | hdeaf
  · cases hplace : state.place with
    | submitting | checking | suspending =>
        simp only [Serving, hplace] at hserving
        exact ⟨[], by simp [hserving], by simp⟩
    | suspended =>
        simp only [Serving, hplace] at hserving
        rcases hserving with hwaiting | ⟨_, _, res, _, hcompleted⟩
        · exact ⟨[], by simp [hwaiting], by simp⟩
        · exact ⟨[res], hcompleted, by simp⟩
    | resuming =>
        simp only [Serving, hplace] at hserving
        obtain ⟨_, _, res, _, hcompleted⟩ := hserving
        exact ⟨[res], hcompleted, by simp⟩
  · obtain ⟨res, hlost⟩ := hdeaf.lost
    exact ⟨[res], hlost, by simp⟩

/-- A step submits an accept, completes the one in flight, or does neither. -/
theorem Counted.step (h : Counted state) (hstate : Serving state ∨ Deaf state)
    (hnext : next listener state action = some following) : Counted following := by
  unfold Counted at h ⊢
  have hplace : state.place = .submitting → state.inFlight = false := by
    intro hplace
    rcases hstate with hserving | hdeaf
    · simp only [Serving, hplace] at hserving
      exact hserving.1
    · exact hdeaf.not_in_flight
  cases action with
  | submitAccept =>
      simp only [next] at hnext
      split at hnext
      next hsubmitting =>
          cases hnext
          rw [hplace hsubmitting] at h
          exact congrArg (· + 1) h
      next => cases hnext
  | awaitReady =>
      simp only [next] at hnext
      split at hnext
      · split at hnext <;> cases hnext <;> exact h
      · cases hnext
  | awaitSuspend =>
      simp only [next] at hnext
      split at hnext
      · split at hnext <;> cases hnext <;> exact h
      · cases hnext
  | complete res =>
      simp only [next] at hnext
      split at hnext
      next hinFlight =>
          split at hnext
          · cases hnext
          · cases hnext
            rw [hinFlight] at h
            simpa using h
      next => cases hnext
  | resume =>
      simp only [next] at hnext
      split at hnext
      · split at hnext
        · cases hnext
          exact h
        · cases hnext
      · cases hnext
  | awaitResume =>
      simp only [next] at hnext
      split at hnext
      · split at hnext
        · cases hnext
          exact h
        · cases hnext
        · cases hnext
      · cases hnext

end Steps

/-- In every run of the accept loop at most one accept is in flight, and the clients are served in
the order in which they were accepted, error codes included, with at most one missing. That one is
lost exactly when some completion was handled before the coroutine had suspended; after that the
server serves nobody any more. -/
theorem serve_accepts_iff (listener : Int) {schedule : List Action} {state : State}
    (h : (machine listener).run schedule = some state) :
    (∃ rest, state.completed = state.served ++ rest ∧ rest.length ≤ 1) ∧
      Counted state ∧
      ((machine listener).Guarded CompletesAwaited schedule ↔ ¬ Deaf state) ∧
      (Deaf state → ∀ rest final, (machine listener).runFrom state rest = some final →
        Deaf final ∧ final.spawned = state.spawned) := by
  have hinit : Serving (machine listener).init := ⟨rfl, rfl, rfl⟩
  have hsplit : ((machine listener).Guarded CompletesAwaited schedule ∧
      Serving state ∧ Counted state) ∨
      (¬ (machine listener).Guarded CompletesAwaited schedule ∧ Deaf state ∧ Counted state) := by
    refine Machine.guarded_or_lost (G := fun state => Serving state ∧ Counted state)
      (L := fun state => Deaf state ∧ Counted state) ⟨hinit, rfl⟩ ?_ ?_ ?_ h
    · exact fun _ _ _ hgood hguard hnext =>
        ⟨hgood.1.step hguard hnext, hgood.2.step (Or.inl hgood.1) hnext⟩
    · exact fun _ _ _ hgood hguard hnext =>
        ⟨hgood.1.deaf_of_early hguard hnext, hgood.2.step (Or.inl hgood.1) hnext⟩
    · exact fun _ _ _ hlost hnext =>
        ⟨(hlost.1.step hnext).1, hlost.2.step (Or.inr hlost.1) hnext⟩
  rcases hsplit with ⟨hguarded, hserving, hcounted⟩ | ⟨hbroken, hdeaf, hcounted⟩
  · refine ⟨served_in_order (Or.inl hserving), hcounted, ?_, fun hdeaf _ _ hrun => hdeaf.run hrun⟩
    exact iff_of_true hguarded hserving.not_deaf
  · refine ⟨served_in_order (Or.inr hdeaf), hcounted, ?_, fun hdeaf _ _ hrun => hdeaf.run hrun⟩
    exact iff_of_false hbroken (fun hnot => hnot hdeaf)

/-- One client is served; the accept of the second completes while the coroutine is on its way to
suspend. -/
def secondLost : List Action :=
  [.submitAccept, .awaitReady, .awaitSuspend, .complete 7, .resume, .awaitResume, .submitAccept,
    .awaitReady, .complete 8, .awaitSuspend]

/-- The state after that. -/
def deafened : State where
  place := .suspended
  future := .awaiting ()
  submitted := 2
  completed := [7, 8]
  spawned := [⟨7⟩]

/-- The second client is lost, and nobody is served any more. -/
theorem serve_accepts_second_lost :
    (machine 3).run secondLost = some deafened ∧
      ¬ (machine 3).Guarded CompletesAwaited secondLost ∧
      ∀ rest final, (machine 3).runFrom deafened rest = some final → final.spawned = [⟨7⟩] := by
  have hrun : (machine 3).run secondLost = some deafened := rfl
  have hdeaf : Deaf deafened := ⟨Or.inr (Or.inr rfl), rfl, rfl, rfl, 8, rfl⟩
  obtain ⟨_, _, hguarded, hforever⟩ := serve_accepts_iff 3 hrun
  refine ⟨hrun, fun h => hguarded.mp h hdeaf, fun rest final hrest => ?_⟩
  exact (hforever hdeaf rest final hrest).2

end Serve

end Toad.Socks5
