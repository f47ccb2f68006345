import Toad.Concurrency.JoinSet
import Toad.Socks5.Forward

/-!
# The end of a relayed connection

The two `forward_connection_data_` tasks of `Socks5Server::handle_client_handshake`, with the
`JoinSet` that the handshake awaits before it releases its sockets. An action is a step of the
join set, the first resumption of a forwarder, or the completion of its read together with
everything the forwarder then does up to its next `co_await`. The awaited count is not looked
at and `while (true)` has no exit, so a closed connection ends nothing: `relay_ends_iff`.
-/

namespace Toad.Socks5.RelayEnd

open Execution IOContext

/-- An operation that a forwarder has handed to the ring. -/
inductive Submission where
  | read (pending : PendingReadSomeVec)
  | write (pending : PendingWriteSome)
  deriving DecidableEq, Repr

/-- Where a forwarder rests: not resumed yet, in `co_await` with its read in flight, in `co_await`
of a future that nobody will set any more, or past `co_return`. -/
inductive Place where
  | unstarted
  | awaiting (pending : PendingReadSomeVec)
  | hung
  | finished
  deriving DecidableEq, Repr

/-- One forwarder: its vector and its submissions, oldest first. `ended` is the number of
submissions it had made when a read completed with no bytes or with an error for the first
time. -/
structure Direction where
  place : Place := .unstarted
  buffer : List UInt8 := []
  submitted : List Submission := []
  ended : Option Nat := none
  deriving DecidableEq, Repr

/-- The head of the loop, up to `co_await`; `none` if the vector cannot grow. -/
def Direction.submitRead (lhs : Socket) (direction : Direction) : Option Direction :=
  match submitReadSomeVec lhs direction.buffer 1024 with
  | .error _ => none
  | .ok (pending, grown) =>
      some { direction with
        place := .awaiting pending
        buffer := grown
        submitted := direction.submitted ++ [.read pending] }

/-- From `co_await` on. The count that `await_resume` returns is discarded. -/
def Direction.resume (lhs rhs : Socket) (direction : Direction) (future : FutureState Nat Unit) :
    Option Direction :=
  match future.awaitResume with
  | none => none
  | some _ =>
      let submitted := direction.submitted ++ [.write (submitWriteSome rhs direction.buffer)]
      Direction.submitRead lhs { direction with submitted := submitted }

/-- The completion of the read in flight: the handler, its `set_value`, and the resumed loop.
`suspended` says whether the forwarder has registered its continuation by then. There is no next
state if an exception or a failed assertion ends the process. -/
def Direction.complete (lhs rhs : Socket) (direction : Direction) (pending : PendingReadSomeVec)
    (completion : Completion) (suspended : Bool) : Option Direction :=
  let future : FutureState Nat Unit := if suspended then .awaiting () else {}
  let stored := kernelStore direction.buffer pending.initialSize completion.stored
  match handlePendingReadSomeVec completion.res pending stored with
  | .error _ => none
  | .ok (buffer, handled) =>
      match future.settle handled.values with
      | none => none
      | some (_, []) => some { direction with buffer := buffer, place := .hung }
      | some (future, _ :: _) =>
          Direction.resume lhs rhs { direction with buffer := buffer } future

/-- The read has found the connection closed, or has failed. -/
def Ending (completion : Completion) : Prop :=
  completion.res ≤ 0

instance (completion : Completion) : Decidable (Ending completion) :=
  inferInstanceAs (Decidable (_ ≤ _))

/-- Note the first completion that ends the direction. -/
def Direction.observe (direction : Direction) (completion : Completion) : Direction :=
  if Ending completion ∧ direction.ended = none then
    { direction with ended := some direction.submitted.length }
  else direction

/-- The results of a read of at most 1024 bytes: an error code, or no more than was stored. -/
def Possible (completion : Completion) : Prop :=
  -4095 ≤ completion.res ∧ completion.res ≤ completion.stored.length ∧
    completion.stored.length ≤ 1024

instance (completion : Completion) : Decidable (Possible completion) :=
  inferInstanceAs (Decidable (_ ∧ _))

/-- The two directions, client to remote and remote to client, and the join set. -/
structure State where
  direction : Fin 2 → Direction := fun _ => {}
  join : JoinSet.State 2 := {}
  terminated : Bool := false

/-- The steps. `start` is the first resumption of a forwarder that its watcher has spawned. -/
inductive Action where
  | join (action : JoinSet.Action 2)
  | start (index : Fin 2)
  | complete (index : Fin 2) (completion : Completion) (suspended : Bool)
  deriving DecidableEq, Repr

/-- Replace a forwarder by what it has become, or by `before` if the process has ended. -/
def State.put (state : State) (index : Fin 2) (before : Direction) (after : Option Direction) :
    State :=
  { state with
    direction := Function.update state.direction index (after.getD before)
    terminated := after.isNone }

/-- A task of the join set finishes when its forwarder returns. -/
def State.mayJoin (state : State) : JoinSet.Action 2 → Bool
  | .finish index => (state.direction index).place = .finished
  | .check | .fetchAdd | .launch | .onNotify _ | .resumeOwner | .resumeOwnerEarly _ | .destruct
  | .spawnTask _ | .destroyFrame _ | .overwrite _ | .onContinuations _ _ | .resumeWatcher _
  | .resumeWatcherEarly _ | .fetchSub _ => true

/-- The sockets that a forwarder reads from and writes to. -/
def sockets (client remote : Socket) (index : Fin 2) : Socket × Socket :=
  if index.val = 0 then (client, remote) else (remote, client)

/-- One step; none is left once the process has ended. -/
def next (client remote : Socket) (state : State) (action : Action) : Option State :=
  if state.terminated then none
  else
    match action with
    | .join action =>
        if state.mayJoin action then
          (JoinSet.next state.join action).map fun join => { state with join := join }
        else none
    | .start index =>
        let direction := state.direction index
        let (lhs, _) := sockets client remote index
        if state.join.body index = .running ∧ direction.place = .unstarted then
          some (state.put index direction (direction.submitRead lhs))
        else none
    | .complete index completion suspended =>
        let direction := (state.direction index).observe completion
        let (lhs, rhs) := sockets client remote index
        match direction.place with
        | .awaiting pending =>
            if Possible completion then
              some (state.put index direction
                (direction.complete lhs rhs pending completion suspended))
            else none
        | .unstarted | .hung | .finished => none

/-- A relayed connection between the two sockets. -/
def relay (client remote : Socket) : Machine State Action where
  init := {}
  next := next client remote

/-- A direction whose read has found the end has submitted nothing since and has finished; and
when both have ended and nothing is left to do, the counter is zero and the handshake is past the
join set. -/
def Ends (client remote : Socket) (state : State) : Prop :=
  (∀ index count, (state.direction index).ended = some count →
    (state.direction index).submitted.length = count ∧
      (state.direction index).place = .finished) ∧
  ((∀ index, (state.direction index).ended ≠ none) → (relay client remote).Halted state →
    state.join.awaiting = 0 ∧ state.join.owner = .destroyed)

/-- The step is not a completion that ends a direction. -/
def Delivers (_state : State) : Action → Prop
  | .complete _ completion _ => ¬ Ending completion
  | .join _ | .start _ => True

instance (state : State) : ∀ action, Decidable (Delivers state action)
  | .complete _ completion _ => inferInstanceAs (Decidable (¬ Ending completion))
  | .join _ | .start _ => isTrue trivial

variable {lhs rhs client remote : Socket}

/-- The forwarder has not finished, and no end has been noted on the way. -/
def Direction.GoesOn (before after : Direction) : Prop :=
  after.place ≠ .finished ∧ after.ended = before.ended

/-- Submitting a read leaves the forwarder in `co_await`. -/
theorem submit_read_some {direction following : Direction}
    (h : direction.submitRead lhs = some following) : direction.GoesOn following := by
  unfold Direction.submitRead at h
  split at h
  · cases h
  · obtain rfl := Option.some.inj h
    exact ⟨by simp, rfl⟩

/-- A forwarder that has been resumed does not finish. -/
theorem resume_some {direction following : Direction} {future : FutureState Nat Unit}
    (h : direction.resume lhs rhs future = some following) : direction.GoesOn following := by
  unfold Direction.resume at h
  split at h
  · cases h
  · have hsubmit := submit_read_some h
    exact hsubmit

/-- No completion, whatever its result, makes the forwarder finish. -/
theorem complete_some {direction following : Direction} {pending : PendingReadSomeVec}
    {completion : Completion} {suspended : Bool}
    (h : direction.complete lhs rhs pending completion suspended = some following) :
    direction.GoesOn following := by
  simp only [Direction.complete] at h
  split at h
  · cases h
  · split at h
    · cases h
    · obtain rfl := Option.some.inj h
      exact ⟨by simp, rfl⟩
    · have hresume := resume_some h
      exact hresume

/-- A completion with data is nothing to note. -/
theorem observe_delivers (direction : Direction) {completion : Completion}
    (h : ¬ Ending completion) : direction.observe completion = direction :=
  if_neg fun hboth => h hboth.1

/-- A completion that ends the direction is noted. -/
theorem observe_ending (direction : Direction) {completion : Completion}
    (h : Ending completion) : (direction.observe completion).ended ≠ none := by
  unfold Direction.observe
  split
  · simp
  · rename_i hboth
    exact fun hnone => hboth ⟨h, hnone⟩

/-- The steps of the machine. -/
inductive Step (client remote : Socket) (state : State) : Action → State → Prop where
  | join (action : JoinSet.Action 2) (join : JoinSet.State 2)
      (hmay : state.mayJoin action = true)
      (hnext : JoinSet.next state.join action = some join) :
      Step client remote state (.join action) { state with join := join }
  | start (index : Fin 2) (hbody : state.join.body index = .running)
      (hplace : (state.direction index).place = .unstarted) :
      Step client remote state (.start index)
        (state.put index (state.direction index)
          ((state.direction index).submitRead (sockets client remote index).1))
  | complete (index : Fin 2) (completion : Completion) (suspended : Bool)
      (pending : PendingReadSomeVec) (hpossible : Possible completion)
      (hplace : ((state.direction index).observe completion).place = .awaiting pending) :
      Step client remote state (.complete index completion suspended)
        (state.put index ((state.direction index).observe completion)
          (((state.direction index).observe completion).complete (sockets client remote index).1
            (sockets client remote index).2 pending completion suspended))

/-- Every transition is one of these steps. -/
theorem next_step {state following : State} {action : Action}
    (h : next client remote state action = some following) :
    Step client remote state action following := by
  unfold next at h
  split at h
  · cases h
  · cases action with
    | join action =>
        simp only [Option.ite_none_right_eq_some, Option.map_eq_some_iff] at h
        obtain ⟨hmay, join, hjoin, rfl⟩ := h
        exact .join action join hmay hjoin
    | start index =>
        simp only [Option.ite_none_right_eq_some, Option.some.injEq] at h
        obtain ⟨⟨hbody, hplace⟩, rfl⟩ := h
        exact .start index hbody hplace
    | complete index completion suspended =>
        simp only at h
        split at h
        · rename_i pending hplace
          simp only [Option.ite_none_right_eq_some, Option.some.injEq] at h
          obtain ⟨hpossible, rfl⟩ := h
          exact .complete index completion suspended pending hpossible hplace
        all_goals cases h

/-- The forwarder that a step has moved: it is as before only if the process has ended. -/
theorem put_self {P : Direction → Prop} (state : State) (index : Fin 2) {before : Direction}
    {after : Option Direction} (hbefore : P before)
    (hafter : ∀ moved, after = some moved → P moved) :
    P ((state.put index before after).direction index) := by
  have hput : (state.put index before after).direction index = after.getD before := by
    simp [State.put]
  rw [hput]
  cases after with
  | none => exact hbefore
  | some moved => exact hafter moved rfl

/-- A step moves one forwarder only. -/
theorem put_forall {P : Fin 2 → Direction → Prop} {state : State} {index : Fin 2}
    {before : Direction} {after : Option Direction} (hbefore : P index before)
    (hafter : ∀ moved, after = some moved → P index moved)
    (hothers : ∀ other, P other (state.direction other)) (other : Fin 2) :
    P other ((state.put index before after).direction other) := by
  by_cases hsame : other = index
  · subst hsame
    exact put_self state other hbefore hafter
  · have hput : (state.put index before after).direction other = state.direction other := by
      simp [State.put, hsame]
    rw [hput]
    exact hothers other

/-- The forwarders go on for ever, and the join set waits for them. -/
structure Relaying (state : State) : Prop where
  unfinished : ∀ index, (state.direction index).place ≠ .finished
  join : JoinSet.Unfinished state.join

/-- No step finishes a forwarder. -/
theorem Relaying.step {state following : State} {action : Action} (h : Relaying state)
    (hnext : next client remote state action = some following) : Relaying following := by
  cases next_step hnext with
  | join action join hmay hjoin =>
      refine ⟨h.unfinished, h.join.step (fun task htask => ?_) hjoin⟩
      subst htask
      simp only [State.mayJoin, decide_eq_true_eq] at hmay
      exact h.unfinished task hmay
  | start index hbody hplace =>
      refine ⟨put_forall (P := fun _ direction => direction.place ≠ .finished) (by simp [hplace])
        (fun moved hsubmit => ?_) h.unfinished, h.join⟩
      exact (submit_read_some hsubmit).1
  | complete index completion suspended pending hpossible hplace =>
      refine ⟨put_forall (P := fun _ direction => direction.place ≠ .finished) (by simp [hplace])
        (fun moved hcomplete => ?_) h.unfinished, h.join⟩
      exact (complete_some hcomplete).1

/-- Every reachable state relays. -/
theorem relaying {schedule : List Action} {state : State}
    (h : (relay client remote).run schedule = some state) : Relaying state :=
  Machine.reachable_invariant ⟨by simp [relay], JoinSet.Unfinished.init⟩
    (fun _ _ _ hstate hnext => hstate.step hnext) ⟨schedule, h⟩

/-- No read has found the end of its connection. -/
def Open (state : State) : Prop :=
  ∀ index, (state.direction index).ended = none

/-- Only a completion that ends a direction is noted. -/
theorem Open.step {state following : State} {action : Action} (h : Open state)
    (hdelivers : Delivers state action)
    (hnext : next client remote state action = some following) : Open following := by
  cases next_step hnext with
  | join action join hmay hjoin => exact h
  | start index hbody hplace =>
      refine put_forall (P := fun _ direction => direction.ended = none) (h index)
        (fun moved hsubmit => ?_) h
      exact (submit_read_some hsubmit).2.trans (h index)
  | complete index completion suspended pending hpossible hplace =>
      rw [observe_delivers _ hdelivers]
      refine put_forall (P := fun _ direction => direction.ended = none) (h index)
        (fun moved hcomplete => ?_) h
      exact (complete_some hcomplete).2.trans (h index)

/-- A connection that is open on both sides has nothing to end. -/
theorem Open.ends {state : State} (h : Open state) : Ends client remote state := by
  refine ⟨fun index count hended => ?_, fun hboth => absurd (h 0) (hboth 0)⟩
  rw [h index] at hended
  cases hended

/-- A forwarder does not finish after the completion of a read. -/
theorem complete_goes_on {state following : State} {index : Fin 2} {completion : Completion}
    {suspended : Bool}
    (h : next client remote state (.complete index completion suspended) = some following) :
    ((state.direction index).observe completion).GoesOn (following.direction index) := by
  cases next_step h with
  | complete _ _ _ pending hpossible hplace =>
      exact put_self state index ⟨by simp [hplace], rfl⟩ fun _ hcomplete => complete_some hcomplete

/-- A completion that ends a direction is noted, and its forwarder has not finished. -/
theorem ending_not_ends {state following : State} {action : Action}
    (hending : ¬ Delivers state action)
    (hnext : next client remote state action = some following) :
    ¬ Ends client remote following := by
  intro hends
  cases action with
  | join | start => exact hending trivial
  | complete index completion suspended =>
      obtain ⟨hplace, hended⟩ := complete_goes_on hnext
      have hnoted := observe_ending (state.direction index) (not_not.mp hending)
      obtain ⟨count, hcount⟩ := Option.ne_none_iff_exists'.mp hnoted
      exact hplace (hends.1 index count (hended.trans hcount)).2

/-- In every run, the directions end as they should exactly as long as no read completes with no
bytes or with an error; and however it goes on, no forwarder finishes and the handshake does not
get past the join set, so that its sockets are never released. -/
theorem relay_ends_iff (client remote : Socket) {schedule : List Action} {state : State}
    (h : (relay client remote).run schedule = some state) :
    ((relay client remote).Guarded Delivers schedule ↔
      (relay client remote).Always (Ends client remote) schedule) ∧
    (∀ index, (state.direction index).place ≠ .finished) ∧
    state.join.owner ≠ .continued ∧ state.join.owner ≠ .destroyed := by
  refine ⟨?_, (relaying h).unfinished, (relaying h).join.owner⟩
  refine Machine.guarded_iff_always (I := Open) (fun _ => rfl) ?_ ?_ ?_ h
  · exact fun _ _ _ hopen hdelivers hnext => hopen.step hdelivers hnext
  · exact fun _ hopen => hopen.ends
  · exact fun _ _ _ _ hending hnext => ending_not_ends hending hnext

/-- The owner spawns its first forwarder, and the forwarder starts and has its first read
completed. -/
def firstRead (index : Fin 2) (completion : Completion) : List Action :=
  [.join .check, .join .fetchAdd, .join .launch, .join (.spawnTask index), .start index,
    .complete index completion true]

/-- A chunk of two bytes is relayed, and the relay goes on. -/
theorem relay_ends_open :
    ∃ state, (relay ⟨4⟩ ⟨5⟩).run (firstRead 0 (delivers [1, 2])) = some state ∧
      (relay ⟨4⟩ ⟨5⟩).Always (Ends ⟨4⟩ ⟨5⟩) (firstRead 0 (delivers [1, 2])) := by
  have hsome : ((relay ⟨4⟩ ⟨5⟩).run (firstRead 0 (delivers [1, 2]))).isSome = true := by
    decide +kernel
  obtain ⟨state, hrun⟩ := Option.isSome_iff_exists.mp hsome
  exact ⟨state, hrun, (relay_ends_iff ⟨4⟩ ⟨5⟩ hrun).1.mp (by decide +kernel)⟩

/-- The client closes the connection at once: the forwarder submits a write of nothing and the
next read all the same. -/
theorem closed_connection_read_again :
    ∃ state, (relay ⟨4⟩ ⟨5⟩).run (firstRead 0 ⟨[], 0⟩) = some state ∧
      (state.direction 0).ended = some 1 ∧
      (state.direction 0).submitted = [.read ⟨4, 0⟩, .write ⟨5, []⟩, .read ⟨4, 0⟩] ∧
      ¬ Ends ⟨4⟩ ⟨5⟩ state := by
  have hclosed : ((relay ⟨4⟩ ⟨5⟩).run (firstRead 0 ⟨[], 0⟩)).map
      (fun state => ((state.direction 0).ended, (state.direction 0).submitted)) =
        some (some 1, [.read ⟨4, 0⟩, .write ⟨5, []⟩, .read ⟨4, 0⟩]) := by
    decide +kernel
  obtain ⟨state, hrun, hfields⟩ := Option.map_eq_some_iff.mp hclosed
  obtain ⟨hended, hsubmitted⟩ := Prod.mk.inj hfields
  refine ⟨state, hrun, hended, hsubmitted, fun hends => ?_⟩
  have hlength := (hends.1 0 1 hended).1
  rw [hsubmitted] at hlength
  exact absurd hlength (by decide)

/-! ## The loop as a machine of its own -/

/-- The write that a submission is. -/
def Submission.written : Submission → Option PendingWriteSome
  | .read _ => none
  | .write pending => some pending

/-- The writes that a forwarder has submitted. -/
def Direction.writes (direction : Direction) : List PendingWriteSome :=
  direction.submitted.filterMap Submission.written

/-- The forwarder has come as far as the loop of `forwardConnectionData`: it has submitted the same
writes, and its vector is the loop's, grown for the read in flight. -/
structure Follows (lhs : Socket) (forwarder : Forwarder) (direction : Direction) : Prop where
  writes : direction.writes = forwarder.written
  unstarted : direction.place = .unstarted → direction.buffer = forwarder.buffer
  awaiting : ∀ pending, direction.place = .awaiting pending →
    submitReadSomeVec lhs forwarder.buffer 1024 = .ok (pending, direction.buffer)

/-- Noting the end of a direction changes nothing that the loop has. -/
theorem Follows.observe {forwarder : Forwarder} {direction : Direction}
    (h : Follows lhs forwarder direction) (completion : Completion) :
    Follows lhs forwarder (direction.observe completion) := by
  unfold Direction.observe
  split
  · exact ⟨h.writes, h.unstarted, h.awaiting⟩
  · exact h

/-- The next read is submitted with the loop's vector. -/
theorem submit_read_follows {forwarder : Forwarder} {direction moved : Direction}
    (hwrites : direction.writes = forwarder.written)
    (hbuffer : direction.buffer = forwarder.buffer)
    (h : direction.submitRead lhs = some moved) : Follows lhs forwarder moved := by
  unfold Direction.submitRead at h
  split at h
  · cases h
  · rename_i pending grown hsubmit
    obtain rfl := Option.some.inj h
    refine ⟨?_, by simp, fun other hother => ?_⟩
    · simpa [Direction.writes, List.filterMap_cons, Submission.written] using hwrites
    · obtain rfl := Place.awaiting.inj hother
      rw [← hbuffer]
      exact hsubmit

/-- A completion leaves the forwarder behind, or takes it through one iteration of the loop. -/
theorem Follows.complete {forwarder : Forwarder} {direction moved : Direction}
    {pending : PendingReadSomeVec} {completion : Completion} {suspended : Bool}
    (h : Follows lhs forwarder direction) (hplace : direction.place = .awaiting pending)
    (hcomplete : direction.complete lhs rhs pending completion suspended = some moved) :
    Follows lhs forwarder moved ∨ ∃ following,
      forwardIteration lhs rhs forwarder completion = some following ∧
        Follows lhs following moved := by
  simp only [Direction.complete] at hcomplete
  split at hcomplete
  · cases hcomplete
  · rename_i buffer handled hhandle
    split at hcomplete
    · cases hcomplete
    · obtain rfl := Option.some.inj hcomplete
      exact .inl ⟨h.writes, by simp, by simp⟩
    · rename_i future _ _ hsettle
      -- a coroutine is spawned only by a value
      have hvalues : handled.values ≠ [] := by
        intro hnone
        rw [hnone] at hsettle
        cases hsettle
      have hread : readSomeVec lhs forwarder.buffer 1024 completion = .ok (buffer, handled) := by
        rw [readSomeVec, h.awaiting pending hplace]
        exact hhandle
      have hiteration : forwardIteration lhs rhs forwarder completion =
          some { buffer := buffer
                 written := forwarder.written ++ [submitWriteSome rhs buffer] } := by
        unfold forwardIteration
        rw [hread]
        cases hcases : handled.values with
        | nil => exact absurd hcases hvalues
        | cons value rest => simp only [hcases]
      refine .inr ⟨_, hiteration, ?_⟩
      unfold Direction.resume at hcomplete
      split at hcomplete
      · cases hcomplete
      · have hwrites := h.writes
        refine submit_read_follows ?_ rfl hcomplete
        simpa [Direction.writes, List.filterMap_cons, Submission.written] using hwrites

/-- The forwarder follows the loop of `forwardConnectionData` after some completions. -/
def Direction.Simulates (lhs rhs : Socket) (direction : Direction) : Prop :=
  ∃ completions forwarder, (forwardConnectionData lhs rhs).run completions = some forwarder ∧
    Follows lhs forwarder direction

/-- Whatever a completion does to the forwarder, it still follows the loop. -/
theorem Direction.Simulates.complete {direction moved : Direction}
    {pending : PendingReadSomeVec} {completion : Completion} {suspended : Bool}
    (h : direction.Simulates lhs rhs) (hplace : direction.place = .awaiting pending)
    (hcomplete : direction.complete lhs rhs pending completion suspended = some moved) :
    moved.Simulates lhs rhs := by
  obtain ⟨completions, forwarder, hrun, hfollows⟩ := h
  rcases hfollows.complete hplace hcomplete with hsame | ⟨following, hnext, hmoved⟩
  · exact ⟨completions, forwarder, hrun, hsame⟩
  · refine ⟨completions ++ [completion], following, ?_, hmoved⟩
    exact (Machine.run_concat _).mpr ⟨forwarder, hrun, hnext⟩

/-- In every run of the relay, each direction has submitted the writes that its loop, run alone,
submits for some sequence of completions. -/
theorem direction_simulates {schedule : List Action} {state : State}
    (h : (relay client remote).run schedule = some state) (index : Fin 2) :
    (state.direction index).Simulates (sockets client remote index).1
      (sockets client remote index).2 := by
  refine Machine.reachable_invariant
    (I := fun state => ∀ index, (state.direction index).Simulates (sockets client remote index).1
      (sockets client remote index).2) ?_ ?_ ⟨schedule, h⟩ index
  · exact fun _ => ⟨[], {}, rfl, rfl, fun _ => rfl, fun _ hplace => by cases hplace⟩
  · intro state action following hstate hnext
    cases next_step hnext with
    | join => exact hstate
    | start index hbody hplace =>
        refine put_forall (P := fun index direction => direction.Simulates
          (sockets client remote index).1 (sockets client remote index).2) (hstate index) ?_ hstate
        intro moved hsubmit
        obtain ⟨completions, forwarder, hrun, hfollows⟩ := hstate index
        exact ⟨completions, forwarder, hrun,
          submit_read_follows hfollows.writes (hfollows.unstarted hplace) hsubmit⟩
    | complete index completion suspended pending hpossible hplace =>
        obtain ⟨completions, forwarder, hrun, hfollows⟩ := hstate index
        have hobserved : ((state.direction index).observe completion).Simulates
            (sockets client remote index).1 (sockets client remote index).2 :=
          ⟨completions, forwarder, hrun, hfollows.observe completion⟩
        refine put_forall (P := fun index direction => direction.Simulates
          (sockets client remote index).1 (sockets client remote index).2) hobserved ?_ hstate
        exact fun moved hcomplete => hobserved.complete hplace hcomplete

end Toad.Socks5.RelayEnd
