import Mathlib.Data.List.Count
import Mathlib.Data.List.Nodup
import Mathlib.Data.Nat.Log
import Toad.Concurrency.IOContext
import Toad.Execution.Machine
import Toad.Execution.Ring

/-!
# Submitting operations to the ring

The `submit_*` family of `concurrency/iocontext.hpp`. Every call takes a slot with
`io_uring_get_sqe`, fills it with a `prep` function, and stores the address of its
`PendingVariant` in `user_data`, without looking at the number of free slots and without any
lock; the event loop publishes with `io_uring_submit` whatever has been handed out so far.
The first part bounds how many calls fit between two submits, the second interleaves the
steps of the calls with the event loop.

Allocations of at most `PTRDIFF_MAX` bytes are taken to succeed; a larger one throws, which in
the read into a `Buffer` comes before `io_uring_get_sqe` and in the read into a vector after it.
-/

namespace Toad

open Execution

/-- `PendingVariant`. -/
inductive PendingVariant where
  | readSome (pending : PendingReadSome)
  | listen (pending : PendingListen)
  | connect (pending : PendingConnect)
  | writeSome (pending : PendingWriteSome)
  | readSomeVec (pending : PendingReadSomeVec)
  deriving DecidableEq, Repr

/-- A call of the `submit_*` family with its arguments. The descriptor of a connect is what
`socket()` returned to it. -/
inductive Request where
  | acceptIpv4 (listener : Int)
  | connectIpv4 (sockfd : Int) (ip : Vector UInt8 4) (port : UInt16)
  | readSome (socket : Socket) (maxSize : Nat)
  | readSomeVec (socket : Socket) (vec : List UInt8) (maxSize : Nat)
  | writeSome (socket : Socket) (span : List UInt8)
  deriving DecidableEq, Repr

/-- What a `prep` function stores in a slot. A length is passed as a 32-bit `unsigned`. -/
inductive Prepared where
  | accept (fd : Int)
  | connect (fd : Int) (ip : Vector UInt8 4) (port : UInt16)
  | read (fd : Int) (length : Nat)
  | write (fd : Int) (bytes : List UInt8) (length : Nat)
  deriving DecidableEq, Repr

namespace Request

/-- The `PendingVariant` that the call allocates. -/
def pending : Request → PendingVariant
  | acceptIpv4 listener => .listen ⟨listener⟩
  | connectIpv4 sockfd _ _ => .connect ⟨sockfd⟩
  | readSome socket maxSize => .readSome (IOContext.submitReadSome socket maxSize)
  | readSomeVec socket vec _ =>
      .readSomeVec { sockfd := socket.sockfd, initialSize := vec.length }
  | writeSome socket span => .writeSome (IOContext.submitWriteSome socket span)

/-- The operation that the call prepares. -/
def operation : Request → Prepared
  | acceptIpv4 listener => .accept listener
  | connectIpv4 sockfd ip port => .connect sockfd ip port
  | readSome socket maxSize => .read socket.sockfd (maxSize % 2 ^ 32)
  | readSomeVec socket _ maxSize => .read socket.sockfd (maxSize % 2 ^ 32)
  | writeSome socket span => .write socket.sockfd span (span.length % 2 ^ 32)

/-- The call leaves by an exception before `io_uring_get_sqe`: only the read into a `Buffer` does
something there that can throw, the allocation of its array. -/
def refused : Request → Bool
  | readSome _ maxSize => decide (vectorMaxSize < maxSize)
  | acceptIpv4 _ | connectIpv4 _ _ _ | readSomeVec _ _ _ | writeSome _ _ => false

/-- The call leaves by an exception between `io_uring_get_sqe` and `prep`: only the vector read
does something there that can throw, the resize of its vector. -/
def throws : Request → Bool
  | readSomeVec _ vec maxSize => decide (vectorMaxSize < szAdd vec.length maxSize)
  | acceptIpv4 _ | connectIpv4 _ _ _ | readSome _ _ | writeSome _ _ => false

end Request

/-! ## Capacity -/

namespace Capacity

/-- The number of slots of the ring: `batch_size` rounded up to a power of two. For a
`batch_size` of 0 or above 32768 there is no ring, `io_uring_queue_init` fails and the
constructor aborts; nothing below is about a program for these values. -/
def ringSize (batchSize : UInt32) : Nat :=
  2 ^ Nat.clog 2 batchSize.toNat

/-- The submission queue between two submits, and whether a null slot was prepared. -/
structure Queue where
  handedOut : Nat := 0
  nullPrepared : Bool := false
  deriving DecidableEq, Repr

/-- A `submit_*` call, or an iteration of `event_loop`. -/
inductive Event where
  | call (request : Request)
  | iteration
  deriving DecidableEq, Repr

/-- `io_uring_get_sqe`: a slot number, or `none` for the null pointer when every slot was handed
out. -/
def getSqe (batchSize : UInt32) (queue : Queue) : Option Nat × Queue :=
  if queue.handedOut = ringSize batchSize then (none, queue)
  else (some queue.handedOut, { queue with handedOut := queue.handedOut + 1 })

/-- A call takes a slot, unless it is refused before that, and prepares what it got, unless it
throws. An iteration begins with `io_uring_submit`. -/
def step (batchSize : UInt32) (queue : Queue) : Event → Queue
  | .call request =>
      if request.refused then queue
      else
        let (sqe, queue) := getSqe batchSize queue
        if request.throws then queue
        else { queue with nullPrepared := queue.nullPrepared || sqe.isNone }
  | .iteration => { queue with handedOut := 0 }

/-- Run a sequence of calls and iterations on a fresh ring. -/
def runAll (batchSize : UInt32) (events : List Event) : Queue :=
  events.foldl (step batchSize) {}

/-- The event is a call. -/
def Event.isCall : Event → Bool
  | .call _ => true
  | .iteration => false

/-- The event is a call that gets as far as `io_uring_get_sqe`. -/
def Event.getsSqe : Event → Bool
  | .call request => !request.refused
  | .iteration => false

/-- The number of calls since the last iteration that got as far as `io_uring_get_sqe`. -/
def callsSinceSubmit (events : List Event) : Nat :=
  (events.reverse.takeWhile Event.isCall).countP Event.getsSqe

/-- The call gets as far as its `prep`. -/
def Prepares (request : Request) : Prop :=
  request.refused = false ∧ request.throws = false

/-- Every call that gets as far as its `prep` comes after fewer calls than the ring has slots,
counted from the last iteration. -/
def WithinCapacity (batchSize : UInt32) (events : List Event) : Prop :=
  ∀ earlier request later, events = earlier ++ .call request :: later →
    Prepares request → callsSinceSubmit earlier < ringSize batchSize

/-- The last event of a run. -/
theorem run_all_concat (batchSize : UInt32) (earlier : List Event) (event : Event) :
    runAll batchSize (earlier ++ [event]) = step batchSize (runAll batchSize earlier) event := by
  rw [runAll, List.foldl_append]
  rfl

/-- A call that gets as far as `io_uring_get_sqe` is counted, and an iteration starts a new
count. -/
theorem calls_since_concat (earlier : List Event) (event : Event) :
    callsSinceSubmit (earlier ++ [event]) =
      match event with
      | .call request =>
          if request.refused then callsSinceSubmit earlier else callsSinceSubmit earlier + 1
      | .iteration => 0 := by
  rw [callsSinceSubmit, List.reverse_concat, List.takeWhile_cons]
  cases event with
  | iteration => rfl
  | call request =>
      rw [if_pos (show Event.isCall (.call request) = true from rfl), List.countP_cons]
      cases hrefused : request.refused with
      | true => simp [callsSinceSubmit, Event.getsSqe, hrefused]
      | false => simp [callsSinceSubmit, Event.getsSqe, hrefused]

/-- A call that is refused leaves the queue alone. -/
theorem step_refused {request : Request} (batchSize : UInt32) (queue : Queue)
    (hrefused : request.refused = true) : step batchSize queue (.call request) = queue := by
  simp [step, hrefused]

/-- What a call does that is not refused: it takes a slot if there is one, whether it throws
afterwards or not, and without a slot it prepares the null pointer unless it throws. -/
theorem step_call {request : Request} (batchSize : UInt32) (queue : Queue)
    (hrefused : request.refused = false) :
    step batchSize queue (.call request) =
      { handedOut :=
          if queue.handedOut = ringSize batchSize then queue.handedOut else queue.handedOut + 1
        nullPrepared := queue.nullPrepared ||
          (!request.throws && decide (queue.handedOut = ringSize batchSize)) } := by
  by_cases hfull : queue.handedOut = ringSize batchSize
  · cases hthrows : request.throws with
    | true => simp [step, hrefused, getSqe, ← hfull, hthrows]
    | false => simp [step, hrefused, getSqe, hfull, hthrows]
  · cases hthrows : request.throws with
    | true => simp [step, hrefused, getSqe, hfull, hthrows]
    | false => simp [step, hrefused, getSqe, hfull, hthrows]

/-- A call prepares the null slot exactly if it gets as far as its `prep` and every slot was
handed out. -/
theorem step_call_null_prepared (batchSize : UInt32) (queue : Queue) (request : Request) :
    (step batchSize queue (.call request)).nullPrepared = false ↔
      queue.nullPrepared = false ∧
        (Prepares request → queue.handedOut ≠ ringSize batchSize) := by
  cases hrefused : request.refused with
  | true => simp [step_refused batchSize queue hrefused, Prepares, hrefused]
  | false =>
      rw [step_call batchSize queue hrefused]
      simp [Prepares, hrefused]

/-- The slots handed out are the calls since the last iteration, up to the size of the ring. -/
theorem handed_out_eq (batchSize : UInt32) (events : List Event) :
    (runAll batchSize events).handedOut = min (callsSinceSubmit events) (ringSize batchSize) := by
  induction events using List.reverseRecOn with
  | nil => simp [runAll, callsSinceSubmit]
  | append_singleton earlier event ih =>
      rw [run_all_concat, calls_since_concat]
      cases event with
      | iteration => simp [step]
      | call request =>
          cases hrefused : request.refused with
          | true => simpa [step_refused _ _ hrefused, hrefused] using ih
          | false =>
              simp only [step_call _ _ hrefused, hrefused, Bool.false_eq_true, if_false]
              split
              · omega
              · omega

/-- The capacity of a longer sequence is that of its front together with its last event. -/
theorem within_capacity_concat {batchSize : UInt32} {earlier : List Event} {event : Event} :
    WithinCapacity batchSize (earlier ++ [event]) ↔
      WithinCapacity batchSize earlier ∧ ∀ request, event = .call request →
        Prepares request → callsSinceSubmit earlier < ringSize batchSize := by
  constructor
  · intro h
    refine ⟨?_, ?_⟩
    · intro before request later hsplit
      refine h before request (later ++ [event]) ?_
      rw [hsplit]
      simp
    · intro request hevent
      exact h earlier request [] (by rw [hevent])
  · intro h before request later hsplit
    obtain ⟨hearlier, hlast⟩ := h
    -- the call is either the last event or one of the earlier ones
    rcases List.eq_nil_or_concat later with rfl | ⟨front, last, rfl⟩
    · obtain ⟨rfl, hevent⟩ := List.append_inj' hsplit rfl
      exact hlast request (List.singleton_inj.mp hevent)
    · have hfront : earlier ++ [event] = (before ++ .call request :: front) ++ [last] := by
        simpa using hsplit
      obtain ⟨hfront, _⟩ := List.append_inj' hfront rfl
      exact hearlier before request front hfront

/-- For every `batch_size` and every sequence of calls and iterations, no call prepares a null
slot exactly if the calls stay within the capacity of the ring. -/
theorem no_null_prepared_iff (batchSize : UInt32) (events : List Event) :
    (runAll batchSize events).nullPrepared = false ↔ WithinCapacity batchSize events := by
  induction events using List.reverseRecOn with
  | nil => simp [runAll, WithinCapacity]
  | append_singleton earlier event ih =>
      rw [run_all_concat, within_capacity_concat, ← ih]
      cases event with
      | iteration => simp [step]
      | call request =>
          have hfull : (runAll batchSize earlier).handedOut ≠ ringSize batchSize ↔
              callsSinceSubmit earlier < ringSize batchSize := by
            rw [handed_out_eq]
            omega
          simp [step_call_null_prepared, hfull]

/-- A ring for 64 entries has 64 slots. -/
theorem ring_size_64 : ringSize 64 = 64 := by
  have hlog : Nat.clog 2 (2 ^ 6) = 6 := Nat.clog_pow 2 6 (by omega)
  calc ringSize 64 = 2 ^ Nat.clog 2 (2 ^ 6) := rfl
    _ = 2 ^ 6 := congrArg (2 ^ ·) hlog
    _ = 64 := rfl

/-- With the default `batch_size`, a burst of 65 writes between two iterations ends with a null
slot. -/
theorem burst_prepares_null :
    (runAll 64 (List.replicate 65 (.call (.writeSome ⟨5⟩ [0])))).nullPrepared = true := by
  rw [List.replicate_succ', run_all_concat]
  refine Bool.not_eq_false _ |>.mp fun hnull => ?_
  refine ((step_call_null_prepared _ _ _).mp hnull).2 ⟨rfl, rfl⟩ ?_
  have hcalls : callsSinceSubmit (List.replicate 64 (.call (.writeSome ⟨5⟩ [0]))) = 64 := rfl
  rw [handed_out_eq, hcalls, ring_size_64]
  rfl

end Capacity

/-! ## Calls and the event loop -/

namespace Submission

variable {C : Type} [DecidableEq C]

/-- The address stored in `user_data`: which call allocated the `PendingVariant` there, and what
it put into it. -/
structure Allocation (C : Type) where
  call : C
  pending : PendingVariant
  deriving DecidableEq, Repr

/-- A slot of the submission ring, as far as it was written. -/
structure Sqe (C : Type) where
  operation : Option Prepared := none
  userData : Option (Allocation C) := none
  deriving DecidableEq, Repr

/-- Where a call stands: before `io_uring_get_sqe`, before `prep`, before the store of
`user_data`, or past it. -/
inductive Place where
  | idle
  | obtained (position : Nat)
  | prepared (position : Nat)
  | finished
  deriving DecidableEq, Repr

/-- The calls `C`, the slots of the ring, the calls in the order in which they obtained their
positions, how many positions are published, and what the kernel received for each of them. -/
structure State (C : Type) where
  place : C → Place := fun _ => .idle
  slots : Nat → Sqe C := fun _ => {}
  obtained : List C := []
  published : Nat := 0
  received : List (C × Sqe C) := []

/-- The steps of the calls, and `io_uring_submit` in the event loop. -/
inductive Action (C : Type) where
  | getSqe (call : C)
  | prep (call : C)
  | setUserData (call : C)
  | submit
  deriving DecidableEq, Repr

section Machine

variable (entries : Nat) (request : C → Request)

omit entries request in
/-- Hand the next position out to a call. -/
def State.handOut (state : State C) (call : C) : State C :=
  { state with
    place := Function.update state.place call (.obtained state.obtained.length)
    obtained := state.obtained ++ [call] }

/-- Store into the slot of a position and move the call. -/
def State.store (state : State C) (call : C) (position : Nat) (sqe : Sqe C) (place : Place) :
    State C :=
  { state with
    slots := Ring.set entries state.slots position sqe
    place := Function.update state.place call place }

/-- What the kernel finds in the slots that are not published yet. -/
def State.unpublished (state : State C) : List (C × Sqe C) :=
  (state.obtained.zipIdx.drop state.published).map fun (call, position) =>
    (call, Ring.get entries state.slots position)

/-- One step of a call or of the event loop. -/
def next (state : State C) : Action C → Option (State C)
  | .getSqe call =>
      if state.place call = .idle ∧ (request call).refused = false ∧
          state.obtained.length < state.published + entries then
        some (state.handOut call)
      else none
  | .prep call =>
      match state.place call with
      | .obtained position =>
          if (request call).throws then none
          else
            some (state.store entries call position
              { Ring.get entries state.slots position with
                operation := some (request call).operation }
              (.prepared position))
      | _ => none
  | .setUserData call =>
      match state.place call with
      | .prepared position =>
          some (state.store entries call position
            { Ring.get entries state.slots position with
              userData := some ⟨call, (request call).pending⟩ }
            .finished)
      | _ => none
  | .submit =>
      some { state with
        published := state.obtained.length
        received := state.received ++ state.unpublished entries }

/-- Calls with their requests on a ring of `entries` slots, and the event loop. -/
def machine : Machine (State C) (Action C) where
  init := {}
  next := next entries request

/-- A slot that a call has filled completely. -/
def filled (call : C) : Sqe C :=
  { operation := some (request call).operation
    userData := some ⟨call, (request call).pending⟩ }

/-- Every slot that the kernel received is filled by the call that obtained it, and the operation
of a call reached the kernel exactly once if its position is published, and not before. -/
def Delivered (state : State C) : Prop :=
  (∀ call sqe, (call, sqe) ∈ state.received → sqe = filled request call) ∧
    ∀ call, (state.received.map Prod.snd).count (filled request call) =
      if call ∈ state.obtained.take state.published then 1 else 0

/-- The event loop submits only while no call is between `io_uring_get_sqe` and its store of
`user_data`. -/
def SubmitsWhole (state : State C) (action : Action C) : Prop :=
  action = .submit → ∀ call ∈ state.obtained, state.place call = .finished

instance (state : State C) (action : Action C) : Decidable (SubmitsWhole state action) :=
  inferInstanceAs (Decidable (_ → _))

/-- The invariant of a run that submits only whole calls. -/
structure Inv (state : State C) : Prop where
  nodup : state.obtained.Nodup
  published_le : state.published ≤ state.obtained.length
  window : state.obtained.length ≤ state.published + entries
  idle_iff : ∀ call, state.place call = .idle ↔ call ∉ state.obtained
  current : ∀ call position,
    state.place call = .obtained position ∨ state.place call = .prepared position →
      state.obtained[position]? = some call ∧ state.published ≤ position
  prepared : ∀ call position, state.place call = .prepared position →
    (Ring.get entries state.slots position).operation = some (request call).operation
  finished : ∀ call position, state.place call = .finished →
    state.obtained[position]? = some call → state.published ≤ position →
      Ring.get entries state.slots position = filled request call
  user_data : ∀ index allocation, (state.slots index).userData = some allocation →
    state.place allocation.call = .finished
  received : state.received =
    (state.obtained.take state.published).map fun call => (call, filled request call)

variable {entries request} {state following : State C} {action : Action C}

omit [DecidableEq C] in
/-- The pairs that are not published yet name the obtained calls with their positions. -/
theorem mem_unpublished_iff {obtained : List C} {published position : Nat} {call : C} :
    (call, position) ∈ obtained.zipIdx.drop published ↔
      obtained[position]? = some call ∧ published ≤ position := by
  rw [List.mem_iff_getElem?]
  constructor
  · intro h
    obtain ⟨offset, hoffset⟩ := h
    rw [List.getElem?_drop, List.getElem?_zipIdx, Option.map_eq_some_iff] at hoffset
    obtain ⟨found, hfound, hpair⟩ := hoffset
    obtain ⟨rfl, rfl⟩ := Prod.mk.inj hpair
    simp only [Nat.zero_add]
    exact ⟨hfound, by omega⟩
  · intro h
    obtain ⟨hfound, hle⟩ := h
    refine ⟨position - published, ?_⟩
    rw [List.getElem?_drop, List.getElem?_zipIdx, Nat.add_sub_cancel' hle, hfound]
    simp

omit [DecidableEq C] in
/-- A call has one position. -/
theorem Inv.position_eq (h : Inv entries request state) {call : C} {first second : Nat}
    (hfirst : state.obtained[first]? = some call) (hsecond : state.obtained[second]? = some call) :
    first = second := by
  obtain ⟨hlt, hget⟩ := List.getElem?_eq_some_iff.mp hfirst
  obtain ⟨hlt', hget'⟩ := List.getElem?_eq_some_iff.mp hsecond
  exact (h.nodup.getElem_inj_iff).mp (hget.trans hget'.symm)

omit [DecidableEq C] in
/-- Positions of different calls that are not published yet have different slots. -/
theorem Inv.get_store_other (h : Inv entries request state) {call other : C}
    {position position' : Nat} {sqe : Sqe C} (hcall : state.obtained[position]? = some call)
    (hle : state.published ≤ position) (hother : state.obtained[position']? = some other)
    (hle' : state.published ≤ position') (hne : other ≠ call) :
    Ring.get entries (Ring.set entries state.slots position sqe) position' =
      Ring.get entries state.slots position' := by
  have hlt := (List.getElem?_eq_some_iff.mp hcall).1
  have hlt' := (List.getElem?_eq_some_iff.mp hother).1
  have hwindow := h.window
  refine Ring.get_set_of_window state.slots ⟨hle, by omega⟩ ⟨hle', by omega⟩ ?_
  intro heq
  rw [heq, hcall] at hother
  exact hne (Option.some.inj hother).symm

/-- Taking a slot keeps the invariant. -/
theorem Inv.getSqe {call : C} (h : Inv entries request state) (hidle : state.place call = .idle)
    (hroom : state.obtained.length < state.published + entries) :
    Inv entries request (state.handOut call) := by
  have hnew : call ∉ state.obtained := (h.idle_iff call).mp hidle
  have hle := h.published_le
  have hother : ∀ other, other ≠ call → (state.handOut call).place other = state.place other :=
    fun other hne => Function.update_of_ne hne ..
  have hself : (state.handOut call).place call = .obtained state.obtained.length :=
    Function.update_self ..
  have hobtained : (state.handOut call).obtained = state.obtained ++ [call] := rfl
  refine ⟨?_, ?_, ?_, ?_, ?_, ?_, ?_, ?_, ?_⟩
  · rw [hobtained, ← List.concat_eq_append]
    exact h.nodup.concat hnew
  · rw [hobtained, List.length_append]
    show state.published ≤ _
    omega
  · rw [hobtained, List.length_append, List.length_singleton]
    show _ ≤ state.published + entries
    omega
  · intro other
    rw [hobtained]
    by_cases heq : other = call
    · subst heq
      simp [hself]
    · simpa [hother other heq, heq] using h.idle_iff other
  · intro other position hplace
    by_cases heq : other = call
    · subst heq
      simp only [hself, Place.obtained.injEq, reduceCtorEq, or_false] at hplace
      subst hplace
      exact ⟨by simp [hobtained], hle⟩
    · rw [hother other heq] at hplace
      obtain ⟨hposition, hlate⟩ := h.current other position hplace
      have hlt := (List.getElem?_eq_some_iff.mp hposition).1
      exact ⟨by rw [hobtained, List.getElem?_append_left hlt, hposition], hlate⟩
  · intro other position hplace
    by_cases heq : other = call
    · subst heq
      simp [hself] at hplace
    · rw [hother other heq] at hplace
      exact h.prepared other position hplace
  · intro other position hplace hposition hlate
    by_cases heq : other = call
    · subst heq
      simp [hself] at hplace
    · rw [hother other heq] at hplace
      refine h.finished other position hplace ?_ hlate
      rw [hobtained] at hposition
      by_cases hlt : position < state.obtained.length
      · rwa [List.getElem?_append_left hlt] at hposition
      · rw [List.getElem?_append_right (by omega), List.getElem?_singleton] at hposition
        split at hposition
        · exact absurd (Option.some.inj hposition).symm heq
        · cases hposition
  · intro index allocation hdata
    have hfinished := h.user_data index allocation hdata
    have hne : allocation.call ≠ call := by
      intro heq
      rw [heq, hidle] at hfinished
      cases hfinished
    exact (hother _ hne).trans hfinished
  · show state.received = ((state.obtained ++ [call]).take state.published).map _
    rw [List.take_append_of_le_length hle]
    exact h.received

/-- A store moves the call. -/
theorem place_store_self (state : State C) (call : C) (position : Nat) (sqe : Sqe C)
    (place : Place) : (state.store entries call position sqe place).place call = place :=
  Function.update_self ..

/-- A store moves no other call. -/
theorem place_store_other (state : State C) {call other : C} (position : Nat) (sqe : Sqe C)
    (place : Place) (hne : other ≠ call) :
    (state.store entries call position sqe place).place other = state.place other :=
  Function.update_of_ne hne ..

/-- A store fills the slot of its position. -/
theorem get_store_self (state : State C) (call : C) (position : Nat) (sqe : Sqe C)
    (place : Place) :
    Ring.get entries (state.store entries call position sqe place).slots position = sqe :=
  Ring.get_set_self ..

/-- What a call leaves in its slot and where it stands then: it has prepared the slot, or it has
filled it. -/
def Fills (entries : Nat) (request : C → Request) (state : State C) (call : C) (position : Nat)
    (sqe : Sqe C) (place : Place) : Prop :=
  (place = .prepared position ∧ sqe.operation = some (request call).operation ∧
      sqe.userData = (Ring.get entries state.slots position).userData) ∨
    (place = .finished ∧ sqe = filled request call)

/-- After a store, too, `user_data` names only calls that are past theirs. -/
theorem Inv.user_data_store {call : C} {position : Nat} {sqe : Sqe C} {place : Place}
    (h : Inv entries request state)
    (hplace : state.place call = .obtained position ∨ state.place call = .prepared position)
    (hafter : Fills entries request state call position sqe place) :
    ∀ index allocation,
      ((state.store entries call position sqe place).slots index).userData = some allocation →
        (state.store entries call position sqe place).place allocation.call = .finished := by
  intro index allocation hdata
  -- `user_data` names a call that is past its store: one that was, or this one now
  have hold : state.place allocation.call = .finished ∨
      (allocation.call = call ∧ place = .finished) := by
    by_cases hindex : index = position % entries
    · subst hindex
      have hsqe : sqe.userData = some allocation := by
        rw [← get_store_self state call position sqe place]
        exact hdata
      rcases hafter with ⟨_, _, hsame⟩ | ⟨rfl, rfl⟩
      · exact Or.inl (h.user_data (position % entries) allocation (hsame ▸ hsqe))
      · obtain rfl := Option.some.inj hsqe
        exact Or.inr ⟨rfl, rfl⟩
    · have hsame : (state.store entries call position sqe place).slots index =
          state.slots index :=
        Function.update_of_ne hindex ..
      rw [hsame] at hdata
      exact Or.inl (h.user_data index allocation hdata)
  rcases hold with hold | ⟨heq, rfl⟩
  · have hne : allocation.call ≠ call := by
      intro heq
      rw [heq] at hold
      rcases hplace with hplace | hplace
      · exact absurd (hplace.symm.trans hold) (by simp)
      · exact absurd (hplace.symm.trans hold) (by simp)
    exact (place_store_other state position sqe place hne).trans hold
  · rw [heq]
    exact place_store_self ..

/-- A store of a call into its own slot keeps the invariant. -/
theorem Inv.store {call : C} {position : Nat} {sqe : Sqe C} {place : Place}
    (h : Inv entries request state)
    (hplace : state.place call = .obtained position ∨ state.place call = .prepared position)
    (hafter : Fills entries request state call position sqe place) :
    Inv entries request (state.store entries call position sqe place) := by
  obtain ⟨hposition, hlate⟩ := h.current call position hplace
  have hself : (state.store entries call position sqe place).place call = place :=
    place_store_self ..
  have hget : Ring.get entries (state.store entries call position sqe place).slots position = sqe :=
    get_store_self ..
  have hother : ∀ other, other ≠ call →
      (state.store entries call position sqe place).place other = state.place other :=
    fun other => place_store_other state position sqe place
  refine ⟨h.nodup, h.published_le, h.window, ?_, ?_, ?_, ?_, ?_, h.received⟩
  · intro other
    by_cases heq : other = call
    · subst heq
      have hmem : other ∈ state.obtained := List.mem_of_getElem? hposition
      rw [hself]
      refine iff_of_false ?_ (not_not_intro hmem)
      rcases hafter with ⟨rfl, _⟩ | ⟨rfl, _⟩
      · simp
      · simp
    · rw [hother other heq]
      exact h.idle_iff other
  · intro other position' hplace'
    by_cases heq : other = call
    · subst heq
      rw [hself] at hplace'
      rcases hafter with ⟨rfl, _⟩ | ⟨rfl, _⟩
      · simp only [reduceCtorEq, Place.prepared.injEq, false_or] at hplace'
        subst hplace'
        exact ⟨hposition, hlate⟩
      · simp at hplace'
    · rw [hother other heq] at hplace'
      exact h.current other position' hplace'
  · intro other position' hplace'
    by_cases heq : other = call
    · subst heq
      rw [hself] at hplace'
      rcases hafter with ⟨rfl, hoperation, _⟩ | ⟨rfl, _⟩
      · obtain rfl := Place.prepared.inj hplace'
        rw [hget]
        exact hoperation
      · cases hplace'
    · rw [hother other heq] at hplace'
      obtain ⟨hposition', hlate'⟩ := h.current other position' (Or.inr hplace')
      show (Ring.get entries (Ring.set entries state.slots position sqe) position').operation = _
      rw [h.get_store_other hposition hlate hposition' hlate' heq]
      exact h.prepared other position' hplace'
  · intro other position' hplace' hposition' hlate'
    by_cases heq : other = call
    · subst heq
      rw [hself] at hplace'
      rcases hafter with ⟨rfl, _⟩ | ⟨_, rfl⟩
      · cases hplace'
      · obtain rfl := h.position_eq hposition hposition'
        exact hget
    · rw [hother other heq] at hplace'
      show Ring.get entries (Ring.set entries state.slots position sqe) position' = _
      rw [h.get_store_other hposition hlate hposition' hlate' heq]
      exact h.finished other position' hplace' hposition' hlate'
  · exact h.user_data_store hplace hafter

omit [DecidableEq C] in
/-- When every call is finished, the slots that are not published yet are filled. -/
theorem Inv.unpublished_eq (h : Inv entries request state)
    (hwhole : ∀ call ∈ state.obtained, state.place call = .finished) :
    state.unpublished entries =
      (state.obtained.drop state.published).map fun call => (call, filled request call) := by
  have hfst : (state.obtained.zipIdx.drop state.published).map Prod.fst =
      state.obtained.drop state.published := by
    rw [List.map_drop, List.zipIdx_map_fst]
  rw [← hfst, List.map_map, State.unpublished]
  refine List.map_congr_left fun entry hmem => ?_
  obtain ⟨call, position⟩ := entry
  obtain ⟨hposition, hlate⟩ := mem_unpublished_iff.mp hmem
  have hfinished := hwhole call (List.mem_of_getElem? hposition)
  show (call, Ring.get entries state.slots position) = (call, filled request call)
  rw [h.finished call position hfinished hposition hlate]

omit [DecidableEq C] in
/-- A submit of whole calls keeps the invariant. -/
theorem Inv.submit (h : Inv entries request state)
    (hwhole : ∀ call ∈ state.obtained, state.place call = .finished) :
    Inv entries request { state with
      published := state.obtained.length
      received := state.received ++ state.unpublished entries } := by
  have hnone : ∀ call position,
      ¬ (state.place call = .obtained position ∨ state.place call = .prepared position) := by
    intro call position hplace
    obtain ⟨hposition, _⟩ := h.current call position hplace
    have hfinished := hwhole call (List.mem_of_getElem? hposition)
    rw [hfinished] at hplace
    simp at hplace
  refine ⟨h.nodup, Nat.le_refl _, Nat.le_add_right _ _, h.idle_iff, ?_, ?_, ?_, h.user_data, ?_⟩
  · intro call position hplace
    exact absurd hplace (hnone call position)
  · intro call position hplace
    exact absurd (Or.inr hplace) (hnone call position)
  · intro call position _ hposition hlate
    have hlt := (List.getElem?_eq_some_iff.mp hposition).1
    exact absurd hlate (by simpa using hlt)
  · show state.received ++ state.unpublished entries =
      (state.obtained.take state.obtained.length).map _
    rw [h.received, h.unpublished_eq hwhole, ← List.map_append, List.take_append_drop,
      List.take_length]

/-- A step that submits only whole calls keeps the invariant. -/
theorem Inv.step (h : Inv entries request state) (hguard : SubmitsWhole state action)
    (hnext : next entries request state action = some following) :
    Inv entries request following := by
  cases action with
  | getSqe call =>
      simp only [next, Option.ite_none_right_eq_some, Option.some.injEq] at hnext
      obtain ⟨⟨hidle, -, hroom⟩, rfl⟩ := hnext
      exact h.getSqe hidle hroom
  | prep call =>
      simp only [next] at hnext
      split at hnext
      · rename_i position hplace
        simp only [Option.ite_none_left_eq_some, Option.some.injEq] at hnext
        obtain ⟨_, rfl⟩ := hnext
        exact h.store (Or.inl hplace) (Or.inl ⟨rfl, rfl, rfl⟩)
      · cases hnext
  | setUserData call =>
      simp only [next] at hnext
      split at hnext
      · rename_i position hplace
        cases hnext
        refine h.store (Or.inr hplace) (Or.inr ⟨rfl, ?_⟩)
        rw [h.prepared call position hplace]
        rfl
      · cases hnext
  | submit =>
      simp only [next, Option.some.injEq] at hnext
      subst hnext
      exact h.submit (hguard rfl)

/-- A submit in the middle of a call hands the kernel a slot without the `user_data` of that
call. -/
theorem Inv.submit_early (h : Inv entries request state) (hguard : ¬ SubmitsWhole state action)
    (hnext : next entries request state action = some following) :
    ¬ Delivered request following := by
  simp only [SubmitsWhole, Classical.not_imp, not_forall] at hguard
  obtain ⟨rfl, call, hmem, hunfinished⟩ := hguard
  simp only [next, Option.some.injEq] at hnext
  subst hnext
  obtain ⟨position, hplace⟩ : ∃ position,
      state.place call = .obtained position ∨ state.place call = .prepared position := by
    cases hplace : state.place call with
    | idle => exact absurd hmem ((h.idle_iff call).mp hplace)
    | obtained position => exact ⟨position, Or.inl rfl⟩
    | prepared position => exact ⟨position, Or.inr rfl⟩
    | finished => exact absurd hplace hunfinished
  intro hdelivered
  have hpublished : (call, Ring.get entries state.slots position) ∈ state.unpublished entries :=
    List.mem_map.mpr ⟨(call, position), mem_unpublished_iff.mpr (h.current call position hplace),
      rfl⟩
  have hfilled := hdelivered.1 call _ (List.mem_append_right _ hpublished)
  exact hunfinished (h.user_data _ _ (congrArg Sqe.userData hfilled))

/-- The invariant gives the delivery. -/
theorem Inv.delivered (h : Inv entries request state) : Delivered request state := by
  have hinjective : Function.Injective (filled request) := by
    intro first second heq
    have hdata := congrArg Sqe.userData heq
    exact congrArg Allocation.call (Option.some.inj hdata)
  have hnodup : (state.obtained.take state.published).Nodup :=
    h.nodup.sublist (List.take_sublist _ _)
  refine ⟨?_, ?_⟩
  · intro call sqe hmem
    rw [h.received, List.mem_map] at hmem
    obtain ⟨owner, _, hentry⟩ := hmem
    obtain ⟨rfl, rfl⟩ := Prod.mk.inj hentry
    rfl
  · intro call
    have hsqes : state.received.map Prod.snd =
        (state.obtained.take state.published).map (filled request) := by
      rw [h.received, List.map_map]
      rfl
    rw [hsqes, List.count_map_of_injective _ _ hinjective, hnodup.count]

end Machine

/-- For every ring, every number of calls with any requests, and every interleaving with the
event loop: the kernel receives every operation once and filled by its own call exactly if the
event loop never submits while a call is between `io_uring_get_sqe` and its store of
`user_data`. -/
theorem delivered_iff {entries : Nat} {request : C → Request} {schedule : List (Action C)}
    {state : State C} (hrun : (machine entries request).run schedule = some state) :
    (machine entries request).Guarded SubmitsWhole schedule ↔
      (machine entries request).Always (Delivered request) schedule := by
  have hinit : Inv entries request (machine entries request).init := by
    constructor
    all_goals simp [machine]
  exact Machine.guarded_iff_always hinit (fun _ _ _ => Inv.step) (fun _ => Inv.delivered)
    (fun _ _ _ => Inv.submit_early) hrun

/-- Two writes, whose submits fall between whole calls. -/
theorem delivered_between_calls :
    ((machine 2 fun call : Bool => .writeSome ⟨5⟩ [if call then 1 else 0]).run
      [.getSqe true, .prep true, .setUserData true, .submit, .getSqe false, .prep false,
        .setUserData false, .submit]).map (fun state => state.received.length) = some 2 ∧
      (machine 2 fun call : Bool => .writeSome ⟨5⟩ [if call then 1 else 0]).Always
        (Delivered fun call : Bool => .writeSome ⟨5⟩ [if call then 1 else 0])
        [.getSqe true, .prep true, .setUserData true, .submit, .getSqe false, .prep false,
          .setUserData false, .submit] :=
  ⟨rfl, (delivered_iff rfl).mp (by decide)⟩

/-- A submit between `io_uring_get_sqe` and `prep`: the kernel receives a slot that nobody has
written, and the operation of the call never reaches it. -/
theorem submit_before_prep :
    ((machine 2 fun _ : Unit => .writeSome ⟨5⟩ [1]).run
      [.getSqe (), .submit, .prep (), .setUserData (), .submit]).map State.received =
        some [((), {})] ∧
      ¬ (machine 2 fun _ : Unit => .writeSome ⟨5⟩ [1]).Always
        (Delivered fun _ : Unit => .writeSome ⟨5⟩ [1])
        [.getSqe (), .submit, .prep (), .setUserData (), .submit] := by
  refine ⟨rfl, ?_⟩
  intro halways
  obtain ⟨hfilled, _⟩ := halways _ _ (List.prefix_refl _) rfl
  exact absurd (hfilled () {} (by decide)) (by decide)

end Submission

end Toad
