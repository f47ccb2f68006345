import Toad.Concurrency.IOContext

/-!
# Writes in flight

`submit_write_some` copies its span and returns at once; the caller has nothing to wait for.
The kernel executes the writes in flight on a socket in any order, each of them up to any
length, and the completion handler looks at neither. The bytes that reach the peer are
therefore those of the submitted spans only when the kernel happens to execute every write
whole and in order: `write_some_in_order`.
-/

namespace Toad.WriteSome

open Execution IOContext

/-- How far a submitted write has come: in flight, executed with the result the kernel reports, or
handled, with the pending operation if the event loop kept it alive. -/
inductive Phase where
  | inFlight (pending : PendingWriteSome)
  | executed (pending : PendingWriteSome) (res : Int)
  | handled (kept : Option PendingWriteSome)
  deriving DecidableEq, Repr

/-- A call of `submit_write_some` and its phase. -/
structure Write where
  span : List UInt8
  phase : Phase
  deriving DecidableEq, Repr

/-- The writes in the order of their submission, and what the peer has received. -/
structure State where
  writes : List Write := []
  delivered : List UInt8 := []
  deriving DecidableEq, Repr

/-- The caller submits a span, the kernel executes a write up to some length, or the event loop
handles a completion. -/
inductive Action where
  | submit (span : List UInt8)
  | execute (index count : Nat)
  | handle (index : Nat)
  deriving DecidableEq, Repr

/-- One step on a socket. -/
def next (socket : Socket) (state : State) : Action → Option State
  | .submit span =>
      some { state with
        writes := state.writes ++ [⟨span, .inFlight (submitWriteSome socket span)⟩] }
  | .execute index count =>
      match state.writes[index]? with
      | some ⟨span, .inFlight pending⟩ =>
          if count ≤ pending.buffer.length then
            some
              { writes := state.writes.set index ⟨span, .executed pending count⟩
                delivered := state.delivered ++ pending.buffer.take count }
          else none
      | _ => none
  | .handle index =>
      match state.writes[index]? with
      | some ⟨span, .executed pending res⟩ =>
          let kept := if (handlePendingWriteSome res pending).keepAlive then some pending else none
          some { state with writes := state.writes.set index ⟨span, .handled kept⟩ }
      | _ => none

/-- The writes on one socket. -/
def machine (socket : Socket) : Machine State Action where
  init := {}
  next := next socket

/-- The kernel has executed the write. -/
def Write.isExecuted (write : Write) : Bool :=
  match write.phase with
  | .inFlight _ => false
  | .executed _ _ | .handled _ => true

/-- The completion of the write has been handled. -/
def Write.isHandled (write : Write) : Bool :=
  match write.phase with
  | .inFlight _ | .executed _ _ => false
  | .handled _ => true

/-- The concatenation of the submitted spans. -/
def State.requested (state : State) : List UInt8 :=
  (state.writes.map Write.span).flatten

/-- The peer has received a prefix of what was submitted, and all of it once every completion has
been handled. -/
def Faithful (state : State) : Prop :=
  state.delivered <+: state.requested ∧
    ((∀ write ∈ state.writes, write.isHandled = true) → state.delivered = state.requested)

/-- The step does not execute a write before an earlier one or only in part. -/
def WholeInOrder (state : State) : Action → Prop
  | .execute index count =>
      (∀ write ∈ state.writes.take index, write.isExecuted = true) ∧
        ∀ write ∈ state.writes[index]?, count = write.span.length
  | .submit _ | .handle _ => True

instance (state : State) : ∀ action, Decidable (WholeInOrder state action)
  | .execute index count =>
      inferInstanceAs (Decidable ((∀ write ∈ state.writes.take index, write.isExecuted = true) ∧
        ∀ write ∈ state.writes[index]?, count = write.span.length))
  | .submit _ | .handle _ => isTrue trivial

/-- The invariant of runs that execute whole writes in order: `sent` has been executed, `waiting`
is in flight. -/
structure Inv (state : State) (sent waiting : List Write) : Prop where
  writes : state.writes = sent ++ waiting
  executed : ∀ write ∈ sent, write.isExecuted = true
  inFlight : ∀ write ∈ waiting, ∃ pending, write.phase = .inFlight pending ∧
    pending.buffer = write.span
  delivered : state.delivered = (sent.map Write.span).flatten

/-- A write in flight is not among the executed ones. -/
theorem Inv.not_executed {state : State} {sent waiting : List Write}
    (h : Inv state sent waiting) {write : Write} (hwrite : write ∈ waiting) :
    write.isExecuted = false := by
  obtain ⟨pending, hphase, -⟩ := h.inFlight write hwrite
  simp [Write.isExecuted, hphase]

/-- The write that the kernel executes in order is the first one that waits. -/
theorem Inv.first_waiting {state : State} {sent waiting : List Write} {index : Nat}
    {write : Write} (h : Inv state sent waiting) (hget : state.writes[index]? = some write)
    (hunsent : write.isExecuted = false)
    (horder : ∀ earlier ∈ state.writes.take index, earlier.isExecuted = true) :
    index = sent.length ∧ ∃ rest, waiting = write :: rest := by
  rw [h.writes] at hget horder
  have hle : sent.length ≤ index := by
    by_contra hlt
    rw [List.getElem?_append_left (by omega)] at hget
    have := h.executed write (List.mem_of_getElem? hget)
    simp [hunsent] at this
  rw [List.getElem?_append_right hle] at hget
  cases waiting with
  | nil => simp at hget
  | cons first rest =>
      have hindex : index = sent.length := by
        by_contra hne
        -- otherwise the first waiting write stands before the executed one
        have hmem : first ∈ (sent ++ first :: rest).take index := by
          rw [List.take_append]
          refine List.mem_append_right _ ?_
          obtain ⟨gap, hgap⟩ : ∃ gap, index - sent.length = gap + 1 :=
            ⟨index - sent.length - 1, by omega⟩
          simp [hgap]
        have hfirst := horder first hmem
        simp [h.not_executed (List.mem_cons_self ..)] at hfirst
      refine ⟨hindex, rest, ?_⟩
      simp only [hindex, Nat.sub_self, List.getElem?_cons_zero, Option.some.injEq] at hget
      rw [hget]

/-- Executing the first waiting write whole. -/
theorem Inv.execute {state : State} {sent rest : List Write} {span : List UInt8}
    {pending : PendingWriteSome} {res : Int}
    (h : Inv state sent (⟨span, .inFlight pending⟩ :: rest)) :
    Inv { writes := state.writes.set sent.length ⟨span, .executed pending res⟩
          delivered := state.delivered ++ pending.buffer.take span.length }
      (sent ++ [⟨span, .executed pending res⟩]) rest := by
  have hbuffer : pending.buffer = span := by
    obtain ⟨other, hphase, hbuffer⟩ := h.inFlight _ (List.mem_cons_self ..)
    obtain rfl : pending = other := Phase.inFlight.inj hphase
    exact hbuffer
  refine ⟨?_, ?_, fun write hwrite => h.inFlight write (List.mem_cons_of_mem _ hwrite), ?_⟩
  · simp [h.writes]
  · intro write hwrite
    rcases List.mem_append.mp hwrite with hsent | hlast
    · exact h.executed write hsent
    · rw [List.mem_singleton.mp hlast]
      rfl
  · simp [h.delivered, hbuffer]

/-- Handling the completion of an executed write. -/
theorem Inv.handle {state : State} {sent waiting : List Write} {index : Nat} {write : Write}
    (h : Inv state sent waiting) (hget : state.writes[index]? = some write)
    (hsent : write.isExecuted = true) (kept : Option PendingWriteSome) :
    Inv { state with writes := state.writes.set index ⟨write.span, .handled kept⟩ }
      (sent.set index ⟨write.span, .handled kept⟩) waiting := by
  rw [h.writes] at hget
  have hlt : index < sent.length := by
    by_contra hge
    rw [List.getElem?_append_right (by omega)] at hget
    have := h.not_executed (List.mem_of_getElem? hget)
    simp [hsent] at this
  rw [List.getElem?_append_left hlt] at hget
  refine ⟨?_, ?_, h.inFlight, ?_⟩
  · rw [h.writes, List.set_append_left _ _ hlt]
  · intro other hother
    rcases List.mem_or_eq_of_mem_set hother with hold | rfl
    · exact h.executed other hold
    · rfl
  · -- the handler changes no span
    have hspan : (sent.set index ⟨write.span, .handled kept⟩).map Write.span =
        sent.map Write.span := by
      obtain ⟨_, rfl⟩ := List.getElem?_eq_some_iff.mp hget
      have hset := List.set_getElem_self (show index < (sent.map Write.span).length by simpa)
      rw [List.getElem_map] at hset
      rw [List.map_set]
      exact hset
    rw [hspan]
    exact h.delivered

/-- A step that executes whole writes in order preserves the invariant. -/
theorem Inv.step {socket : Socket} {state following : State} {action : Action}
    (h : ∃ sent waiting, Inv state sent waiting) (hguard : WholeInOrder state action)
    (hnext : next socket state action = some following) :
    ∃ sent waiting, Inv following sent waiting := by
  obtain ⟨sent, waiting, h⟩ := h
  cases action with
  | submit span =>
      obtain rfl := Option.some.inj hnext
      refine ⟨sent, waiting ++ [⟨span, .inFlight (submitWriteSome socket span)⟩], ?_, h.executed,
        ?_, h.delivered⟩
      · simp [h.writes]
      · intro write hwrite
        rcases List.mem_append.mp hwrite with hwaiting | hnew
        · exact h.inFlight write hwaiting
        · rw [List.mem_singleton.mp hnew]
          exact ⟨_, rfl, rfl⟩
  | execute index count =>
      simp only [next] at hnext
      split at hnext
      · rename_i span pending hget
        simp only [Option.ite_none_right_eq_some, Option.some.injEq] at hnext
        obtain ⟨-, rfl⟩ := hnext
        obtain ⟨horder, hwhole⟩ := hguard
        obtain rfl : count = span.length := hwhole _ hget
        obtain ⟨rfl, rest, rfl⟩ := h.first_waiting hget rfl horder
        exact ⟨_, rest, h.execute⟩
      · cases hnext
  | handle index =>
      simp only [next] at hnext
      split at hnext
      · rename_i span pending res hget
        obtain rfl := Option.some.inj hnext
        exact ⟨_, waiting, h.handle hget rfl _⟩
      · cases hnext

/-- Executed writes have been delivered, so what is missing is still in flight. -/
theorem Inv.faithful {state : State} {sent waiting : List Write} (h : Inv state sent waiting) :
    Faithful state := by
  have hrequested : state.requested = state.delivered ++ (waiting.map Write.span).flatten := by
    simp [State.requested, h.writes, h.delivered]
  refine ⟨⟨_, hrequested.symm⟩, fun hall => ?_⟩
  have hnone : waiting = [] := by
    refine List.eq_nil_iff_forall_not_mem.mpr fun write hwrite => ?_
    obtain ⟨pending, hphase, -⟩ := h.inFlight write hwrite
    have := hall write (by simp [h.writes, hwrite])
    simp [Write.isHandled, hphase] at this
  simp [hrequested, hnone]

/-- For any submissions and any behaviour of the kernel that executes every write whole and after
those submitted before it, the peer has at every moment a prefix of what was submitted, and all
of it once every completion has been handled. -/
theorem write_some_in_order {socket : Socket} {schedule : List Action} {state : State}
    (h : (machine socket).run schedule = some state)
    (hguard : (machine socket).Guarded WholeInOrder schedule) : Faithful state := by
  have hinit : ∃ sent waiting, Inv (machine socket).init sent waiting :=
    ⟨[], [], rfl, by simp, by simp, rfl⟩
  obtain ⟨sent, waiting, hinv⟩ := Machine.guarded_invariant hinit
    (fun _ _ _ hinv hguard hnext => Inv.step hinv hguard hnext) h hguard
  exact hinv.faithful

/-- Two writes in flight together, executed whole and in order. -/
def inOrder : List Action :=
  [.submit [1, 2], .submit [3], .execute 0 2, .execute 1 1, .handle 1, .handle 0]

theorem write_some_in_order_two :
    ((machine ⟨4⟩).run inOrder).map State.delivered = some [1, 2, 3] ∧
      ∀ state, (machine ⟨4⟩).run inOrder = some state → Faithful state :=
  ⟨rfl, fun _ hrun => write_some_in_order hrun (by decide)⟩

/-- A short write loses its rest, and two writes in flight may be swapped. -/
theorem write_some_unfaithful :
    (∃ state, (machine ⟨4⟩).run [.submit [1, 2], .execute 0 1, .handle 0] = some state ∧
      ¬ Faithful state) ∧
    ∃ state, (machine ⟨4⟩).run [.submit [1], .submit [2], .execute 1 1] = some state ∧
      ¬ Faithful state := by
  refine ⟨⟨_, rfl, fun hfaithful => ?_⟩, ⟨_, rfl, fun hfaithful => ?_⟩⟩
  · exact absurd (hfaithful.2 (by decide)) (by decide)
  · exact absurd hfaithful.1 (by decide)

end Toad.WriteSome
