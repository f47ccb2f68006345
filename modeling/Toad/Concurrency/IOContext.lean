import Toad.Bytes.Buffer
import Toad.Concurrency.Future

/-!
# Pending operations and their completions

`concurrency/pending.hpp` and the `submit_*` and `_handle_pending` families of
`concurrency/iocontext.hpp`. A handler is modelled by the values it passes to
`handle.set_value`, in order, and by the flag it returns. Between a submission and its
completion the kernel may store bytes at the address it was given. The kernel result is a
signed `int`; the handlers convert it to descriptors and to `size_t` exactly as the source
does, which is where the error results go wrong: `completion_faithful_iff`.
-/

namespace Toad

/-- `Socket`: the descriptor it owns. -/
structure Socket where
  sockfd : Int
  deriving DecidableEq, Repr

/-- `PendingListen`, without its handle. -/
structure PendingListen where
  sockfd : Int
  deriving DecidableEq, Repr

/-- `PendingConnect`, without its handle and the address the kernel reads. -/
structure PendingConnect where
  sockfd : Int
  deriving DecidableEq, Repr

/-- `PendingReadSome`, without its handle. -/
structure PendingReadSome where
  sockfd : Int
  buffer : Buffer
  deriving DecidableEq, Repr

/-- `PendingReadSomeVec`, without its handle and the reference to the vector. -/
structure PendingReadSomeVec where
  sockfd : Int
  initialSize : Nat
  deriving DecidableEq, Repr

/-- `PendingWriteSome`: the descriptor and the private copy of the span. -/
structure PendingWriteSome where
  sockfd : Int
  buffer : List UInt8
  deriving DecidableEq, Repr

/-- The effect of a `_handle_pending` call on its future: the values passed to `set_value`, in
order, and the returned flag. -/
structure Handled (T : Type) where
  values : List T
  keepAlive : Bool
  deriving DecidableEq

namespace IOContext

/-- `_handle_pending(PendingConnect)`. -/
def handlePendingConnect (res : Int) (connect : PendingConnect) : Handled (Option Socket) :=
  if res < 0 then { values := [none], keepAlive := false }
  else { values := [some ⟨connect.sockfd⟩], keepAlive := false }

/-- `_handle_pending(PendingReadSome)`. The `int` result becomes the `sz` length of a slice. -/
def handlePendingReadSome (res : Int) (readSome : PendingReadSome) : Handled (Option Buffer) :=
  let value :=
    if res = 0 then none else some (readSome.buffer.sliceLength (szOfInt res))
  { values := [value], keepAlive := false }

/-- `_handle_pending(PendingReadSomeVec)`, with the vector before and after. Code `-104` is
`ECONNRESET`. -/
def handlePendingReadSomeVec (res : Int) (readSome : PendingReadSomeVec) (vec : List UInt8) :
    Except StdException (List UInt8 × Handled Nat) :=
  if res < 0 ∧ res = -104 then
    -- the early return leaves the future unset
    .ok (vec, { values := [], keepAlive := false })
  else do
    let vec ← vectorResize vec (szAdd readSome.initialSize (szOfInt res))
    pure (vec, { values := [szOfInt res], keepAlive := false })

/-- `_handle_pending(PendingListen)`. -/
def handlePendingListen (res : Int) (_listen : PendingListen) : Handled Socket :=
  { values := [⟨res⟩], keepAlive := false }

/-- `_handle_pending(PendingWriteSome)`: it logs an error result and does nothing else. -/
def handlePendingWriteSome (_res : Int) (_writeSome : PendingWriteSome) : Handled Unit :=
  { values := [], keepAlive := false }

/-- `submit_read_some(socket, max_size)`: the pending operation it allocates. -/
def submitReadSome (socket : Socket) (maxSize : Nat) : PendingReadSome :=
  { sockfd := socket.sockfd, buffer := Buffer.ofSize maxSize }

/-- `submit_read_some(socket, vec, max_size)`: the pending operation and the vector grown to
make room for the bytes to come. -/
def submitReadSomeVec (socket : Socket) (vec : List UInt8) (maxSize : Nat) :
    Except StdException (PendingReadSomeVec × List UInt8) := do
  let initialSize := vec.length
  let grown ← vectorResize vec (szAdd initialSize maxSize)
  pure ({ sockfd := socket.sockfd, initialSize := initialSize }, grown)

/-- `submit_write_some(socket, span)`: the pending operation, holding a copy of the span. -/
def submitWriteSome (socket : Socket) (span : List UInt8) : PendingWriteSome :=
  { sockfd := socket.sockfd, buffer := span }

/-- The kernel stores bytes at `vec.data() + offset`. -/
def kernelStore (vec : List UInt8) (offset : Nat) (stored : List UInt8) : List UInt8 :=
  vec.take offset ++ stored ++ vec.drop (offset + stored.length)

/-- What the kernel makes of a read: the bytes it stores and the result it reports. -/
structure Completion where
  stored : List UInt8
  res : Int
  deriving DecidableEq, Repr

/-- A whole read into a vector: submission, the kernel's store, and the completion handler. -/
def readSomeVec (socket : Socket) (vec : List UInt8) (maxSize : Nat) (completion : Completion) :
    Except StdException (List UInt8 × Handled Nat) := do
  let (pending, grown) ← submitReadSomeVec socket vec maxSize
  handlePendingReadSomeVec completion.res pending
    (kernelStore grown pending.initialSize completion.stored)

/-- The completion of a read that delivers `chunk`. -/
def delivers (chunk : List UInt8) : Completion :=
  { stored := chunk, res := chunk.length }

/-- Submission grows the vector by `max_size` zero bytes when the result fits in memory. -/
theorem submit_read_some_vec_eq {vec : List UInt8} {maxSize : Nat} (socket : Socket)
    (hfit : vec.length + maxSize ≤ vectorMaxSize) :
    submitReadSomeVec socket vec maxSize =
      .ok ({ sockfd := socket.sockfd, initialSize := vec.length },
        vec ++ List.replicate maxSize 0) := by
  have hadd : szAdd vec.length maxSize = vec.length + maxSize := by
    apply sz_add_eq
    unfold vectorMaxSize at hfit
    omega
  rw [submitReadSomeVec, hadd, vector_resize_grow hfit]
  rfl

/-- Storing at the old end overwrites the reserved room only. -/
theorem kernel_store_reserved (vec stored : List UInt8) (maxSize : Nat) :
    kernelStore (vec ++ List.replicate maxSize 0) vec.length stored =
      vec ++ stored ++ List.replicate (maxSize - stored.length) 0 := by
  simp [kernelStore, List.drop_append]

/-- A read whose result is not negative appends exactly that many of the stored bytes. -/
theorem read_some_vec_append {vec stored : List UInt8} {maxSize count : Nat} (socket : Socket)
    (hfit : vec.length + maxSize ≤ vectorMaxSize) (hstored : stored.length ≤ maxSize)
    (hcount : count ≤ stored.length) :
    readSomeVec socket vec maxSize { stored := stored, res := count } =
      .ok (vec ++ stored.take count, { values := [count], keepAlive := false }) := by
  have hbound : vec.length + maxSize < 2 ^ 63 := by
    unfold vectorMaxSize at hfit
    omega
  have hsz : szOfInt (count : Int) = count := by
    rw [sz_of_int_nonneg (by omega) (by omega)]
    rfl
  have hadd : szAdd vec.length count = vec.length + count := sz_add_eq (by omega)
  have hnonneg : ¬ ((count : Int) < 0 ∧ (count : Int) = -104) := by omega
  have hresize : vectorResize (vec ++ stored ++ List.replicate (maxSize - stored.length) 0)
      (vec.length + count) = .ok (vec ++ stored.take count) := by
    rw [vector_resize_shrink (by simp; omega) (by omega)]
    simp [List.take_append, Nat.sub_eq_zero_of_le hcount, List.take_of_length_le]
  simp only [readSomeVec, submit_read_some_vec_eq socket hfit, bind, Except.bind,
    handlePendingReadSomeVec, if_neg hnonneg, hsz, hadd, kernel_store_reserved, hresize]
  rfl

/-- A read that delivers a chunk appends the chunk. -/
theorem read_some_vec_delivers {vec chunk : List UInt8} {maxSize : Nat} (socket : Socket)
    (hfit : vec.length + maxSize ≤ vectorMaxSize) (hchunk : chunk.length ≤ maxSize) :
    readSomeVec socket vec maxSize (delivers chunk) =
      .ok (vec ++ chunk, { values := [chunk.length], keepAlive := false }) := by
  have h := read_some_vec_append socket hfit hchunk (Nat.le_refl chunk.length)
  rwa [List.take_length] at h

/-! ## What a completion reports -/

/-- The handler called `set_value` exactly once, with `value`, so that an awaiting coroutine is
spawned once and finds `value`. -/
def Settled {T : Type} (handled : Handled T) (value : T) : Prop :=
  FutureState.settle (FutureState.awaiting ()) handled.values =
    some (FutureState.fulfilled () value, [()])

/-- An operation whose completion settles a future, as its submission left it. The vector read
carries the vector before the submission and the bytes that the kernel stored. -/
inductive Operation where
  | accept (listener : Int)
  | connect (sockfd : Int)
  | readSome (socket : Socket) (maxSize : Nat)
  | readSomeVec (socket : Socket) (vec : List UInt8) (maxSize : Nat) (stored : List UInt8)
  deriving DecidableEq, Repr

namespace Operation

/-- The allocations of the submission went through. -/
def Submitted : Operation → Prop
  | accept _ | connect _ => True
  | readSome _ maxSize => maxSize ≤ vectorMaxSize
  | readSomeVec _ vec maxSize _ => vec.length + maxSize ≤ vectorMaxSize

/-- The results the kernel reports: an error code in `[-4095, -1]`, or a descriptor, or zero for
a connected socket, or the number of bytes it has stored. Connecting a descriptor that is not
open fails. -/
def KernelResult : Operation → Int → Prop
  | accept _, res => -4095 ≤ res
  | connect sockfd, res => -4095 ≤ res ∧ res ≤ 0 ∧ (sockfd < 0 → res < 0)
  | readSome _ maxSize, res => -4095 ≤ res ∧ res ≤ maxSize
  | readSomeVec _ _ maxSize stored, res =>
      -4095 ≤ res ∧ res ≤ stored.length ∧ stored.length ≤ maxSize

/-- The completion settles its future once, and reports success only for a success. -/
def SettlesFaithfully : Operation → Int → Prop
  | accept listener, res =>
      ∃ socket, Settled (handlePendingListen res ⟨listener⟩) socket ∧ 0 ≤ socket.sockfd
  | connect sockfd, res =>
      ∃ value, Settled (handlePendingConnect res ⟨sockfd⟩) value ∧
        ∀ socket, value = some socket → 0 ≤ socket.sockfd ∧ 0 ≤ res
  | readSome socket maxSize, res =>
      ∃ value, Settled (handlePendingReadSome res (submitReadSome socket maxSize)) value ∧
        (0 < res → ∃ buffer, value = some buffer ∧ buffer.WithinBounds maxSize ∧
          (buffer.size : Int) = res) ∧
        (res ≤ 0 → value = none)
  | readSomeVec socket vec maxSize stored, res =>
      ∃ after handled count,
        IOContext.readSomeVec socket vec maxSize { stored := stored, res := res } =
          .ok (after, handled) ∧
        Settled handled count ∧ count ≤ maxSize ∧ 0 ≤ res

/-- The operation is a connect. -/
def IsConnect : Operation → Prop
  | connect _ => True
  | accept _ | readSome _ _ | readSomeVec _ _ _ _ => False

end Operation

/-- Settling is calling `set_value` once. -/
theorem settled_iff {T : Type} {handled : Handled T} {value : T} :
    Settled handled value ↔ handled.values = [value] :=
  FutureState.settle_awaiting_iff

/-- An accept is reported faithfully exactly if the result is a descriptor: an error code is
delivered as a socket too. -/
theorem accept_faithful_iff (listener res : Int) :
    (Operation.accept listener).SettlesFaithfully res ↔ 0 ≤ res := by
  show (∃ socket, Settled (handlePendingListen res ⟨listener⟩) socket ∧ 0 ≤ socket.sockfd) ↔ _
  simp [settled_iff, handlePendingListen]

/-- A connect is always reported faithfully. -/
theorem connect_faithful {sockfd res : Int}
    (hres : (Operation.connect sockfd).KernelResult res) :
    (Operation.connect sockfd).SettlesFaithfully res := by
  obtain ⟨_, _, hclosed⟩ := hres
  by_cases hneg : res < 0
  · refine ⟨none, settled_iff.mpr ?_, fun socket h => absurd h (by simp)⟩
    simp [handlePendingConnect, hneg]
  · refine ⟨some ⟨sockfd⟩, settled_iff.mpr ?_, fun socket h => ?_⟩
    · simp [handlePendingConnect, hneg]
    · obtain rfl : Socket.mk sockfd = socket := Option.some.inj h
      show 0 ≤ sockfd ∧ 0 ≤ res
      omega

/-- A buffer read is reported faithfully exactly if the result is not an error code: a negative
result becomes a slice of almost `2 ^ 64` bytes. -/
theorem read_some_faithful_iff {socket : Socket} {maxSize : Nat} {res : Int}
    (hsubmitted : (Operation.readSome socket maxSize).Submitted)
    (hres : (Operation.readSome socket maxSize).KernelResult res) :
    (Operation.readSome socket maxSize).SettlesFaithfully res ↔ 0 ≤ res := by
  have hbound : maxSize ≤ vectorMaxSize := hsubmitted
  unfold vectorMaxSize at hbound
  obtain ⟨_, hle⟩ := hres
  constructor
  · intro hfaithful
    obtain ⟨value, hsettled, _, hnone⟩ := hfaithful
    by_contra hneg
    rw [settled_iff, hnone (by omega)] at hsettled
    have hne : res ≠ 0 := by omega
    simp [handlePendingReadSome, hne] at hsettled
  · intro hnonneg
    by_cases hzero : res = 0
    · subst hzero
      exact ⟨none, settled_iff.mpr rfl, fun h => absurd h (by omega), fun _ => rfl⟩
    · have hsz := sz_of_int_nonneg hnonneg (by omega)
      have hslice := Buffer.slice_length_of_size maxSize
        (show szOfInt res < 2 ^ 64 by omega)
      refine ⟨some ⟨List.replicate maxSize 0, 0, szOfInt res⟩, settled_iff.mpr ?_,
        fun _ => ⟨_, rfl, ?_, ?_⟩, fun h => by omega⟩
      · simp only [handlePendingReadSome, submitReadSome, if_neg hzero, hslice]
      · show 0 + szOfInt res ≤ maxSize
        omega
      · show (szOfInt res : Int) = res
        omega

/-- A vector read is reported faithfully exactly if the result is not an error code: a reset
connection leaves the future unset, any other error is delivered as a huge count or makes the
resize throw. -/
theorem read_some_vec_faithful_iff {socket : Socket} {vec stored : List UInt8} {maxSize : Nat}
    {res : Int} (hsubmitted : (Operation.readSomeVec socket vec maxSize stored).Submitted)
    (hres : (Operation.readSomeVec socket vec maxSize stored).KernelResult res) :
    (Operation.readSomeVec socket vec maxSize stored).SettlesFaithfully res ↔ 0 ≤ res := by
  obtain ⟨_, hle, hstored⟩ := hres
  constructor
  · intro hfaithful
    obtain ⟨_, _, _, _, _, _, hnonneg⟩ := hfaithful
    exact hnonneg
  · intro hnonneg
    obtain ⟨count, rfl⟩ := Int.eq_ofNat_of_zero_le hnonneg
    have hcount : count ≤ stored.length := by omega
    exact ⟨_, _, count, read_some_vec_append socket hsubmitted hstored hcount,
      settled_iff.mpr rfl, by omega, hnonneg⟩

/-- For every operation and every kernel result, the completion settles its future once and
faithfully exactly if the operation is a connect or the result is not an error code. -/
theorem completion_faithful_iff (operation : Operation) (res : Int)
    (hsubmitted : operation.Submitted) (hres : operation.KernelResult res) :
    operation.SettlesFaithfully res ↔ operation.IsConnect ∨ 0 ≤ res := by
  cases operation with
  | accept listener =>
      rw [accept_faithful_iff]
      simp [Operation.IsConnect]
  | connect sockfd =>
      exact iff_of_true (connect_faithful hres) (Or.inl trivial)
  | readSome socket maxSize =>
      rw [read_some_faithful_iff hsubmitted hres]
      simp [Operation.IsConnect]
  | readSomeVec socket vec maxSize stored =>
      rw [read_some_vec_faithful_iff hsubmitted hres]
      simp [Operation.IsConnect]

/-- A read of three bytes into a buffer of ten is reported faithfully. -/
theorem completion_faithful_short_read :
    (Operation.readSome ⟨5⟩ 10).SettlesFaithfully 3 :=
  (completion_faithful_iff (.readSome ⟨5⟩ 10) 3 (show 10 ≤ vectorMaxSize by decide)
    ⟨by decide, by decide⟩).mpr (Or.inr (by decide))

/-- An accept that fails with `EMFILE` delivers a socket with descriptor `-24`; a buffer read
that fails with `EAGAIN` delivers a buffer of `2 ^ 64 - 11` bytes; a vector read whose
connection was reset never sets its future. -/
theorem error_results_delivered :
    (handlePendingListen (-24) ⟨3⟩).values = [⟨-24⟩] ∧
      (Operation.accept 3).KernelResult (-24) ∧
      ¬ (Operation.accept 3).SettlesFaithfully (-24) ∧
      ((handlePendingReadSome (-11) (submitReadSome ⟨5⟩ 10)).values.map
        (Option.map Buffer.size)) = [some (2 ^ 64 - 11)] ∧
      ((handlePendingReadSomeVec (-104) ⟨5, 0⟩ []).map (fun result => result.2.values)) =
        .ok [] := by
  refine ⟨rfl, ?_, ?_, ?_, ?_⟩
  · show -4095 ≤ (-24 : Int)
    decide
  · rw [accept_faithful_iff]
    decide
  · decide +kernel
  · rfl

end IOContext

end Toad
