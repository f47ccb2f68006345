import Toad.Bytes.Chain
import Toad.Execution.Machine

/-!
# The bounds of the streams

Every stream operation is guarded by `cursor + size <= buffer.size()`, computed in `size_t`. A
stream is a machine here whose actions are its operations, with any length that `size_t` can
hold, so that a schedule is a chain of calls on one buffer. The cursor stays inside the buffer
whatever is asked for, but the guard is exact only as long as the addition does not wrap:
`bounds_exact_iff`.
-/

namespace Toad

namespace Bounds

open Execution Chain
open RoundTrip (ByteBuffer Target Value)

/-- A read whose length is a value of `size_t`. -/
structure ReadRequest where
  target : Target
  size_lt : target.size < 2 ^ 64

/-- A write whose length is a value of `size_t`. -/
structure WriteRequest where
  element : Write
  size_lt : element.size < 2 ^ 64

/-- A chain of reads from a buffer. A read that throws has no next state. -/
def input (buffer : ByteBuffer) : Machine ByteIStream ReadRequest where
  init := {}
  next stream request := (RoundTrip.read stream buffer.bytes request.target).toOption.map Prod.fst

/-- A chain of writes to a buffer. A write that leaves the buffer, or that copies from outside the
allocation of another one, has no next state. -/
def output (buffer : ByteBuffer) : Machine (ByteOStream × List UInt8) WriteRequest where
  init := ({}, buffer.bytes)
  next state request := Chain.write state.1 state.2 request.element

/-- The cursor is inside the buffer, and `remaining()` is what lies behind it. -/
def ReadInside (buffer : ByteBuffer) (stream : ByteIStream) : Prop :=
  stream.cursor ≤ buffer.bytes.length ∧
    stream.cursor + stream.remaining buffer.bytes = buffer.bytes.length

/-- The cursor is inside the buffer, whose size has not changed. -/
def WriteInside (buffer : ByteBuffer) (state : ByteOStream × List UInt8) : Prop :=
  state.1.cursor ≤ state.2.length ∧ state.2.length = buffer.bytes.length

/-- The read fails: it sets the error code of a stream that has none. -/
def ReadFails (buffer : ByteBuffer) (stream : ByteIStream) (target : Target) : Prop :=
  ∃ result, RoundTrip.read { stream with errc := .ok } buffer.bytes target = .ok result ∧
    result.1.errc = .notEnoughData

/-- The write fails: it sets the error code of a stream that has none. -/
def WriteFails (state : ByteOStream × List UInt8) (element : Write) : Prop :=
  ∃ result, Chain.write { state.1 with errc := .ok } state.2 element = some result ∧
    result.1.errc = .notEnoughData

/-- The read fails exactly when it asks for more than is left, and then changes neither the cursor
nor its destination. -/
def ReadExact (buffer : ByteBuffer) (stream : ByteIStream) (request : ReadRequest) : Prop :=
  (ReadFails buffer stream request.target ↔
    buffer.bytes.length - stream.cursor < request.target.size) ∧
  (ReadFails buffer stream request.target →
    ∃ result, RoundTrip.read stream buffer.bytes request.target = .ok result ∧
      result.1.cursor = stream.cursor ∧ result.2 = request.target.held)

/-- The write fails exactly when it asks for more than is left, and then changes neither the cursor
nor the buffer. -/
def WriteExact (state : ByteOStream × List UInt8) (request : WriteRequest) : Prop :=
  (WriteFails state request.element ↔
    state.2.length - state.1.cursor < request.element.size) ∧
  (WriteFails state request.element →
    ∃ result, Chain.write state.1 state.2 request.element = some result ∧
      result.1.cursor = state.1.cursor ∧ result.2 = state.2)

/-- The guard of the read does not wrap. -/
def ReadGuarded (stream : ByteIStream) (request : ReadRequest) : Prop :=
  stream.cursor + request.target.size < 2 ^ 64

/-- The guard of the write does not wrap. -/
def WriteGuarded (state : ByteOStream × List UInt8) (request : WriteRequest) : Prop :=
  state.1.cursor + request.element.size < 2 ^ 64

/-- A guard computed in `size_t` is exact exactly when it does not wrap. -/
theorem guard_exact_iff {cursor size length : Nat} (hcursor : cursor ≤ length)
    (hlength : length < 2 ^ 64) (hsize : size < 2 ^ 64) :
    (¬ szAdd cursor size ≤ length ↔ length - cursor < size) ↔ cursor + size < 2 ^ 64 := by
  unfold szAdd
  omega

section Reads

variable {buffer : ByteBuffer} {stream : ByteIStream} {target : Target}

/-- A read whose guard passes and that returns has advanced the cursor by what it asked for. -/
theorem read_advances {result : ByteIStream × Option Value}
    (hguard : szAdd stream.cursor target.size ≤ buffer.bytes.length)
    (h : RoundTrip.read stream buffer.bytes target = .ok result) :
    result.1 = stream.advance target.size := by
  cases target with
  | u8 out =>
      have hread : stream.readU8 buffer.bytes out =
          (stream.advance 1, buffer.bytes[stream.cursor]?) := if_pos hguard
      simp only [RoundTrip.read, hread] at h
      rw [← Except.ok.inj h]
      rfl
  | u16 out =>
      change szAdd stream.cursor 2 ≤ buffer.bytes.length at hguard
      have hread : (stream.readU16 buffer.bytes out).1 = stream.advance 2 := by
        rw [ByteIStream.readU16, if_pos hguard]
      simp only [RoundTrip.read] at h
      rw [← Except.ok.inj h]
      exact hread
  | array size out =>
      change szAdd stream.cursor size ≤ buffer.bytes.length at hguard
      have hread : (stream.readArray buffer.bytes out).1 = stream.advance size := by
        rw [ByteIStream.readArray, if_pos hguard]
      simp only [RoundTrip.read] at h
      rw [← Except.ok.inj h]
      exact hread
  | vector vec count =>
      change szAdd stream.cursor (count.getD vec.length) ≤ buffer.bytes.length at hguard
      simp only [RoundTrip.read, ByteIStream.readVector, if_pos hguard] at h
      cases hresize : vectorResize vec (count.getD vec.length) with
      | error exception => simp [hresize, bind, Except.bind] at h
      | ok resized =>
          simp only [hresize, bind, Except.bind, pure, Except.pure, Except.ok.injEq] at h
          rw [← h]
          rfl

/-- A read fails exactly when its guard does. -/
theorem read_fails_iff :
    ReadFails buffer stream target ↔ ¬ szAdd stream.cursor target.size ≤ buffer.bytes.length := by
  -- the guard does not look at the error code
  let fresh : ByteIStream := { stream with errc := .ok }
  constructor
  · intro h hguard
    change szAdd fresh.cursor target.size ≤ buffer.bytes.length at hguard
    obtain ⟨result, hread, herrc⟩ := h
    rw [read_advances hguard hread] at herrc
    cases herrc
  · intro hguard
    change ¬ szAdd fresh.cursor target.size ≤ buffer.bytes.length at hguard
    exact ⟨_, read_refused hguard, rfl⟩

/-- A read from a stream whose cursor is inside the buffer is exact exactly when its guard does not
wrap. -/
theorem read_exact_iff (hcursor : stream.cursor ≤ buffer.bytes.length) (request : ReadRequest) :
    ReadExact buffer stream request ↔ ReadGuarded stream request := by
  have hguard := guard_exact_iff hcursor buffer.size_lt request.size_lt
  rw [ReadExact, read_fails_iff, hguard]
  refine ⟨And.left, fun h => ⟨h, fun hrefused => ?_⟩⟩
  exact ⟨_, read_refused hrefused, rfl, rfl⟩

/-- With the cursor inside the buffer, `remaining()` does not wrap. -/
theorem read_inside_of_le (h : stream.cursor ≤ buffer.bytes.length) : ReadInside buffer stream := by
  refine ⟨h, ?_⟩
  rw [ByteIStream.remaining_eq buffer.size_lt h]
  omega

/-- No read takes the cursor out of the buffer. -/
theorem read_inside_step {request : ReadRequest} {following : ByteIStream}
    (hinside : ReadInside buffer stream)
    (h : (input buffer).next stream request = some following) :
    ReadInside buffer following := by
  apply read_inside_of_le
  obtain ⟨result, hresult, rfl⟩ := Option.map_eq_some_iff.mp h
  have hread : RoundTrip.read stream buffer.bytes request.target = .ok result := by
    cases hcases : RoundTrip.read stream buffer.bytes request.target with
    | error exception => simp [hcases, Except.toOption] at hresult
    | ok value => simpa [hcases, Except.toOption] using hresult
  by_cases hguard : szAdd stream.cursor request.target.size ≤ buffer.bytes.length
  · rw [read_advances hguard hread]
    exact hguard
  · rw [← Except.ok.inj ((read_refused hguard).symm.trans hread)]
    exact hinside.1

end Reads

section Writes

variable {state : ByteOStream × List UInt8} {element : Write}

/-- A copy into the buffer keeps its size. -/
theorem length_copy_in {buffer bytes copied : List UInt8} {offset : Nat}
    (h : ByteOStream.copyIn buffer bytes offset = some copied) :
    copied.length = buffer.length := by
  unfold ByteOStream.copyIn at h
  split at h
  case isTrue hinside =>
      rw [← Option.some.inj h]
      simp only [List.length_append, List.length_take, List.length_drop]
      omega
  case isFalse => cases h

/-- A copy whose guard passes and that returns has advanced the cursor by what it asked for, in a
buffer of the same size. -/
theorem write_bytes_advances {stream : ByteOStream} {buffer : List UInt8} {size : Nat}
    {source : Option (List UInt8)} {result : ByteOStream × List UInt8}
    (hguard : szAdd stream.cursor size ≤ buffer.length)
    (h : stream.writeBytes buffer size source = some result) :
    result.1 = stream.advance size ∧ result.2.length = buffer.length := by
  rw [ByteOStream.writeBytes, if_pos hguard] at h
  obtain ⟨bytes, -, hrest⟩ := Option.bind_eq_some_iff.mp h
  obtain ⟨copied, hcopied, hresult⟩ := Option.bind_eq_some_iff.mp hrest
  rw [← Option.some.inj hresult]
  exact ⟨rfl, length_copy_in hcopied⟩

/-- A write whose guard passes and that returns has advanced the cursor by what it asked for, in a
buffer of the same size. -/
theorem write_advances {result : ByteOStream × List UInt8}
    (hguard : szAdd state.1.cursor element.size ≤ state.2.length)
    (h : Chain.write state.1 state.2 element = some result) :
    result.1 = state.1.advance element.size ∧ result.2.length = state.2.length := by
  cases element with
  | typed value =>
      cases value with
      | u8 value =>
          change state.1.writeU8 state.2 value = some result at h
          change szAdd state.1.cursor 1 ≤ state.2.length at hguard
          rw [ByteOStream.writeU8, if_pos hguard] at h
          obtain ⟨copied, hcopied, hresult⟩ := Option.bind_eq_some_iff.mp h
          rw [← Option.some.inj hresult]
          exact ⟨rfl, length_copy_in hcopied⟩
      | u16 value =>
          change state.1.writeU16 state.2 value = some result at h
          change szAdd state.1.cursor 2 ≤ state.2.length at hguard
          rw [ByteOStream.writeU16, if_pos hguard] at h
          obtain ⟨high, hhigh, hrest⟩ := Option.bind_eq_some_iff.mp h
          obtain ⟨low, hlow, hresult⟩ := Option.bind_eq_some_iff.mp hrest
          rw [← Option.some.inj hresult]
          exact ⟨rfl, (length_copy_in hlow).trans (length_copy_in hhigh)⟩
      | array size bytes =>
          have hlength : bytes.toList.length = size := Vector.length_toList
          change szAdd state.1.cursor bytes.toList.length ≤ state.2.length at hguard
          change result.1 = state.1.advance bytes.toList.length ∧ _
          rw [hlength] at hguard ⊢
          exact write_bytes_advances hguard h
      | vector bytes => exact write_bytes_advances hguard h
  | buffer buf => exact write_bytes_advances hguard h

/-- A write fails exactly when its guard does. -/
theorem write_fails_iff :
    WriteFails state element ↔ ¬ szAdd state.1.cursor element.size ≤ state.2.length := by
  let fresh : ByteOStream × List UInt8 := ({ state.1 with errc := .ok }, state.2)
  constructor
  · intro h hguard
    change szAdd fresh.1.cursor element.size ≤ fresh.2.length at hguard
    obtain ⟨result, hwrite, herrc⟩ := h
    rw [(write_advances hguard hwrite).1] at herrc
    cases herrc
  · intro hguard
    change ¬ szAdd fresh.1.cursor element.size ≤ fresh.2.length at hguard
    exact ⟨_, write_refused hguard, rfl⟩

/-- A write to a stream whose cursor is inside the buffer is exact exactly when its guard does not
wrap. -/
theorem write_exact_iff (hcursor : state.1.cursor ≤ state.2.length)
    (hlength : state.2.length < 2 ^ 64) (request : WriteRequest) :
    WriteExact state request ↔ WriteGuarded state request := by
  have hguard := guard_exact_iff hcursor hlength request.size_lt
  rw [WriteExact, write_fails_iff, hguard]
  refine ⟨And.left, fun h => ⟨h, fun hrefused => ?_⟩⟩
  exact ⟨_, write_refused hrefused, rfl, rfl⟩

/-- No write takes the cursor out of the buffer or changes its size. -/
theorem write_inside_step {buffer : ByteBuffer} {request : WriteRequest}
    {following : ByteOStream × List UInt8} (hinside : WriteInside buffer state)
    (h : (output buffer).next state request = some following) :
    WriteInside buffer following := by
  obtain ⟨hcursor, hlength⟩ := hinside
  change Chain.write state.1 state.2 request.element = some following at h
  by_cases hguard : szAdd state.1.cursor request.element.size ≤ state.2.length
  · obtain ⟨hstream, hbuffer⟩ := write_advances hguard h
    refine ⟨?_, hbuffer.trans hlength⟩
    rw [hstream, hbuffer]
    exact hguard
  · rw [← Option.some.inj ((write_refused hguard).symm.trans h)]
    exact ⟨hcursor, hlength⟩

end Writes

/-- In every chain of reads and every chain of writes on a buffer, the cursor stays inside the
buffer and every operation fails exactly when it asks for more than is left, without effect,
exactly when no guard of the chain wraps. -/
theorem bounds_exact_iff (buffer : ByteBuffer) :
    (∀ requests, (input buffer).Guarded ReadGuarded requests ↔
      (input buffer).Always (ReadInside buffer) requests ∧
        (input buffer).Guarded (ReadExact buffer) requests) ∧
    ∀ requests, (output buffer).Guarded WriteGuarded requests ↔
      (output buffer).Always (WriteInside buffer) requests ∧
        (output buffer).Guarded WriteExact requests := by
  constructor
  · intro requests
    have hstart : ReadInside buffer (input buffer).init := read_inside_of_le (Nat.zero_le _)
    have hinside : (input buffer).Always (ReadInside buffer) requests :=
      Machine.always_of_invariant hstart (fun stream request following => read_inside_step)
        fun stream h => h
    have hexact := Machine.guarded_congr hstart
      (fun stream request following => read_inside_step)
      (fun stream request hstream => (read_exact_iff hstream.1 request).symm) requests
    rw [hexact, and_iff_right hinside]
  · intro requests
    have hstart : WriteInside buffer (output buffer).init := ⟨Nat.zero_le _, rfl⟩
    have hinside : (output buffer).Always (WriteInside buffer) requests :=
      Machine.always_of_invariant hstart (fun state request following => write_inside_step)
        fun state h => h
    have hexact := Machine.guarded_congr hstart
      (fun state request following => write_inside_step)
      (fun state request hstate =>
        (write_exact_iff hstate.1 (hstate.2 ▸ buffer.size_lt) request).symm) requests
    rw [hexact, and_iff_right hinside]

/-- A buffer of two bytes. -/
def twoBytes : ByteBuffer where
  bytes := [0, 0]
  size_lt := by decide

/-- The size of the window that `slice(1, 0)` makes. -/
theorem size_slice_inverted (buf : Buffer) : (buf.slice 1 0).size = 2 ^ 64 - 1 := by
  show szSub 0 1 = 2 ^ 64 - 1
  unfold szSub
  rfl

/-- `write_buffer` of a buffer after `slice(1, 0)`. -/
def inverted : WriteRequest where
  element := .buffer ((Buffer.ofSize 4).slice 1 0)
  size_lt := by
    show ((Buffer.ofSize 4).slice 1 0).size < 2 ^ 64
    rw [size_slice_inverted]
    omega

/-- `read_vector` with the largest count. -/
def countless : ReadRequest where
  target := .vector [] (some (2 ^ 64 - 1))
  size_lt := show 2 ^ 64 - 1 < 2 ^ 64 by omega

/-- `write_u8`. -/
def writeByte : WriteRequest where
  element := .typed (.u8 7)
  size_lt := show 1 < 2 ^ 64 by omega

/-- `read_u8`. -/
def readByte : ReadRequest where
  target := .u8 none
  size_lt := show 1 < 2 ^ 64 by omega

/-- After one byte, a request for `2 ^ 64 - 1` bytes is not refused. -/
theorem bounds_wrap :
    ¬ (output twoBytes).Guarded WriteExact [writeByte, inverted] ∧
      ¬ (input twoBytes).Guarded (ReadExact twoBytes) [readByte, countless] := by
  have hguard : szAdd 0 1 = 1 := sz_add_eq (by omega)
  constructor
  · intro h
    have hfirst : (output twoBytes).next (output twoBytes).init writeByte =
        some ({ cursor := 1 }, [7, 0]) := by
      show (if szAdd 0 1 ≤ 2 then _ else _) = _
      rw [hguard]
      show some (ByteOStream.mk (szAdd 0 1) .ok, [7, 0]) = _
      rw [hguard]
    have hexact := (h.2 _ hfirst).1
    have hinside : (1 : Nat) ≤ [(7 : UInt8), 0].length := by decide
    have hwraps := (write_exact_iff hinside (by decide) inverted).mp hexact
    change 1 + ((Buffer.ofSize 4).slice 1 0).size < 2 ^ 64 at hwraps
    rw [size_slice_inverted] at hwraps
    omega
  · intro h
    have hfirst : (input twoBytes).next (input twoBytes).init readByte =
        some { cursor := 1, errc := .ok, lastSize := 0 } := by
      show some (ByteIStream.readU8 {} [0, 0] none).1 = _
      rw [ByteIStream.readU8, if_pos (by rw [hguard]; decide), ByteIStream.advance, hguard]
    have hexact := (h.2 _ hfirst).1
    have hinside : 1 ≤ twoBytes.bytes.length := by decide
    have hwraps := (read_exact_iff hinside countless).mp hexact
    change 1 + (2 ^ 64 - 1) < 2 ^ 64 at hwraps
    omega

end Bounds

end Toad
