import Toad.Bytes.Chain
import Toad.Nic.Checksum

/-!
# Packets

What the packet types share: the direction that types them (`nic/typestate.hpp`), a payload
buffer, and the checksum that `Ip` and `Icmp` compute over their own bytes in a scratch buffer.
A packet serialises itself by one chain of writes.
-/

namespace Toad

/-- `TypestateDirection`. -/
inductive TypestateDirection where
  | directionIn
  | directionOut
  deriving DecidableEq, Repr

/-- `reverse_direction`, which `operator~` calls. -/
def reverseDirection : TypestateDirection → TypestateDirection
  | .directionIn => .directionOut
  | .directionOut => .directionIn

/-- A payload: a `Buffer` whose window lies in its allocation. -/
structure Payload extends Buffer where
  within : toBuffer.WithinBounds shared.length
  size_le : size ≤ vectorMaxSize

namespace Payload

/-- The bytes of the payload. -/
def bytes (payload : Payload) : List UInt8 :=
  payload.window

/-- A payload that holds these bytes, as `Buffer(std::vector<u8>)` makes it. -/
def ofBytes (bytes : List UInt8) (h : bytes.length ≤ vectorMaxSize) : Payload where
  shared := bytes
  offset := 0
  size := bytes.length
  within := Nat.le_of_eq (Nat.zero_add _)
  size_le := h

/-- `Buffer()`: no allocation and an empty window. -/
def empty : Payload :=
  ofBytes [] (Nat.zero_le _)

/-- A payload has as many bytes as its size says. -/
theorem length_bytes (payload : Payload) : payload.bytes.length = payload.size :=
  Buffer.length_window payload.within

/-- A payload can be written. -/
@[simp] theorem in_memory (payload : Payload) : (Chain.Write.buffer payload.toBuffer).InMemory where
  readable := payload.within
  size_le := payload.size_le

/-- A header in front of a payload does not overflow its size. -/
theorem sz_add_size (payload : Payload) {header : Nat} (hheader : header < 2 ^ 63) :
    szAdd header payload.size = header + payload.size := by
  have hmax := vector_max_size_lt
  have hpayload := payload.size_le
  exact sz_add_eq (by omega)

/-- `header_size() + header_dynamic_size() + payload_size()`, where the second is zero. -/
theorem size_of_parts (payload : Payload) {header : Nat} (hheader : header < 2 ^ 63) :
    szAdd (szAdd header 0) payload.size = header + payload.size := by
  have hfixed : szAdd header 0 = header := sz_add_eq (by omega)
  rw [hfixed, payload.sz_add_size hheader]

end Payload

namespace Packet

open Chain OnesComplement
open Packing (total)

/-- `(size + 1) & ~1`: the complement is sign-extended to the width of `sz`. -/
def evenSize (size : Nat) : Nat :=
  szAdd size 1 &&& (2 ^ 64 - 2)

/-- `calculate_checksum`: serialise into a zeroed scratch buffer of even size, clear the two
bytes of the checksum field, and take the checksum of the whole buffer. -/
def calculateChecksum (writes : List Write) (bufferSize field : Nat) : Option Checksum := do
  let buffer := Buffer.ofSize (evenSize bufferSize)
  let (_, bytes) ← writeAll {} buffer.shared writes
  Checksum.ofSpan ((bytes.set field 0).set (field + 1) 0)

/-- A byte sequence padded with a zero byte to an even length. -/
def padded (bytes : List UInt8) : List UInt8 :=
  bytes ++ List.replicate (bytes.length % 2) 0

/-- Below the word limit the rounded size is the next even number. -/
theorem even_size_eq {size : Nat} (h : size + 1 < 2 ^ 64) : evenSize size = size + size % 2 := by
  have hhalf : evenSize size / 2 = (size + 1) / 2 := by
    rw [evenSize, sz_add_eq h, Nat.and_div_two]
    show (size + 1) / 2 &&& (2 ^ 63 - 1) = _
    rw [Nat.and_two_pow_sub_one_eq_mod, Nat.mod_eq_of_lt (by omega)]
  have heven : evenSize size % 2 = 0 := by
    rw [evenSize, show 2 = 2 ^ 1 from rfl, Nat.and_mod_two_pow]
    exact Nat.and_zero _
  omega

/-- Clearing the field leaves the bytes around it. -/
theorem set_field (front rest : List UInt8) (hi lo : UInt8) :
    ((front ++ [hi, lo] ++ rest).set front.length 0).set (front.length + 1) 0 =
      front ++ [0, 0] ++ rest := by
  simp

/-- The scratch buffer holds the whole packet and its padding. -/
theorem scratch_buffer {writes : List Write} (hreadable : ∀ element ∈ writes, element.Readable)
    (hlt : total Write.size writes + 1 < 2 ^ 64) :
    writeAll {} (Buffer.ofSize (evenSize (total Write.size writes))).shared writes =
      some ({ cursor := total Write.size writes, errc := .ok },
        encodeAll writes ++ List.replicate (total Write.size writes % 2) 0) := by
  have hlength : (Buffer.ofSize (evenSize (total Write.size writes))).shared.length =
      total Write.size writes + total Write.size writes % 2 := by
    rw [Buffer.ofSize, List.length_replicate, even_size_eq hlt]
  rw [write_all_room hreadable (by omega) (by omega), Buffer.ofSize, List.drop_replicate,
    even_size_eq hlt, Nat.add_sub_cancel_left]

/-- The computed checksum is the Internet checksum of all the bytes of the packet other than
its checksum field. -/
theorem calculate_checksum_eq {writes : List Write} {front rest : List UInt8} {hi lo : UInt8}
    (hreadable : ∀ element ∈ writes, element.Readable)
    (hencode : encodeAll writes = front ++ [hi, lo] ++ rest) (heven : front.length % 2 = 0)
    (hlt : total Write.size writes + 1 < 2 ^ 64) :
    ∃ checksum, calculateChecksum writes (total Write.size writes) front.length = some checksum ∧
      checksum.n.toNat =
        0xFFFF - residue 65536 (Checksum.wordSum front + Checksum.wordSum rest) := by
  have hlength := length_encode_all hreadable
  have hwrite := scratch_buffer hreadable hlt
  generalize total Write.size writes = size at *
  rw [hencode] at hlength hwrite
  simp only [List.length_append, List.length_cons, List.length_nil] at hlength
  have hbytes : ((front ++ [hi, lo] ++ rest ++ List.replicate (size % 2) 0).set front.length
      0).set (front.length + 1) 0 =
        front ++ ([0, 0] ++ (rest ++ List.replicate (size % 2) 0)) := by
    rw [List.append_assoc _ rest, set_field, List.append_assoc]
  have hsum : Checksum.wordSum (front ++ ([0, 0] ++ (rest ++ List.replicate (size % 2) 0))) =
      Checksum.wordSum front + Checksum.wordSum rest := by
    rw [Checksum.word_sum_append _ heven, Checksum.word_sum_append _ rfl,
      Checksum.word_sum_append_zeros]
    exact congrArg (Checksum.wordSum front + ·) (Nat.zero_add _)
  have hcount : (front ++ ([0, 0] ++ (rest ++ List.replicate (size % 2) 0))).length =
      size + size % 2 := by
    simp only [List.length_append, List.length_cons, List.length_nil, List.length_replicate]
    omega
  obtain ⟨checksum, hspan, hvalue⟩ := Checksum.of_span_eq
    (front ++ ([0, 0] ++ (rest ++ List.replicate (size % 2) 0)))
    (by rw [hcount]; omega) (by rw [hcount]; omega)
  refine ⟨checksum, ?_, by rw [hvalue, hsum]⟩
  rw [calculateChecksum, hwrite, ← hspan, ← hbytes]
  rfl

/-- A word on its own adds its value. -/
theorem word_sum_encode (value : UInt16) :
    Checksum.wordSum (RoundTrip.Value.u16 value).encode = value.toNat := by
  have hlt : value.toNat < 65536 := value.toNat_lt
  simp only [RoundTrip.Value.encode, Checksum.wordSum, Checksum.words, List.sum_cons,
    List.sum_nil, UInt8.toNat_ofNat']
  omega

/-- With its checksum in place a packet adds up to all ones. -/
theorem ones_complement_sum_checked {front rest : List UInt8} {checksum : Checksum}
    (heven : front.length % 2 = 0)
    (hvalue : checksum.n.toNat =
      0xFFFF - residue 65536 (Checksum.wordSum front + Checksum.wordSum rest)) :
    Checksum.onesComplementSum
      (front ++ (RoundTrip.Value.u16 checksum.n).encode ++ rest) = 0xFFFF := by
  have htwo : (RoundTrip.Value.u16 checksum.n).encode.length % 2 = 0 := by
    simp [RoundTrip.Value.encode]
  have hsum : Checksum.wordSum (front ++ (RoundTrip.Value.u16 checksum.n).encode ++ rest) =
      Checksum.wordSum front + Checksum.wordSum rest +
        (65536 - 1 - residue 65536 (Checksum.wordSum front + Checksum.wordSum rest)) := by
    rw [List.append_assoc, Checksum.word_sum_append _ heven, Checksum.word_sum_append _ htwo,
      word_sum_encode, hvalue]
    omega
  rw [Checksum.ones_complement_sum_eq, hsum, residue_add_complement (by decide)]

/-- Padding leaves the one's-complement sum alone. -/
theorem ones_complement_sum_padded (bytes : List UInt8) :
    Checksum.onesComplementSum (padded bytes) = Checksum.onesComplementSum bytes := by
  rw [Checksum.ones_complement_sum_eq, padded, Checksum.word_sum_append_zeros,
    Checksum.ones_complement_sum_eq]

/-- There are buffers of every size. -/
theorem exists_buffer {size : Nat} (h : size < 2 ^ 64) :
    ∃ buffer : RoundTrip.ByteBuffer, buffer.bytes.length = size :=
  ⟨⟨List.replicate size 0, by rwa [List.length_replicate]⟩, List.length_replicate⟩

/-- A chain that finds room in a buffer emits its encoding and nothing else. -/
theorem emitted_eq {writes : List Write} {buffer : RoundTrip.ByteBuffer}
    (hreadable : ∀ element ∈ writes, element.Readable)
    (hroom : total Write.size writes ≤ buffer.bytes.length) :
    ∃ stream bytes, writeAll {} buffer.bytes writes = some (stream, bytes) ∧
      stream.errc = .ok ∧ stream.cursor = total Write.size writes ∧
      bytes.take stream.cursor = encodeAll writes := by
  refine ⟨_, _, write_all_room hreadable buffer.size_lt hroom, rfl, rfl, ?_⟩
  rw [← length_encode_all hreadable, List.take_left]

end Packet

end Toad
