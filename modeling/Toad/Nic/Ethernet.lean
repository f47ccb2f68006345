import Toad.Nic.Packet

/-!
# Ethernet frames and the device

`EthernetFrame` of `nic/ethernet.hpp` and `Device::write_eth` of `nic/device.hpp`. The device
serialises a frame into a buffer of `maximum_transmission_unit` bytes and sends what lies before
the cursor, whether or not the frame fitted; the receiving side, `read_next_eth`, allows for
fourteen more.
-/

namespace Toad

/-- `MAC`, a hardware address. -/
abbrev MAC : Type :=
  Vector UInt8 6

/-- `EthernetFrame`. -/
structure EthernetFrame (direction : TypestateDirection) where
  dst : MAC
  src : MAC
  ethertype : UInt16
  payload : Payload

namespace EthernetFrame

open Chain
open Packing (total fit)

variable {direction : TypestateDirection}

/-- `header_size()`. -/
def headerSize : Nat :=
  14

/-- `header_dynamic_size()`. -/
def headerDynamicSize (_ : EthernetFrame direction) : Nat :=
  0

/-- `payload_size()`. -/
def payloadSize (frame : EthernetFrame direction) : Nat :=
  frame.payload.size

/-- `size()`. -/
def size (frame : EthernetFrame direction) : Nat :=
  szAdd (szAdd headerSize frame.headerDynamicSize) frame.payloadSize

/-- `min_buffer_size()`: `2 * sizeof(MAC) + 2 + payload._size`. -/
def minBufferSize (frame : EthernetFrame direction) : Nat :=
  szAdd (2 * 6 + 2) frame.payload.size

/-- The chain of writes of `try_to_stream`. -/
def writes (frame : EthernetFrame direction) : List Write :=
  [.typed (.array 6 frame.dst), .typed (.array 6 frame.src), .typed (.u16 frame.ethertype),
    .buffer frame.payload.toBuffer]

/-- `try_to_stream`. -/
def tryToStream (frame : EthernetFrame direction) (stream : ByteOStream) (buffer : List UInt8) :
    Option (ByteOStream × List UInt8) :=
  writeAll stream buffer frame.writes

/-- The bytes of a frame: destination, source, type and payload. -/
def encode (frame : EthernetFrame direction) : List UInt8 :=
  frame.dst.toList ++ frame.src.toList ++
    [UInt8.ofNat (frame.ethertype.toNat / 256), UInt8.ofNat (frame.ethertype.toNat % 256)] ++
    frame.payload.bytes

/-- The chain of a frame stands for its bytes. -/
theorem encode_writes (frame : EthernetFrame direction) :
    encodeAll frame.writes = frame.encode := by
  simp [encodeAll, writes, Write.encode, RoundTrip.Value.encode, encode, Payload.bytes]

/-- Every element of the chain is in memory. -/
theorem writes_in_memory (frame : EthernetFrame direction) :
    ∀ element ∈ frame.writes, element.InMemory := by
  simp [writes, vectorMaxSize]

/-- The chain of a frame takes its header and its payload. -/
theorem total_writes (frame : EthernetFrame direction) :
    total Write.size frame.writes = 14 + frame.payload.size := by
  simp [writes, Write.size, RoundTrip.Value.encode]
  omega

/-- `min_buffer_size()` is what the chain takes. -/
theorem min_buffer_size_eq (frame : EthernetFrame direction) :
    frame.minBufferSize = total Write.size frame.writes := by
  rw [total_writes]
  exact frame.payload.sz_add_size (by decide)

/-- `size()` is what the chain takes. -/
theorem size_eq (frame : EthernetFrame direction) :
    frame.size = total Write.size frame.writes := by
  rw [total_writes]
  exact frame.payload.size_of_parts (by decide)

end EthernetFrame

/-- `Device`, as far as sending needs it. The MTU is an `int` of the kernel, never negative. -/
structure Device where
  maximumTransmissionUnit : Nat
  mtu_le : maximumTransmissionUnit ≤ vectorMaxSize

namespace Device

open Chain
open Packing

/-- `write_eth`: the bytes passed to `write`. -/
def writeEth (device : Device) (frame : EthernetFrame .directionOut) : Option (List UInt8) := do
  let buffer := Buffer.ofSize device.maximumTransmissionUnit
  let (ostream, bytes) ← frame.tryToStream {} buffer.shared
  pure (bytes.take ostream.cursor)

/-- What should be sent: the whole frame if its payload is within the MTU, else nothing. -/
def SendsWhole (device : Device) (frame : EthernetFrame .directionOut) : Prop :=
  device.writeEth frame =
    some (if frame.payload.size ≤ device.maximumTransmissionUnit then frame.encode else [])

/-- What is sent: the elements of the frame that fitted, in order. -/
theorem write_eth_eq (device : Device) (frame : EthernetFrame .directionOut) :
    device.writeEth frame =
      some (encodeAll (fit Write.size device.maximumTransmissionUnit frame.writes)) := by
  obtain ⟨storage, hstorage⟩ : ∃ storage : Storage,
      storage.bytes = (Buffer.ofSize device.maximumTransmissionUnit).shared :=
    ⟨⟨_, by rw [Buffer.ofSize, List.length_replicate]; exact device.mtu_le⟩, rfl⟩
  obtain ⟨⟨stream, bytes⟩, hwrite⟩ := write_all_fresh storage frame.writes_in_memory
  have htaken := (write_all_taken hwrite).1
  rw [hstorage] at hwrite
  rw [hstorage, Buffer.ofSize, List.length_replicate] at htaken
  rw [← htaken]
  exact Option.bind_eq_some_iff.mpr ⟨_, hwrite, rfl⟩

/-- The number of bytes that are sent. -/
theorem length_encode_fit (frame : EthernetFrame .directionOut) (room : Nat) :
    (encodeAll (fit Write.size room frame.writes)).length =
      total Write.size (fit Write.size room frame.writes) :=
  length_encode_all fun element hmem =>
    (frame.writes_in_memory element (mem_of_mem_fit hmem)).readable

/-- Of a frame with a payload beyond the room something is sent as soon as its type fits. -/
theorem encode_fit_eq_nil_iff {frame : EthernetFrame .directionOut} {room : Nat}
    (h : room < frame.payload.size) :
    encodeAll (fit Write.size room frame.writes) = [] ↔ room < 2 := by
  have hdst : (Write.typed (.array 6 frame.dst)).size = 6 := Vector.length_toList
  have hsrc : (Write.typed (.array 6 frame.src)).size = 6 := Vector.length_toList
  have htype : (Write.typed (.u16 frame.ethertype)).size = 2 := rfl
  have hpayload : (Write.buffer frame.payload.toBuffer).size = frame.payload.size := rfl
  rw [← List.length_eq_zero_iff, length_encode_fit, EthernetFrame.writes]
  rcases Nat.lt_or_ge room 6 with hsmall | hlarge
  · rw [fit_cons_of_lt (by omega), fit_cons_of_lt (by omega)]
    rcases Nat.lt_or_ge room 2 with hless | hfits
    · rw [fit_cons_of_lt (by omega), fit_cons_of_lt (by omega), fit, total_nil]
      omega
    · rw [fit_cons_of_le (by omega), total_cons]
      omega
  · rw [fit_cons_of_le (by omega), total_cons]
    omega

/-- A device sends a frame as it should exactly when a payload within the MTU leaves room for
the header as well, and a payload beyond the MTU meets an MTU too small for the frame type. -/
theorem sends_whole_iff (device : Device) (frame : EthernetFrame .directionOut) :
    device.SendsWhole frame ↔
      (frame.payload.size ≤ device.maximumTransmissionUnit →
        frame.payload.size + 14 ≤ device.maximumTransmissionUnit) ∧
      (device.maximumTransmissionUnit < frame.payload.size →
        device.maximumTransmissionUnit < 2) := by
  have htotal := frame.total_writes
  rw [SendsWhole, write_eth_eq, Option.some.injEq]
  by_cases hwithin : frame.payload.size ≤ device.maximumTransmissionUnit
  · rw [if_pos hwithin, ← EthernetFrame.encode_writes]
    constructor
    · intro heq
      -- What is sent has at most as many bytes as the buffer, so the whole frame fitted.
      have hle := total_fit_le Write.size device.maximumTransmissionUnit frame.writes
      rw [← length_encode_fit, heq, length_encode_all
        (readable_of_in_memory frame.writes_in_memory)] at hle
      omega
    · intro h
      have hroom := h.1 hwithin
      rw [(fit_eq_self_iff frame.writes).mpr (by omega)]
  · rw [if_neg hwithin, encode_fit_eq_nil_iff (by omega)]
    omega

/-- A frame with the largest payload that the MTU allows. -/
def largestFrame : EthernetFrame .directionOut where
  dst := Vector.replicate 6 0xFF
  src := #v[2, 0, 0, 0, 0, 1]
  ethertype := 0x0800
  payload := Payload.ofBytes (List.replicate 20 7) (by decide)

/-- A device with an MTU of twenty bytes. -/
def smallDevice : Device where
  maximumTransmissionUnit := 20
  mtu_le := by decide

/-- Of a frame with the largest payload only the header is sent. -/
theorem largest_frame_truncated :
    smallDevice.writeEth largestFrame =
        some [0xFF, 0xFF, 0xFF, 0xFF, 0xFF, 0xFF, 2, 0, 0, 0, 0, 1, 0x08, 0x00] ∧
      ¬ smallDevice.SendsWhole largestFrame := by
  have hsent : smallDevice.writeEth largestFrame =
      some [0xFF, 0xFF, 0xFF, 0xFF, 0xFF, 0xFF, 2, 0, 0, 0, 0, 1, 0x08, 0x00] := by
    rw [write_eth_eq]
    decide
  refine ⟨hsent, ?_⟩
  rw [SendsWhole, hsent]
  decide

end Device

end Toad
