import Toad.Nic.Packet

/-!
# ICMP

`nic/icmp.hpp`. An echo reply is the request with its type changed and its checksum computed
afresh, over a scratch copy of the whole message with the checksum field cleared.
-/

namespace Toad

/-- `IcmpType`, an enumeration over `u8`: a parsed message may carry any byte. -/
structure IcmpType where
  value : UInt8
  deriving DecidableEq, Repr

/-- `IcmpType::EchoReply`. -/
def IcmpType.echoReply : IcmpType :=
  { value := 0 }

/-- `IcmpType::EchoRequest`. -/
def IcmpType.echoRequest : IcmpType :=
  { value := 8 }

/-- `Icmp`. -/
structure Icmp (direction : TypestateDirection) where
  type : IcmpType
  code : UInt8
  checksum : Checksum
  rest : Vector UInt8 4
  payload : Payload

namespace Icmp

open Chain
open Packing (total total_cons total_nil)

variable {direction : TypestateDirection}

/-- `header_size()`. -/
def headerSize : Nat :=
  8

/-- `header_dynamic_size()`. -/
def headerDynamicSize (_ : Icmp direction) : Nat :=
  0

/-- `payload_size()`. -/
def payloadSize (icmp : Icmp direction) : Nat :=
  icmp.payload.size

/-- `size()`. -/
def size (icmp : Icmp direction) : Nat :=
  szAdd (szAdd headerSize icmp.headerDynamicSize) icmp.payloadSize

/-- `buffer_size()`. -/
def bufferSize (icmp : Icmp direction) : Nat :=
  szAdd (szAdd (1 + 1 + 2) icmp.rest.size) icmp.payload.size

/-- The chain of writes of `try_to_stream`. -/
def writes (icmp : Icmp direction) : List Write :=
  [.typed (.u8 icmp.type.value), .typed (.u8 icmp.code), .typed (.u16 icmp.checksum.n),
    .typed (.array 4 icmp.rest), .buffer icmp.payload.toBuffer]

/-- `try_to_stream`. -/
def tryToStream (icmp : Icmp direction) (stream : ByteOStream) (buffer : List UInt8) :
    Option (ByteOStream × List UInt8) :=
  writeAll stream buffer icmp.writes

/-- The converting constructor `Icmp(const Icmp<other> &)`. -/
def convert (icmp : Icmp direction) (other : TypestateDirection) : Icmp other :=
  { type := icmp.type, code := icmp.code, checksum := icmp.checksum, rest := icmp.rest,
    payload := icmp.payload }

/-- `calculate_checksum`. -/
def calculateChecksum (icmp : Icmp direction) : Option Checksum :=
  Packet.calculateChecksum icmp.writes icmp.bufferSize 2

/-- `response.type = type`. -/
def withType (icmp : Icmp direction) (type : IcmpType) : Icmp direction :=
  { icmp with type := type }

/-- `response.checksum = checksum`. -/
def withChecksum (icmp : Icmp direction) (checksum : Checksum) : Icmp direction :=
  { icmp with checksum := checksum }

/-- `clone_as_echo_response`; `none` is a failed assertion. -/
def cloneAsEchoResponse (icmp : Icmp direction) : Option (Icmp (reverseDirection direction)) :=
  if icmp.type = .echoRequest then do
    let response := (icmp.convert (reverseDirection direction)).withType .echoReply
    let checksum ← response.calculateChecksum
    pure (response.withChecksum checksum)
  else
    none

/-- The bytes of a message. -/
theorem encode_writes (icmp : Icmp direction) :
    encodeAll icmp.writes = [icmp.type.value, icmp.code] ++
      (RoundTrip.Value.u16 icmp.checksum.n).encode ++
        (icmp.rest.toList ++ icmp.payload.bytes) := by
  simp [encodeAll, writes, Write.encode, RoundTrip.Value.encode, Payload.bytes]

/-- Every element of the chain is in memory. -/
theorem writes_in_memory (icmp : Icmp direction) : ∀ element ∈ icmp.writes, element.InMemory := by
  simp [writes, vectorMaxSize]

/-- The chain of a message takes its header and its payload. -/
theorem total_writes (icmp : Icmp direction) :
    total Write.size icmp.writes = 8 + icmp.payload.size := by
  simp [writes, Write.size, RoundTrip.Value.encode]
  omega

/-- `buffer_size()` is what the chain takes. -/
theorem buffer_size_eq (icmp : Icmp direction) :
    icmp.bufferSize = total Write.size icmp.writes := by
  have hheader : szAdd (1 + 1 + 2) 4 = 8 := sz_add_eq (by decide)
  show szAdd (szAdd (1 + 1 + 2) 4) icmp.payload.size = _
  rw [hheader, icmp.payload.sz_add_size (by decide), total_writes]

/-- The checksum that a message computes for itself makes its bytes add up to all ones. -/
theorem calculate_checksum_checks (icmp : Icmp direction) :
    ∃ checksum, icmp.calculateChecksum = some checksum ∧
      Checksum.onesComplementSum (encodeAll (icmp.withChecksum checksum).writes) = 0xFFFF := by
  have hmax := vector_max_size_lt
  have hpayload := icmp.payload.size_le
  have htotal := icmp.total_writes
  obtain ⟨checksum, hchecksum, hvalue⟩ := Packet.calculate_checksum_eq
    (readable_of_in_memory icmp.writes_in_memory) icmp.encode_writes (by simp) (by omega)
  refine ⟨checksum, ?_, ?_⟩
  · rw [calculateChecksum, buffer_size_eq]
    exact hchecksum
  · rw [encode_writes]
    exact Packet.ones_complement_sum_checked (by simp) hvalue

/-- `size()` is what the chain takes. -/
theorem size_eq (icmp : Icmp direction) : icmp.size = total Write.size icmp.writes := by
  rw [total_writes]
  exact icmp.payload.size_of_parts (by decide)

/-- The reply to an echo request differs from it in type and checksum only, and the bytes that
it emits, padded to an even length, have the Internet checksum zero, for every code, every
identifier, every payload and whatever checksum the request carried. -/
theorem echo_response_checks (icmp : Icmp direction) (hrequest : icmp.type = .echoRequest) :
    ∃ response, icmp.cloneAsEchoResponse = some response ∧
      (response.type = .echoReply ∧ response.code = icmp.code ∧ response.rest = icmp.rest ∧
        response.payload = icmp.payload) ∧
      ∀ buffer : RoundTrip.ByteBuffer, response.size ≤ buffer.bytes.length →
        ∃ stream bytes, response.tryToStream {} buffer.bytes = some (stream, bytes) ∧
          stream.errc = .ok ∧ stream.cursor = response.size ∧
          Checksum.internetChecksum (Packet.padded (bytes.take stream.cursor)) = 0 := by
  obtain ⟨checksum, hchecksum, hsum⟩ := calculate_checksum_checks
    ((icmp.convert (reverseDirection direction)).withType .echoReply)
  refine ⟨((icmp.convert (reverseDirection direction)).withType .echoReply).withChecksum checksum,
    ?_, ⟨rfl, rfl, rfl, rfl⟩, ?_⟩
  · rw [cloneAsEchoResponse, if_pos hrequest]
    exact Option.bind_eq_some_iff.mpr ⟨checksum, hchecksum, rfl⟩
  · intro buffer hroom
    rw [size_eq] at hroom ⊢
    obtain ⟨stream, bytes, hwrite, herrc, hcursor, hemitted⟩ :=
      Packet.emitted_eq (readable_of_in_memory (writes_in_memory _)) hroom
    refine ⟨stream, bytes, hwrite, herrc, hcursor, ?_⟩
    rw [hemitted, Checksum.internetChecksum, Packet.ones_complement_sum_padded, hsum]

/-- An echo request with an odd payload and a wrong checksum. -/
def oddRequest : Icmp .directionIn where
  type := .echoRequest
  code := 0
  checksum := { n := 7 }
  rest := #v[0, 1, 0, 2]
  payload := Payload.ofBytes [1, 2, 3] (by decide)

/-- The reply to a request with an odd payload and a wrong checksum. -/
theorem echo_response_checks_odd :
    ∃ response, oddRequest.cloneAsEchoResponse = some response ∧
      (response.type = .echoReply ∧ response.code = oddRequest.code ∧
        response.rest = oddRequest.rest ∧ response.payload = oddRequest.payload) ∧
      ∀ buffer : RoundTrip.ByteBuffer, response.size ≤ buffer.bytes.length →
        ∃ stream bytes, response.tryToStream {} buffer.bytes = some (stream, bytes) ∧
          stream.errc = .ok ∧ stream.cursor = response.size ∧
          Checksum.internetChecksum (Packet.padded (bytes.take stream.cursor)) = 0 :=
  echo_response_checks oddRequest rfl

end Icmp

end Toad
