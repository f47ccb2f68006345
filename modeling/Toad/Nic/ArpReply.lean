import Toad.Nic.Arp

/-!
# Answering ARP requests

`Arp::copy_as_response` of `nic/arp.hpp`, from the bytes of a request to the bytes of its reply.
The parser looks at nothing but the length, so that `reply_from_bytes` is about every buffer that
is long enough: the reply carries the header of the instance, whatever header the request had, and
otherwise consists of pieces of the request in another order.
-/

namespace Toad

namespace Arp

open RoundTrip (Value)

variable {htype ptype : UInt16} {hlen plen : UInt8} {direction : TypestateDirection}

/-- `copy_as_response(respond_with_hardware_addr)`. -/
def copyAsResponse (arp : Arp htype ptype hlen plen direction)
    (respondWithHardwareAddr : Vector UInt8 hlen.toNat) :
    Arp htype ptype hlen plen (reverseDirection direction) where
  oper := 0x0002
  senderHardwareAddr := respondWithHardwareAddr
  targetHardwareAddr := arp.senderHardwareAddr
  senderProtocolAddr := arp.targetProtocolAddr
  targetProtocolAddr := arp.senderProtocolAddr

/-- A piece of a buffer. -/
def piece (bytes : List UInt8) (offset size : Nat) : List UInt8 :=
  (bytes.drop offset).take size

/-- A buffer that consists of parts, cut at one of them. -/
theorem piece_flatten (front : List (List UInt8)) {back : List (List UInt8)}
    {middle : List UInt8} {offset size : Nat} (hoffset : front.flatten.length = offset)
    (hsize : middle.length = size) :
    piece (front ++ middle :: back).flatten offset size = middle := by
  subst hoffset hsize
  rw [piece, List.flatten_append, List.drop_left, List.flatten_cons, List.take_left]

/-- The bytes of the reply to a request. -/
def replyBytes (htype ptype : UInt16) (hlen plen : UInt8) (bytes : List UInt8)
    (respondWithHardwareAddr : Vector UInt8 hlen.toNat) : List UInt8 :=
  ownHeader htype ptype hlen plen ++ [0, 2] ++ respondWithHardwareAddr.toList ++
    piece bytes (8 + 2 * hlen.toNat + plen.toNat) plen.toNat ++ piece bytes 8 hlen.toNat ++
    piece bytes (8 + hlen.toNat) plen.toNat

/-- The parts of a packet on the wire. -/
def parts (arp : Arp htype ptype hlen plen direction) (header : List UInt8) : List (List UInt8) :=
  [header, (Value.u16 arp.oper).encode, arp.senderHardwareAddr.toList,
    arp.senderProtocolAddr.toList, arp.targetHardwareAddr.toList, arp.targetProtocolAddr.toList]

/-- A packet behind a header is the header and the fields of the packet. -/
theorem flatten_parts (arp : Arp htype ptype hlen plen direction)
    (parsedHtype parsedPtype : UInt16) (parsedHlen parsedPlen : UInt8) :
    RoundTrip.encodeAll (arp.values parsedHtype parsedPtype parsedHlen parsedPlen) =
      (arp.parts (ownHeader parsedHtype parsedPtype parsedHlen parsedPlen)).flatten := by
  rw [encode_values]
  simp [parts, fields, RoundTrip.encodeAll, Value.encode]

/-- The addresses of a packet, cut out of its bytes behind a header of six. -/
theorem pieces_of_parts (arp : Arp htype ptype hlen plen direction) {header : List UInt8}
    (hheader : header.length = 6) (rest : List UInt8) :
    piece ((arp.parts header).flatten ++ rest) 8 hlen.toNat = arp.senderHardwareAddr.toList ∧
      piece ((arp.parts header).flatten ++ rest) (8 + hlen.toNat) plen.toNat =
        arp.senderProtocolAddr.toList ∧
      piece ((arp.parts header).flatten ++ rest) (8 + 2 * hlen.toNat + plen.toNat) plen.toNat =
        arp.targetProtocolAddr.toList := by
  have hoper : (Value.u16 arp.oper).encode.length = 2 := rfl
  have hsplit : (arp.parts header).flatten ++ rest = (arp.parts header ++ [rest]).flatten := by
    simp
  rw [hsplit, parts]
  refine ⟨?_, ?_, ?_⟩
  · refine piece_flatten [_, _] ?_ Vector.length_toList
    simp only [List.flatten_cons, List.flatten_nil, List.length_append, List.length_nil, hheader,
      hoper]
  · refine piece_flatten [_, _, _] ?_ Vector.length_toList
    simp only [List.flatten_cons, List.flatten_nil, List.length_append, List.length_nil, hheader,
      hoper, Vector.length_toList]
    omega
  · refine piece_flatten [_, _, _, _, _] ?_ Vector.length_toList
    simp only [List.flatten_cons, List.flatten_nil, List.length_append, List.length_nil, hheader,
      hoper, Vector.length_toList]
    omega

/-- A buffer with enough bytes is parsed to a packet, whose addresses are pieces of the buffer. -/
theorem request_parsed (htype ptype : UInt16) (direction : TypestateDirection) {storage : Storage}
    (hlong : expectedBufferLength hlen plen ≤ storage.bytes.length) :
    ∃ stream, ∃ arp : Arp htype ptype hlen plen direction,
      tryFromStream htype ptype hlen plen direction {} storage.bytes = some (stream, arp) ∧
      piece storage.bytes 8 hlen.toNat = arp.senderHardwareAddr.toList ∧
      piece storage.bytes (8 + hlen.toNat) plen.toNat = arp.senderProtocolAddr.toList ∧
      piece storage.bytes (8 + 2 * hlen.toNat + plen.toNat) plen.toNat =
        arp.targetProtocolAddr.toList := by
  have hmax := vector_max_size_lt
  have hbound := storage.size_le
  obtain ⟨parsedHtype, parsedPtype, parsedHlen, parsedPlen, arp, hvalues⟩ :
      ∃ _ _ _ _, ∃ arp : Arp htype ptype hlen plen direction, _ :=
    exists_values (List.length_take_of_le hlong)
  have hsplit : RoundTrip.encodeAll (arp.values parsedHtype parsedPtype parsedHlen parsedPlen) ++
      storage.bytes.drop (expectedBufferLength hlen plen) = storage.bytes := by
    rw [hvalues, List.take_append_drop]
  have hsize : (RoundTrip.encodeAll
      (arp.values parsedHtype parsedPtype parsedHlen parsedPlen) ++
        storage.bytes.drop (expectedBufferLength hlen plen)).length < 2 ^ 64 := by
    rw [hsplit]
    omega
  obtain ⟨stream, -, hparse⟩ := try_from_stream_values hsize
  rw [← hsplit]
  refine ⟨stream, arp, hparse, ?_⟩
  rw [flatten_parts]
  exact arp.pieces_of_parts (length_own_header ..) _

/-- The reply to every buffer that is long enough for a request is encoded with the header of the
instance, the operation of a reply and the addresses at their places in the request, and the
requester parses it back to what was sent; a shorter buffer has no reply. -/
theorem reply_from_bytes (htype ptype : UInt16) (hlen plen : UInt8)
    (direction : TypestateDirection) (storage : Storage)
    (respondWithHardwareAddr : Vector UInt8 hlen.toNat) :
    if expectedBufferLength hlen plen ≤ storage.bytes.length then
      ∃ stream, ∃ arp : Arp htype ptype hlen plen direction,
        tryFromStream htype ptype hlen plen direction {} storage.bytes = some (stream, arp) ∧
        (arp.copyAsResponse respondWithHardwareAddr).Emits
          (replyBytes htype ptype hlen plen storage.bytes respondWithHardwareAddr) ∧
        ∃ received, tryFromStream htype ptype hlen plen (reverseDirection direction) {}
          (replyBytes htype ptype hlen plen storage.bytes respondWithHardwareAddr) =
            some (received, arp.copyAsResponse respondWithHardwareAddr)
    else tryFromStream htype ptype hlen plen direction {} storage.bytes = none := by
  split
  next hlong =>
    obtain ⟨stream, arp, hparse, hsha, hspa, htpa⟩ :=
      request_parsed htype ptype direction hlong
    have hemits : (arp.copyAsResponse respondWithHardwareAddr).Emits
        (replyBytes htype ptype hlen plen storage.bytes respondWithHardwareAddr) := by
      have hoper : (Value.u16 0x0002).encode = [0, 2] := by decide
      rw [emits_iff, flatten_parts, replyBytes, hsha, hspa, htpa]
      simp [parts, copyAsResponse, hoper]
    exact ⟨stream, arp, hparse, hemits, decode_emitted hemits⟩
  next hshort => exact try_from_stream_short (Nat.lt_of_not_le hshort)

end Arp

end Toad
