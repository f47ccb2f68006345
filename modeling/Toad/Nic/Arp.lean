import Toad.Nic.Packet

/-!
# ARP

`nic/arp.hpp`. The hardware and protocol types and the address lengths are template
parameters: `try_to_stream` writes them, and `try_from_stream` reads them into locals that it
does not look at. The two are inverse to each other on the packets of one instance, and the
parser also accepts packets that no packet of the instance is written as.
-/

namespace Toad

/-- `Arp`, for one choice of its template parameters. -/
@[ext] structure Arp (htype ptype : UInt16) (hlen plen : UInt8)
    (direction : TypestateDirection) where
  oper : UInt16
  senderHardwareAddr : Vector UInt8 hlen.toNat
  targetHardwareAddr : Vector UInt8 hlen.toNat
  senderProtocolAddr : Vector UInt8 plen.toNat
  targetProtocolAddr : Vector UInt8 plen.toNat

namespace Arp

open Chain
open RoundTrip (Value Target)
open Packing (total total_cons total_nil)

variable {htype ptype : UInt16} {hlen plen : UInt8} {direction : TypestateDirection}

/-- `header_size()`. -/
def headerSize : Nat :=
  28

/-- `header_dynamic_size()`. -/
def headerDynamicSize (_ : Arp htype ptype hlen plen direction) : Nat :=
  0

/-- `payload_size()`. -/
def payloadSize (_ : Arp htype ptype hlen plen direction) : Nat :=
  0

/-- `size()`. -/
def size (arp : Arp htype ptype hlen plen direction) : Nat :=
  szAdd (szAdd headerSize arp.headerDynamicSize) arp.payloadSize

/-- `EXPECTED_BUFFER_LENGTH`. -/
def expectedBufferLength (hlen plen : UInt8) : Nat :=
  2 + 2 + 2 + 1 + 1 + 2 * plen.toNat + 2 * hlen.toNat

/-- The chain of writes of `try_to_stream`. -/
def writes (arp : Arp htype ptype hlen plen direction) : List Write :=
  [.typed (.u16 htype), .typed (.u16 ptype), .typed (.u8 hlen), .typed (.u8 plen),
    .typed (.u16 arp.oper), .typed (.array hlen.toNat arp.senderHardwareAddr),
    .typed (.array plen.toNat arp.senderProtocolAddr),
    .typed (.array hlen.toNat arp.targetHardwareAddr),
    .typed (.array plen.toNat arp.targetProtocolAddr)]

/-- `try_to_stream`. -/
def tryToStream (arp : Arp htype ptype hlen plen direction) (stream : ByteOStream)
    (buffer : List UInt8) : Option (ByteOStream × List UInt8) :=
  writeAll stream buffer arp.writes

/-- The end of `try_from_stream`: the error code is checked and the packet is returned. The
parsed types and lengths are not used. -/
def finish (stream : ByteIStream) (_parsedHtype _parsedPtype : Option UInt16)
    (_parsedHlen _parsedPlen : Option UInt8) (oper : Option UInt16)
    (senderHardwareAddr : Option (Vector UInt8 hlen.toNat))
    (senderProtocolAddr : Option (Vector UInt8 plen.toNat))
    (targetHardwareAddr : Option (Vector UInt8 hlen.toNat))
    (targetProtocolAddr : Option (Vector UInt8 plen.toNat)) :
    Option (ByteIStream × Arp htype ptype hlen plen direction) :=
  if stream.errc = .ok then do
    let arp : Arp htype ptype hlen plen direction :=
      { oper := ← oper
        senderHardwareAddr := ← senderHardwareAddr
        targetHardwareAddr := ← targetHardwareAddr
        senderProtocolAddr := ← senderProtocolAddr
        targetProtocolAddr := ← targetProtocolAddr }
    pure (stream, arp)
  else
    none

/-- `try_from_stream`; `none` is a failed assertion. -/
def tryFromStream (htype ptype : UInt16) (hlen plen : UInt8) (direction : TypestateDirection)
    (stream : ByteIStream) (buffer : List UInt8) :
    Option (ByteIStream × Arp htype ptype hlen plen direction) :=
  let (stream, parsedHtype) := stream.readU16 buffer none
  let (stream, parsedPtype) := stream.readU16 buffer none
  let (stream, parsedHlen) := stream.readU8 buffer none
  let (stream, parsedPlen) := stream.readU8 buffer none
  let (stream, oper) := stream.readU16 buffer none
  let (stream, senderHardwareAddr) := stream.readArray buffer none
  let (stream, senderProtocolAddr) := stream.readArray buffer none
  let (stream, targetHardwareAddr) := stream.readArray buffer none
  let (stream, targetProtocolAddr) := stream.readArray buffer none
  finish stream parsedHtype parsedPtype parsedHlen parsedPlen oper senderHardwareAddr
    senderProtocolAddr targetHardwareAddr targetProtocolAddr

/-- The destinations of the reads of `try_from_stream`. -/
def targets (hlen plen : UInt8) : List Target :=
  [.u16 none, .u16 none, .u8 none, .u8 none, .u16 none, .array hlen.toNat none,
    .array plen.toNat none, .array hlen.toNat none, .array plen.toNat none]

/-- The values of a packet on the wire, with a header that need not be its own. -/
def values (parsedHtype parsedPtype : UInt16) (parsedHlen parsedPlen : UInt8)
    (arp : Arp htype ptype hlen plen direction) : List Value :=
  [.u16 parsedHtype, .u16 parsedPtype, .u8 parsedHlen, .u8 parsedPlen, .u16 arp.oper,
    .array hlen.toNat arp.senderHardwareAddr, .array plen.toNat arp.senderProtocolAddr,
    .array hlen.toNat arp.targetHardwareAddr, .array plen.toNat arp.targetProtocolAddr]

/-- The reads of `try_from_stream` are a chain, and `finish` gets what they return. -/
theorem try_from_stream_reads (stream : ByteIStream) (buffer : List UInt8) :
    ∃ last parsedHtype parsedPtype parsedHlen parsedPlen oper senderHardwareAddr
        senderProtocolAddr targetHardwareAddr targetProtocolAddr,
      RoundTrip.readAll stream buffer (targets hlen plen) =
        .ok (last, [Option.map Value.u16 parsedHtype, Option.map Value.u16 parsedPtype,
          Option.map Value.u8 parsedHlen, Option.map Value.u8 parsedPlen,
          Option.map Value.u16 oper, Option.map (Value.array hlen.toNat) senderHardwareAddr,
          Option.map (Value.array plen.toNat) senderProtocolAddr,
          Option.map (Value.array hlen.toNat) targetHardwareAddr,
          Option.map (Value.array plen.toNat) targetProtocolAddr]) ∧
      tryFromStream htype ptype hlen plen direction stream buffer =
        finish last parsedHtype parsedPtype parsedHlen parsedPlen oper senderHardwareAddr
          senderProtocolAddr targetHardwareAddr targetProtocolAddr :=
  ⟨_, _, _, _, _, _, _, _, _, _, rfl, rfl⟩

/-- The reads ask for the expected length. -/
theorem total_targets (hlen plen : UInt8) :
    total RoundTrip.Target.size (targets hlen plen) = expectedBufferLength hlen plen := by
  simp only [targets, total_cons, total_nil, RoundTrip.Target.size, expectedBufferLength]
  omega

/-- The destinations of the reads are in memory: an address has at most 255 bytes. -/
theorem targets_in_memory (hlen plen : UInt8) :
    ∀ target ∈ targets hlen plen, target.InMemory := by
  have hhlen : hlen.toNat < 256 := hlen.toNat_lt
  have hplen : plen.toNat < 256 := plen.toNat_lt
  simp [targets, RoundTrip.Target.InMemory, vectorMaxSize]
  omega

section Parse

variable {parsedHtype parsedPtype : UInt16} {parsedHlen parsedPlen : UInt8}
  {arp : Arp htype ptype hlen plen direction}

/-- The header and the addresses on the wire take the expected length. -/
theorem length_values :
    (RoundTrip.encodeAll (arp.values parsedHtype parsedPtype parsedHlen parsedPlen)).length =
      expectedBufferLength hlen plen := by
  simp [RoundTrip.encodeAll, values, Value.encode, expectedBufferLength]
  omega

/-- A buffer that begins with a packet is parsed to it, whatever its header says. -/
theorem try_from_stream_values {rest : List UInt8}
    (hsize : (RoundTrip.encodeAll (arp.values parsedHtype parsedPtype parsedHlen parsedPlen) ++
      rest).length < 2 ^ 64) :
    ∃ stream, stream.cursor = expectedBufferLength hlen plen ∧
      tryFromStream htype ptype hlen plen direction {}
        (RoundTrip.encodeAll (arp.values parsedHtype parsedPtype parsedHlen parsedPlen) ++ rest) =
          some (stream, arp) := by
  have haccepts : List.Forall₂ Value.Accepts
      (arp.values parsedHtype parsedPtype parsedHlen parsedPlen) (targets hlen plen) := by
    simp [values, targets, Value.Accepts]
  have hfits : ∀ value ∈ arp.values parsedHtype parsedPtype parsedHlen parsedPlen,
      value.Fits := by
    simp [values, Value.Fits]
  have hall := RoundTrip.read_all_append
    (show ({} : ByteIStream).cursor = ([] : List UInt8).length from rfl) hsize hfits haccepts
  rw [List.nil_append, length_values] at hall
  generalize RoundTrip.encodeAll _ ++ rest = buffer at hall ⊢
  obtain ⟨last, _, _, _, _, _, _, _, _, _, hreads, hfinish⟩ :=
    try_from_stream_reads {} buffer
  rw [hall] at hreads
  simp only [values, List.map_cons, List.map_nil, Except.ok.injEq, Prod.mk.injEq,
    List.cons.injEq, eq_comm (a := some _), Option.map_eq_some_iff, Value.u8.injEq,
    Value.u16.injEq, Value.array.injEq, heq_eq_eq, true_and, and_true, exists_eq_right] at hreads
  obtain ⟨hlast, rfl, rfl, rfl, rfl, rfl, rfl, rfl, rfl, rfl⟩ := hreads
  refine ⟨last, ?_, ?_⟩
  · rw [← hlast]
    exact Nat.zero_add _
  · rw [hfinish]
    exact if_pos (by rw [← hlast])

end Parse

/-- Every byte sequence of the expected length is a packet behind some header. -/
theorem exists_values {bytes : List UInt8}
    (hlength : bytes.length = expectedBufferLength hlen plen) :
    ∃ parsedHtype parsedPtype parsedHlen parsedPlen,
      ∃ arp : Arp htype ptype hlen plen direction,
        RoundTrip.encodeAll (arp.values parsedHtype parsedPtype parsedHlen parsedPlen) =
          bytes := by
  obtain ⟨values, haccepts, hvalues⟩ :=
    exists_accepted_all (hlength.trans (total_targets hlen plen).symm)
  simp only [targets, List.forall₂_cons_right_iff, List.forall₂_nil_right_iff] at haccepts
  obtain ⟨_, _, h₁, ⟨_, _, h₂, ⟨_, _, h₃, ⟨_, _, h₄, ⟨_, _, h₅, ⟨_, _, h₆, ⟨_, _, h₇, ⟨_, _, h₈,
    ⟨_, _, h₉, rfl, rfl⟩, rfl⟩, rfl⟩, rfl⟩, rfl⟩, rfl⟩, rfl⟩, rfl⟩, rfl⟩ := haccepts
  obtain ⟨parsedHtype, rfl⟩ := accepts_u16 h₁
  obtain ⟨parsedPtype, rfl⟩ := accepts_u16 h₂
  obtain ⟨parsedHlen, rfl⟩ := accepts_u8 h₃
  obtain ⟨parsedPlen, rfl⟩ := accepts_u8 h₄
  obtain ⟨oper, rfl⟩ := accepts_u16 h₅
  obtain ⟨senderHardwareAddr, rfl⟩ := accepts_array h₆
  obtain ⟨senderProtocolAddr, rfl⟩ := accepts_array h₇
  obtain ⟨targetHardwareAddr, rfl⟩ := accepts_array h₈
  obtain ⟨targetProtocolAddr, rfl⟩ := accepts_array h₉
  exact ⟨parsedHtype, parsedPtype, parsedHlen, parsedPlen,
    ⟨oper, senderHardwareAddr, targetHardwareAddr, senderProtocolAddr, targetProtocolAddr⟩, hvalues⟩

/-- A buffer that is too short makes the assertion fail. -/
theorem try_from_stream_short {storage : Storage}
    (hshort : storage.bytes.length < expectedBufferLength hlen plen) :
    tryFromStream htype ptype hlen plen direction {} storage.bytes = none := by
  obtain ⟨last, _, _, _, _, _, _, _, _, _, hreads, hfinish⟩ :=
    try_from_stream_reads {} storage.bytes
  have herrc := (read_all_taken (targets_in_memory hlen plen) hreads).2.2
  have hfail : last.errc ≠ .ok := by
    intro hok
    have hfits := (Packing.fit_eq_self_iff _).mp (herrc.mp hok)
    rw [total_targets] at hfits
    omega
  rw [hfinish]
  exact if_neg hfail

/-- Every element of the chain of writes is in memory. -/
theorem writes_in_memory (arp : Arp htype ptype hlen plen direction) :
    ∀ element ∈ arp.writes, element.InMemory := by
  have hhlen : hlen.toNat < 256 := hlen.toNat_lt
  have hplen : plen.toNat < 256 := plen.toNat_lt
  simp [writes, vectorMaxSize]
  omega

/-- The bytes of a packet are its own header and its fields. -/
theorem encode_writes (arp : Arp htype ptype hlen plen direction) :
    encodeAll arp.writes = RoundTrip.encodeAll (arp.values htype ptype hlen plen) := by
  simp [encodeAll, RoundTrip.encodeAll, writes, values, Write.encode]

/-- The chain of a packet takes the expected length. -/
theorem total_writes (arp : Arp htype ptype hlen plen direction) :
    total Write.size arp.writes = expectedBufferLength hlen plen := by
  rw [← length_encode_all (readable_of_in_memory arp.writes_in_memory), encode_writes,
    length_values]

/-- The packet is encoded as these bytes: `try_to_stream` stores them in every buffer with room
for a packet. -/
def Emits (arp : Arp htype ptype hlen plen direction) (bytes : List UInt8) : Prop :=
  ∀ buffer : RoundTrip.ByteBuffer, expectedBufferLength hlen plen ≤ buffer.bytes.length →
    ∃ stream stored, arp.tryToStream {} buffer.bytes = some (stream, stored) ∧
      stream.errc = .ok ∧ stored.take stream.cursor = bytes

/-- A packet has one encoding. -/
theorem emits_iff (arp : Arp htype ptype hlen plen direction) (bytes : List UInt8) :
    arp.Emits bytes ↔ bytes = RoundTrip.encodeAll (arp.values htype ptype hlen plen) := by
  have hreadable := readable_of_in_memory arp.writes_in_memory
  constructor
  · intro h
    have hhlen : hlen.toNat < 256 := hlen.toNat_lt
    have hplen : plen.toNat < 256 := plen.toNat_lt
    obtain ⟨buffer, hbuffer⟩ := Packet.exists_buffer
      (show expectedBufferLength hlen plen < 2 ^ 64 by unfold expectedBufferLength; omega)
    obtain ⟨stream, stored, hwrite, -, hstored⟩ := h buffer (Nat.le_of_eq hbuffer.symm)
    obtain ⟨stream', stored', hwrite', -, -, hemitted⟩ :=
      Packet.emitted_eq hreadable (Nat.le_of_eq (arp.total_writes.trans hbuffer.symm))
    obtain ⟨rfl, rfl⟩ := Prod.mk.inj (Option.some.inj (hwrite.symm.trans hwrite'))
    rw [← hstored, hemitted, encode_writes]
  · intro h buffer hroom
    obtain ⟨stream, stored, hwrite, herrc, -, hemitted⟩ :=
      Packet.emitted_eq hreadable (arp.total_writes ▸ hroom)
    exact ⟨stream, stored, hwrite, herrc, by rw [hemitted, encode_writes, h]⟩

/-- Decoding accepts exactly the encodings: a buffer is accepted if and only if it begins with
the encoding of a packet of the instance, what is accepted is encoded as the bytes that were
consumed, and the encoding of a packet is decoded to it. -/
def DecodesExactly (htype ptype : UInt16) (hlen plen : UInt8) (direction : TypestateDirection)
    (bytes : List UInt8) : Prop :=
  ((∃ stream arp, tryFromStream htype ptype hlen plen direction {} bytes = some (stream, arp)) ↔
    ∃ arp : Arp htype ptype hlen plen direction, ∃ encoding,
      arp.Emits encoding ∧ encoding <+: bytes) ∧
  (∀ stream arp, tryFromStream htype ptype hlen plen direction {} bytes = some (stream, arp) →
    arp.Emits (bytes.take stream.cursor)) ∧
  (∀ arp : Arp htype ptype hlen plen direction, ∀ encoding, arp.Emits encoding →
    ∃ stream, tryFromStream htype ptype hlen plen direction {} encoding = some (stream, arp))

/-- The header that the packets of an instance carry. -/
def ownHeader (htype ptype : UInt16) (hlen plen : UInt8) : List UInt8 :=
  RoundTrip.encodeAll [.u16 htype, .u16 ptype, .u8 hlen, .u8 plen]

/-- What follows the header of a packet on the wire. -/
def fields (arp : Arp htype ptype hlen plen direction) : List UInt8 :=
  RoundTrip.encodeAll [.u16 arp.oper, .array hlen.toNat arp.senderHardwareAddr,
    .array plen.toNat arp.senderProtocolAddr, .array hlen.toNat arp.targetHardwareAddr,
    .array plen.toNat arp.targetProtocolAddr]

/-- The values of a packet on the wire are a header and the fields. -/
theorem encode_values (arp : Arp htype ptype hlen plen direction)
    (parsedHtype parsedPtype : UInt16) (parsedHlen parsedPlen : UInt8) :
    RoundTrip.encodeAll (arp.values parsedHtype parsedPtype parsedHlen parsedPlen) =
      ownHeader parsedHtype parsedPtype parsedHlen parsedPlen ++ arp.fields := by
  simp [RoundTrip.encodeAll, values, ownHeader, fields]

/-- A header takes six bytes. -/
theorem length_own_header (htype ptype : UInt16) (hlen plen : UInt8) :
    (ownHeader htype ptype hlen plen).length = 6 := by
  simp [ownHeader, RoundTrip.encodeAll, Value.encode]

/-- Where a packet stands behind a header, its own bytes stand exactly if the header is the one
of the instance. -/
theorem values_eq_iff (arp : Arp htype ptype hlen plen direction)
    (parsedHtype parsedPtype : UInt16) (parsedHlen parsedPlen : UInt8) (rest : List UInt8) :
    RoundTrip.encodeAll (arp.values parsedHtype parsedPtype parsedHlen parsedPlen) =
        RoundTrip.encodeAll (arp.values htype ptype hlen plen) ↔
      (RoundTrip.encodeAll (arp.values parsedHtype parsedPtype parsedHlen parsedPlen) ++
        rest).take 6 = ownHeader htype ptype hlen plen := by
  have hlength := length_own_header parsedHtype parsedPtype parsedHlen parsedPlen
  rw [encode_values, encode_values, List.append_left_inj, List.append_assoc, ← hlength,
    List.take_left]

/-- The encoding of a packet is decoded to it. -/
theorem decode_emitted {arp : Arp htype ptype hlen plen direction} {encoding : List UInt8}
    (h : arp.Emits encoding) :
    ∃ stream, tryFromStream htype ptype hlen plen direction {} encoding = some (stream, arp) := by
  have hhlen : hlen.toNat < 256 := hlen.toNat_lt
  have hplen : plen.toNat < 256 := plen.toNat_lt
  have hsize : (RoundTrip.encodeAll (arp.values htype ptype hlen plen) ++ []).length < 2 ^ 64 := by
    rw [List.append_nil, length_values, expectedBufferLength]
    omega
  obtain ⟨stream, -, hparse⟩ := try_from_stream_values hsize
  rw [(arp.emits_iff encoding).mp h]
  rw [List.append_nil] at hparse
  exact ⟨stream, hparse⟩

/-- A buffer with enough bytes is accepted whatever its header says, and what is returned is
encoded as the consumed bytes only if the header is the one of the instance. -/
theorem decode_long {storage : Storage}
    (hlong : expectedBufferLength hlen plen ≤ storage.bytes.length) :
    ∃ stream, ∃ arp : Arp htype ptype hlen plen direction,
      tryFromStream htype ptype hlen plen direction {} storage.bytes = some (stream, arp) ∧
      (arp.Emits (storage.bytes.take stream.cursor) ↔
        storage.bytes.take 6 = ownHeader htype ptype hlen plen) := by
  have hmax := vector_max_size_lt
  have hbound := storage.size_le
  obtain ⟨parsedHtype, parsedPtype, parsedHlen, parsedPlen, arp, hvalues⟩ :
      ∃ _ _ _ _, ∃ arp : Arp htype ptype hlen plen direction, _ :=
    exists_values (List.length_take_of_le hlong)
  have hsplit : RoundTrip.encodeAll (arp.values parsedHtype parsedPtype parsedHlen parsedPlen) ++
      storage.bytes.drop (expectedBufferLength hlen plen) = storage.bytes := by
    rw [hvalues, List.take_append_drop]
  have hheader := arp.values_eq_iff parsedHtype parsedPtype parsedHlen parsedPlen
    (storage.bytes.drop (expectedBufferLength hlen plen))
  have hsize : (RoundTrip.encodeAll
      (arp.values parsedHtype parsedPtype parsedHlen parsedPlen) ++
        storage.bytes.drop (expectedBufferLength hlen plen)).length < 2 ^ 64 := by
    rw [hsplit]
    omega
  obtain ⟨stream, hcursor, hparse⟩ := try_from_stream_values hsize
  rw [hsplit] at hparse hheader
  refine ⟨stream, arp, hparse, ?_⟩
  rw [hcursor, emits_iff, ← hvalues, hheader]

/-- Decoding is exact on a buffer if and only if the buffer is too short for a packet, or begins
with the header of the instance. -/
theorem decodes_exactly_iff (htype ptype : UInt16) (hlen plen : UInt8)
    (direction : TypestateDirection) (storage : Storage) :
    DecodesExactly htype ptype hlen plen direction storage.bytes ↔
      (expectedBufferLength hlen plen ≤ storage.bytes.length →
        storage.bytes.take 6 = ownHeader htype ptype hlen plen) := by
  constructor
  · intro h hlong
    obtain ⟨stream, arp, hparse, hheader⟩ := decode_long hlong
    exact hheader.mp (h.2.1 stream arp hparse)
  · intro h
    -- Whatever is returned was long enough, so it is the packet that `decode_long` speaks of.
    have hexact : ∀ stream (arp : Arp htype ptype hlen plen direction),
        tryFromStream htype ptype hlen plen direction {} storage.bytes = some (stream, arp) →
          arp.Emits (storage.bytes.take stream.cursor) := by
      intro stream arp hparse
      by_cases hlong : expectedBufferLength hlen plen ≤ storage.bytes.length
      · obtain ⟨stream', arp', hparse', hheader⟩ := decode_long hlong
        obtain ⟨rfl, rfl⟩ := Prod.mk.inj (Option.some.inj (hparse.symm.trans hparse'))
        exact hheader.mpr (h hlong)
      · rw [try_from_stream_short (Nat.lt_of_not_le hlong)] at hparse
        exact absurd hparse (by simp)
    refine ⟨⟨?_, ?_⟩, hexact, fun arp encoding => decode_emitted⟩
    · intro hreturns
      obtain ⟨stream, arp, hparse⟩ := hreturns
      exact ⟨arp, _, hexact stream arp hparse, List.take_prefix _ _⟩
    · intro hbegins
      obtain ⟨arp, encoding, hemits, hprefix⟩ := hbegins
      have hlong := hprefix.length_le
      rw [(arp.emits_iff encoding).mp hemits, length_values] at hlong
      obtain ⟨stream, arp', hparse, -⟩ := decode_long hlong
      exact ⟨stream, arp', hparse⟩

/-- An ARP packet for another network protocol than IPv4. -/
def foreignPacket : Storage where
  bytes := [0x00, 0x01, 0x86, 0xDD, 6, 4, 0x00, 0x01] ++ List.replicate 20 9
  size_le := by decide

/-- The parser for Ethernet and IPv4 accepts the foreign packet, which is not the encoding of
what it returns. -/
theorem foreign_packet_accepted :
    ¬ DecodesExactly 0x0001 0x0800 6 4 .directionIn foreignPacket.bytes := by
  intro h
  have hlong : expectedBufferLength 6 4 ≤ foreignPacket.bytes.length := by decide
  obtain ⟨stream, arp, hparse, hheader⟩ := decode_long hlong
  exact absurd (hheader.mp (h.2.1 stream arp hparse)) (by decide)

end Arp

end Toad
