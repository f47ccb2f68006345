import Toad.Codec.BitFields
import Toad.Nic.Packet

/-!
# IPv4

`nic/ipv4.hpp`. The header packs five fields into three bytes and a word; `try_to_stream` and
`try_from_stream` pack and unpack them with different expressions. A reply is assembled from
the request by a converting copy and several overrides, and computes its checksum last.
-/

namespace Toad

/-- `IPv4`, an address. -/
abbrev IPv4 : Type :=
  Vector UInt8 4

/-- `Ip`. -/
@[ext] structure Ip (direction : TypestateDirection) where
  version : UInt8
  ihl : UInt8
  dscp : UInt8
  ecn : UInt8
  totalLength : UInt16
  identification : UInt16
  flags : UInt8
  fragmentOffset : UInt16
  ttl : UInt8
  protocol : UInt8
  headerChecksum : Checksum
  src : IPv4
  dst : IPv4
  payload : Payload

/-- The values that `try_from_stream` reads: the header with its packed fields still packed. -/
structure WireHeader where
  versionIhl : UInt8
  dscpEcn : UInt8
  totalLength : UInt16
  identification : UInt16
  flagsFragmentOffset : UInt16
  ttl : UInt8
  protocol : UInt8
  headerChecksum : UInt16
  src : IPv4
  dst : IPv4

/-- The values on the wire, in order. -/
def WireHeader.values (header : WireHeader) : List RoundTrip.Value :=
  [.u8 header.versionIhl, .u8 header.dscpEcn, .u16 header.totalLength,
    .u16 header.identification, .u16 header.flagsFragmentOffset, .u8 header.ttl,
    .u8 header.protocol, .u16 header.headerChecksum, .array 4 header.src, .array 4 header.dst]

namespace Ip

open Chain
open RoundTrip (Value Target)
open Packing (total total_cons total_nil)

variable {direction : TypestateDirection}

/-- `IP_HEADER_SIZE`, which `header_size()` returns as well. -/
def headerSize : Nat :=
  20

/-- `header_dynamic_size()`. -/
def headerDynamicSize (_ : Ip direction) : Nat :=
  0

/-- `payload_size()`. -/
def payloadSize (ip : Ip direction) : Nat :=
  ip.payload.size

/-- `size()`. -/
def size (ip : Ip direction) : Nat :=
  szAdd (szAdd headerSize ip.headerDynamicSize) ip.payloadSize

/-- `buffer_size()`. -/
def bufferSize (ip : Ip direction) : Nat :=
  szAdd headerSize ip.payload.size

/-- `(version << 4) | ihl`. -/
def versionIhl (ip : Ip direction) : UInt8 :=
  (ip.version <<< 4) ||| ip.ihl

/-- `(dscp << 2) | ecn`. -/
def dscpEcn (ip : Ip direction) : UInt8 :=
  (ip.dscp <<< 2) ||| ip.ecn

/-- `hi_byte`: the flags and the upper part of the fragment offset. -/
def hiByte (ip : Ip direction) : UInt8 :=
  (ip.flags <<< 5) ||| ((ip.fragmentOffset >>> 8) &&& 0x1F).toUInt8

/-- `lo_byte`: the lower part of the fragment offset. -/
def loByte (ip : Ip direction) : UInt8 :=
  (ip.fragmentOffset &&& 0xFF).toUInt8

/-- The chain of writes of `try_to_stream`. -/
def writes (ip : Ip direction) : List Write :=
  [.typed (.u8 ip.versionIhl), .typed (.u8 ip.dscpEcn), .typed (.u16 ip.totalLength),
    .typed (.u16 ip.identification), .typed (.u8 ip.hiByte), .typed (.u8 ip.loByte),
    .typed (.u8 ip.ttl), .typed (.u8 ip.protocol), .typed (.u16 ip.headerChecksum.n),
    .typed (.array 4 ip.src), .typed (.array 4 ip.dst), .buffer ip.payload.toBuffer]

/-- `try_to_stream`. -/
def tryToStream (ip : Ip direction) (stream : ByteOStream) (buffer : List UInt8) :
    Option (ByteOStream × List UInt8) :=
  writeAll stream buffer ip.writes

/-- `response.payload = payload`. -/
def withPayload (ip : Ip direction) (payload : Payload) : Ip direction :=
  { ip with payload := payload }

/-- `read_buffer`, whose body is missing from the source: it takes a payload from the buffer. -/
abbrev ReadBuffer : Type :=
  ByteIStream → List UInt8 → ByteIStream × Payload

/-- The packet that a header on the wire stands for: the packed fields are taken apart. -/
def ofWire (header : WireHeader) (payload : Payload) : Ip direction :=
  { version := (header.versionIhl >>> 4) &&& 0xF
    ihl := header.versionIhl &&& 0xF
    dscp := (header.dscpEcn >>> 2) &&& 0b111111
    ecn := header.dscpEcn &&& 0b11
    totalLength := header.totalLength
    identification := header.identification
    flags := ((header.flagsFragmentOffset >>> 13) &&& 0b111).toUInt8
    fragmentOffset := header.flagsFragmentOffset &&& 0x1FFF
    ttl := header.ttl
    protocol := header.protocol
    headerChecksum := { n := header.headerChecksum }
    src := header.src
    dst := header.dst
    payload := payload }

/-- The end of `try_from_stream`: the payload is read and the error code is checked. -/
def finish (readBuffer : ReadBuffer) (stream : ByteIStream) (buffer : List UInt8)
    (versionIhl dscpEcn : Option UInt8)
    (totalLength identification flagsFragmentOffset : Option UInt16)
    (ttl protocol : Option UInt8) (headerChecksum : Option UInt16) (src dst : Option IPv4) :
    Option (ByteIStream × Ip direction) :=
  let (stream, payload) := readBuffer stream buffer
  if stream.errc = .ok then do
    let header : WireHeader :=
      { versionIhl := ← versionIhl, dscpEcn := ← dscpEcn, totalLength := ← totalLength,
        identification := ← identification, flagsFragmentOffset := ← flagsFragmentOffset,
        ttl := ← ttl, protocol := ← protocol, headerChecksum := ← headerChecksum, src := ← src,
        dst := ← dst }
    pure (stream, ofWire header payload)
  else
    none

/-- `try_from_stream`; `none` is a failed assertion. -/
def tryFromStream (readBuffer : ReadBuffer) (stream : ByteIStream) (buffer : List UInt8) :
    Option (ByteIStream × Ip direction) :=
  let (stream, versionIhl) := stream.readU8 buffer none
  let (stream, dscpEcn) := stream.readU8 buffer none
  let (stream, totalLength) := stream.readU16 buffer none
  let (stream, identification) := stream.readU16 buffer none
  let (stream, flagsFragmentOffset) := stream.readU16 buffer none
  let (stream, ttl) := stream.readU8 buffer none
  let (stream, protocol) := stream.readU8 buffer none
  let (stream, headerChecksum) := stream.readU16 buffer none
  let (stream, src) := stream.readArray buffer none
  let (stream, dst) := stream.readArray buffer none
  finish readBuffer stream buffer versionIhl dscpEcn totalLength identification
    flagsFragmentOffset ttl protocol headerChecksum src dst

/-- The converting constructor `Ip(const Ip<other> &)`, which leaves the payload empty. -/
def convert (ip : Ip direction) (other : TypestateDirection) : Ip other :=
  { version := ip.version
    ihl := ip.ihl
    dscp := ip.dscp
    ecn := ip.ecn
    totalLength := ip.totalLength
    identification := ip.identification
    flags := ip.flags
    fragmentOffset := ip.fragmentOffset
    ttl := ip.ttl
    protocol := ip.protocol
    headerChecksum := ip.headerChecksum
    src := ip.src
    dst := ip.dst
    payload := .empty }

/-- `calculate_checksum`. -/
def calculateChecksum (ip : Ip direction) : Option Checksum :=
  Packet.calculateChecksum ip.writes ip.bufferSize 10

/-- `response.header_checksum = checksum`. -/
def withHeaderChecksum (ip : Ip direction) (checksum : Checksum) : Ip direction :=
  { ip with headerChecksum := checksum }

/-- The overrides of `clone_as_response`, up to the checksum. The total length is computed from
`buffer_size()` of the request. -/
def override (ip : Ip direction) (payload : Payload) (ttl : UInt8) :
    Ip (reverseDirection direction) :=
  let response := (ip.convert (reverseDirection direction)).withPayload payload
  { response with
    totalLength := UInt16.ofNat ip.bufferSize
    ttl := ttl
    dst := response.src
    src := response.dst }

/-- `clone_as_response`; `none` is a failed assertion of the checksum. -/
def cloneAsResponse (ip : Ip direction) (payload : Payload) (ttl : UInt8) :
    Option (Ip (reverseDirection direction)) := do
  let response := ip.override payload ttl
  let checksum ← response.calculateChecksum
  pure (response.withHeaderChecksum checksum)

/-- The destinations of the reads of `try_from_stream`. -/
def targets : List Target :=
  [.u8 none, .u8 none, .u16 none, .u16 none, .u16 none, .u8 none, .u8 none, .u16 none,
    .array 4 none, .array 4 none]

/-- The reads of `try_from_stream` are a chain, and `finish` gets what they return. -/
theorem try_from_stream_reads (direction : TypestateDirection) (stream : ByteIStream)
    (buffer : List UInt8) :
    ∃ last versionIhl dscpEcn totalLength identification flagsFragmentOffset ttl protocol
        headerChecksum src dst,
      RoundTrip.readAll stream buffer targets =
        .ok (last, [Option.map Value.u8 versionIhl, Option.map Value.u8 dscpEcn,
          Option.map Value.u16 totalLength, Option.map Value.u16 identification,
          Option.map Value.u16 flagsFragmentOffset, Option.map Value.u8 ttl,
          Option.map Value.u8 protocol, Option.map Value.u16 headerChecksum,
          Option.map (Value.array 4) src, Option.map (Value.array 4) dst]) ∧
      ∀ readBuffer : ReadBuffer,
        (tryFromStream readBuffer stream buffer : Option (ByteIStream × Ip direction)) =
          finish readBuffer last buffer versionIhl dscpEcn totalLength identification
            flagsFragmentOffset ttl protocol headerChecksum src dst :=
  ⟨_, _, _, _, _, _, _, _, _, _, _, rfl, fun _ => rfl⟩

/-- From a buffer that begins with the encoding of a header, `try_from_stream` gets the packet
of that header. -/
theorem try_from_stream_wire {readBuffer : ReadBuffer} {header : WireHeader} {rest : List UInt8}
    (hread : ∀ stream buffer, stream.errc = .ok → (readBuffer stream buffer).1.errc = .ok)
    (hsize : (RoundTrip.encodeAll header.values ++ rest).length < 2 ^ 64) :
    ∃ stream payload,
      tryFromStream readBuffer {} (RoundTrip.encodeAll header.values ++ rest) =
        some (stream, (ofWire header payload : Ip direction)) := by
  have haccepts : List.Forall₂ Value.Accepts header.values targets := by
    simp [WireHeader.values, targets, Value.Accepts]
  have hfits : ∀ value ∈ header.values, value.Fits := by
    simp [WireHeader.values, Value.Fits]
  have hall := RoundTrip.read_all_append
    (show ({} : ByteIStream).cursor = ([] : List UInt8).length from rfl) hsize hfits haccepts
  rw [List.nil_append] at hall
  generalize RoundTrip.encodeAll header.values ++ rest = buffer at hall ⊢
  obtain ⟨last, _, _, _, _, _, _, _, _, _, _, hreads, hfinish⟩ :=
    try_from_stream_reads direction {} buffer
  rw [hall] at hreads
  simp only [WireHeader.values, List.map_cons, List.map_nil, Except.ok.injEq, Prod.mk.injEq,
    List.cons.injEq, eq_comm (a := some _), Option.map_eq_some_iff, Value.u8.injEq,
    Value.u16.injEq, Value.array.injEq, heq_eq_eq, true_and, and_true, exists_eq_right] at hreads
  obtain ⟨hlast, rfl, rfl, rfl, rfl, rfl, rfl, rfl, rfl, rfl, rfl⟩ := hreads
  have hok : (readBuffer last buffer).1.errc = .ok := hread last buffer (by rw [← hlast])
  refine ⟨(readBuffer last buffer).1, (readBuffer last buffer).2, ?_⟩
  rw [hfinish readBuffer]
  exact if_pos hok

/-- Every byte sequence of the length of a header is the encoding of one. -/
theorem exists_wire_header {bytes : List UInt8} (hlength : bytes.length = headerSize) :
    ∃ header : WireHeader, RoundTrip.encodeAll header.values = bytes := by
  have htotal : total RoundTrip.Target.size targets = headerSize := rfl
  obtain ⟨values, haccepts, hvalues⟩ := exists_accepted_all (hlength.trans htotal.symm)
  simp only [targets, List.forall₂_cons_right_iff, List.forall₂_nil_right_iff] at haccepts
  obtain ⟨_, _, h₁, ⟨_, _, h₂, ⟨_, _, h₃, ⟨_, _, h₄, ⟨_, _, h₅, ⟨_, _, h₆, ⟨_, _, h₇, ⟨_, _, h₈,
    ⟨_, _, h₉, ⟨_, _, h₁₀, rfl, rfl⟩, rfl⟩, rfl⟩, rfl⟩, rfl⟩, rfl⟩, rfl⟩, rfl⟩, rfl⟩, rfl⟩ :=
    haccepts
  obtain ⟨versionIhl, rfl⟩ := accepts_u8 h₁
  obtain ⟨dscpEcn, rfl⟩ := accepts_u8 h₂
  obtain ⟨totalLength, rfl⟩ := accepts_u16 h₃
  obtain ⟨identification, rfl⟩ := accepts_u16 h₄
  obtain ⟨flagsFragmentOffset, rfl⟩ := accepts_u16 h₅
  obtain ⟨ttl, rfl⟩ := accepts_u8 h₆
  obtain ⟨protocol, rfl⟩ := accepts_u8 h₇
  obtain ⟨headerChecksum, rfl⟩ := accepts_u16 h₈
  obtain ⟨src, rfl⟩ := accepts_array h₉
  obtain ⟨dst, rfl⟩ := accepts_array h₁₀
  exact ⟨⟨versionIhl, dscpEcn, totalLength, identification, flagsFragmentOffset, ttl, protocol,
    headerChecksum, src, dst⟩, hvalues⟩

/-- The header that `try_to_stream` puts on the wire, its two hand-made bytes read as a word. -/
def toWire (ip : Ip direction) : WireHeader :=
  { versionIhl := ip.versionIhl
    dscpEcn := ip.dscpEcn
    totalLength := ip.totalLength
    identification := ip.identification
    flagsFragmentOffset := ByteIStream.combine ip.hiByte ip.loByte
    ttl := ip.ttl
    protocol := ip.protocol
    headerChecksum := ip.headerChecksum.n
    src := ip.src
    dst := ip.dst }

/-- The bytes of a packet are its header on the wire and its payload. -/
theorem encode_writes (ip : Ip direction) :
    encodeAll ip.writes = RoundTrip.encodeAll ip.toWire.values ++ ip.payload.bytes := by
  have hword := encode_combine ip.hiByte ip.loByte
  simp only [encodeAll, RoundTrip.encodeAll, writes, toWire, WireHeader.values,
    List.flatMap_cons, List.flatMap_nil, Write.encode, hword]
  simp [Value.encode, Payload.bytes]

/-- A header takes twenty bytes. -/
theorem length_values (header : WireHeader) :
    (RoundTrip.encodeAll header.values).length = headerSize := by
  simp [RoundTrip.encodeAll, WireHeader.values, Value.encode, headerSize]

/-- Every element of the chain is in memory. -/
theorem writes_in_memory (ip : Ip direction) : ∀ element ∈ ip.writes, element.InMemory := by
  simp [writes, vectorMaxSize]

/-- Every element of the chain can be read. -/
theorem writes_readable (ip : Ip direction) : ∀ element ∈ ip.writes, element.Readable :=
  readable_of_in_memory ip.writes_in_memory

/-- The chain of a packet takes its header and its payload. -/
theorem total_writes (ip : Ip direction) :
    total Write.size ip.writes = headerSize + ip.payload.size := by
  rw [← length_encode_all ip.writes_readable, encode_writes, List.length_append, length_values,
    Payload.length_bytes]

/-- `buffer_size()` is what the chain takes. -/
theorem buffer_size_eq (ip : Ip direction) : ip.bufferSize = total Write.size ip.writes := by
  rw [bufferSize, total_writes]
  exact ip.payload.sz_add_size (by decide)

/-- `size()` is what the chain takes. -/
theorem size_eq (ip : Ip direction) : ip.size = total Write.size ip.writes := by
  rw [total_writes]
  exact ip.payload.size_of_parts (by decide)

/-- The packed fields are within the widths that the header has for them. -/
structure InRange (ip : Ip direction) : Prop where
  version_lt : ip.version.toNat < 16
  ihl_lt : ip.ihl.toNat < 16
  dscp_lt : ip.dscp.toNat < 64
  ecn_lt : ip.ecn.toNat < 4
  flags_lt : ip.flags.toNat < 8
  fragment_offset_lt : ip.fragmentOffset.toNat < 8192

/-- The value of the first byte, when the low field is within its width. -/
theorem version_ihl_to_nat {ip : Ip direction} (h : ip.ihl.toNat < 16) :
    ip.versionIhl.toNat = 16 * (ip.version.toNat % 16) + ip.ihl.toNat :=
  BitFields.to_nat_pack ip.version ip.ihl 4 (by decide) h

/-- The value of the second byte, when the low field is within its width. -/
theorem dscp_ecn_to_nat {ip : Ip direction} (h : ip.ecn.toNat < 4) :
    ip.dscpEcn.toNat = 4 * (ip.dscp.toNat % 64) + ip.ecn.toNat :=
  BitFields.to_nat_pack ip.dscp ip.ecn 2 (by decide) h

/-- The value of the upper part of the fragment offset. -/
theorem upper_offset_to_nat (offset : UInt16) :
    ((offset >>> 8) &&& 0x1F).toUInt8.toNat = offset.toNat / 256 % 32 := by
  rw [UInt16.toNat_toUInt8, BitFields.to_nat_mask_word _ _ 5 rfl,
    BitFields.to_nat_shift_right_word _ _ (by decide)]
  show offset.toNat / 256 % 32 % 256 = _
  omega

/-- The value of the word of flags and fragment offset. -/
theorem flags_fragment_offset_to_nat (ip : Ip direction) :
    (ByteIStream.combine ip.hiByte ip.loByte).toNat =
      8192 * (ip.flags.toNat % 8) + ip.fragmentOffset.toNat % 8192 := by
  have hupper := upper_offset_to_nat ip.fragmentOffset
  have hhi : ip.hiByte.toNat =
      32 * (ip.flags.toNat % 8) + ip.fragmentOffset.toNat / 256 % 32 := by
    rw [← hupper]
    exact BitFields.to_nat_pack ip.flags _ 5 (by decide)
      (by rw [hupper]; exact Nat.mod_lt _ (by decide))
  have hlo : ip.loByte.toNat = ip.fragmentOffset.toNat % 256 :=
    RoundTrip.to_nat_masked ip.fragmentOffset
  rw [ByteIStream.combine_to_nat, hhi, hlo]
  omega

section Unpack

variable (direction) (header : WireHeader) (payload : Payload)

/-- The version is the upper half of the first byte. -/
theorem of_wire_version :
    (ofWire header payload : Ip direction).version.toNat = header.versionIhl.toNat / 16 := by
  have hlt : header.versionIhl.toNat < 256 := header.versionIhl.toNat_lt
  show ((header.versionIhl >>> 4) &&& 0xF).toNat = _
  rw [BitFields.to_nat_mask _ _ 4 rfl, BitFields.to_nat_shift_right _ _ (by decide)]
  show header.versionIhl.toNat / 16 % 16 = _
  omega

/-- The header length is the lower half of the first byte. -/
theorem of_wire_ihl :
    (ofWire header payload : Ip direction).ihl.toNat = header.versionIhl.toNat % 16 :=
  BitFields.to_nat_mask _ _ 4 rfl

/-- The service class is the upper part of the second byte. -/
theorem of_wire_dscp :
    (ofWire header payload : Ip direction).dscp.toNat = header.dscpEcn.toNat / 4 := by
  have hlt : header.dscpEcn.toNat < 256 := header.dscpEcn.toNat_lt
  show ((header.dscpEcn >>> 2) &&& 0b111111).toNat = _
  rw [BitFields.to_nat_mask _ _ 6 rfl, BitFields.to_nat_shift_right _ _ (by decide)]
  show header.dscpEcn.toNat / 4 % 64 = _
  omega

/-- The congestion bits are the lower part of the second byte. -/
theorem of_wire_ecn :
    (ofWire header payload : Ip direction).ecn.toNat = header.dscpEcn.toNat % 4 :=
  BitFields.to_nat_mask _ _ 2 rfl

/-- The flags are the top of their word. -/
theorem of_wire_flags :
    (ofWire header payload : Ip direction).flags.toNat =
      header.flagsFragmentOffset.toNat / 8192 := by
  have hlt : header.flagsFragmentOffset.toNat < 65536 := header.flagsFragmentOffset.toNat_lt
  show ((header.flagsFragmentOffset >>> 13) &&& 0b111).toUInt8.toNat = _
  rw [UInt16.toNat_toUInt8, BitFields.to_nat_mask_word _ _ 3 rfl,
    BitFields.to_nat_shift_right_word _ _ (by decide)]
  show header.flagsFragmentOffset.toNat / 8192 % 8 % 256 = _
  omega

/-- The fragment offset is the rest of that word. -/
theorem of_wire_fragment_offset :
    (ofWire header payload : Ip direction).fragmentOffset.toNat =
      header.flagsFragmentOffset.toNat % 8192 :=
  BitFields.to_nat_mask_word _ _ 13 rfl

/-- Packing what was unpacked gives the header back, whatever bytes it has. -/
theorem to_wire_of_wire : (ofWire header payload : Ip direction).toWire = header := by
  have hversion := of_wire_version direction header payload
  have hihl := of_wire_ihl direction header payload
  have hdscp := of_wire_dscp direction header payload
  have hecn := of_wire_ecn direction header payload
  have hflags := of_wire_flags direction header payload
  have hoffset := of_wire_fragment_offset direction header payload
  have hfirst : (ofWire header payload : Ip direction).versionIhl = header.versionIhl := by
    have hlt : header.versionIhl.toNat < 256 := header.versionIhl.toNat_lt
    apply UInt8.toNat_inj.mp
    rw [version_ihl_to_nat (by omega), hversion, hihl]
    omega
  have hsecond : (ofWire header payload : Ip direction).dscpEcn = header.dscpEcn := by
    have hlt : header.dscpEcn.toNat < 256 := header.dscpEcn.toNat_lt
    apply UInt8.toNat_inj.mp
    rw [dscp_ecn_to_nat (by omega), hdscp, hecn]
    omega
  have hword : ByteIStream.combine (ofWire header payload : Ip direction).hiByte
      (ofWire header payload : Ip direction).loByte = header.flagsFragmentOffset := by
    have hlt : header.flagsFragmentOffset.toNat < 65536 := header.flagsFragmentOffset.toNat_lt
    apply UInt16.toNat_inj.mp
    rw [flags_fragment_offset_to_nat, hflags, hoffset]
    omega
  rw [toWire, hfirst, hsecond, hword]
  rfl

end Unpack

/-- Unpacking what was packed gives the fields back, if each is within its width. -/
theorem of_wire_to_wire {ip : Ip direction} (h : ip.InRange) (payload : Payload) :
    ofWire ip.toWire payload = ip.withPayload payload := by
  obtain ⟨hversion, hihl, hdscp, hecn, hflags, hoffset⟩ := h
  have hfirst := version_ihl_to_nat hihl
  have hsecond := dscp_ecn_to_nat hecn
  have hword := flags_fragment_offset_to_nat ip
  have hunpack : (ofWire ip.toWire payload : Ip direction).version = ip.version ∧
      (ofWire ip.toWire payload : Ip direction).ihl = ip.ihl ∧
      (ofWire ip.toWire payload : Ip direction).dscp = ip.dscp ∧
      (ofWire ip.toWire payload : Ip direction).ecn = ip.ecn ∧
      (ofWire ip.toWire payload : Ip direction).flags = ip.flags ∧
      (ofWire ip.toWire payload : Ip direction).fragmentOffset = ip.fragmentOffset := by
    simp only [← UInt8.toNat_inj, ← UInt16.toNat_inj, of_wire_version, of_wire_ihl, of_wire_dscp,
      of_wire_ecn, of_wire_flags, of_wire_fragment_offset]
    show ip.versionIhl.toNat / 16 = _ ∧ ip.versionIhl.toNat % 16 = _ ∧
      ip.dscpEcn.toNat / 4 = _ ∧ ip.dscpEcn.toNat % 4 = _ ∧
      (ByteIStream.combine ip.hiByte ip.loByte).toNat / 8192 = _ ∧
      (ByteIStream.combine ip.hiByte ip.loByte).toNat % 8192 = _
    rw [hfirst, hsecond, hword]
    omega
  obtain ⟨h₁, h₂, h₃, h₄, h₅, h₆⟩ := hunpack
  rw [Ip.ext_iff]
  exact ⟨h₁, h₂, h₃, h₄, rfl, rfl, h₅, h₆, rfl, rfl, rfl, rfl, rfl, rfl⟩

/-- A packet that finds room emits its header and its payload. -/
theorem emitted_eq (ip : Ip direction) {buffer : RoundTrip.ByteBuffer}
    (hroom : ip.size ≤ buffer.bytes.length) :
    ∃ stream bytes, ip.tryToStream {} buffer.bytes = some (stream, bytes) ∧
      stream.errc = .ok ∧ stream.cursor = headerSize + ip.payload.size ∧
      bytes.take stream.cursor =
        RoundTrip.encodeAll ip.toWire.values ++ ip.payload.bytes := by
  rw [size_eq] at hroom
  obtain ⟨stream, bytes, hwrite, herrc, hcursor, hemitted⟩ :=
    Packet.emitted_eq ip.writes_readable hroom
  exact ⟨stream, bytes, hwrite, herrc, hcursor.trans ip.total_writes,
    hemitted.trans ip.encode_writes⟩

/-- The first bytes that a packet emits are its header on the wire. -/
theorem take_header {ip : Ip direction} {bytes : List UInt8} {cursor : Nat}
    (hcursor : cursor = headerSize + ip.payload.size)
    (hemitted : bytes.take cursor =
      RoundTrip.encodeAll ip.toWire.values ++ ip.payload.bytes) :
    bytes.take headerSize = RoundTrip.encodeAll ip.toWire.values := by
  have htake := congrArg (List.take headerSize) hemitted
  rwa [List.take_take, Nat.min_eq_left (by omega), ← length_values ip.toWire, List.take_left,
    length_values] at htake

/-- The header codec is a bijection, whatever `read_buffer` does with the payload, as long as it
reports no error. The bytes of every packet whose fields are within their widths are parsed to
the same fields, and every header of twenty bytes, with anything behind it, is parsed to fields
that are serialised to the same bytes. -/
theorem header_codec_bijective (readBuffer : ReadBuffer)
    (hread : ∀ stream buffer, stream.errc = .ok → (readBuffer stream buffer).1.errc = .ok) :
    (∀ ip : Ip direction, ip.InRange →
      ∀ buffer : RoundTrip.ByteBuffer, ip.size ≤ buffer.bytes.length →
        ∃ stream bytes, ip.tryToStream {} buffer.bytes = some (stream, bytes) ∧
          ∃ stream' payload, tryFromStream readBuffer {} (bytes.take stream.cursor) =
            some (stream', ip.withPayload payload)) ∧
    (∀ header rest : List UInt8, header.length = headerSize →
      (header ++ rest).length < 2 ^ 64 →
        ∃ stream, ∃ ip : Ip direction,
          tryFromStream readBuffer {} (header ++ rest) = some (stream, ip) ∧
          ∀ buffer : RoundTrip.ByteBuffer, ip.size ≤ buffer.bytes.length →
            ∃ stream' bytes, ip.tryToStream {} buffer.bytes = some (stream', bytes) ∧
              stream'.errc = .ok ∧ bytes.take headerSize = header) := by
  constructor
  · intro ip hrange buffer hroom
    obtain ⟨stream, bytes, hwrite, -, hcursor, hemitted⟩ := ip.emitted_eq hroom
    have hlength := ip.payload.length_bytes
    have hmax := vector_max_size_lt
    have hpayload := ip.payload.size_le
    refine ⟨stream, bytes, hwrite, ?_⟩
    rw [hemitted]
    obtain ⟨stream', payload, hparse⟩ := try_from_stream_wire hread
      (show (RoundTrip.encodeAll ip.toWire.values ++ ip.payload.bytes).length < 2 ^ 64 by
        rw [List.length_append, length_values, headerSize]
        omega)
    exact ⟨stream', payload, hparse.trans (by rw [of_wire_to_wire hrange])⟩
  · intro header rest hheader hsize
    obtain ⟨wire, rfl⟩ := exists_wire_header hheader
    obtain ⟨stream, payload, hparse⟩ := try_from_stream_wire hread hsize
    refine ⟨stream, _, hparse, ?_⟩
    intro buffer hroom
    obtain ⟨stream', bytes, hwrite, herrc, hcursor, hemitted⟩ := emitted_eq _ hroom
    refine ⟨stream', bytes, hwrite, herrc, ?_⟩
    rw [take_header hcursor hemitted, to_wire_of_wire]

/-- A `read_buffer` that takes the rest of the buffer as the payload. -/
def readRest : ReadBuffer := fun stream buffer =>
  if h : (buffer.drop stream.cursor).length ≤ vectorMaxSize then
    ({ stream with cursor := buffer.length }, Payload.ofBytes (buffer.drop stream.cursor) h)
  else
    (stream, Payload.empty)

/-- Taking the rest of the buffer reports no error. -/
theorem read_rest_ok (stream : ByteIStream) (buffer : List UInt8) (h : stream.errc = .ok) :
    (readRest stream buffer).1.errc = .ok := by
  unfold readRest
  split
  · exact h
  · exact h

/-- The header of an echo request and a payload of one byte. -/
theorem header_codec_bijective_echo :
    ∃ stream, ∃ ip : Ip .directionIn,
      tryFromStream readRest {}
          ([0x45, 0, 0, 21, 0, 1, 0x40, 0, 64, 1, 0, 0, 10, 0, 0, 1, 10, 0, 0, 2] ++ [7]) =
        some (stream, ip) ∧
      ∀ buffer : RoundTrip.ByteBuffer, ip.size ≤ buffer.bytes.length →
        ∃ stream' bytes, ip.tryToStream {} buffer.bytes = some (stream', bytes) ∧
          stream'.errc = .ok ∧
          bytes.take headerSize =
            [0x45, 0, 0, 21, 0, 1, 0x40, 0, 64, 1, 0, 0, 10, 0, 0, 1, 10, 0, 0, 2] :=
  (header_codec_bijective readRest read_rest_ok).2 _ _ rfl (by simp)

end Ip

end Toad
