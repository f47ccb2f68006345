import Toad.Nic.Ipv4

/-!
# IPv4 replies

`clone_as_response` of `nic/ipv4.hpp`. The checksum of a reply is computed over the reply
with its payload, and its total length from the size of the request. The results below say for
which requests and payloads the reply is right all the same.
-/

namespace Toad

namespace WireHeader

open RoundTrip (Value)

/-- The header up to the checksum field. -/
def front (header : WireHeader) : List UInt8 :=
  RoundTrip.encodeAll [.u8 header.versionIhl, .u8 header.dscpEcn, .u16 header.totalLength,
    .u16 header.identification, .u16 header.flagsFragmentOffset, .u8 header.ttl,
    .u8 header.protocol]

/-- The header after the checksum field. -/
def addresses (header : WireHeader) : List UInt8 :=
  header.src.toList ++ header.dst.toList

/-- A header is what lies before its checksum, the checksum, and the addresses. -/
theorem encode_values (header : WireHeader) :
    RoundTrip.encodeAll header.values =
      header.front ++ (Value.u16 header.headerChecksum).encode ++ header.addresses := by
  simp [RoundTrip.encodeAll, values, front, addresses, Value.encode]

/-- The checksum field lies at the tenth byte. -/
theorem length_front (header : WireHeader) : header.front.length = 10 := by
  simp [front, RoundTrip.encodeAll, Value.encode]

/-- The addresses take eight bytes. -/
theorem length_addresses (header : WireHeader) : header.addresses.length = 8 := by
  simp [addresses]

/-- The words before the checksum field. -/
theorem word_sum_front (header : WireHeader) :
    Checksum.wordSum header.front =
      256 * header.versionIhl.toNat + header.dscpEcn.toNat + header.totalLength.toNat +
        header.identification.toNat + header.flagsFragmentOffset.toNat +
        (256 * header.ttl.toNat + header.protocol.toNat) := by
  have hword (value : UInt16) (rest : List UInt8) :
      Checksum.wordSum ((Value.u16 value).encode ++ rest) =
        value.toNat + Checksum.wordSum rest := by
    rw [Checksum.word_sum_append _ (by simp [Value.encode]), Packet.word_sum_encode]
  have hpair (hi lo : UInt8) (rest : List UInt8) :
      Checksum.wordSum ((Value.u8 hi).encode ++ ((Value.u8 lo).encode ++ rest)) =
        256 * hi.toNat + lo.toNat + Checksum.wordSum rest := by
    simp [Value.encode, Checksum.wordSum, Checksum.words]
  simp only [front, RoundTrip.encodeAll, List.flatMap_cons, List.flatMap_nil, hword, hpair]
  simp only [Checksum.wordSum, Checksum.words, List.sum_nil]
  omega

/-- The addresses add nothing only if both are zero. -/
theorem word_sum_addresses (header : WireHeader) :
    Checksum.wordSum header.addresses = 0 ↔
      header.src = Vector.replicate 4 0 ∧ header.dst = Vector.replicate 4 0 := by
  have hzero (address : IPv4) :
      (∀ byte ∈ address.toList, byte = 0) ↔ address = Vector.replicate 4 0 := by
    rw [← Vector.toList_inj, Vector.toList_replicate, List.eq_replicate_iff]
    simp
  rw [Checksum.word_sum_eq_zero_iff, addresses, List.forall_mem_append, hzero, hzero]

end WireHeader

namespace Ip

open Chain OnesComplement
open RoundTrip (Value)
open Packing (total)

variable {direction : TypestateDirection}

/-- The checksum that a packet computes covers its header and its payload. -/
theorem calculate_checksum_eq (ip : Ip direction) :
    ∃ checksum, ip.calculateChecksum = some checksum ∧
      checksum.n.toNat = 0xFFFF - residue 65536 (Checksum.wordSum ip.toWire.front +
        Checksum.wordSum ip.toWire.addresses + Checksum.wordSum ip.payload.bytes) := by
  have hmax := vector_max_size_lt
  have hpayload := ip.payload.size_le
  have htotal := ip.total_writes
  unfold headerSize at htotal
  have hencode : encodeAll ip.writes = ip.toWire.front ++
      (Value.u16 ip.headerChecksum.n).encode ++
        (ip.toWire.addresses ++ ip.payload.bytes) := by
    rw [encode_writes, WireHeader.encode_values, List.append_assoc _ ip.toWire.addresses]
    rfl
  obtain ⟨checksum, hchecksum, hvalue⟩ := Packet.calculate_checksum_eq ip.writes_readable hencode
    (by rw [WireHeader.length_front]) (by omega)
  refine ⟨checksum, ?_, ?_⟩
  · rw [calculateChecksum, buffer_size_eq, ← WireHeader.length_front ip.toWire]
    exact hchecksum
  · rw [hvalue, Checksum.word_sum_append _ (by rw [WireHeader.length_addresses]), Nat.add_assoc]

/-- There are buffers in which a packet finds room. -/
theorem exists_room (ip : Ip direction) :
    ∃ buffer : RoundTrip.ByteBuffer, ip.size ≤ buffer.bytes.length := by
  have hmax := vector_max_size_lt
  have hpayload := ip.payload.size_le
  have hsize : ip.size = 20 + ip.payload.size := ip.size_eq.trans ip.total_writes
  obtain ⟨buffer, hlength⟩ := Packet.exists_buffer (show ip.size < 2 ^ 64 by omega)
  exact ⟨buffer, hlength.ge⟩

/-- The header checksum is the Internet checksum of the twenty header bytes that the packet
emits, with the checksum field taken as zero, and those bytes add up to all ones. -/
def HeaderChecksumValid (ip : Ip direction) : Prop :=
  ∀ buffer : RoundTrip.ByteBuffer, ip.size ≤ buffer.bytes.length →
    ∃ stream bytes, ip.tryToStream {} buffer.bytes = some (stream, bytes) ∧
      ip.headerChecksum.n.toNat =
        Checksum.internetChecksum (((bytes.take headerSize).set 10 0).set 11 0) ∧
      Checksum.onesComplementSum (bytes.take headerSize) = 0xFFFF

/-- The Internet checksum of a header with its checksum field taken as zero. -/
theorem internet_checksum_cleared (header : WireHeader) :
    Checksum.internetChecksum (((RoundTrip.encodeAll header.values).set 10 0).set 11 0) =
      0xFFFF - residue 65536
        (Checksum.wordSum header.front + Checksum.wordSum header.addresses) := by
  have hset := Packet.set_field header.front header.addresses
    (UInt8.ofNat (header.headerChecksum.toNat / 256))
    (UInt8.ofNat (header.headerChecksum.toNat % 256))
  rw [WireHeader.length_front] at hset
  have hsum : Checksum.wordSum (header.front ++ [0, 0] ++ header.addresses) =
      Checksum.wordSum header.front + Checksum.wordSum header.addresses := by
    rw [List.append_assoc, Checksum.word_sum_append _ (by rw [WireHeader.length_front]),
      Checksum.word_sum_append _ (by simp)]
    exact congrArg (Checksum.wordSum header.front + ·) (Nat.zero_add _)
  rw [WireHeader.encode_values, Value.encode, hset, Checksum.internetChecksum,
    Checksum.ones_complement_sum_eq, hsum]

/-- The checksum of a packet is right exactly when it is the complement of the sum of the header
without its checksum field: the bytes then add up to all ones by themselves. -/
theorem header_checksum_valid_iff (ip : Ip direction) :
    ip.HeaderChecksumValid ↔
      ip.headerChecksum.n.toNat = 0xFFFF - residue 65536
        (Checksum.wordSum ip.toWire.front + Checksum.wordSum ip.toWire.addresses) := by
  constructor
  · intro hvalid
    obtain ⟨buffer, hroom⟩ := ip.exists_room
    obtain ⟨stream, bytes, hwrite, hchecksum, -⟩ := hvalid buffer hroom
    obtain ⟨stream', bytes', hwrite', -, hcursor, hemitted⟩ := ip.emitted_eq hroom
    obtain ⟨rfl, rfl⟩ := Prod.mk.inj (Option.some.inj (hwrite.symm.trans hwrite'))
    rw [take_header hcursor hemitted] at hchecksum
    exact hchecksum.trans (internet_checksum_cleared ip.toWire)
  · intro hvalue buffer hroom
    obtain ⟨stream, bytes, hwrite, -, hcursor, hemitted⟩ := ip.emitted_eq hroom
    refine ⟨stream, bytes, hwrite, ?_, ?_⟩
    · rw [take_header hcursor hemitted, internet_checksum_cleared]
      exact hvalue
    · rw [take_header hcursor hemitted, WireHeader.encode_values]
      exact Packet.ones_complement_sum_checked (by rw [WireHeader.length_front]) hvalue

/-- Every byte of the header of the reply is zero, its checksum apart, as far as the request and
the time to live decide it. -/
structure BlankReply (ip : Ip direction) (ttl : UInt8) : Prop where
  version : ip.version.toNat % 16 = 0
  ihl : ip.ihl = 0
  dscp : ip.dscp.toNat % 64 = 0
  ecn : ip.ecn = 0
  size : (20 + ip.payload.size) % 65536 = 0
  identification : ip.identification = 0
  flags : ip.flags.toNat % 8 = 0
  fragment_offset : ip.fragmentOffset.toNat % 8192 = 0
  ttl : ttl = 0
  protocol : ip.protocol = 0
  src : ip.src = Vector.replicate 4 0
  dst : ip.dst = Vector.replicate 4 0

/-- `total_length` of a reply is the size of the request, cut to a word. -/
theorem total_length_override (ip : Ip direction) (payload : Payload) (ttl : UInt8) :
    (ip.override payload ttl).totalLength.toNat = (20 + ip.payload.size) % 65536 := by
  show (UInt16.ofNat ip.bufferSize).toNat = _
  rw [UInt16.toNat_ofNat', buffer_size_eq, total_writes]
  rfl

/-- The header of the reply adds up to nothing exactly when it is blank. -/
theorem blank_reply_iff (ip : Ip direction) (payload : Payload) (ttl : UInt8) :
    Checksum.wordSum (ip.override payload ttl).toWire.front +
        Checksum.wordSum (ip.override payload ttl).toWire.addresses = 0 ↔
      ip.BlankReply ttl := by
  have hzero (value : UInt8) : value.toNat = 0 ↔ value = 0 := UInt8.toNat_inj (b := 0)
  have hzeroWord (value : UInt16) : value.toNat = 0 ↔ value = 0 := UInt16.toNat_inj (b := 0)
  have hfirst : ip.versionIhl.toNat = 0 ↔ ip.version.toNat % 16 = 0 ∧ ip.ihl = 0 :=
    (hzero _).trans (BitFields.pack_eq_zero_iff ip.version ip.ihl 4 (by decide))
  have hsecond : ip.dscpEcn.toNat = 0 ↔ ip.dscp.toNat % 64 = 0 ∧ ip.ecn = 0 :=
    (hzero _).trans (BitFields.pack_eq_zero_iff ip.dscp ip.ecn 2 (by decide))
  have hword := ip.flags_fragment_offset_to_nat
  have htotal := ip.total_length_override payload ttl
  have hfront := WireHeader.word_sum_front (ip.override payload ttl).toWire
  have haddresses := WireHeader.word_sum_addresses (ip.override payload ttl).toWire
  change _ = 256 * ip.versionIhl.toNat + ip.dscpEcn.toNat +
    (ip.override payload ttl).totalLength.toNat + ip.identification.toNat +
    (ByteIStream.combine ip.hiByte ip.loByte).toNat +
    (256 * ttl.toNat + ip.protocol.toNat) at hfront
  change _ ↔ ip.dst = _ ∧ ip.src = _ at haddresses
  rw [Nat.add_eq_zero_iff, haddresses, hfront, htotal, hword]
  constructor
  · intro h
    obtain ⟨hsum, hdst, hsrc⟩ := h
    obtain ⟨hversion, hihl⟩ := hfirst.mp (by omega)
    obtain ⟨hdscp, hecn⟩ := hsecond.mp (by omega)
    exact ⟨hversion, hihl, hdscp, hecn, by omega, (hzeroWord _).mp (by omega), by omega, by omega,
      (hzero _).mp (by omega), (hzero _).mp (by omega), hsrc, hdst⟩
  · intro h
    have hversion := hfirst.mpr ⟨h.version, h.ihl⟩
    have hdscp := hsecond.mpr ⟨h.dscp, h.ecn⟩
    have hidentification := (hzeroWord _).mpr h.identification
    have httl := (hzero _).mpr h.ttl
    have hprotocol := (hzero _).mpr h.protocol
    have hsize := h.size
    have hflags := h.flags
    have hoffset := h.fragment_offset
    exact ⟨by omega, h.dst, h.src⟩

/-- What `clone_as_response` returns. -/
theorem clone_as_response_eq (ip : Ip direction) (payload : Payload) (ttl : UInt8) :
    ∃ checksum, ip.cloneAsResponse payload ttl =
        some ((ip.override payload ttl).withHeaderChecksum checksum) ∧
      checksum.n.toNat = 0xFFFF - residue 65536
        (Checksum.wordSum (ip.override payload ttl).toWire.front +
          Checksum.wordSum (ip.override payload ttl).toWire.addresses +
          Checksum.wordSum payload.bytes) := by
  obtain ⟨checksum, hchecksum, hvalue⟩ := (ip.override payload ttl).calculate_checksum_eq
  exact ⟨checksum, Option.bind_eq_some_iff.mpr ⟨checksum, hchecksum, rfl⟩, hvalue⟩

/-- Which replies carry a right checksum: those whose payload leaves the representative of the
header's sum alone. -/
theorem reply_valid_iff {ip : Ip direction} {payload : Payload} {ttl : UInt8}
    {reply : Ip (reverseDirection direction)} (h : ip.cloneAsResponse payload ttl = some reply) :
    reply.HeaderChecksumValid ↔
      Checksum.wordSum payload.bytes % 65535 = 0 ∧
        (Checksum.wordSum payload.bytes = 0 ∨ ¬ ip.BlankReply ttl) := by
  obtain ⟨checksum, hclone, hvalue⟩ := ip.clone_as_response_eq payload ttl
  obtain rfl := Option.some.inj (h.symm.trans hclone)
  have hheader := header_checksum_valid_iff
    ((ip.override payload ttl).withHeaderChecksum checksum)
  change _ ↔ checksum.n.toNat = 0xFFFF - residue 65536
    (Checksum.wordSum (ip.override payload ttl).toWire.front +
      Checksum.wordSum (ip.override payload ttl).toWire.addresses) at hheader
  rw [hheader, hvalue, ← blank_reply_iff ip payload ttl]
  generalize Checksum.wordSum (ip.override payload ttl).toWire.front +
    Checksum.wordSum (ip.override payload ttl).toWire.addresses = sum
  have hlt := residue_lt (by decide : 2 ≤ 65536) sum
  have hlt' := residue_lt (by decide : 2 ≤ 65536) (sum + Checksum.wordSum payload.bytes)
  calc 0xFFFF - residue 65536 (sum + Checksum.wordSum payload.bytes) =
          0xFFFF - residue 65536 sum
      ↔ residue 65536 (sum + Checksum.wordSum payload.bytes) = residue 65536 sum := by omega
    _ ↔ _ := residue_add_eq_iff (by decide)

/-- The header checksum of a reply is right exactly when the words of the reply's payload add
up to a multiple of `0xFFFF`, and to zero if the header is blank. -/
theorem reply_checksum_iff (ip : Ip direction) (payload : Payload) (ttl : UInt8) :
    (∃ reply, ip.cloneAsResponse payload ttl = some reply ∧ reply.HeaderChecksumValid) ↔
      Checksum.wordSum payload.bytes % 65535 = 0 ∧
        (Checksum.wordSum payload.bytes = 0 ∨ ¬ ip.BlankReply ttl) := by
  constructor
  · intro h
    obtain ⟨reply, hclone, hvalid⟩ := h
    exact (reply_valid_iff hclone).mp hvalid
  · intro h
    obtain ⟨checksum, hclone, -⟩ := ip.clone_as_response_eq payload ttl
    exact ⟨_, hclone, (reply_valid_iff hclone).mpr h⟩

/-- A request without a payload. -/
def emptyRequest : Ip .directionIn where
  version := 4
  ihl := 5
  dscp := 0
  ecn := 0
  totalLength := 20
  identification := 1
  flags := 2
  fragmentOffset := 0
  ttl := 64
  protocol := 1
  headerChecksum := { n := 0 }
  src := #v[10, 0, 0, 1]
  dst := #v[10, 0, 0, 2]
  payload := .empty

/-- A reply payload whose words add up to one. -/
def onePayload : Payload :=
  Payload.ofBytes [0, 1] (by decide)

/-- A payload that is not zero spoils the header checksum. -/
theorem reply_checksum_spoiled :
    ∃ reply, emptyRequest.cloneAsResponse onePayload 64 = some reply ∧
      ¬ reply.HeaderChecksumValid := by
  obtain ⟨checksum, hclone, -⟩ := emptyRequest.clone_as_response_eq onePayload 64
  refine ⟨_, hclone, ?_⟩
  intro hvalid
  have hsum : Checksum.wordSum onePayload.bytes = 1 := by decide
  have hmultiple := ((reply_valid_iff hclone).mp hvalid).1
  rw [hsum] at hmultiple
  exact absurd hmultiple (by decide)

/-- The reply answers the request: the addresses are swapped, the time to live and the payload
are those asked for, the total length counts the bytes that the reply emits, and the header
length those before its payload. -/
def Answers (ip : Ip direction) (payload : Payload) (ttl : UInt8)
    (reply : Ip (reverseDirection direction)) : Prop :=
  reply.src = ip.dst ∧ reply.dst = ip.src ∧ reply.ttl = ttl ∧ reply.payload = payload ∧
    ∀ buffer : RoundTrip.ByteBuffer, reply.size ≤ buffer.bytes.length →
      ∃ stream bytes header, reply.tryToStream {} buffer.bytes = some (stream, bytes) ∧
        reply.totalLength.toNat = stream.cursor ∧
        bytes.take stream.cursor = header ++ payload.bytes ∧
        4 * reply.ihl.toNat = header.length

/-- The two lengths that a reply must carry. -/
theorem Answers.lengths {ip : Ip direction} {payload : Payload} {ttl : UInt8}
    {reply : Ip (reverseDirection direction)} (h : ip.Answers payload ttl reply) :
    reply.totalLength.toNat = 20 + payload.size ∧ reply.ihl.toNat = 5 := by
  obtain ⟨-, -, -, rfl, hemits⟩ := h
  obtain ⟨buffer, hroom⟩ := reply.exists_room
  obtain ⟨stream, bytes, header, hwrite, hcount, htake, hheader⟩ := hemits buffer hroom
  obtain ⟨stream', bytes', hwrite', -, hcursor, hemitted⟩ := reply.emitted_eq hroom
  obtain ⟨rfl, rfl⟩ := Prod.mk.inj (Option.some.inj (hwrite.symm.trans hwrite'))
  have hbytes := congrArg List.length (htake.symm.trans hemitted)
  simp only [List.length_append, length_values] at hbytes
  unfold headerSize at hbytes hcursor
  omega

/-- A reply answers its request exactly when the size of the request, cut to a word, is that of
the reply, and the request claims a header without options. -/
theorem reply_answers_iff (ip : Ip direction) (payload : Payload) (ttl : UInt8) :
    (∃ reply, ip.cloneAsResponse payload ttl = some reply ∧ ip.Answers payload ttl reply) ↔
      (20 + ip.payload.size) % 65536 = 20 + payload.size ∧ ip.ihl = 5 := by
  obtain ⟨checksum, hclone, -⟩ := ip.clone_as_response_eq payload ttl
  have htotal := ip.total_length_override payload ttl
  have hihl : ip.ihl = 5 ↔ ip.ihl.toNat = 5 := (UInt8.toNat_inj (b := 5)).symm
  constructor
  · intro h
    obtain ⟨reply, hreply, hanswers⟩ := h
    obtain rfl := Option.some.inj (hreply.symm.trans hclone)
    obtain ⟨hcount, hheader⟩ := hanswers.lengths
    exact ⟨htotal.symm.trans hcount, hihl.mpr hheader⟩
  · intro h
    obtain ⟨hsame, hfive⟩ := h
    refine ⟨_, hclone, rfl, rfl, rfl, rfl, ?_⟩
    intro buffer hroom
    obtain ⟨stream, bytes, hwrite, -, hcursor, hemitted⟩ := emitted_eq _ hroom
    refine ⟨stream, bytes, _, hwrite, ?_, hemitted, ?_⟩
    · rw [hcursor]
      exact htotal.trans hsame
    · rw [length_values]
      show 4 * ip.ihl.toNat = 20
      rw [hihl.mp hfive]

/-- A reply longer than its request carries the length of the request. -/
theorem reply_length_stale :
    ∃ reply, emptyRequest.cloneAsResponse onePayload 64 = some reply ∧
      ¬ emptyRequest.Answers onePayload 64 reply := by
  obtain ⟨checksum, hclone, -⟩ := emptyRequest.clone_as_response_eq onePayload 64
  refine ⟨_, hclone, ?_⟩
  intro hanswers
  have htotal := emptyRequest.total_length_override onePayload 64
  have hcount := htotal.symm.trans hanswers.lengths.1
  exact absurd hcount (by decide)

end Ip

end Toad
