import Toad.Nic.Arp
import Toad.Nic.Ethernet
import Toad.Nic.Icmp
import Toad.Nic.Ipv4

/-!
# Advertised and encoded sizes

Every packet type states its length by hand in `size()`, and again in `min_buffer_size()`,
`buffer_size()` or `EXPECTED_BUFFER_LENGTH`; its chain of writes decides what is really stored.
The three agree for every packet type but ARP, whose `size()` is a constant.
-/

namespace Toad

/-- A packet of any of the four types. -/
inductive AnyPacket (direction : TypestateDirection) where
  | ethernet (frame : EthernetFrame direction)
  | ip (datagram : Ip direction)
  | icmp (message : Icmp direction)
  | arp {htype ptype : UInt16} {hlen plen : UInt8}
      (inquiry : Arp htype ptype hlen plen direction)

namespace AnyPacket

open Chain
open Packing

variable {direction : TypestateDirection}

/-- `size()`. -/
def size : AnyPacket direction → Nat
  | .ethernet frame => frame.size
  | .ip datagram => datagram.size
  | .icmp message => message.size
  | .arp inquiry => inquiry.size

/-- The second statement of the size: `min_buffer_size()`, `buffer_size()` or
`EXPECTED_BUFFER_LENGTH`. -/
def bufferSize : AnyPacket direction → Nat
  | .ethernet frame => frame.minBufferSize
  | .ip datagram => datagram.bufferSize
  | .icmp message => message.bufferSize
  | @arp _ _ _ hlen plen _ => Arp.expectedBufferLength hlen plen

/-- The chain of writes of `try_to_stream`. -/
def writes : AnyPacket direction → List Write
  | .ethernet frame => frame.writes
  | .ip datagram => datagram.writes
  | .icmp message => message.writes
  | .arp inquiry => inquiry.writes

/-- `try_to_stream`. -/
def tryToStream (packet : AnyPacket direction) (stream : ByteOStream) (buffer : List UInt8) :
    Option (ByteOStream × List UInt8) :=
  match packet with
  | .ethernet frame => frame.tryToStream stream buffer
  | .ip datagram => datagram.tryToStream stream buffer
  | .icmp message => message.tryToStream stream buffer
  | .arp inquiry => inquiry.tryToStream stream buffer

/-- The advertised sizes agree with each other and with what is stored: serialising into a
buffer succeeds if and only if the buffer has `size()` bytes, and then takes exactly these. -/
def SizeHonest (packet : AnyPacket direction) (storage : Storage) : Prop :=
  packet.bufferSize = packet.size ∧
    ∃ stream bytes, packet.tryToStream {} storage.bytes = some (stream, bytes) ∧
      (stream.errc = .ok ↔ packet.size ≤ storage.bytes.length) ∧
      (stream.errc = .ok → stream.cursor = packet.size)

/-- The addresses of an ARP packet take as many bytes as those of Ethernet and IPv4. -/
def AddressesFit : AnyPacket direction → Prop
  | @arp _ _ _ hlen plen _ => hlen.toNat + plen.toNat = 10
  | _ => True

/-- Every element of the chain is in memory. -/
theorem writes_in_memory (packet : AnyPacket direction) :
    ∀ element ∈ packet.writes, element.InMemory := by
  cases packet with
  | ethernet frame => exact frame.writes_in_memory
  | ip datagram => exact datagram.writes_in_memory
  | icmp message => exact message.writes_in_memory
  | arp inquiry => exact inquiry.writes_in_memory

/-- The second statement of the size is always what the chain takes. -/
theorem buffer_size_eq (packet : AnyPacket direction) :
    packet.bufferSize = total Write.size packet.writes := by
  cases packet with
  | ethernet frame => exact frame.min_buffer_size_eq
  | ip datagram => exact datagram.buffer_size_eq
  | icmp message => exact message.buffer_size_eq
  | arp inquiry => exact inquiry.total_writes.symm

/-- `size()` is what the chain takes, for an ARP packet only with addresses of the usual
lengths. -/
theorem size_eq_iff (packet : AnyPacket direction) :
    packet.size = total Write.size packet.writes ↔ packet.AddressesFit := by
  cases packet with
  | ethernet frame => exact iff_of_true frame.size_eq trivial
  | ip datagram => exact iff_of_true datagram.size_eq trivial
  | icmp message => exact iff_of_true message.size_eq trivial
  | @arp htype ptype hlen plen inquiry =>
      have htotal := inquiry.total_writes
      have hsize : szAdd (szAdd 28 0) 0 = 28 := by
        rw [sz_add_eq (by decide : 28 + 0 < 2 ^ 64), sz_add_eq (by decide)]
      unfold Arp.expectedBufferLength at htotal
      show szAdd (szAdd 28 0) 0 = total Write.size inquiry.writes ↔ hlen.toNat + plen.toNat = 10
      omega

/-- The sizes of a packet are honest on a buffer exactly when it is not an ARP packet with
addresses of other lengths than those of Ethernet and IPv4 together. -/
theorem size_honest_iff (packet : AnyPacket direction) (storage : Storage) :
    packet.SizeHonest storage ↔ packet.AddressesFit := by
  rw [← size_eq_iff]
  constructor
  · intro h
    exact h.1.symm.trans packet.buffer_size_eq
  · intro hsize
    obtain ⟨⟨stream, bytes⟩, hwrite⟩ := write_all_fresh storage packet.writes_in_memory
    obtain ⟨-, -, hcursor, herrc⟩ := write_all_taken hwrite
    refine ⟨packet.buffer_size_eq.trans hsize.symm, stream, bytes, ?_, ?_, ?_⟩
    · rw [← hwrite]
      cases packet with
      | ethernet frame => rfl
      | ip datagram => rfl
      | icmp message => rfl
      | arp inquiry => rfl
    · rw [herrc, fit_eq_self_iff, hsize]
    · intro hok
      rw [hcursor, herrc.mp hok, hsize]

/-- An ARP packet with addresses of eight bytes. -/
def longArp : Arp 0x0020 0x0800 8 8 .directionOut where
  oper := 1
  senderHardwareAddr := Vector.replicate 8 1
  targetHardwareAddr := Vector.replicate 8 2
  senderProtocolAddr := Vector.replicate 8 3
  targetProtocolAddr := Vector.replicate 8 4

/-- A buffer of the advertised size is too small for the packet. -/
theorem long_arp_understated :
    ¬ (AnyPacket.arp longArp).SizeHonest ⟨List.replicate 28 0, by decide⟩ := by
  intro h
  have hsize : szAdd (szAdd 28 0) 0 = 28 := by
    rw [sz_add_eq (by decide : 28 + 0 < 2 ^ 64), sz_add_eq (by decide)]
  have hbuffer : Arp.expectedBufferLength 8 8 = 28 := h.1.trans hsize
  exact absurd hbuffer (by decide)

end AnyPacket

end Toad
