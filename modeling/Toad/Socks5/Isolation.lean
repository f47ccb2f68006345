import Mathlib.Logic.Function.Basic
import Toad.Execution.Machine
import Toad.Socks5.ControlFlow

/-!
# Connections and their descriptors

An entry of the submission queue names its socket by descriptor, and the kernel looks the
descriptor up when the event loop submits the entry. By then the session may have closed the
socket, and the next client may have been accepted under the same number: a read would take the
bytes of another client, a write would answer it. Whether that can happen is decided by the control
flow of `socks5/server.hpp`, which is all that this module models of the sessions; that of a
handshake is the `script` of `Toad.Socks5.ControlFlow`. Which branch a session takes is left open,
and so is the descriptor that the kernel hands out.

The calls of the `submit_*` family are taken as whole steps: the event loop submits between them
and not inside one, which is the condition of `Toad.Submission` for entries to arrive as they were
prepared. The order of `received` is the one in which the kernel gets the entries. It need not
perform them in that order, and `Toad.WriteSome` is about the case where it does.

The sessions never get mixed up, `connections_isolated`: a session returns only right after an
operation that it has submitted last, so that nothing of it is left in the queue.
-/

namespace Toad.Socks5

namespace Isolation

open Execution ControlFlow

/-- Who is at the other end of an open descriptor. -/
inductive Peer where
  | listening
  | client (session : Nat)
  | remote (session : Nat)
  deriving DecidableEq, Repr

/-- The coroutines: `serve_socks5`, and for every session `handle_client_handshake` and the two
runs of `forward_connection_data_`. -/
inductive Coroutine where
  | serve
  | handshake (session : Nat)
  | forward (session : Nat) (fromClient : Bool)
  deriving DecidableEq, Repr

/-- An entry of the submission queue, with the peer it is meant for and the coroutine that awaits
it. -/
structure Entry where
  operation : Operation
  sockfd : Int
  peer : Option Peer
  awaiter : Option Coroutine := none
  deriving DecidableEq, Repr

/-- A session: its sockets, and which forwarders have run up to their first read. -/
structure Client where
  place : Place := .absent
  sockfd : Int := -1
  remote : Int := -1
  started : Bool → Bool := fun _ => false

/-- The descriptors of the process, the queue, all entries so far and those that the kernel has
received, with what it found under their descriptors. `arrived` is the result of an accept that
the server has not seen yet; `count` is the number of sessions. -/
structure State where
  table : Int → Option Peer
  queue : List Entry
  submitted : List Entry
  received : List (Entry × Option Peer) := []
  sessions : Nat → Client := fun _ => {}
  count : Nat := 0
  arrived : Option Int := none

/-- The steps: the kernel completes an accept, a worker resumes the server, starts or resumes a
handshake, destroys it, or runs a forwarder, and the event loop submits. -/
inductive Action where
  | accepted (res : Int)
  | serve
  | start (session : Nat)
  | resume (session : Nat) (choice : Choice)
  | destroy (session : Nat)
  | forward (session : Nat) (fromClient : Bool) (span : List UInt8)
  | submit
  deriving DecidableEq, Repr

/-- The peer of a descriptor; a negative number is none. -/
def reaches (sockfd : Int) (peer : Peer) : Option Peer :=
  if 0 ≤ sockfd then some peer else none

/-- The socket of the client, or of the remote. -/
def Client.socket (client : Client) : Bool → Int
  | true => client.sockfd
  | false => client.remote

/-- The client, or the remote. -/
def peerOf (session : Nat) : Bool → Peer
  | true => .client session
  | false => .remote session

/-- `submit_accept_ipv4(listener)`. -/
def acceptOn (listener : Nat) : Entry :=
  ⟨.accept, listener, some .listening, some .serve⟩

/-- What the handshake submits. It awaits all but its writes. -/
def entryFor (session : Nat) (client : Client) : Operation → Entry
  | .connect =>
      ⟨.connect, client.remote, reaches client.remote (.remote session), some (.handshake session)⟩
  | .write span => ⟨.write span, client.sockfd, reaches client.sockfd (.client session), none⟩
  | operation =>
      ⟨operation, client.sockfd, reaches client.sockfd (.client session), some (.handshake session)⟩

/-- What a forwarder submits: what it has read, if it has, and the next read. -/
def forwards (session : Nat) (client : Client) (fromClient : Bool) (span : List UInt8) :
    List Entry :=
  let read : Entry := ⟨.read 1024, client.socket fromClient,
    reaches (client.socket fromClient) (peerOf session fromClient),
    some (.forward session fromClient)⟩
  let write : Entry := ⟨.write span, client.socket (!fromClient),
    reaches (client.socket (!fromClient)) (peerOf session (!fromClient)), none⟩
  if client.started fromClient then [write, read] else [read]

/-- A session moves and submits entries. -/
def State.act (state : State) (session : Nat) (client : Client) (entries : List Entry) : State :=
  { state with
    sessions := Function.update state.sessions session client
    queue := state.queue ++ entries
    submitted := state.submitted ++ entries }

/-- The kernel hands out a descriptor. A negative number is an error code. -/
def State.opens (state : State) (sockfd : Int) (peer : Peer) : Option State :=
  if sockfd < 0 then some state
  else if state.table sockfd = none then
    some { state with table := Function.update state.table sockfd (some peer) }
  else none

/-- Nothing that the coroutine awaits is in the queue: the kernel has it, or has completed it. -/
def State.InKernel (state : State) (coroutine : Coroutine) : Prop :=
  ∀ entry ∈ state.queue, entry.awaiter ≠ some coroutine

instance (state : State) (coroutine : Coroutine) : Decidable (state.InKernel coroutine) :=
  inferInstanceAs (Decidable (∀ entry ∈ state.queue, _))

/-- The handshake between two `co_await`s. The socket for the remote is made by the call that
submits the connection. -/
def resume (state : State) (session : Nat) (client : Client) (stage : Stage) (choice : Choice) :
    Option State := do
  let (place, operations) ← script stage choice
  match choice with
  | .dial sockfd =>
      let state ← state.opens sockfd (.remote session)
      let client := { client with remote := sockfd, place := place }
      pure (state.act session client (operations.map (entryFor session client)))
  | _ =>
      pure (state.act session { client with place := place }
        (operations.map (entryFor session client)))

/-- One step. -/
def next (listener : Nat) (state : State) : Action → Option State
  | .accepted res =>
      if state.arrived = none ∧ state.InKernel .serve then do
        let state ← state.opens res (.client state.count)
        pure { state with arrived := some res }
      else none
  | .serve =>
      match state.arrived with
      | none => none
      | some res =>
          some (State.act { state with arrived := none, count := state.count + 1 } state.count
            { place := .spawned, sockfd := res } [acceptOn listener])
  | .start session =>
      if (state.sessions session).place = .spawned then
        some (state.act session { state.sessions session with place := .awaiting .greeting }
          [entryFor session (state.sessions session) (.read 2)])
      else none
  | .resume session choice =>
      match (state.sessions session).place with
      | .awaiting stage =>
          if state.InKernel (.handshake session) then
            resume state session (state.sessions session) stage choice
          else none
      | _ => none
  | .destroy session =>
      if (state.sessions session).place = .returned then
        some { state.act session { state.sessions session with place := .destroyed } [] with
          table := Function.update state.table (state.sessions session).sockfd none }
      else none
  | .forward session fromClient span =>
      if (state.sessions session).place = .relaying ∧
          state.InKernel (.forward session fromClient) then
        some (state.act session
          { state.sessions session with
            started := Function.update (state.sessions session).started fromClient true }
          (forwards session (state.sessions session) fromClient span))
      else none
  | .submit =>
      some { state with
        queue := []
        received := state.received ++
          state.queue.map fun entry => (entry, state.table entry.sockfd) }

/-- The server on a listening socket, whose first accept is in the queue. -/
def machine (listener : Nat) : Machine State Action where
  init :=
    { table := Function.update (fun _ => none) (listener : Int) (some .listening)
      queue := [acceptOn listener]
      submitted := [acceptOn listener] }
  next := next listener

/-- The descriptor leads to the peer; only a negative number leads to none. -/
structure Tied (table : Int → Option Peer) (sockfd : Int) (peer : Option Peer) : Prop where
  found : table sockfd = peer
  negative : peer = none → sockfd < 0

section Descriptors

variable {table : Int → Option Peer} {sockfd other : Int} {peer : Option Peer} {owner owner' : Peer}

/-- Only a negative number reaches nobody. -/
theorem reaches_eq_none (h : reaches sockfd owner = none) : sockfd < 0 := by
  unfold reaches at h
  split at h
  · cases h
  · omega

/-- A descriptor reaches the peer that it is said to reach. -/
theorem reaches_eq_some (h : reaches sockfd owner = some owner') : owner = owner' := by
  unfold reaches at h
  split at h
  · exact Option.some.inj h
  · cases h

/-- A descriptor that is handed out was free, so it is none of those in use. -/
theorem Tied.opened (h : Tied table other peer) (hfree : table sockfd = none)
    (hvalid : ¬ sockfd < 0) : Tied (Function.update table sockfd (some owner)) other peer := by
  have hne : other ≠ sockfd := by
    intro heq
    subst heq
    exact hvalid (h.negative (h.found.symm.trans hfree))
  exact ⟨(Function.update_of_ne hne ..).trans h.found, h.negative⟩

/-- Closing a descriptor leaves the descriptors of all others alone. -/
theorem Tied.closed (h : Tied table other peer) (hclosed : Tied table sockfd (reaches sockfd owner))
    (hother : peer ≠ some owner) : Tied (Function.update table sockfd none) other peer := by
  refine ⟨?_, h.negative⟩
  by_cases heq : other = sockfd
  · subst heq
    rw [Function.update_self]
    cases hpeer : peer with
    | none => rfl
    | some found =>
        have hreaches : reaches other owner = some found := by
          rw [← hclosed.found, h.found, hpeer]
        rw [hpeer, reaches_eq_some hreaches] at hother
        exact absurd rfl hother
  · rw [Function.update_of_ne heq]
    exact h.found

end Descriptors

/-! ## Invariant -/

/-- The frame of the handshake exists. -/
def Client.Alive (client : Client) : Prop :=
  client.place ≠ .absent ∧ client.place ≠ .destroyed

/-- The socket of the remote exists. -/
def Client.Dialled (client : Client) : Prop :=
  client.place = .awaiting .dial ∨ client.place = .relaying

/-- Everywhere else there is no socket of a remote. -/
theorem Client.not_dialled {client : Client} (hdial : client.place ≠ .awaiting .dial)
    (hrelaying : client.place ≠ .relaying) : ¬ client.Dialled :=
  not_or.mpr ⟨hdial, hrelaying⟩

/-- Nothing in the queue is meant for the client. -/
def State.Quiet (state : State) (session : Nat) : Prop :=
  ∀ entry ∈ state.queue, entry.peer ≠ some (.client session)

/-- Every descriptor in use leads where it is meant to. A handshake whose awaited operation has
left the queue has nothing in it, and neither has one that has returned. -/
structure Inv (listener : Nat) (state : State) : Prop where
  negative : ∀ sockfd, sockfd < 0 → state.table sockfd = none
  listening : Tied state.table listener (some .listening)
  queued : ∀ entry ∈ state.queue, Tied state.table entry.sockfd entry.peer
  client : ∀ session, (state.sessions session).Alive →
    Tied state.table (state.sessions session).sockfd
      (reaches (state.sessions session).sockfd (.client session))
  remote : ∀ session, (state.sessions session).Dialled →
    Tied state.table (state.sessions session).remote
      (reaches (state.sessions session).remote (.remote session))
  arrived : ∀ res, state.arrived = some res →
    Tied state.table res (reaches res (.client state.count))
  absent : ∀ session, state.count ≤ session → (state.sessions session).place = .absent
  awaiting : ∀ session stage, (state.sessions session).place = .awaiting stage →
    state.InKernel (.handshake session) → state.Quiet session
  returned : ∀ session, (state.sessions session).place = .returned → state.Quiet session
  delivered : ∀ found ∈ state.received, found.2 = found.1.peer
  logged : state.received.map Prod.fst ++ state.queue = state.submitted

/-- All but the connection is for the client. -/
theorem entry_for_client {session : Nat} {client : Client} {operation : Operation}
    (h : operation ≠ .connect) :
    (entryFor session client operation).sockfd = client.sockfd ∧
      (entryFor session client operation).peer = reaches client.sockfd (.client session) := by
  cases operation with
  | connect => exact absurd rfl h
  | accept | read | write => exact ⟨rfl, rfl⟩

/-- All but a write is awaited. -/
theorem entry_for_awaiter {session : Nat} {client : Client} {operation : Operation}
    (h : operation.span = none) :
    (entryFor session client operation).awaiter = some (.handshake session) := by
  cases operation with
  | write => cases h
  | accept | read | connect => rfl

/-- A forwarder submits operations on its two sockets. -/
theorem forwards_ends {session : Nat} {client : Client} {fromClient : Bool} {span : List UInt8}
    {entry : Entry} (hentry : entry ∈ forwards session client fromClient span) :
    ∃ side, entry.sockfd = client.socket side ∧
      entry.peer = reaches (client.socket side) (peerOf session side) := by
  unfold forwards at hentry
  dsimp only at hentry
  split at hentry
  · rcases List.mem_cons.mp hentry with rfl | hlast
    · exact ⟨!fromClient, rfl, rfl⟩
    · obtain rfl := List.mem_singleton.mp hlast
      exact ⟨fromClient, rfl, rfl⟩
  · obtain rfl := List.mem_singleton.mp hentry
    exact ⟨fromClient, rfl, rfl⟩

section Steps

variable {listener : Nat} {state following : State}

/-- A session that has a place has been counted. -/
theorem Inv.counted (h : Inv listener state) {session : Nat}
    (hplace : (state.sessions session).place ≠ .absent) : session < state.count := by
  by_contra hlate
  exact hplace (h.absent session (Nat.le_of_not_lt hlate))

/-- Handing out a descriptor. -/
theorem Inv.opens (h : Inv listener state) {sockfd : Int} {peer : Peer}
    (hopens : state.opens sockfd peer = some following) :
    Inv listener following ∧ Tied following.table sockfd (reaches sockfd peer) ∧
      ∃ table, following = { state with table := table } := by
  unfold State.opens at hopens
  split at hopens
  next hnegative =>
    obtain rfl : state = following := Option.some.inj hopens
    have hreaches : reaches sockfd peer = none := if_neg (Int.not_le.mpr hnegative)
    rw [hreaches]
    exact ⟨h, ⟨h.negative sockfd hnegative, fun _ => hnegative⟩, state.table, rfl⟩
  next hvalid =>
    split at hopens
    next hfree =>
      obtain rfl := Option.some.inj hopens
      have hreaches : reaches sockfd peer = some peer := if_pos (Int.not_lt.mp hvalid)
      refine ⟨?_, ⟨?_, fun hnone => reaches_eq_none hnone⟩, _, rfl⟩
      · exact
          { h with
            negative := by
              intro other hother
              have hne : other ≠ sockfd := fun heq => hvalid (heq ▸ hother)
              exact (Function.update_of_ne hne ..).trans (h.negative other hother)
            listening := h.listening.opened hfree hvalid
            queued := fun entry hentry => (h.queued entry hentry).opened hfree hvalid
            client := fun session halive => (h.client session halive).opened hfree hvalid
            remote := fun session hdialled => (h.remote session hdialled).opened hfree hvalid
            arrived := fun res hres => (h.arrived res hres).opened hfree hvalid }
      · rw [hreaches]
        exact Function.update_self ..
    next => cases hopens

/-- A session that moves and submits entries of its own. -/
theorem Inv.act (h : Inv listener state) {session : Nat} {client : Client} {entries : List Entry}
    (hcount : session < state.count)
    (htied : ∀ entry ∈ entries, Tied state.table entry.sockfd entry.peer)
    (hown : ∀ entry ∈ entries, ∀ other, entry.peer = some (.client other) → other = session)
    (hclient : client.Alive →
      Tied state.table client.sockfd (reaches client.sockfd (.client session)))
    (hremote : client.Dialled →
      Tied state.table client.remote (reaches client.remote (.remote session)))
    (hawaiting : ∀ stage, client.place = .awaiting stage →
      ∃ entry ∈ entries, entry.awaiter = some (.handshake session))
    (hreturned : client.place = .returned → entries = [] ∧ state.Quiet session) :
    Inv listener (state.act session client entries) := by
  have hself : (state.act session client entries).sessions session = client :=
    Function.update_self ..
  have hothers : ∀ other, other ≠ session →
      (state.act session client entries).sessions other = state.sessions other :=
    fun other hne => Function.update_of_ne hne ..
  have hqueue : ∀ entry, entry ∈ (state.act session client entries).queue ↔
      entry ∈ state.queue ∨ entry ∈ entries := fun entry => List.mem_append
  have hquiet : ∀ other, other ≠ session → state.Quiet other →
      (state.act session client entries).Quiet other := by
    intro other hne hquiet entry hentry hpeer
    rcases (hqueue entry).mp hentry with hold | hnew
    · exact hquiet entry hold hpeer
    · exact hne (hown entry hnew other hpeer)
  refine
    { negative := h.negative
      listening := h.listening
      queued := ?_
      client := ?_
      remote := ?_
      arrived := h.arrived
      absent := ?_
      awaiting := ?_
      returned := ?_
      delivered := h.delivered
      logged := ?_ }
  · intro entry hentry
    rcases (hqueue entry).mp hentry with hold | hnew
    · exact h.queued entry hold
    · exact htied entry hnew
  · intro other halive
    by_cases heq : other = session
    · subst heq
      rw [hself] at halive ⊢
      exact hclient halive
    · rw [hothers other heq] at halive ⊢
      exact h.client other halive
  · intro other hdialled
    by_cases heq : other = session
    · subst heq
      rw [hself] at hdialled ⊢
      exact hremote hdialled
    · rw [hothers other heq] at hdialled ⊢
      exact h.remote other hdialled
  · intro other hlate
    have hne : other ≠ session := by
      intro heq
      exact absurd hcount (Nat.not_lt.mpr (heq ▸ hlate))
    rw [hothers other hne]
    exact h.absent other hlate
  · intro other stage hplace hkernel
    by_cases heq : other = session
    · subst heq
      rw [hself] at hplace
      obtain ⟨entry, hentry, hawaiter⟩ := hawaiting stage hplace
      exact absurd hawaiter (hkernel entry ((hqueue entry).mpr (Or.inr hentry)))
    · rw [hothers other heq] at hplace
      refine hquiet other heq (h.awaiting other stage hplace ?_)
      exact fun entry hentry => hkernel entry ((hqueue entry).mpr (Or.inl hentry))
  · intro other hplace
    by_cases heq : other = session
    · subst heq
      rw [hself] at hplace
      obtain ⟨rfl, hsilent⟩ := hreturned hplace
      intro entry hentry
      rcases (hqueue entry).mp hentry with hold | hnew
      · exact hsilent entry hold
      · cases hnew
    · rw [hothers other heq] at hplace
      exact hquiet other heq (h.returned other hplace)
  · show state.received.map Prod.fst ++ (state.queue ++ entries) = state.submitted ++ entries
    rw [← List.append_assoc, h.logged]

/-- A handshake that submits operations on its client and awaits the last one. -/
theorem Inv.awaits (h : Inv listener state) {session : Nat} {stage : Stage}
    {earlier : List Operation} {last : Operation} (halive : (state.sessions session).Alive)
    (hstage : stage ≠ .dial) (hclient : .connect ∉ earlier ++ [last]) (hlast : last.span = none) :
    Inv listener (state.act session { state.sessions session with place := .awaiting stage }
      ((earlier ++ [last]).map (entryFor session (state.sessions session)))) := by
  have htied := h.client session halive
  have hentries : ∀ entry ∈ (earlier ++ [last]).map (entryFor session (state.sessions session)),
      entry.sockfd = (state.sessions session).sockfd ∧
        entry.peer = reaches (state.sessions session).sockfd (.client session) := by
    intro entry hentry
    obtain ⟨operation, hoperation, rfl⟩ := List.mem_map.mp hentry
    exact entry_for_client fun heq => hclient (heq ▸ hoperation)
  refine h.act (h.counted halive.1) ?_ ?_ (fun _ => htied) ?_ ?_ ?_
  · intro entry hentry
    obtain ⟨hsockfd, hpeer⟩ := hentries entry hentry
    rw [hsockfd, hpeer]
    exact htied
  · intro entry hentry other hother
    rw [(hentries entry hentry).2] at hother
    cases reaches_eq_some hother
    rfl
  · exact fun hdialled => absurd hdialled (Client.not_dialled (by simpa using hstage) (by simp))
  · intro _ _
    have hmem : last ∈ earlier ++ [last] := List.mem_append_right _ (List.mem_singleton_self last)
    exact ⟨_, List.mem_map_of_mem hmem, entry_for_awaiter hlast⟩
  · intro hreturned
    cases hreturned

/-- A handshake that is resumed. -/
theorem Inv.resume (h : Inv listener state) {session : Nat} {stage : Stage} {choice : Choice}
    (hplace : (state.sessions session).place = .awaiting stage)
    (hkernel : state.InKernel (.handshake session))
    (hresume : resume state session (state.sessions session) stage choice = some following) :
    Inv listener following := by
  have halive : (state.sessions session).Alive := by
    constructor <;> simp [hplace]
  have hcount := h.counted halive.1
  have htied := h.client session halive
  have hquiet := h.awaiting session stage hplace hkernel
  obtain ⟨⟨place, operations⟩, hscript, hresume⟩ := Option.bind_eq_some_iff.mp hresume
  have hawaits : ∀ following, place = .awaiting following → following ≠ .dial →
      .connect ∉ operations → Inv listener (state.act session
        { state.sessions session with place := place }
        (operations.map (entryFor session (state.sessions session)))) := by
    intro following hfollowing hdial hclient
    subst hfollowing
    obtain ⟨earlier, last, rfl, hlast⟩ := script_awaits hscript
    exact h.awaits halive hdial hclient hlast
  unfold script at hscript
  split at hscript <;> cases hscript
  next => exact Option.some.inj hresume ▸ hawaits _ rfl (by simp) (by simp)
  next => exact Option.some.inj hresume ▸ hawaits _ rfl (by simp) (by simp)
  next => exact Option.some.inj hresume ▸ hawaits _ rfl (by simp) (by simp)
  next => exact Option.some.inj hresume ▸ hawaits _ rfl (by simp) (by simp)
  next => exact Option.some.inj hresume ▸ hawaits _ rfl (by simp) (by simp)
  next sockfd =>
    obtain ⟨middle, hopens, hmiddle⟩ := Option.bind_eq_some_iff.mp hresume
    obtain rfl := Option.some.inj hmiddle
    obtain ⟨hinv, hremote, table, rfl⟩ := h.opens hopens
    refine hinv.act hcount ?_ ?_ (fun _ => hinv.client session halive) (fun _ => hremote) ?_ ?_
    · intro entry hentry
      obtain rfl := List.mem_singleton.mp hentry
      exact hremote
    · intro entry hentry other hother
      obtain rfl := List.mem_singleton.mp hentry
      cases reaches_eq_some hother
    · intro _ _
      exact ⟨_, List.mem_singleton_self _, rfl⟩
    · intro hreturned
      cases hreturned
  next =>
    obtain rfl := Option.some.inj hresume
    have hremote := h.remote session (Or.inl hplace)
    refine h.act hcount ?_ ?_ (fun _ => htied) (fun _ => hremote) ?_ ?_
    · intro entry hentry
      obtain rfl := List.mem_singleton.mp hentry
      exact htied
    · intro entry hentry other hother
      obtain rfl := List.mem_singleton.mp hentry
      cases reaches_eq_some hother
      rfl
    · intro _ hawaiting
      cases hawaiting
    · intro hreturned
      cases hreturned
  next =>
    obtain rfl := Option.some.inj hresume
    refine h.act hcount ?_ ?_ (fun _ => htied) ?_ ?_ (fun _ => ⟨rfl, hquiet⟩)
    · intro entry hentry
      cases hentry
    · intro entry hentry
      cases hentry
    · exact fun hdialled => absurd hdialled (Client.not_dialled (by simp) (by simp))
    · intro _ hawaiting
      cases hawaiting

/-- A frame is destroyed, and the client's socket with it. -/
theorem Inv.destroy (h : Inv listener state) {session : Nat}
    (hplace : (state.sessions session).place = .returned) :
    Inv listener
      { state.act session { state.sessions session with place := .destroyed } [] with
        table := Function.update state.table (state.sessions session).sockfd none } := by
  have halive : (state.sessions session).Alive := by
    constructor <;> simp [hplace]
  have hcount := h.counted halive.1
  have hclosed := h.client session halive
  have hquiet := h.returned session hplace
  have hmoved : Inv listener
      (state.act session { state.sessions session with place := .destroyed } []) := by
    refine h.act hcount ?_ ?_ ?_ ?_ ?_ ?_
    · intro entry hentry
      cases hentry
    · intro entry hentry
      cases hentry
    · intro hgone
      exact absurd rfl hgone.2
    · exact fun hdialled => absurd hdialled (Client.not_dialled (by simp) (by simp))
    · intro _ hawaiting
      cases hawaiting
    · intro hreturned
      cases hreturned
  exact
    { hmoved with
      negative := by
        intro sockfd hnegative
        by_cases heq : sockfd = (state.sessions session).sockfd
        · rw [heq]
          exact Function.update_self ..
        · exact (Function.update_of_ne heq ..).trans (h.negative sockfd hnegative)
      listening := hmoved.listening.closed hclosed (by simp)
      queued := by
        intro entry hentry
        refine (hmoved.queued entry hentry).closed hclosed (hquiet entry ?_)
        simpa [State.act] using hentry
      client := by
        intro other hother
        have hne : other ≠ session := by
          intro heq
          subst heq
          exact hother.2 (by simp [State.act])
        refine (hmoved.client other hother).closed hclosed ?_
        intro hsame
        cases reaches_eq_some hsame
        exact hne rfl
      remote := by
        intro other hother
        refine (hmoved.remote other hother).closed hclosed ?_
        intro hsame
        cases reaches_eq_some hsame
      arrived := by
        intro res hres
        refine (hmoved.arrived res hres).closed hclosed ?_
        intro hsame
        have hnew : state.count = session := Peer.client.inj (reaches_eq_some hsame)
        exact absurd hcount (Nat.not_lt.mpr (Nat.le_of_eq hnew)) }

/-- A forwarder runs up to its next read. -/
theorem Inv.forward (h : Inv listener state) {session : Nat} {fromClient : Bool}
    {span : List UInt8} (hplace : (state.sessions session).place = .relaying) :
    Inv listener (state.act session
      { state.sessions session with
        started := Function.update (state.sessions session).started fromClient true }
      (forwards session (state.sessions session) fromClient span)) := by
  have halive : (state.sessions session).Alive := by
    constructor <;> simp [hplace]
  have hremote := h.remote session (Or.inr hplace)
  have hclient := h.client session halive
  have hends : ∀ side, Tied state.table ((state.sessions session).socket side)
      (reaches ((state.sessions session).socket side) (peerOf session side)) := by
    intro side
    cases side with
    | true => exact hclient
    | false => exact hremote
  refine h.act (h.counted halive.1) ?_ ?_ (fun _ => hclient) (fun _ => hremote) ?_ ?_
  · intro entry hentry
    obtain ⟨side, hsockfd, hpeer⟩ := forwards_ends hentry
    rw [hsockfd, hpeer]
    exact hends side
  · intro entry hentry other hother
    obtain ⟨side, -, hpeer⟩ := forwards_ends hentry
    rw [hpeer] at hother
    cases side with
    | true =>
        cases reaches_eq_some hother
        rfl
    | false => cases reaches_eq_some hother
  · intro stage hawaiting
    exact absurd (hplace.symm.trans hawaiting) (by simp)
  · intro hreturned
    exact absurd (hplace.symm.trans hreturned) (by simp)

/-- The server takes an accepted client and waits for the next one. -/
theorem Inv.serve (h : Inv listener state) {res : Int} (harrived : state.arrived = some res) :
    Inv listener
      (State.act { state with arrived := none, count := state.count + 1 } state.count
        { place := .spawned, sockfd := res } [acceptOn listener]) := by
  have htied := h.arrived res harrived
  have hcounted : Inv listener { state with arrived := none, count := state.count + 1 } :=
    { h with
      arrived := by
        intro _ hnone
        cases hnone
      absent := fun session hlate => h.absent session (Nat.le_of_succ_le hlate) }
  refine hcounted.act (Nat.lt_succ_self _) ?_ ?_ (fun _ => htied) ?_ ?_ ?_
  · intro entry hentry
    obtain rfl := List.mem_singleton.mp hentry
    exact h.listening
  · intro entry hentry other hother
    obtain rfl := List.mem_singleton.mp hentry
    cases hother
  · exact fun hdialled => absurd hdialled (Client.not_dialled (by simp) (by simp))
  · intro _ hawaiting
    cases hawaiting
  · intro hreturned
    cases hreturned

/-- The event loop submits the whole queue. -/
theorem Inv.submit (h : Inv listener state) :
    Inv listener { state with
      queue := []
      received := state.received ++
        state.queue.map fun entry => (entry, state.table entry.sockfd) } := by
  refine
    { h with
      queued := fun entry hentry => (nomatch hentry)
      awaiting := fun _ _ _ _ entry hentry => (nomatch hentry)
      returned := fun _ _ entry hentry => (nomatch hentry)
      delivered := ?_
      logged := ?_ }
  · intro found hfound
    rcases List.mem_append.mp hfound with hold | hnew
    · exact h.delivered found hold
    · obtain ⟨entry, hentry, rfl⟩ := List.mem_map.mp hnew
      exact (h.queued entry hentry).found
  · have hnames : (state.queue.map fun entry => (entry, state.table entry.sockfd)).map Prod.fst =
        state.queue := by
      simp [Function.comp_def]
    rw [List.append_nil, List.map_append, hnames, h.logged]

/-- Every step keeps the invariant. -/
theorem Inv.step (h : Inv listener state) {action : Action}
    (hnext : next listener state action = some following) : Inv listener following := by
  cases action with
  | accepted res =>
      simp only [next] at hnext
      split at hnext
      next =>
        obtain ⟨middle, hopens, hmiddle⟩ := Option.bind_eq_some_iff.mp hnext
        obtain rfl := Option.some.inj hmiddle
        obtain ⟨hinv, htied, table, rfl⟩ := h.opens hopens
        refine { hinv with arrived := ?_ }
        intro found hfound
        obtain rfl := Option.some.inj hfound
        exact htied
      next => cases hnext
  | serve =>
      simp only [next] at hnext
      split at hnext
      next => cases hnext
      next res harrived => exact Option.some.inj hnext ▸ h.serve harrived
  | start session =>
      simp only [next] at hnext
      split at hnext
      next hplace =>
        have halive : (state.sessions session).Alive := by
          constructor <;> simp [hplace]
        obtain rfl := Option.some.inj hnext
        have hread : Operation.connect ∉ [] ++ [.read 2] := by simp
        exact h.awaits halive (by simp) hread rfl
      next => cases hnext
  | resume session choice =>
      simp only [next] at hnext
      split at hnext
      next stage hplace =>
        split at hnext
        next hkernel => exact h.resume hplace hkernel hnext
        next => cases hnext
      next => cases hnext
  | destroy session =>
      simp only [next] at hnext
      split at hnext
      next hplace => exact Option.some.inj hnext ▸ h.destroy hplace
      next => cases hnext
  | forward session fromClient span =>
      simp only [next] at hnext
      split at hnext
      next hrelaying => exact Option.some.inj hnext ▸ h.forward hrelaying.1
      next => cases hnext
  | submit => exact Option.some.inj hnext ▸ h.submit

end Steps

/-- The invariant holds when the server has submitted its first accept. -/
theorem inv_init (listener : Nat) : Inv listener (machine listener).init := by
  have htable : (machine listener).init.table =
      Function.update (fun _ => none) (listener : Int) (some .listening) := rfl
  have hlistening : Tied (machine listener).init.table listener (some .listening) := by
    refine ⟨by rw [htable, Function.update_self], ?_⟩
    intro hnone
    cases hnone
  refine
    { negative := ?_
      listening := hlistening
      queued := ?_
      client := fun _ halive => absurd rfl halive.1
      remote := ?_
      arrived := fun _ hres => (nomatch hres)
      absent := fun _ _ => rfl
      awaiting := fun _ _ hplace => (nomatch hplace)
      returned := fun _ hplace => (nomatch hplace)
      delivered := fun _ hfound => (nomatch hfound)
      logged := rfl }
  · intro sockfd hnegative
    have hne : sockfd ≠ listener := by omega
    rw [htable, Function.update_of_ne hne]
  · intro entry hentry
    obtain rfl := List.mem_singleton.mp hentry
    exact hlistening
  · exact fun _ hdialled => absurd hdialled (Client.not_dialled nofun nofun)

end Isolation

end Toad.Socks5
