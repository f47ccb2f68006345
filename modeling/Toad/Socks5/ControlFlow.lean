import Toad.Socks5.Faults

/-!
# The control flow of the handshake

What `handle_client_handshake` submits, what it awaits and where it may return, without the bytes
it reads: `script` says how the coroutine goes on from one `co_await` to the next one, and `Choice`
leaves open which branch it takes. `handshake_follows` connects this to the handshake of
`Toad.Socks5.Handshake` and `Toad.Socks5.Faults`: whatever its reads return, what it has submitted
when it returns or waits for its forwarders is what the script submits on some way there.
-/

namespace Toad.Socks5

namespace ControlFlow

open Execution

/-- What a coroutine submits. -/
inductive Operation where
  | accept
  | connect
  | read (maxSize : Nat)
  | write (span : List UInt8)
  deriving DecidableEq, Repr

/-- What the handshake waits for: the first two bytes, the methods, the header of the request,
the address, the port, or the connection. -/
inductive Stage where
  | greeting
  | methods
  | request
  | address
  | port
  | dial
  deriving DecidableEq, Repr

/-- Where the handshake stands. Its frame, and with it the client's socket, is destroyed some time
after it has returned. A handshake that has spawned its forwarders awaits the `JoinSet` for good,
since `forward_connection_data_` does not return. -/
inductive Place where
  | absent
  | spawned
  | awaiting (stage : Stage)
  | returned
  | relaying
  | destroyed
  deriving DecidableEq, Repr

/-- How the handshake goes on when it is resumed. -/
inductive Choice where
  | returns
  | methods (nmethods : Nat)
  | request
  | address
  | port
  | dial (sockfd : Int)
  | connected
  deriving DecidableEq, Repr

/-- The handshake between two `co_await`s: where it gets to, and what it submits on the way. -/
def script : Stage → Choice → Option (Place × List Operation)
  | .greeting, .methods nmethods => some (.awaiting .methods, [.read nmethods])
  | .methods, .request => some (.awaiting .request, [.write response, .read 4])
  | .request, .address => some (.awaiting .address, [.read 4])
  -- domain names only get a log line
  | .request, .port => some (.awaiting .port, [.read 2])
  | .address, .port => some (.awaiting .port, [.read 2])
  | .port, .dial _ => some (.awaiting .dial, [.connect])
  | .dial, .connected => some (.relaying, [.write lastResponse])
  -- a `co_return` follows every `co_await` but the one of the port, whose result is not looked at
  | .port, .returns => none
  | _, .returns => some (.returned, [])
  | _, _ => none

/-- The script leads to a place, and these are all the operations submitted on the way. -/
inductive Follows : Place → List Operation → Prop where
  | start : Follows (.awaiting .greeting) [.read 2]
  | resume {stage : Stage} {place : Place} {operations more : List Operation}
      (h : Follows (.awaiting stage) operations) (choice : Choice)
      (hscript : script stage choice = some (place, more)) : Follows place (operations ++ more)

/-- The bytes of a write. -/
def Operation.span : Operation → Option (List UInt8)
  | .write span => some span
  | .accept | .connect | .read _ => none

/-- The operation is a read. -/
def Operation.isRead : Operation → Bool
  | .read _ => true
  | .accept | .connect | .write _ => false

/-- The session has made these reads, writes and dials, the writes with these bytes. -/
structure Matches (operations : List Operation) (session : Session) : Prop where
  reads : operations.countP Operation.isRead = session.reads
  written : operations.filterMap Operation.span = session.written.map PendingWriteSome.buffer
  dials : operations.count .connect = session.dials.length

/-- The handshake is past an operation that it has awaited, and has submitted more since. -/
def At (stage : Stage) (pending : List Operation) (session : Session) : Prop :=
  ∃ operations, Follows (.awaiting stage) operations ∧ Matches (operations ++ pending) session

/-- The script leads to a place with what the session has submitted. -/
def Reached (place : Place) (session : Session) : Prop :=
  ∃ operations, Follows place operations ∧ Matches operations session

/-- The handshake has not come to its forwarders, and a `co_return` is one that the script
allows. -/
def Allowed (reason : Stop) (session : Session) : Prop :=
  reason ≠ .joining ∧ (reason = .returned → Reached .returned session)

/-- A read is counted, does nothing else that could be seen, and if it stops, then neither with a
`co_return` nor in a join. -/
structure Counts (read : Nat → Handshake Nat) : Prop where
  returns : ∀ maxSize before count after,
    (read maxSize).exec before = (.ok count, after) →
      after.reads = before.reads + 1 ∧ Unseen before after
  stops : ∀ maxSize before reason after,
    (read maxSize).exec before = (.error reason, after) →
      reason ≠ .returned ∧ reason ≠ .joining

/-- Nothing was read, written, or dialled. -/
structure Still (before after : Session) : Prop where
  reads : after.reads = before.reads
  written : after.written = before.written
  dials : after.dials = before.dials

instance : Std.Refl Still := ⟨fun _ => ⟨rfl, rfl, rfl⟩⟩

instance : IsTrans Session Still where
  trans := by
    intro before middle after hfirst hsecond
    exact ⟨hsecond.reads.trans hfirst.reads, hsecond.written.trans hfirst.written,
      hsecond.dials.trans hfirst.dials⟩

/-! ## Statements that submit nothing -/

section Silent

variable {α β : Type}

/-- The program submits nothing and waits for no forwarders. -/
def Silent (program : Handshake α) : Prop :=
  ∀ before, Program.Ensures (Still before) program (fun _ => Still before)
    (fun reason after => reason ≠ .joining ∧ Still before after)

theorem silent_bind {program : Handshake α} {rest : α → Handshake β} (hprogram : Silent program)
    (hrest : ∀ value, Silent (rest value)) : Silent (program >>= rest) :=
  fun before => Program.ensures_bind (hprogram before) fun value => hrest value before

theorem co_return_if_silent (condition : Bool) : Silent (coReturnIf condition) := by
  intro before
  cases condition with
  | true => exact Program.ensures_throw fun _ hstill => ⟨nofun, hstill⟩
  | false => exact Program.ensures_pure fun _ hstill => hstill

theorem initialised_silent (value : Option α) : Silent (initialised value) := by
  intro before
  cases value with
  | none => exact Program.ensures_throw fun _ hstill => ⟨nofun, hstill⟩
  | some value => exact Program.ensures_pure fun _ hstill => hstill

/-- A statement that only reads the session or moves its cursor. -/
theorem silent_returns {program : Handshake α}
    (h : ∀ session, ∃ value after, program.exec session = (.ok value, after) ∧
      Still session after) : Silent program := by
  intro before session hstill
  obtain ⟨value, after, hexec, hafter⟩ := h session
  rw [hexec]
  refine ⟨fun _ _ heq => ?_, fun _ _ heq => ?_⟩
  · cases heq
    exact IsTrans.trans _ _ _ hstill hafter
  · cases heq

theorem get_silent : Silent (get : Handshake Session) :=
  silent_returns fun session => ⟨session, session, rfl, Std.Refl.refl session⟩

theorem read_array_silent (out : Option IPv4) : Silent (readArray out) :=
  silent_returns fun _ => ⟨_, _, rfl, rfl, rfl, rfl⟩

theorem read_u8_silent (out : Option UInt8) : Silent (readU8 out) := by
  intro before session hstill
  have hlast := initialised_silent (session.istream.readU8 session.buffer out).2 before
    { session with istream := (session.istream.readU8 session.buffer out).1 }
    (IsTrans.trans _ _ _ hstill ⟨rfl, rfl, rfl⟩)
  simp only [readU8, Program.exec_bind, Program.exec_get, Program.proceed_ok, Program.exec_set]
  exact hlast

theorem scan_methods_silent (fuel : Nat) : ∀ isOk, Silent (scanMethods fuel isOk) := by
  induction fuel with
  | zero =>
      intro isOk
      unfold scanMethods
      refine silent_bind get_silent fun session => ?_
      split
      · exact fun _ => Program.ensures_pure fun _ hstill => hstill
      · exact fun _ => Program.ensures_throw fun _ hstill => ⟨by simp, hstill⟩
  | succ fuel ih =>
      intro isOk
      unfold scanMethods
      refine silent_bind get_silent fun session => ?_
      split
      · exact fun _ => Program.ensures_pure fun _ hstill => hstill
      · exact silent_bind (read_u8_silent none) fun byte => ih _

end Silent

/-! ## One statement of the script -/

section Rules

variable {stage following : Stage} {choice : Choice} {pending : List Operation} {place : Place}
  {session after : Session} {α : Type} {read : Nat → Handshake Nat} {maxSize : Nat}

/-- Statements that submit nothing stay where they are. -/
theorem At.still (h : At stage pending session) (hstill : Still session after) :
    At stage pending after := by
  obtain ⟨operations, hfollows, hreads, hwritten, hdials⟩ := h
  obtain ⟨hsame, hwrites, hdialled⟩ := hstill
  exact ⟨operations, hfollows, hreads.trans hsame.symm, hwrites ▸ hwritten, hdialled ▸ hdials⟩

/-- The end of a stretch of the script. -/
theorem At.reached (h : At stage pending session) (choice : Choice)
    (hscript : script stage choice = some (place, pending)) : Reached place session := by
  obtain ⟨operations, hfollows, hmatches⟩ := h
  exact ⟨_, hfollows.resume _ hscript, hmatches⟩

/-- Wherever the script allows a return, one is allowed. -/
theorem At.allowed (h : At stage [] session) (hstage : stage ≠ .port) {reason : Stop}
    (hreason : reason ≠ .joining) : Allowed reason session := by
  refine ⟨hreason, fun _ => h.reached .returns ?_⟩
  cases stage with
  | port => exact absurd rfl hstage
  | greeting | methods | request | address | dial => rfl

/-- A read that the script asks for. -/
theorem At.counted (h : At stage pending session)
    (hscript : script stage choice = some (.awaiting following, pending ++ [.read maxSize]))
    (hread : after.reads = session.reads + 1 ∧ Unseen session after) : At following [] after := by
  obtain ⟨operations, hfollows, hreads, hwritten, hdials⟩ := h
  obtain ⟨hcount, hwrites, hdialled, -⟩ := hread
  refine ⟨_, hfollows.resume _ hscript, ?_, ?_, ?_⟩
  · rw [List.append_nil, ← List.append_assoc, List.countP_append, hreads, hcount]
    rfl
  · rw [List.append_nil, ← List.append_assoc, List.filterMap_append, hwritten, hwrites]
    simp [Operation.span]
  · rw [List.append_nil, ← List.append_assoc, List.count_append, hdials, hdialled]
    simp

/-- A statement that submits nothing, at a place where a return is allowed. -/
theorem ensures_silent {program : Handshake α} (hstage : stage ≠ .port) (h : Silent program) :
    Program.Ensures (At stage []) program (fun _ => At stage []) Allowed := by
  intro session hat
  obtain ⟨hreturns, hstops⟩ := h session session (Std.Refl.refl session)
  refine ⟨fun value after hexec => hat.still (hreturns value after hexec),
    fun reason after hexec => ?_⟩
  obtain ⟨hreason, hstill⟩ := hstops reason after hexec
  exact (hat.still hstill).allowed hstage hreason

/-- A read that the script asks for. -/
theorem ensures_read (hcounts : Counts read) (choice : Choice)
    (hscript : script stage choice = some (.awaiting following, pending ++ [.read maxSize])) :
    Program.Ensures (At stage pending) (read maxSize) (fun _ => At following []) Allowed := by
  intro session hat
  refine ⟨fun count after hexec => ?_, fun reason after hexec => ?_⟩
  · exact hat.counted hscript (hcounts.returns maxSize session count after hexec)
  · obtain ⟨hreturned, hjoining⟩ := hcounts.stops maxSize session reason after hexec
    exact ⟨hjoining, fun h => absurd h hreturned⟩

end Rules

/-! ## The handshake -/

section Handshake

variable {read : Nat → Handshake Nat} (hcounts : Counts read)

include hcounts

/-- Nothing has been submitted. -/
theorem version_follows :
    Program.Ensures (Matches []) (readVersion read) (fun _ => At .greeting []) Allowed := by
  have hfirst : Program.Ensures (Matches []) (read 2) (fun _ => At .greeting []) Allowed := by
    intro session hmatches
    refine ⟨fun count after hexec => ?_, fun reason after hexec => ?_⟩
    · obtain ⟨hreads, hwrites, hdials, -⟩ := hcounts.returns 2 session count after hexec
      refine ⟨_, .start, ?_, ?_, ?_⟩
      · rw [hreads, ← hmatches.reads]
        rfl
      · rw [hwrites, ← hmatches.written]
        rfl
      · rw [hdials, ← hmatches.dials]
        rfl
    · obtain ⟨hreturned, hjoining⟩ := hcounts.stops 2 session reason after hexec
      exact ⟨hjoining, fun h => absurd h hreturned⟩
  have hgreeting : Stage.greeting ≠ .port := by decide
  refine Program.ensures_bind hfirst fun count => ?_
  refine Program.ensures_bind (ensures_silent hgreeting (co_return_if_silent _)) fun _ => ?_
  refine Program.ensures_bind (ensures_silent hgreeting (read_u8_silent none)) fun version => ?_
  refine Program.ensures_bind (ensures_silent hgreeting (read_u8_silent none)) fun nmethods => ?_
  refine Program.ensures_bind (ensures_silent hgreeting (co_return_if_silent _)) fun _ => ?_
  exact Program.ensures_pure fun _ hat => hat

theorem methods_follows (nmethods : UInt8) :
    Program.Ensures (At .greeting []) (readMethods read nmethods) (fun _ => At .methods [])
      Allowed := by
  have hmethods : Stage.methods ≠ .port := by decide
  refine Program.ensures_bind (ensures_read hcounts (.methods _) rfl) fun methods => ?_
  refine Program.ensures_bind (ensures_silent hmethods (co_return_if_silent _)) fun _ => ?_
  refine Program.ensures_bind (ensures_silent hmethods get_silent) fun session => ?_
  refine Program.ensures_bind (ensures_silent hmethods (scan_methods_silent _ _)) fun isOk => ?_
  exact ensures_silent hmethods (co_return_if_silent _)

/-- The part before the first answer. -/
theorem greet_follows :
    Program.Ensures (Matches []) (greet read) (fun _ => At .methods []) Allowed := by
  refine Program.ensures_bind (version_follows hcounts) fun read => ?_
  refine Program.ensures_bind (methods_follows hcounts _) fun _ => ?_
  exact Program.ensures_pure fun _ hat => hat

/-- The address is read, or not asked for. -/
theorem address_follows (atype : UInt8) (address : Address) :
    Program.Ensures (At .request []) (readAddress read atype address)
      (fun _ session => At .request [] session ∨ At .address [] session) Allowed := by
  have haddress : Stage.address ≠ .port := by decide
  unfold readAddress
  split
  · refine Program.ensures_bind (ensures_read hcounts .address rfl) fun count => ?_
    refine Program.ensures_bind (ensures_silent haddress (co_return_if_silent _)) fun _ => ?_
    refine Program.ensures_bind (ensures_silent haddress (read_array_silent _)) fun addr => ?_
    exact Program.ensures_pure fun _ hat => Or.inr hat
  · split
    · exact Program.ensures_pure fun _ hat => Or.inl hat
    · split <;> exact Program.ensures_throw fun _ hat => hat.allowed (by decide) nofun

theorem request_follows (version : UInt8) :
    Program.Ensures (At .methods [.write response]) (readRequest read version)
      (fun _ session => At .request [] session ∨ At .address [] session) Allowed := by
  have hrequest : Stage.request ≠ .port := by decide
  refine Program.ensures_bind (ensures_read hcounts .request rfl) fun count => ?_
  refine Program.ensures_bind (ensures_silent hrequest (co_return_if_silent _)) fun _ => ?_
  refine Program.ensures_bind (ensures_silent hrequest (read_u8_silent _)) fun version => ?_
  refine Program.ensures_bind (ensures_silent hrequest (read_u8_silent none)) fun command => ?_
  refine Program.ensures_bind (ensures_silent hrequest (read_u8_silent none)) fun reserved => ?_
  refine Program.ensures_bind (ensures_silent hrequest (read_u8_silent none)) fun atype => ?_
  refine Program.ensures_bind (ensures_silent hrequest (co_return_if_silent _)) fun _ => ?_
  refine Program.ensures_bind (ensures_silent hrequest (co_return_if_silent _)) fun _ => ?_
  exact address_follows hcounts _ _

/-- Behind the port nothing can return before the connection is asked for. -/
theorem port_follows :
    Program.Ensures (fun session => At .request [] session ∨ At .address [] session)
      (readPort read) (fun _ => At .port []) Allowed := by
  have hport : Program.Ensures (fun session => At .request [] session ∨ At .address [] session)
      (read 2) (fun _ => At .port []) Allowed := by
    intro session hat
    rcases hat with hrequest | haddress
    · exact ensures_read hcounts .port rfl session hrequest
    · exact ensures_read hcounts .port rfl session haddress
  refine Program.ensures_bind hport fun _ session hat => ?_
  refine ⟨fun value after hexec => ?_, fun reason after hexec => ?_⟩
  · cases hexec
    exact hat.still ⟨rfl, rfl, rfl⟩
  · cases hexec

omit hcounts in
/-- A write adds to what has been submitted. -/
theorem write_follows {stage : Stage} (client : Socket) (span : List UInt8) :
    Program.Ensures (At stage []) (writeSome client span) (fun _ => At stage [.write span])
      Allowed := by
  refine Program.ensures_modify fun session hat => ?_
  obtain ⟨operations, hfollows, hreads, hwritten, hdials⟩ := hat
  rw [List.append_nil] at hreads hwritten hdials
  refine ⟨operations, hfollows, ?_, ?_, ?_⟩
  · rw [List.countP_append, hreads]
    rfl
  · rw [List.filterMap_append, hwritten, List.map_append]
    rfl
  · rw [List.count_append, hdials]
    simp

omit hcounts in
/-- The connection, and the forwarders if there is one. -/
theorem connect_follows (client : Socket) (connected : Option Socket) (address : Address)
    (port : Option UInt16) :
    Program.Ensures (At .port []) (connect client connected address port)
      (fun _ => Reached .relaying) Allowed := by
  cases address with
  | domain name => exact Program.ensures_throw fun _ _ => ⟨nofun, nofun⟩
  | ipv4 address =>
      have hdial : ∀ session dial, At .port [] session →
          At .dial [] { session with dials := session.dials ++ [dial] } := by
        intro session dial hat
        obtain ⟨operations, hfollows, hreads, hwritten, hdials⟩ := hat
        rw [List.append_nil] at hreads hwritten hdials
        refine ⟨_, hfollows.resume (.dial 0) rfl, ?_, ?_, ?_⟩
        · rw [List.append_nil, List.countP_append, hreads]
          rfl
        · rw [List.append_nil, List.filterMap_append, hwritten]
          simp [Operation.span]
        · rw [List.append_nil, List.count_append, hdials, List.length_append]
          rfl
      have hdialled : Program.Ensures (At .port []) (modify fun session =>
          { session with dials := session.dials ++ [⟨address, port, session.unread⟩] })
          (fun _ => At .dial []) Allowed :=
        Program.ensures_modify fun session hat => hdial session _ hat
      refine Program.ensures_bind hdialled fun _ => ?_
      cases connected with
      | none => exact Program.ensures_throw fun _ hat => hat.allowed (by decide) nofun
      | some remote =>
          refine Program.ensures_bind (write_follows client _) fun _ => ?_
          refine Program.ensures_modify fun session hat => ?_
          have hspawned : Still session
              { session with spawned := session.spawned ++ [(client, remote), (remote, client)] } :=
            ⟨rfl, rfl, rfl⟩
          exact (hat.still hspawned).reached .connected rfl

/-- The part between the first answer and the join. -/
theorem serve_follows (client : Socket) (connected : Option Socket) (version : UInt8) :
    Program.Ensures (At .methods [.write response]) (serveRequest read client connected version)
      (fun _ => Reached .relaying) Allowed := by
  refine Program.ensures_bind (request_follows hcounts version) fun address => ?_
  refine Program.ensures_bind (port_follows hcounts) fun port => ?_
  exact connect_follows client connected address port

/-- Whatever the reads of a handshake return, it does not run to its end: the script leads to its
forwarders with what it has submitted when it waits for them, and to a `co_return` when it has
returned. -/
theorem handshake_follows (client : Socket) (connected : Option Socket) :
    Program.Ensures (Matches []) (handleClientHandshake read client connected) (fun _ _ => False)
      (fun reason session => (reason = .joining → Reached .relaying session) ∧
        (reason = .returned → Reached .returned session)) := by
  have hearly : ∀ reason session, Allowed reason session →
      (reason = .joining → Reached .relaying session) ∧
        (reason = .returned → Reached .returned session) :=
    fun reason session hallowed => ⟨fun h => absurd h hallowed.1, hallowed.2⟩
  refine Program.ensures_bind ((greet_follows hcounts).weaken hearly) fun version => ?_
  refine Program.ensures_bind ((write_follows client _).weaken hearly) fun _ => ?_
  refine Program.ensures_bind ((serve_follows hcounts client connected version).weaken hearly)
    fun _ => ?_
  exact Program.ensures_throw fun _ hreached => ⟨fun _ => hreached, nofun⟩

end Handshake

/-- The reads of a kernel that completes them as it likes. -/
theorem read_from_counts (kernel : Kernel) (client : Socket) : Counts (readFrom kernel client) := by
  constructor
  · intro maxSize before count after hexec
    have hunseen := read_from_unseen kernel client maxSize before
    rw [hexec] at hunseen
    refine ⟨?_, hunseen⟩
    simp only [readFrom, Program.exec_bind, Program.exec_get, Program.proceed_ok] at hexec
    split at hexec
    · cases hexec
    · simp only [Program.exec_bind, Program.exec_set, Program.proceed_ok] at hexec
      split at hexec <;> cases hexec
      rfl
  · intro maxSize before reason after hexec
    simp only [readFrom, Program.exec_bind, Program.exec_get, Program.proceed_ok] at hexec
    split at hexec
    · cases hexec
      exact ⟨by simp, by simp⟩
    · simp only [Program.exec_bind, Program.exec_set, Program.proceed_ok] at hexec
      split at hexec <;> cases hexec
      exact ⟨by simp, by simp⟩

/-- A stretch of the script up to a `co_await` ends with what is awaited. -/
theorem script_awaits {stage following : Stage} {choice : Choice} {operations : List Operation}
    (h : script stage choice = some (.awaiting following, operations)) :
    ∃ earlier last, operations = earlier ++ [last] ∧ last.span = none := by
  unfold script at h
  split at h <;> cases h
  · exact ⟨[], _, rfl, rfl⟩
  · exact ⟨[_], _, rfl, rfl⟩
  · exact ⟨[], _, rfl, rfl⟩
  · exact ⟨[], _, rfl, rfl⟩
  · exact ⟨[], _, rfl, rfl⟩
  · exact ⟨[], _, rfl, rfl⟩

/-- A `co_return` submits nothing. -/
theorem script_returns {stage : Stage} {choice : Choice} {operations : List Operation}
    (h : script stage choice = some (.returned, operations)) : operations = [] := by
  unfold script at h
  split at h <;> cases h
  rfl

/-- Whatever is awaited has been submitted last. -/
theorem Follows.awaited {stage : Stage} {operations : List Operation}
    (h : Follows (.awaiting stage) operations) :
    ∃ earlier last, operations = earlier ++ [last] ∧ last.span = none := by
  cases h with
  | start => exact ⟨[], _, rfl, rfl⟩
  | resume h choice hscript =>
      obtain ⟨earlier, last, rfl, hlast⟩ := script_awaits hscript
      exact ⟨_ ++ earlier, last, (List.append_assoc ..).symm, hlast⟩

/-- Under every kernel: the handshake does not run to its end; when it waits for its forwarders, the
script leads there with the reads, the writes and the dial that it has made; and when it has
returned, it has done so right after an operation that it awaited, with nothing written since. -/
theorem handshake_from_follows (kernel : Kernel) (client : Socket) (connected : Option Socket) :
    (handshakeFrom kernel client connected).1 ≠ .ok () ∧
    ((handshakeFrom kernel client connected).1 = .error .joining →
      Reached .relaying (handshakeFrom kernel client connected).2) ∧
    ((handshakeFrom kernel client connected).1 = .error .returned →
      ∃ earlier last, Follows .returned (earlier ++ [last]) ∧ last.span = none ∧
        Matches (earlier ++ [last]) (handshakeFrom kernel client connected).2) := by
  obtain ⟨hends, hstops⟩ := handshake_follows (read_from_counts kernel client) client connected
    { unread := [] } ⟨rfl, rfl, rfl⟩
  refine ⟨fun hok => hends () _ (Prod.ext hok rfl), fun hjoining => ?_, fun hreturned => ?_⟩
  · exact (hstops .joining _ (Prod.ext hjoining rfl)).1 rfl
  · obtain ⟨operations, hfollows, hmatches⟩ := (hstops .returned _ (Prod.ext hreturned rfl)).2 rfl
    cases hfollows with
    | resume hawaiting choice hscript =>
        obtain ⟨earlier, last, rfl, hlast⟩ := hawaiting.awaited
        obtain rfl := script_returns hscript
        rw [List.append_nil] at hmatches
        refine ⟨earlier, last, ?_, hlast, hmatches⟩
        exact List.append_nil (earlier ++ [last]) ▸ hawaiting.resume choice hscript

end ControlFlow

end Toad.Socks5
