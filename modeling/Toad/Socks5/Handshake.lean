import Toad.Bytes.ByteStream
import Toad.Concurrency.IOContext
import Toad.Execution.Program

/-!
# The SOCKS5 handshake

`Socks5Server::handle_client_handshake`, as a program over a session: the bytes the client
has sent and the server has not read yet, the coroutine's vector and the `ByteIStream` over it,
and what the coroutine has done so far. The handshake is written over `read`, which stands for
`co_await io.submit_read_some(client, buffer, max_size)`; in `readSome` a read is a whole
submission and completion into the shared vector, and a `Cut` decides how many bytes it returns.
An `Option` that is `none` is a variable to which nothing has been assigned.

The `exec_` lemmas execute one statement on a session whose cursor stands between the bytes
parsed and the bytes received; the `_unseen` lemmas say that the reading parts neither write
to the client nor attempt a connection.
-/

namespace Toad.Socks5

open Execution IOContext

/-- `IPv4`. -/
abbrev IPv4 := Vector UInt8 4

/-- `std::variant<IPv4, std::string>`. -/
inductive Address where
  | ipv4 (address : Option IPv4)
  | domain (name : String)
  deriving DecidableEq

/-- `0.0.0.0`. -/
def IPv4.zero : IPv4 := .replicate 4 0

/-- A variant is constructed with its first alternative, value-initialised. -/
def Address.constructed : Address := .ipv4 (some .zero)

/-- The answer to an acceptable greeting. -/
def response : List UInt8 := [0x05, 0x00]

/-- The answer to a request, once the remote is connected. -/
def lastResponse : List UInt8 := [0x05, 0x00, 0x00, 0x01, 127, 0, 0, 1, 0xB8, 22]

/-- A call of `handle_connection`, with what the client had sent beyond the bytes read by then. -/
structure Dial where
  address : Option IPv4
  port : Option UInt16
  unread : List UInt8
  deriving DecidableEq

/-- How the client's bytes arrive: the number of bytes that a read returns, given how many reads
came before it, the size it asks for, and how many bytes are left. A read returns nothing only at
the end of the stream or when it asks for nothing. -/
structure Cut where
  count : (index maxSize left : Nat) → Nat
  count_le : ∀ index maxSize left, count index maxSize left ≤ min maxSize left
  count_pos : ∀ index maxSize left, 0 < min maxSize left → 0 < count index maxSize left

/-- Every read returns all it can. -/
def Cut.full : Cut where
  count := fun _ maxSize left => min maxSize left
  count_le := fun _ _ _ => Nat.le_refl _
  count_pos := fun _ _ _ h => h

/-- A cut in which a read returns the full requested count whenever that many bytes are left. -/
structure WholeCut extends Cut where
  whole : ∀ index maxSize left, maxSize ≤ left → toCut.count index maxSize left = maxSize

/-- Every read returns all it can. -/
def WholeCut.full : WholeCut where
  toCut := .full
  whole := fun _ _ _ h => Nat.min_eq_left h

/-- The first read returns one byte, all others return all they can. -/
def Cut.firstByte : Cut where
  count := fun index maxSize left =>
    if index = 0 then min 1 (min maxSize left) else min maxSize left
  count_le := by
    intro index maxSize left
    split
    · exact Nat.min_le_right _ _
    · exact Nat.le_refl _
  count_pos := by
    intro index maxSize left h
    split
    · exact Nat.lt_min.mpr ⟨Nat.one_pos, h⟩
    · exact h

/-- The session of one client. -/
structure Session where
  unread : List UInt8
  reads : Nat := 0
  buffer : List UInt8 := []
  istream : ByteIStream := {}
  written : List PendingWriteSome := []
  dials : List Dial := []
  spawned : List (Socket × Socket) := []
  deriving DecidableEq

/-- Why the handshake goes no further: a `co_return`, a future that is never set or a loop without
end, an exception, a branch on a variable that has not been initialised, or a `co_await` of the
forwarders, whose loops have no end. -/
inductive Stop where
  | returned
  | stuck
  | terminated
  | undefined
  | joining
  deriving DecidableEq, Repr

/-- The statements of the handshake. -/
abbrev Handshake := Program Stop Session

/-- `if (condition) co_return;` -/
def coReturnIf (condition : Bool) : Handshake Unit :=
  if condition then throw .returned else pure ()

/-- The value of a variable that is about to be used. -/
def initialised {α : Type} : Option α → Handshake α
  | none => throw .undefined
  | some value => pure value

/-- `co_await io.submit_read_some(client, buffer, max_size)`. -/
def readSome (cut : Cut) (client : Socket) (maxSize : Nat) : Handshake Nat := do
  let session ← get
  let count := cut.count session.reads maxSize session.unread.length
  match readSomeVec client session.buffer maxSize (delivers (session.unread.take count)) with
  | .error _ => throw .terminated
  | .ok (buffer, handled) =>
      set { session with
        unread := session.unread.drop count, reads := session.reads + 1, buffer := buffer }
      match handled.values with
      | [] => throw .stuck
      | read :: _ => pure read

/-- `istream.read_u8(&out)` of a variable that is used afterwards. -/
def readU8 (out : Option UInt8) : Handshake UInt8 := do
  let session ← get
  let (istream, value) := session.istream.readU8 session.buffer out
  set { session with istream := istream }
  initialised value

/-- `istream.read_u16(&out)`. -/
def readU16 (out : Option UInt16) : Handshake (Option UInt16) := do
  let session ← get
  let (istream, value) := session.istream.readU16 session.buffer out
  set { session with istream := istream }
  pure value

/-- `istream.read_array(&out)`. -/
def readArray (out : Option IPv4) : Handshake (Option IPv4) := do
  let session ← get
  let (istream, value) := session.istream.readArray session.buffer out
  set { session with istream := istream }
  pure value

/-- `io.submit_write_some(client, span)`. -/
def writeSome (client : Socket) (span : List UInt8) : Handshake Unit :=
  modify fun session =>
    { session with written := session.written ++ [submitWriteSome client span] }

/-- The loop over the method list: it runs while bytes remain and looks for method `0x00`. The
source has no other bound on the loop; `fuel` bounds the model. -/
def scanMethods : (fuel : Nat) → (isOk : Bool) → Handshake Bool
  | fuel, isOk => do
      let session ← get
      if session.istream.remaining session.buffer = 0 then pure isOk
      else
        match fuel with
        | 0 => throw .stuck
        | fuel + 1 =>
            let byte ← readU8 none
            scanMethods fuel (if byte = 0x00 then true else isOk)

section Text

variable (read : Nat → Handshake Nat) (client : Socket)

/-- The first read: the variables `version` and `nmethods`. -/
def readVersion : Handshake (UInt8 × UInt8) := do
  let read ← read 2
  coReturnIf (read < 2)
  let version ← readU8 none
  let nmethods ← readU8 none
  coReturnIf (version ≠ 5)
  pure (version, nmethods)

/-- The second read: the authentication methods. -/
def readMethods (nmethods : UInt8) : Handshake Unit := do
  let methods ← read nmethods.toNat
  coReturnIf (methods < nmethods.toNat)
  let session ← get
  let isOk ← scanMethods session.buffer.length false
  coReturnIf (!isOk)

/-- The part before the first answer. It returns the variable `version`. -/
def greet : Handshake UInt8 := do
  let (version, nmethods) ← readVersion read
  readMethods read nmethods
  pure version

/-- The `switch` over the address type, with `address` as it was constructed. -/
def readAddress (atype : UInt8) (address : Address) : Handshake Address :=
  if atype = 0x01 then do
    let read ← read 4
    coReturnIf (read < 4)
    let addr ← readArray none
    pure (.ipv4 addr)
  else if atype = 0x03 then
    -- domain names only get a log line, and the `break` leads on to the port
    pure address
  else if atype = 0x04 then throw .returned
  else throw .returned

/-- The second part: the request up to the address. -/
def readRequest (version : UInt8) : Handshake Address := do
  let count ← read 4
  coReturnIf (count < 4)
  let version ← readU8 (some version)
  let command ← readU8 none
  let _reserved ← readU8 none
  let atype ← readU8 none
  coReturnIf (version ≠ 0x05)
  coReturnIf (command ≠ 0x01)
  readAddress read atype .constructed

/-- The port. The number of bytes read is not looked at. -/
def readPort : Handshake (Option UInt16) := do
  let _ ← read 2
  readU16 none

/-- The call of `handle_connection`, and what follows once `connected` is its result: the last
response and the two forwarders. -/
def connect (connected : Option Socket) (address : Address) (port : Option UInt16) :
    Handshake Unit :=
  match address with
  -- `std::get<IPv4>` throws on the other alternative
  | .domain _ => throw .terminated
  | .ipv4 ipv4 => do
      modify fun session =>
        { session with dials := session.dials ++ [⟨ipv4, port, session.unread⟩] }
      match connected with
      | none => throw .returned
      | some remote =>
          writeSome client lastResponse
          modify fun session =>
            { session with spawned := session.spawned ++ [(client, remote), (remote, client)] }

/-- The part after the first answer, up to the join. -/
def serveRequest (connected : Option Socket) (version : UInt8) : Handshake Unit := do
  let address ← readRequest read version
  let port ← readPort read
  connect client connected address port

/-- `co_await join_set_`, with both forwarders in the set: no watcher counts one of them out. -/
def awaitJoinSet : Handshake Unit := throw .joining

/-- `handle_client_handshake(client)`, where connecting to the remote yields `connected`. Behind
the join there is only a log line. -/
def handleClientHandshake (connected : Option Socket) : Handshake Unit := do
  let version ← greet read
  writeSome client response
  serveRequest read client connected version
  awaitJoinSet

end Text

/-- The handshake on a client that sends `stream` and then closes. -/
def handshake (cut : Cut) (client : Socket) (connected : Option Socket) (stream : List UInt8) :
    Except Stop Unit × Session :=
  (handleClientHandshake (readSome cut client) client connected).exec { unread := stream }

/-! ## Executing one statement -/

/-- The session with `parsed` behind the cursor and `left` in front of it. -/
def Session.parsedTo (session : Session) (parsed left : List UInt8) : Session :=
  { session with buffer := parsed ++ left, istream := { cursor := parsed.length } }

/-- The session after a read of `count` bytes. -/
def Session.received (session : Session) (count : Nat) : Session :=
  { session with unread := session.unread.drop count, reads := session.reads + 1 }

variable {cut : Cut} {client : Socket}

@[simp] theorem exec_co_return_if (condition : Bool) (session : Session) :
    (coReturnIf condition).exec session =
      (if condition then .error .returned else .ok (), session) := by
  cases condition <;> rfl

/-- A read puts the next bytes of the client in front of the cursor. -/
theorem exec_read_some {session : Session} {parsed : List UInt8} {maxSize : Nat}
    (hsmall : parsed.length + maxSize ≤ 1024) :
    (readSome cut client maxSize).exec (session.parsedTo parsed []) =
      (.ok (cut.count session.reads maxSize session.unread.length),
        (session.received (cut.count session.reads maxSize session.unread.length)).parsedTo parsed
          (session.unread.take (cut.count session.reads maxSize session.unread.length))) := by
  have hcount := cut.count_le session.reads maxSize session.unread.length
  have hchunk : (session.unread.take
      (cut.count session.reads maxSize session.unread.length)).length ≤ maxSize := by
    rw [List.length_take]
    omega
  have hlength : (session.unread.take
      (cut.count session.reads maxSize session.unread.length)).length =
        cut.count session.reads maxSize session.unread.length := by
    rw [List.length_take]
    omega
  have hread : readSomeVec client parsed maxSize _ = _ :=
    read_some_vec_delivers client (by unfold vectorMaxSize; omega) hchunk
  simp only [readSome, Program.exec_bind, Program.exec_get, Program.proceed_ok,
    Session.parsedTo, List.append_nil, hread, Program.exec_set, Program.exec_pure, hlength,
    Session.received]

/-- Taking `size` bytes moves the cursor over them. -/
theorem advance_over {parsed bytes : List UInt8} (hsmall : (parsed ++ bytes).length ≤ 1024) :
    ({ cursor := parsed.length } : ByteIStream).advance bytes.length =
      { cursor := (parsed ++ bytes).length } := by
  rw [List.length_append] at hsmall ⊢
  simp only [ByteIStream.advance, sz_add_eq (show parsed.length + bytes.length < 2 ^ 64 by omega)]

/-- A byte in front of the cursor is taken. -/
theorem exec_read_u8 {session : Session} {parsed left : List UInt8} {byte : UInt8}
    (out : Option UInt8) (hsmall : (parsed ++ byte :: left).length ≤ 1024) :
    (readU8 out).exec (session.parsedTo parsed (byte :: left)) =
      (.ok byte, session.parsedTo (parsed ++ [byte]) left) := by
  have hread : ({ cursor := parsed.length } : ByteIStream).readU8 (parsed ++ byte :: left) out =
      _ := ByteIStream.read_u8_append out rfl (by omega)
  have hadvance := advance_over (show (parsed ++ [byte]).length ≤ 1024 by
    simp only [List.length_append, List.length_cons, List.length_nil] at hsmall ⊢
    omega)
  rw [List.length_singleton] at hadvance
  simp only [readU8, Program.exec_bind, Program.exec_get, Program.proceed_ok, Session.parsedTo,
    hread, Program.exec_set, initialised, Program.exec_pure, hadvance]
  simp

/-- An address in front of the cursor is taken. -/
theorem exec_read_array {session : Session} {parsed : List UInt8} {address : IPv4}
    (out : Option IPv4) (hsmall : (parsed ++ address.toList).length ≤ 1024) :
    (readArray out).exec (session.parsedTo parsed address.toList) =
      (.ok (some address), session.parsedTo (parsed ++ address.toList) []) := by
  have hread : ({ cursor := parsed.length } : ByteIStream).readArray
      (parsed ++ address.toList ++ []) out = _ :=
    ByteIStream.read_array_append out rfl (by rw [List.append_nil]; omega)
  have hadvance := advance_over hsmall
  rw [Vector.length_toList] at hadvance
  rw [List.append_nil] at hread
  simp only [readArray, Program.exec_bind, Program.exec_get, Program.proceed_ok, Session.parsedTo,
    hread, Program.exec_set, Program.exec_pure, hadvance, List.append_nil]

/-- A port in front of the cursor is taken. -/
theorem exec_read_u16 {session : Session} {parsed : List UInt8} {hi lo : UInt8}
    (out : Option UInt16) (hsmall : (parsed ++ [hi, lo]).length ≤ 1024) :
    (readU16 out).exec (session.parsedTo parsed [hi, lo]) =
      (.ok (some (ByteIStream.combine hi lo)), session.parsedTo (parsed ++ [hi, lo]) []) := by
  have hread : ({ cursor := parsed.length } : ByteIStream).readU16 (parsed ++ [hi, lo]) out =
      _ := ByteIStream.read_u16_append out rfl (by omega)
  have hadvance := advance_over hsmall
  simp only [List.length_cons, List.length_nil, Nat.zero_add, Nat.reduceAdd] at hadvance
  simp only [readU16, Program.exec_bind, Program.exec_get, Program.proceed_ok, Session.parsedTo,
    hread, Program.exec_set, Program.exec_pure, hadvance, List.append_nil]

/-- With fewer than two bytes left, the port stays what it was. -/
theorem exec_read_u16_short {session : Session} {parsed left : List UInt8}
    (out : Option UInt16) (hsmall : (parsed ++ left).length ≤ 1024) (hshort : left.length < 2) :
    ∃ istream, (readU16 out).exec (session.parsedTo parsed left) =
      (.ok out, { session with buffer := parsed ++ left, istream := istream }) := by
  have hread : ({ cursor := parsed.length } : ByteIStream).readU16 (parsed ++ left) out = _ :=
    ByteIStream.read_u16_short out (by simp) (by omega)
      (by rw [List.length_append]; exact Nat.add_lt_add_left hshort _)
  refine ⟨({ cursor := parsed.length } : ByteIStream).fail 2, ?_⟩
  simp only [readU16, Program.exec_bind, Program.exec_get, Program.proceed_ok, Session.parsedTo,
    hread, Program.exec_set, Program.exec_pure]

/-- What `remaining()` returns in such a session. -/
theorem remaining_parsed {session : Session} {parsed left : List UInt8}
    (hsmall : (parsed ++ left).length ≤ 1024) :
    (session.parsedTo parsed left).istream.remaining (session.parsedTo parsed left).buffer =
      left.length := by
  simp only [Session.parsedTo]
  rw [ByteIStream.remaining_eq (by omega) (by simp)]
  simp

/-- With enough fuel, the loop over the methods takes all bytes and finds a zero among them. -/
theorem exec_scan_methods {session : Session} (left : List UInt8) :
    ∀ (fuel : Nat) (parsed : List UInt8) (isOk : Bool), left.length ≤ fuel →
      (parsed ++ left).length ≤ 1024 →
      (scanMethods fuel isOk).exec (session.parsedTo parsed left) =
        (.ok (isOk || left.contains 0), session.parsedTo (parsed ++ left) []) := by
  induction left with
  | nil =>
      intro fuel parsed isOk _ hsmall
      unfold scanMethods
      rw [Program.exec_bind, Program.exec_get, Program.proceed_ok, remaining_parsed hsmall]
      simp
  | cons byte rest ih =>
      intro fuel parsed isOk hfuel hsmall
      obtain ⟨fuel, rfl⟩ : ∃ less, fuel = less + 1 := ⟨fuel - 1, by simp at hfuel; omega⟩
      have hrest : (parsed ++ [byte] ++ rest).length ≤ 1024 := by simpa using hsmall
      unfold scanMethods
      rw [Program.exec_bind, Program.exec_get, Program.proceed_ok, remaining_parsed hsmall,
        if_neg (by simp), Program.exec_bind, exec_read_u8 none hsmall, Program.proceed_ok,
        ih fuel (parsed ++ [byte]) _ (by simpa using hfuel) hrest]
      by_cases hzero : byte = 0
      · simp [hzero]
      · simp [hzero, Ne.symm hzero]

variable {α : Type}

/-- A read that returns less than its size ends the handshake where the result is checked. -/
theorem exec_read_short {session : Session} {parsed : List UInt8} {maxSize : Nat}
    {rest : Handshake α} (hsmall : parsed.length + maxSize ≤ 1024)
    (hshort : cut.count session.reads maxSize session.unread.length < maxSize) :
    ((readSome cut client maxSize >>= fun read =>
      coReturnIf (read < maxSize) >>= fun _ => rest).exec (session.parsedTo parsed [])).1 =
        .error .returned := by
  simp [exec_read_some hsmall, hshort]

/-! ## The parts of the handshake, when their reads are whole -/

/-- The read returns its whole size, with `bytes` in front of the cursor. -/
def Takes (read : Nat → Handshake Nat) (session after : Session) (parsed bytes : List UInt8) :
    Prop :=
  (read bytes.length).exec (session.parsedTo parsed []) =
    (.ok bytes.length, after.parsedTo parsed bytes)

/-- A read of a client whose bytes arrive in one piece. -/
theorem read_some_takes {session : Session} {parsed chunk unread : List UInt8}
    (client : Socket) (hsmall : parsed.length + chunk.length ≤ 1024)
    (hunread : session.unread = chunk ++ unread)
    (hwhole : cut.count session.reads chunk.length session.unread.length = chunk.length) :
    Takes (readSome cut client) session
      { session with unread := unread, reads := session.reads + 1 } parsed chunk := by
  have htake : session.unread.take chunk.length = chunk := by rw [hunread, List.take_left]
  have hdrop : session.unread.drop chunk.length = unread := by rw [hunread, List.drop_left]
  rw [Takes, exec_read_some hsmall, hwhole, htake]
  simp [Session.received, hdrop]

section Takes

variable {read : Nat → Handshake Nat} {session after : Session} {parsed : List UInt8}

/-- The handshake goes on after a read that returns its whole size. -/
theorem Takes.checked {bytes : List UInt8} {maxSize : Nat} {rest : Handshake α}
    (h : Takes read session after parsed bytes) (hsize : bytes.length = maxSize) :
    (read maxSize >>= fun count =>
      coReturnIf (count < maxSize) >>= fun _ => rest).exec (session.parsedTo parsed []) =
        rest.exec (after.parsedTo parsed bytes) := by
  subst hsize
  rw [Program.exec_bind, h, Program.proceed_ok]
  simp

/-- The version and the number of methods. -/
theorem exec_version {version nmethods : UInt8}
    (h : Takes read session after [] [version, nmethods]) :
    (readVersion read).exec (session.parsedTo [] []) =
      (if version = 5 then .ok (version, nmethods) else .error .returned,
        after.parsedTo [version, nmethods] []) := by
  rw [readVersion]
  refine Eq.trans (h.checked rfl) ?_
  rw [Program.exec_bind, exec_read_u8 none (by simp), Program.proceed_ok, Program.exec_bind,
    exec_read_u8 none (by simp), Program.proceed_ok, Program.exec_bind, exec_co_return_if]
  by_cases hversion : version = 5
  · simp [hversion]
  · simp [hversion]

/-- The methods. -/
theorem exec_methods {methods : List UInt8} {nmethods : UInt8} (hparsed : parsed.length ≤ 2)
    (hcounted : methods.length = nmethods.toNat) (h : Takes read session after parsed methods) :
    (readMethods read nmethods).exec (session.parsedTo parsed []) =
      (if 0 ∈ methods then .ok () else .error .returned,
        after.parsedTo (parsed ++ methods) []) := by
  have hbound : nmethods.toNat < 256 := nmethods.toNat_lt
  rw [readMethods]
  refine Eq.trans (h.checked hcounted) ?_
  rw [Program.exec_bind, Program.exec_get, Program.proceed_ok, Program.exec_bind,
    exec_scan_methods _ _ _ _ (by simp [Session.parsedTo]) (by simp; omega),
    Program.proceed_ok, exec_co_return_if]
  by_cases hzero : 0 ∈ methods
  · simp [hzero]
  · simp [hzero]

/-- The request header: anything but `05 01` ends the handshake, and the address type decides how
it goes on. -/
theorem exec_request {version command reserved atype : UInt8} (first : UInt8)
    (hparsed : parsed.length ≤ 512)
    (h : Takes read session after parsed [version, command, reserved, atype]) :
    (readRequest read first).exec (session.parsedTo parsed []) =
      if version = 5 ∧ command = 1 then
        (readAddress read atype .constructed).exec
          (after.parsedTo (parsed ++ [version, command, reserved, atype]) [])
      else
        (.error .returned,
          after.parsedTo (parsed ++ [version, command, reserved, atype]) []) := by
  rw [readRequest]
  refine Eq.trans (h.checked rfl) ?_
  rw [Program.exec_bind, exec_read_u8 _ (by simp; omega), Program.proceed_ok, Program.exec_bind,
    exec_read_u8 _ (by simp; omega), Program.proceed_ok, Program.exec_bind,
    exec_read_u8 _ (by simp; omega), Program.proceed_ok, Program.exec_bind,
    exec_read_u8 _ (by simp; omega), Program.proceed_ok, Program.exec_bind, exec_co_return_if]
  by_cases hversion : version = 5
  · by_cases hcommand : command = 1
    · simp [hversion, hcommand]
    · simp [hversion, hcommand]
  · simp [hversion]

/-- An IPv4 address. -/
theorem exec_address {address : IPv4} (constructed : Address) (hparsed : parsed.length ≤ 512)
    (h : Takes read session after parsed address.toList) :
    (readAddress read 1 constructed).exec (session.parsedTo parsed []) =
      (.ok (.ipv4 (some address)), after.parsedTo (parsed ++ address.toList) []) := by
  rw [readAddress, if_pos rfl]
  refine Eq.trans (h.checked (by simp)) ?_
  rw [Program.exec_bind, exec_read_array none (by simp; omega), Program.proceed_ok,
    Program.exec_pure]

/-- A domain name leaves the address as it was constructed. -/
theorem exec_address_domain (constructed : Address) (session : Session) :
    (readAddress read 3 constructed).exec session = (.ok constructed, session) := by
  rw [readAddress, if_neg (by decide), if_pos rfl, Program.exec_pure]

/-- Any other address type ends the handshake. -/
theorem exec_address_unknown {atype : UInt8} (constructed : Address) (session : Session)
    (hipv4 : atype ≠ 1) (hdomain : atype ≠ 3) :
    ((readAddress read atype constructed).exec session).1 = .error .returned := by
  rw [readAddress, if_neg hipv4, if_neg hdomain]
  split <;> rfl

/-- The port. -/
theorem exec_port {hi lo : UInt8} (hparsed : parsed.length ≤ 512)
    (h : Takes read session after parsed [hi, lo]) :
    (readPort read).exec (session.parsedTo parsed []) =
      (.ok (some (ByteIStream.combine hi lo)), after.parsedTo (parsed ++ [hi, lo]) []) := by
  have hread : (read 2).exec (session.parsedTo parsed []) = _ := h
  rw [readPort, Program.exec_bind, hread, Program.proceed_ok]
  exact exec_read_u16 none (by simp; omega)

/-- The connection is attempted once, whatever comes of it. -/
theorem connect_dials (client : Socket) (connected : Option Socket) (address : Option IPv4)
    (port : Option UInt16) (session : Session) :
    ((connect client connected (.ipv4 address) port).exec session).2.dials =
      session.dials ++ [⟨address, port, session.unread⟩] := by
  cases connected with
  | none => rfl
  | some remote => rfl

/-- Waiting for the forwarders changes nothing. -/
theorem join_keeps (result : Except Stop Unit × Session) :
    (Program.proceed result fun _ => awaitJoinSet).2 = result.2 := by
  rcases result with ⟨outcome, session⟩
  cases outcome with
  | ok value => rfl
  | error reason => rfl

end Takes

/-! ## What a part of the handshake leaves alone -/

/-- Nothing was written, dialled, or spawned. -/
structure Unseen (before after : Session) : Prop where
  written : after.written = before.written
  dials : after.dials = before.dials
  spawned : after.spawned = before.spawned

/-- What was written stays written. -/
def Grows (before after : Session) : Prop :=
  before.written <+: after.written

instance : Std.Refl Unseen := ⟨fun _ => ⟨rfl, rfl, rfl⟩⟩

instance : IsTrans Session Unseen where
  trans := by
    intro before middle after hfirst hsecond
    exact ⟨hsecond.written.trans hfirst.written, hsecond.dials.trans hfirst.dials,
      hsecond.spawned.trans hfirst.spawned⟩

instance : Std.Refl Grows := ⟨fun _ => List.prefix_refl _⟩

instance : IsTrans Session Grows := ⟨fun _ _ _ hfirst hsecond => hfirst.trans hsecond⟩

theorem unseen_grows {before after : Session} (h : Unseen before after) : Grows before after :=
  ⟨[], (List.append_nil _).trans h.written.symm⟩

theorem co_return_if_unseen (condition : Bool) : (coReturnIf condition).Keeps Unseen := by
  intro session
  rw [exec_co_return_if]
  exact ⟨rfl, rfl, rfl⟩

theorem initialised_unseen (value : Option α) : (initialised value).Keeps Unseen := by
  cases value with
  | none => exact Program.keeps_throw _
  | some value => exact Program.keeps_pure value

theorem read_some_unseen (cut : Cut) (client : Socket) (maxSize : Nat) :
    (readSome cut client maxSize).Keeps Unseen := by
  intro session
  simp only [readSome, Program.exec_bind, Program.exec_get, Program.proceed_ok]
  split
  · exact ⟨rfl, rfl, rfl⟩
  · simp only [Program.exec_bind, Program.exec_set, Program.proceed_ok]
    split <;> exact ⟨rfl, rfl, rfl⟩

theorem read_u8_unseen (out : Option UInt8) : (readU8 out).Keeps Unseen := by
  intro session
  simp only [readU8, Program.exec_bind, Program.exec_get, Program.proceed_ok, Program.exec_set]
  have hlast := initialised_unseen (session.istream.readU8 session.buffer out).2
    { session with istream := (session.istream.readU8 session.buffer out).1 }
  exact ⟨hlast.written, hlast.dials, hlast.spawned⟩

theorem read_u16_unseen (out : Option UInt16) : (readU16 out).Keeps Unseen :=
  fun _ => ⟨rfl, rfl, rfl⟩

theorem read_array_unseen (out : Option IPv4) : (readArray out).Keeps Unseen :=
  fun _ => ⟨rfl, rfl, rfl⟩

theorem scan_methods_unseen (fuel : Nat) : ∀ isOk, (scanMethods fuel isOk).Keeps Unseen := by
  induction fuel with
  | zero =>
      intro isOk session
      unfold scanMethods
      rw [Program.exec_bind, Program.exec_get, Program.proceed_ok]
      split <;> exact ⟨rfl, rfl, rfl⟩
  | succ fuel ih =>
      intro isOk session
      unfold scanMethods
      rw [Program.exec_bind, Program.exec_get, Program.proceed_ok]
      split
      · exact ⟨rfl, rfl, rfl⟩
      · exact Program.keeps_bind (read_u8_unseen none) (fun byte => ih _) session

section Text

variable {read : Nat → Handshake Nat} (hread : ∀ size, (read size).Keeps Unseen)

include hread

theorem read_version_unseen : (readVersion read).Keeps Unseen :=
  Program.keeps_bind (hread 2) fun _ =>
    Program.keeps_bind (co_return_if_unseen _) fun _ =>
      Program.keeps_bind (read_u8_unseen none) fun _ =>
        Program.keeps_bind (read_u8_unseen none) fun _ =>
          Program.keeps_bind (co_return_if_unseen _) fun _ => Program.keeps_pure _

theorem read_methods_unseen (nmethods : UInt8) : (readMethods read nmethods).Keeps Unseen :=
  Program.keeps_bind (hread _) fun _ =>
    Program.keeps_bind (co_return_if_unseen _) fun _ =>
      Program.keeps_bind (fun _ => ⟨rfl, rfl, rfl⟩) fun _ =>
        Program.keeps_bind (scan_methods_unseen _ _) fun _ => co_return_if_unseen _

/-- Before its answer to the greeting, the handshake does nothing that anybody could see. -/
theorem greet_unseen : (greet read).Keeps Unseen :=
  Program.keeps_bind (read_version_unseen hread) fun _ =>
    Program.keeps_bind (read_methods_unseen hread _) fun _ => Program.keeps_pure _

theorem read_address_unseen (atype : UInt8) (address : Address) :
    (readAddress read atype address).Keeps Unseen := by
  unfold readAddress
  split
  · exact Program.keeps_bind (hread 4) fun _ =>
      Program.keeps_bind (co_return_if_unseen _) fun _ =>
        Program.keeps_bind (read_array_unseen none) fun _ => Program.keeps_pure _
  · split
    · exact Program.keeps_pure _
    · split <;> exact Program.keeps_throw _

theorem read_request_unseen (version : UInt8) : (readRequest read version).Keeps Unseen :=
  Program.keeps_bind (hread 4) fun _ =>
    Program.keeps_bind (co_return_if_unseen _) fun _ =>
      Program.keeps_bind (read_u8_unseen _) fun _ =>
        Program.keeps_bind (read_u8_unseen none) fun _ =>
          Program.keeps_bind (read_u8_unseen none) fun _ =>
            Program.keeps_bind (read_u8_unseen none) fun _ =>
              Program.keeps_bind (co_return_if_unseen _) fun _ =>
                Program.keeps_bind (co_return_if_unseen _) fun _ => read_address_unseen hread _ _

theorem read_port_unseen : (readPort read).Keeps Unseen :=
  Program.keeps_bind (hread 2) fun _ => read_u16_unseen none

omit hread in
theorem connect_grows (client : Socket) (connected : Option Socket) (address : Address)
    (port : Option UInt16) : (connect client connected address port).Keeps Grows := by
  intro session
  cases address with
  | domain name => exact List.prefix_refl _
  | ipv4 address =>
      cases connected with
      | none => exact List.prefix_refl _
      | some remote => exact List.prefix_append _ _

theorem serve_request_grows (client : Socket) (connected : Option Socket) (version : UInt8) :
    (serveRequest read client connected version).Keeps Grows :=
  have hrequest := (read_request_unseen hread version).mono fun _ _ => unseen_grows
  have hport := (read_port_unseen hread).mono fun _ _ => unseen_grows
  Program.keeps_bind hrequest fun _ =>
    Program.keeps_bind hport fun _ => connect_grows client connected _ _

end Text

end Toad.Socks5
