import Toad.Socks5.Handshake

/-!
# The grammar of the handshake

What the handshake accepts. With reads that return the full requested count whenever that many
bytes are left, the reading parts are evaluated on every stream: `stream_cases`. The request is
dialled as it was sent, but a domain name and a port that is cut off are dialled as well, so that
the handshake follows its grammar exactly on the other streams: `handshake_grammar_iff`. A read
that returns less than it was asked for is taken for the end of the stream, so that the outcome
depends on how the stream arrives as soon as there is something to accept:
`cut_independent_iff`.
-/

namespace Toad.Socks5

open Execution IOContext

variable {cut : Cut} {client : Socket} {α : Type}

/-! ## The grammar -/

/-- The greeting of a client that offers the method `0x00`. -/
structure Greeting where
  nmethods : UInt8
  methods : List UInt8
  counted : methods.length = nmethods.toNat
  acceptable : 0 ∈ methods

/-- `05 n m1 .. mn`. -/
def Greeting.bytes (greeting : Greeting) : List UInt8 :=
  5 :: greeting.nmethods :: greeting.methods

/-- A request to connect to an IPv4 address. -/
structure Request where
  greeting : Greeting
  reserved : UInt8
  address : IPv4
  hi : UInt8
  lo : UInt8

/-- `05 n m1 .. mn 05 01 rsv 01 a b c d p q`. -/
def Request.bytes (request : Request) : List UInt8 :=
  request.greeting.bytes ++ ([5, 1, request.reserved, 1] ++
    (request.address.toList ++ [request.hi, request.lo]))

/-- The session in which an acceptable greeting has been read. -/
def greeted (greeting : Greeting) (unread : List UInt8) : Session :=
  ({ unread := unread, reads := 2 } : Session).parsedTo greeting.bytes []

/-- However the bytes arrive, the first read is accepted only if it is whole and starts with
version 5. -/
theorem read_version_cases (cut : Cut) (client : Socket) (stream : List UInt8) :
    ((readVersion (readSome cut client)).exec { unread := stream }).1 = .error .returned ∨
      ∃ nmethods tail, stream = 5 :: nmethods :: tail ∧
        (readVersion (readSome cut client)).exec { unread := stream } =
          (.ok (5, nmethods),
            ({ unread := tail, reads := 1 } : Session).parsedTo [5, nmethods] []) := by
  by_cases hshort : cut.count 0 2 stream.length < 2
  · left
    show ((readVersion (readSome cut client)).exec
      (Session.parsedTo { unread := stream } [] [])).1 = _
    exact exec_read_short (by simp) hshort
  have hle := cut.count_le 0 2 stream.length
  match stream with
  | [] => simp only [List.length_nil, Nat.min_zero] at hle hshort; omega
  | [_] => simp only [List.length_singleton] at hle hshort; omega
  | version :: nmethods :: tail =>
      have htakes : Takes (readSome cut client) { unread := version :: nmethods :: tail }
          { unread := tail, reads := 1 } [] [version, nmethods] :=
        read_some_takes client (by simp) rfl
          (show cut.count 0 2 (version :: nmethods :: tail).length = 2 by omega)
      have hread : (readVersion (readSome cut client)).exec
          { unread := version :: nmethods :: tail } = _ := exec_version htakes
      by_cases hversion : version = 5
      · subst hversion
        exact Or.inr ⟨nmethods, tail, rfl, by rw [hread, if_pos rfl]⟩
      · exact Or.inl (by rw [hread, if_neg hversion])

/-- However the bytes arrive, the methods are accepted only if they come in one read and one of
them is zero. -/
theorem read_methods_cases (cut : Cut) (client : Socket) (nmethods : UInt8) (session : Session)
    (parsed : List UInt8) (hsmall : parsed.length ≤ 2) :
    ((readMethods (readSome cut client) nmethods).exec (session.parsedTo parsed [])).1 =
        .error .returned ∨
      ∃ methods unread, session.unread = methods ++ unread ∧
        methods.length = nmethods.toNat ∧ 0 ∈ methods ∧
        (readMethods (readSome cut client) nmethods).exec (session.parsedTo parsed []) =
          (.ok (), { session with unread := unread, reads := session.reads + 1 }.parsedTo
            (parsed ++ methods) []) := by
  have hbound : nmethods.toNat < 256 := nmethods.toNat_lt
  by_cases hshort : cut.count session.reads nmethods.toNat session.unread.length < nmethods.toNat
  · exact Or.inl (exec_read_short (by omega) hshort)
  have hle := cut.count_le session.reads nmethods.toNat session.unread.length
  have hcounted : (session.unread.take nmethods.toNat).length = nmethods.toNat := by
    rw [List.length_take]
    omega
  have htakes : Takes (readSome cut client) session _ parsed _ :=
    read_some_takes client (by omega) (List.take_append_drop nmethods.toNat session.unread).symm
      (by rw [hcounted]; omega)
  have hread := exec_methods hsmall hcounted htakes
  by_cases hzero : 0 ∈ session.unread.take nmethods.toNat
  · exact Or.inr ⟨_, _, (List.take_append_drop nmethods.toNat session.unread).symm, hcounted,
      hzero, by rw [hread, if_pos hzero]⟩
  · exact Or.inl (by rw [hread, if_neg hzero])

/-- However the bytes arrive, the handshake answers only an acceptable greeting. -/
theorem greet_cases (cut : Cut) (client : Socket) (stream : List UInt8) :
    ((greet (readSome cut client)).exec { unread := stream }).1 = .error .returned ∨
      ∃ (greeting : Greeting) (unread : List UInt8), stream = greeting.bytes ++ unread ∧
        (greet (readSome cut client)).exec { unread := stream } =
          (.ok 5, greeted greeting unread) := by
  rw [greet, Program.exec_bind]
  rcases read_version_cases cut client stream with hstop | ⟨nmethods, tail, rfl, hversion⟩
  · exact Or.inl (by rw [Program.proceed_stops _ hstop])
  · rw [hversion, Program.proceed_ok, Program.exec_bind]
    rcases read_methods_cases cut client nmethods { unread := tail, reads := 1 } [5, nmethods]
      (by simp) with hstop | ⟨methods, unread, htail, hcounted, hzero, hmethods⟩
    · exact Or.inl (by rw [Program.proceed_stops _ hstop])
    · refine Or.inr ⟨⟨nmethods, methods, hcounted, hzero⟩, unread, ?_, ?_⟩
      · simp only [Greeting.bytes, List.cons_append, List.cons.injEq, true_and]
        exact htail
      · rw [hmethods, Program.proceed_ok]
        rfl

/-- An acceptable greeting is accepted when its reads are whole. -/
theorem exec_greet {read : Nat → Handshake Nat} {session middle after : Session}
    {greeting : Greeting} (hversion : Takes read session middle [] [5, greeting.nmethods])
    (hmethods : Takes read middle after [5, greeting.nmethods] greeting.methods) :
    (greet read).exec (session.parsedTo [] []) = (.ok 5, after.parsedTo greeting.bytes []) := by
  have hexec := exec_methods (show [5, greeting.nmethods].length ≤ 2 from Nat.le_refl 2)
    greeting.counted hmethods
  rw [if_pos greeting.acceptable] at hexec
  rw [greet, Program.exec_bind, exec_version hversion, if_pos rfl, Program.proceed_ok,
    Program.exec_bind, hexec, Program.proceed_ok]
  rfl

/-- After an acceptable greeting, the handshake answers, reads the request, and waits for its
forwarders. -/
theorem handle_greeted {read : Nat → Handshake Nat} {before after : Session}
    (client : Socket) (connected : Option Socket)
    (h : (greet read).exec before = (.ok 5, after)) :
    (handleClientHandshake read client connected).exec before =
      Program.proceed ((serveRequest read client connected 5).exec
        { after with written := after.written ++ [submitWriteSome client response] })
        fun _ => awaitJoinSet := by
  rw [handleClientHandshake, Program.exec_bind, h, Program.proceed_ok, Program.exec_bind]
  exact Program.exec_bind ..

/-- A request whose three reads are whole is dialled. -/
theorem exec_serve_request {read : Nat → Handshake Nat} {session first second third : Session}
    {parsed : List UInt8} {reserved hi lo : UInt8} {address : IPv4} (client : Socket)
    (connected : Option Socket) (hparsed : parsed.length ≤ 300)
    (hheader : Takes read session first parsed [5, 1, reserved, 1])
    (haddress : Takes read first second (parsed ++ [5, 1, reserved, 1]) address.toList)
    (hport : Takes read second third (parsed ++ [5, 1, reserved, 1] ++ address.toList) [hi, lo]) :
    (serveRequest read client connected 5).exec (session.parsedTo parsed []) =
      (connect client connected (.ipv4 (some address)) (some (ByteIStream.combine hi lo))).exec
        (third.parsedTo (parsed ++ [5, 1, reserved, 1] ++ address.toList ++ [hi, lo]) []) := by
  rw [serveRequest, Program.exec_bind, exec_request 5 (by omega) hheader, if_pos ⟨rfl, rfl⟩,
    exec_address .constructed (by simp; omega) haddress, Program.proceed_ok, Program.exec_bind,
    exec_port (by simp; omega) hport, Program.proceed_ok]

/-! ## Whole reads -/

/-- The session in which the greeting has been answered. -/
def answered (client : Socket) (greeting : Greeting) (unread : List UInt8) : Session :=
  ({ unread := unread, reads := 2, written := [submitWriteSome client response] } :
    Session).parsedTo greeting.bytes []

/-- The handshake ended with a `co_return` and without an attempt to connect. -/
def Rejected (result : Except Stop Unit × Session) : Prop :=
  result.1 = .error .returned ∧ result.2.dials = []

/-- A handshake that stops at the greeting has written nothing. -/
theorem greeting_stops {cut : Cut} {client : Socket} {stream : List UInt8}
    (connected : Option Socket)
    (h : ((greet (readSome cut client)).exec { unread := stream }).1 = .error .returned) :
    Rejected (handshake cut client connected stream) ∧
      (handshake cut client connected stream).2.written = [] := by
  have hunseen := greet_unseen (read_some_unseen cut client) { unread := stream }
  rw [handshake, handleClientHandshake, Program.exec_bind, Program.proceed_stops _ h]
  exact ⟨⟨rfl, hunseen.dials⟩, hunseen.written⟩

section Whole

variable {cut : WholeCut}

/-- A read with enough bytes left returns its whole size. -/
theorem WholeCut.takes (cut : WholeCut) (client : Socket) {session : Session}
    {parsed chunk unread : List UInt8} (hsmall : parsed.length + chunk.length ≤ 1024)
    (hunread : session.unread = chunk ++ unread) :
    Takes (readSome cut.toCut client) session
      { session with unread := unread, reads := session.reads + 1 } parsed chunk :=
  read_some_takes client hsmall hunread (cut.whole _ _ _ (by simp [hunread]))

/-- A read with fewer bytes left than it asks for ends the handshake where it is checked. -/
theorem exec_read_end {session : Session} {parsed : List UInt8} {maxSize : Nat}
    {rest : Handshake α} (hsmall : parsed.length + maxSize ≤ 1024)
    (hshort : session.unread.length < maxSize) :
    ((readSome cut.toCut client maxSize >>= fun read =>
      coReturnIf (read < maxSize) >>= fun _ => rest).exec (session.parsedTo parsed [])).1 =
        .error .returned := by
  have hle := cut.count_le session.reads maxSize session.unread.length
  exact exec_read_short hsmall (by omega)

/-- A port without both its bytes stays uninitialised, and the handshake goes on. -/
theorem exec_read_port_short (cut : WholeCut) (client : Socket) (session : Session)
    (parsed : List UInt8) (hsmall : parsed.length ≤ 512) (hshort : session.unread.length < 2) :
    ∃ istream, (readPort (readSome cut.toCut client)).exec (session.parsedTo parsed []) =
      (.ok none, { session with
        unread := [], reads := session.reads + 1, buffer := parsed ++ session.unread,
        istream := istream }) := by
  have hle := cut.count_le session.reads 2 session.unread.length
  have hpos := cut.count_pos session.reads 2 session.unread.length
  -- a last byte is read, since a read with a byte left does not return without one
  have hcount : cut.count session.reads 2 session.unread.length = session.unread.length := by
    omega
  rw [readPort, Program.exec_bind, exec_read_some (by omega), Program.proceed_ok, hcount,
    List.take_length]
  simp only [Session.received, List.drop_length]
  exact exec_read_u16_short none (by rw [List.length_append]; omega) hshort

/-- After an acceptable greeting, the handshake answers and reads the request. -/
theorem handshake_greeted (cut : WholeCut) (client : Socket) (connected : Option Socket)
    (greeting : Greeting) (unread : List UInt8) :
    handshake cut.toCut client connected (greeting.bytes ++ unread) =
      Program.proceed ((serveRequest (readSome cut.toCut client) client connected 5).exec
        (answered client greeting unread)) fun _ => awaitJoinSet := by
  have hcounted := greeting.counted
  have hbound : greeting.nmethods.toNat < 256 := greeting.nmethods.toNat_lt
  have hversion : Takes (readSome cut.toCut client) { unread := greeting.bytes ++ unread }
      { unread := greeting.methods ++ unread, reads := 1 } [] [5, greeting.nmethods] :=
    cut.takes client (by simp) rfl
  have hmethods : Takes (readSome cut.toCut client)
      { unread := greeting.methods ++ unread, reads := 1 } { unread := unread, reads := 2 }
      [5, greeting.nmethods] greeting.methods :=
    cut.takes client (by simp; omega) rfl
  have hgreet := exec_greet hversion hmethods
  have hanswered : { greeted greeting unread with
      written := (greeted greeting unread).written ++ [submitWriteSome client response] } =
        answered client greeting unread := rfl
  show (handleClientHandshake (readSome cut.toCut client) client connected).exec
    (Session.parsedTo { unread := greeting.bytes ++ unread } [] []) = _
  rw [handle_greeted client connected hgreet, ← hanswered]
  rfl

theorem bytes_length_le (greeting : Greeting) : greeting.bytes.length ≤ 257 := by
  have hbound : greeting.nmethods.toNat < 256 := greeting.nmethods.toNat_lt
  have hcounted := greeting.counted
  simp only [Greeting.bytes, List.length_cons]
  omega

/-- A request that is not read to its address is rejected. -/
theorem request_stops {client : Socket} {connected : Option Socket} {greeting : Greeting}
    {unread : List UInt8}
    (h : ((readRequest (readSome cut.toCut client) 5).exec (answered client greeting unread)).1 =
      .error .returned) :
    Rejected (handshake cut.toCut client connected (greeting.bytes ++ unread)) := by
  have hunseen := read_request_unseen (read_some_unseen cut.toCut client) 5
    (answered client greeting unread)
  rw [handshake_greeted, serveRequest, Program.exec_bind, Program.proceed_stops _ h,
    Program.proceed_error]
  exact ⟨rfl, hunseen.dials⟩

/-- The request header, after an acceptable greeting. -/
theorem exec_request_header (cut : WholeCut) (client : Socket) (greeting : Greeting)
    (version command reserved atype : UInt8) (unread : List UInt8) :
    (readRequest (readSome cut.toCut client) 5).exec
        (answered client greeting ([version, command, reserved, atype] ++ unread)) =
      if version = 5 ∧ command = 1 then
        (readAddress (readSome cut.toCut client) atype .constructed).exec
          (({ unread := unread, reads := 3, written := [submitWriteSome client response] } :
            Session).parsedTo (greeting.bytes ++ [version, command, reserved, atype]) [])
      else
        (.error .returned,
          ({ unread := unread, reads := 3, written := [submitWriteSome client response] } :
            Session).parsedTo (greeting.bytes ++ [version, command, reserved, atype]) []) := by
  have hbytes := bytes_length_le greeting
  exact exec_request 5 (by omega) (cut.takes client (by simp; omega) rfl)

/-- The first bytes of a stream that is long enough. -/
theorem two_bytes {bytes : List UInt8} (h : 2 ≤ bytes.length) :
    ∃ first second rest, bytes = [first, second] ++ rest := by
  match bytes with
  | [] | [_] => simp at h
  | first :: second :: rest => exact ⟨first, second, rest, rfl⟩

theorem four_bytes {bytes : List UInt8} (h : 4 ≤ bytes.length) :
    ∃ first second third fourth rest, bytes = [first, second, third, fourth] ++ rest := by
  match bytes with
  | [] | [_] | [_, _] | [_, _, _] => simp at h
  | first :: second :: third :: fourth :: rest =>
      exact ⟨first, second, third, fourth, rest, rfl⟩

theorem address_bytes {bytes : List UInt8} (h : 4 ≤ bytes.length) :
    ∃ (address : IPv4) (rest : List UInt8), bytes = address.toList ++ rest := by
  obtain ⟨first, second, third, fourth, rest, rfl⟩ := four_bytes h
  exact ⟨#v[first, second, third, fourth], rest, rfl⟩

/-- A complete request is dialled as it was sent, and the handshake reads nothing beyond it. -/
theorem handshake_request (cut : WholeCut) (client : Socket) (connected : Option Socket)
    (request : Request) (rest : List UInt8) :
    handshake cut.toCut client connected (request.bytes ++ rest) =
      Program.proceed ((connect client connected (.ipv4 (some request.address))
        (some (ByteIStream.combine request.hi request.lo))).exec
          (({ unread := rest, reads := 5, written := [submitWriteSome client response] } :
            Session).parsedTo request.bytes [])) fun _ => awaitJoinSet := by
  have hbytes := bytes_length_le request.greeting
  have hheader : Takes (readSome cut.toCut client)
      { unread := [5, 1, request.reserved, 1] ++ (request.address.toList ++
          ([request.hi, request.lo] ++ rest)),
        reads := 2, written := [submitWriteSome client response] } _ request.greeting.bytes _ :=
    cut.takes client (by simp; omega) rfl
  have hserve := exec_serve_request client connected (Nat.le_trans hbytes (by decide)) hheader
    (cut.takes client (by simp; omega) rfl) (cut.takes client (by simp; omega) rfl)
  have hstream : request.bytes ++ rest = request.greeting.bytes ++ ([5, 1, request.reserved, 1] ++
      (request.address.toList ++ ([request.hi, request.lo] ++ rest))) := by
    simp [Request.bytes]
  have hparsed : request.greeting.bytes ++ [5, 1, request.reserved, 1] ++
      request.address.toList ++ [request.hi, request.lo] = request.bytes := by
    simp [Request.bytes]
  rw [hparsed] at hserve
  rw [hstream, handshake_greeted]
  exact congrArg (Program.proceed · _) hserve

/-- A request that ends inside the port is dialled with an uninitialised port. -/
theorem handshake_port_missing (cut : WholeCut) (client : Socket) (connected : Option Socket)
    (greeting : Greeting) (reserved : UInt8) (address : IPv4) {rest : List UInt8}
    (hshort : rest.length < 2) :
    (handshake cut.toCut client connected
      (greeting.bytes ++ ([5, 1, reserved, 1] ++ (address.toList ++ rest)))).2.dials =
        [⟨some address, none, []⟩] := by
  have hbytes := bytes_length_le greeting
  rw [handshake_greeted, join_keeps, serveRequest, Program.exec_bind, exec_request_header,
    if_pos ⟨rfl, rfl⟩, exec_address _ (by simp; omega) (cut.takes client (by simp; omega) rfl),
    Program.proceed_ok, Program.exec_bind]
  obtain ⟨istream, hport⟩ := exec_read_port_short cut client
    { unread := rest, reads := 4, written := [submitWriteSome client response] }
    (greeting.bytes ++ [5, 1, reserved, 1] ++ address.toList) (by simp; omega) hshort
  have hread : (readPort (readSome cut.toCut client)).exec _ = _ := hport
  rw [hread, Program.proceed_ok, connect_dials]
  rfl

/-- A request for a domain name is dialled at `0.0.0.0`. -/
theorem handshake_domain (cut : WholeCut) (client : Socket) (connected : Option Socket)
    (greeting : Greeting) (reserved : UInt8) (unread : List UInt8) :
    ∃ port rest, (handshake cut.toCut client connected
      (greeting.bytes ++ ([5, 1, reserved, 3] ++ unread))).2.dials =
        [⟨some .zero, port, rest⟩] := by
  have hbytes := bytes_length_le greeting
  rw [handshake_greeted, join_keeps, serveRequest, Program.exec_bind, exec_request_header,
    if_pos ⟨rfl, rfl⟩, exec_address_domain, Program.proceed_ok, Address.constructed,
    Program.exec_bind]
  by_cases hshort : unread.length < 2
  · obtain ⟨istream, hport⟩ := exec_read_port_short cut client
      { unread := unread, reads := 3, written := [submitWriteSome client response] }
      (greeting.bytes ++ [5, 1, reserved, 3]) (by simp; omega) hshort
    rw [hport, Program.proceed_ok, connect_dials]
    exact ⟨_, _, rfl⟩
  · obtain ⟨hi, lo, rest, rfl⟩ := two_bytes (Nat.le_of_not_lt hshort)
    rw [exec_port (by simp; omega) (cut.takes client (by simp; omega) rfl), Program.proceed_ok,
      connect_dials]
    exact ⟨_, _, rfl⟩

/-! ## The grammar and the cuts -/

/-- The handshake accepts exactly its grammar: a request is dialled once, as it was sent and with
nothing read beyond it, and everything else is rejected. -/
def FollowsGrammar (cut : WholeCut) (client : Socket) (connected : Option Socket)
    (stream : List UInt8) : Prop :=
  (∀ (request : Request) (rest : List UInt8), stream = request.bytes ++ rest →
    ∃ port : UInt16, port.toNat = 256 * request.hi.toNat + request.lo.toNat ∧
      (handshake cut.toCut client connected stream).2.dials =
        [⟨some request.address, some port, rest⟩]) ∧
  ((∀ (request : Request) (rest : List UInt8), stream ≠ request.bytes ++ rest) →
    Rejected (handshake cut.toCut client connected stream))

/-- The client asks for a domain name. -/
def AsksDomain (stream : List UInt8) : Prop :=
  ∃ (greeting : Greeting) (reserved : UInt8) (rest : List UInt8),
    stream = greeting.bytes ++ ([5, 1, reserved, 3] ++ rest)

/-- The client's request ends inside the port. -/
def EndsInPort (stream : List UInt8) : Prop :=
  ∃ (greeting : Greeting) (reserved : UInt8) (address : IPv4) (rest : List UInt8),
    stream = greeting.bytes ++ ([5, 1, reserved, 1] ++ (address.toList ++ rest)) ∧ rest.length < 2

/-- Every stream is a request, asks for a domain name, ends inside the port, or is rejected. -/
theorem stream_cases (cut : WholeCut) (client : Socket) (connected : Option Socket)
    (stream : List UInt8) :
    (∃ (request : Request) (rest : List UInt8), stream = request.bytes ++ rest) ∨
      AsksDomain stream ∨ EndsInPort stream ∨
      Rejected (handshake cut.toCut client connected stream) := by
  rcases greet_cases cut.toCut client stream with hstop | ⟨greeting, unread, rfl, -⟩
  · exact Or.inr (Or.inr (Or.inr (greeting_stops connected hstop).1))
  have hbytes := bytes_length_le greeting
  by_cases hheader : unread.length < 4
  · exact Or.inr (Or.inr (Or.inr (request_stops (exec_read_end (by omega) hheader))))
  obtain ⟨version, command, reserved, atype, tail, rfl⟩ := four_bytes (Nat.le_of_not_lt hheader)
  have hrequest := exec_request_header cut client greeting version command reserved atype tail
  by_cases hconnect : version = 5 ∧ command = 1
  · rw [if_pos hconnect] at hrequest
    obtain ⟨rfl, rfl⟩ := hconnect
    by_cases hdomain : atype = 3
    · subst hdomain
      exact Or.inr (Or.inl ⟨greeting, reserved, tail, rfl⟩)
    by_cases hipv4 : atype = 1
    · subst hipv4
      by_cases haddress : tail.length < 4
      · refine Or.inr (Or.inr (Or.inr (request_stops ?_)))
        rw [hrequest]
        exact exec_read_end (by simp; omega) haddress
      obtain ⟨address, port, rfl⟩ := address_bytes (Nat.le_of_not_lt haddress)
      by_cases hport : port.length < 2
      · exact Or.inr (Or.inr (Or.inl ⟨greeting, reserved, address, port, rfl, hport⟩))
      · obtain ⟨hi, lo, rest, rfl⟩ := two_bytes (Nat.le_of_not_lt hport)
        refine Or.inl ⟨⟨greeting, reserved, address, hi, lo⟩, rest, ?_⟩
        simp [Request.bytes]
    · refine Or.inr (Or.inr (Or.inr (request_stops ?_)))
      rw [hrequest]
      exact exec_address_unknown _ _ hipv4 hdomain
  · rw [if_neg hconnect] at hrequest
    exact Or.inr (Or.inr (Or.inr (request_stops (by rw [hrequest]))))

/-- Where the handshake follows its grammar, it dials requests only. -/
theorem FollowsGrammar.requested {cut : WholeCut} {client : Socket} {connected : Option Socket}
    {stream : List UInt8} {dial : Dial} (h : FollowsGrammar cut client connected stream)
    (hdial : (handshake cut.toCut client connected stream).2.dials = [dial]) :
    dial.port ≠ none ∧
      ∃ (request : Request) (rest : List UInt8), stream = request.bytes ++ rest := by
  obtain ⟨haccepted, hrejected⟩ := h
  by_cases hrequest : ∃ (request : Request) (rest : List UInt8), stream = request.bytes ++ rest
  · obtain ⟨request, rest, hstream⟩ := hrequest
    obtain ⟨port, -, hsent⟩ := haccepted request rest hstream
    rw [hdial, List.cons.injEq] at hsent
    rw [hsent.1]
    exact ⟨Option.some_ne_none port, request, rest, hstream⟩
  · have hnone := (hrejected fun request rest hstream =>
      hrequest ⟨request, rest, hstream⟩).2
    rw [hdial] at hnone
    cases hnone

/-- What follows a greeting is determined by the stream. -/
theorem greeting_append_inj {first second : Greeting} {left right : List UInt8}
    (h : first.bytes ++ left = second.bytes ++ right) : left = right := by
  simp only [Greeting.bytes, List.cons_append, List.cons.injEq, true_and] at h
  obtain ⟨hcount, hmethods⟩ := h
  have hlength : first.methods.length = second.methods.length := by
    rw [first.counted, second.counted, hcount]
  exact (List.append_inj hmethods hlength).2

/-- A request for a domain name is no request for an address. -/
theorem AsksDomain.unrequested {stream : List UInt8} (h : AsksDomain stream) (request : Request)
    (rest : List UInt8) : stream ≠ request.bytes ++ rest := by
  intro hstream
  obtain ⟨greeting, reserved, unread, rfl⟩ := h
  rw [Request.bytes, List.append_assoc] at hstream
  have htail := greeting_append_inj hstream
  simp at htail

/-- With reads that return the full requested count whenever that many bytes are left, the
handshake accepts exactly its grammar on a stream that neither asks for a domain name nor ends
inside the port, and on no other. -/
theorem handshake_grammar_iff (cut : WholeCut) (client : Socket) (connected : Option Socket)
    (stream : List UInt8) :
    FollowsGrammar cut client connected stream ↔ ¬ AsksDomain stream ∧ ¬ EndsInPort stream := by
  constructor
  · intro hfollows
    constructor
    · intro hdomain
      have hunrequested := hdomain.unrequested
      obtain ⟨greeting, reserved, unread, rfl⟩ := hdomain
      obtain ⟨port, rest, hdial⟩ :=
        handshake_domain cut client connected greeting reserved unread
      obtain ⟨-, request, left, hrequest⟩ := hfollows.requested hdial
      exact hunrequested request left hrequest
    · intro hport
      obtain ⟨greeting, reserved, address, rest, rfl, hshort⟩ := hport
      have hdial := handshake_port_missing cut client connected greeting reserved address hshort
      exact (hfollows.requested hdial).1 rfl
  · intro hexcluded
    obtain ⟨hdomain, hport⟩ := hexcluded
    constructor
    · intro request rest hstream
      rw [hstream]
      refine ⟨_, ByteIStream.combine_to_nat request.hi request.lo, ?_⟩
      rw [handshake_request, join_keeps, connect_dials]
      rfl
    · intro hnone
      rcases stream_cases cut client connected stream with ⟨request, rest, hstream⟩ | h | h | h
      · exact absurd hstream (hnone request rest)
      · exact absurd h hdomain
      · exact absurd h hport
      · exact h

/-- The proxy dials for a domain name, and for a request that ends after one byte of the port. -/
theorem handshake_dials_unsent :
    ¬ FollowsGrammar .full ⟨3⟩ none [5, 1, 0, 5, 1, 0, 3, 1, 97, 0, 80] ∧
      ¬ FollowsGrammar .full ⟨3⟩ none [5, 1, 0, 5, 1, 0, 1, 127, 0, 0, 1, 0] := by
  constructor
  · intro hfollows
    have hdial : (handshake .full ⟨3⟩ none [5, 1, 0, 5, 1, 0, 3, 1, 97, 0, 80]).2.dials =
        [⟨some .zero, some 353, [0, 80]⟩] := by
      decide +kernel
    obtain ⟨-, request, rest, hrequest⟩ := hfollows.requested hdial
    have hdomain : AsksDomain [5, 1, 0, 5, 1, 0, 3, 1, 97, 0, 80] :=
      ⟨⟨1, [0], rfl, List.mem_singleton_self 0⟩, 0, [1, 97, 0, 80], rfl⟩
    exact hdomain.unrequested request rest hrequest
  · intro hfollows
    have hdial : (handshake .full ⟨3⟩ none [5, 1, 0, 5, 1, 0, 1, 127, 0, 0, 1, 0]).2.dials =
        [⟨some #v[127, 0, 0, 1], none, []⟩] := by
      decide +kernel
    exact (hfollows.requested hdial).1 rfl

end Whole

/-! ## Two cuts -/

/-- What a handshake amounts to: how it ended, the bytes written back to the client, and the
addresses and ports dialled. -/
structure Outcome where
  ended : Except Stop Unit
  written : List UInt8
  dialled : List (Option IPv4 × Option UInt16)

/-- The outcome of a handshake that has been executed. -/
def Outcome.of (result : Except Stop Unit × Session) : Outcome where
  ended := result.1
  written := result.2.written.flatMap PendingWriteSome.buffer
  dialled := result.2.dials.map fun dial => (dial.address, dial.port)

/-- The outcome of the handshake on a stream that arrives in a given way. -/
def outcome (cut : Cut) (client : Socket) (connected : Option Socket) (stream : List UInt8) :
    Outcome :=
  .of (handshake cut client connected stream)

/-- A first read that returns one byte ends the handshake. -/
theorem greet_first_byte (client : Socket) (stream : List UInt8) :
    ((greet (readSome .firstByte client)).exec { unread := stream }).1 = .error .returned := by
  have hstop : ((readVersion (readSome .firstByte client)).exec { unread := stream }).1 =
      .error .returned := by
    show ((readVersion (readSome .firstByte client)).exec
      (Session.parsedTo { unread := stream } [] [])).1 = _
    refine exec_read_short (by simp) ?_
    show min 1 (min 2 stream.length) < 2
    omega
  rw [greet, Program.exec_bind, Program.proceed_stops _ hstop]

/-- The outcome does not depend on how the stream is cut into reads exactly if the stream does not
begin with an acceptable greeting, so that every cut is rejected in silence. -/
theorem cut_independent_iff (client : Socket) (connected : Option Socket) (stream : List UInt8) :
    (∀ first second : Cut,
      outcome first client connected stream = outcome second client connected stream) ↔
    ∀ (greeting : Greeting) (rest : List UInt8), stream ≠ greeting.bytes ++ rest := by
  constructor
  · intro hsame greeting rest hstream
    subst hstream
    have hanswered : (outcome .full client connected (greeting.bytes ++ rest)).written ≠ [] := by
      have hgreeted : handshake .full client connected (greeting.bytes ++ rest) = _ :=
        handshake_greeted .full client connected greeting rest
      have hgrows : [submitWriteSome client response] <+:
          (handshake .full client connected (greeting.bytes ++ rest)).2.written := by
        rw [hgreeted, join_keeps]
        exact serve_request_grows (read_some_unseen .full client) client connected 5
          (answered client greeting rest)
      obtain ⟨more, hmore⟩ := hgrows
      simp [outcome, Outcome.of, ← hmore, submitWriteSome, response]
    have hsilent : (outcome .firstByte client connected (greeting.bytes ++ rest)).written = [] := by
      have hwritten := (greeting_stops connected
        (greet_first_byte client (greeting.bytes ++ rest))).2
      simp [outcome, Outcome.of, hwritten]
    rw [hsame .full .firstByte] at hanswered
    exact hanswered hsilent
  · intro hnone
    have hrejected : ∀ cut : Cut,
        outcome cut client connected stream = ⟨.error .returned, [], []⟩ := by
      intro cut
      rcases greet_cases cut client stream with hstop | ⟨greeting, rest, hstream, -⟩
      · obtain ⟨⟨hended, hdials⟩, hwritten⟩ := greeting_stops connected hstop
        simp [outcome, Outcome.of, hended, hwritten, hdials]
      · exact absurd hstream (hnone greeting rest)
    intro first second
    rw [hrejected first, hrejected second]

/-- The same request in whole reads and with one byte in the first read. -/
theorem first_byte_rejected :
    outcome .full ⟨3⟩ none [5, 1, 0, 5, 1, 0, 1, 127, 0, 0, 1, 0, 80] ≠
      outcome .firstByte ⟨3⟩ none [5, 1, 0, 5, 1, 0, 1, 127, 0, 0, 1, 0, 80] := by
  intro hsame
  have hwritten := congrArg Outcome.written hsame
  revert hwritten
  decide +kernel

end Toad.Socks5
