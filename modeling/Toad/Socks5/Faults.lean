import Toad.Socks5.Grammar
import Toad.Concurrency.ReadVector

/-!
# The handshake under every kernel

`Toad.Socks5.Handshake` reads from a client whose bytes arrive in some way, but arrive. Here each
read completes as the kernel likes: with fewer bytes than were asked for, with none, or with an
error code, which the completion handler turns into an early return, an exception, or a vector cut
below the cursor and a count of almost `2 ^ 64` that passes every check.

`Kernel.Dials` lists what the server dials: a request that was delivered, but also `0.0.0.0` for a
domain name, a port that nobody assigned for one that was not delivered, and neither address nor
port when an error code cuts the vector under the address. `kernel_dials_iff` says that these are
all its dials. `kernel_ends_regularly` says that the handshake is brought down by error codes
alone. A handshake that branches on a variable without a value is not followed further.
-/

namespace Toad.Socks5

open Execution IOContext

/-! ## Kernels -/

/-- How the kernel completes reads, given how many came before and the size asked for: it stores
no more than was asked for, and reports an error code or no more than it stored. -/
structure Kernel where
  completion : (index maxSize : Nat) → Completion
  stored_le : ∀ index maxSize, (completion index maxSize).stored.length ≤ maxSize
  res_ge : ∀ index maxSize, -4095 ≤ (completion index maxSize).res
  res_le : ∀ index maxSize,
    (completion index maxSize).res ≤ (completion index maxSize).stored.length

/-- The size of the vector behind the header of a request. -/
def Greeting.headerSize (greeting : Greeting) : Nat :=
  greeting.bytes.length + 4

namespace Kernel

/-- The read stores `bytes`, as many as it was asked for, and reports all of them. -/
def Delivers (kernel : Kernel) (index : Nat) (bytes : List UInt8) : Prop :=
  kernel.completion index bytes.length = delivers bytes

/-- Some read may end with an error code. -/
def Faulty (kernel : Kernel) : Prop :=
  ∃ index maxSize, (kernel.completion index maxSize).res < 0

/-- A read into a vector of `size` bytes ends with an error code that cuts the vector: it is not
`ECONNRESET`, and the vector has as many bytes. -/
def Cuts (kernel : Kernel) (index maxSize : Nat) (size : Int) : Prop :=
  (kernel.completion index maxSize).res < 0 ∧ (kernel.completion index maxSize).res ≠ -104 ∧
    0 ≤ size + (kernel.completion index maxSize).res

/-- A read into a vector of `size` bytes is answered, but not with all it asked for. -/
def Misses (kernel : Kernel) (index maxSize : Nat) (size : Int) : Prop :=
  (0 ≤ (kernel.completion index maxSize).res ∧
    (kernel.completion index maxSize).res < maxSize) ∨ kernel.Cuts index maxSize size

/-- The first three reads deliver a request up to its address, each one its part. -/
structure DeliversHeader (kernel : Kernel) (greeting : Greeting) (reserved atype : UInt8) :
    Prop where
  version : kernel.Delivers 0 [5, greeting.nmethods]
  methods : kernel.Delivers 1 greeting.methods
  header : kernel.Delivers 2 [5, 1, reserved, atype]

/-- The five reads deliver a request. -/
structure DeliversRequest (kernel : Kernel) (request : Request) : Prop
    extends kernel.DeliversHeader request.greeting request.reserved 1 where
  address : kernel.Delivers 3 request.address.toList
  port : kernel.Delivers 4 [request.hi, request.lo]

/-- What the server dials: the variables `ipv4` and `port`, `none` for one without a value. -/
inductive Dials (kernel : Kernel) : Option IPv4 → Option UInt16 → Prop where
  | request {request : Request} (h : kernel.DeliversRequest request) :
      kernel.Dials (some request.address) (some (ByteIStream.combine request.hi request.lo))
  | portMissing {greeting : Greeting} {reserved : UInt8} {address : IPv4}
      (h : kernel.DeliversHeader greeting reserved 1)
      (haddress : kernel.Delivers 3 address.toList)
      (hport : kernel.Misses 4 2 (greeting.headerSize + 4)) :
      kernel.Dials (some address) none
  | domain {greeting : Greeting} {reserved hi lo : UInt8}
      (h : kernel.DeliversHeader greeting reserved 3)
      (hport : kernel.Delivers 3 [hi, lo]) :
      kernel.Dials (some .zero) (some (ByteIStream.combine hi lo))
  | domainPortMissing {greeting : Greeting} {reserved : UInt8}
      (h : kernel.DeliversHeader greeting reserved 3)
      (hport : kernel.Misses 3 2 greeting.headerSize) :
      kernel.Dials (some .zero) none
  -- the cursor is past the end of the vector, so that the port is not read either
  | addressCut {greeting : Greeting} {reserved : UInt8}
      (h : kernel.DeliversHeader greeting reserved 1)
      (haddress : kernel.Cuts 3 4 greeting.headerSize)
      (hport : 0 ≤ (kernel.completion 4 2).res ∨
        kernel.Cuts 4 2 (greeting.headerSize + (kernel.completion 3 4).res)) :
      kernel.Dials none none

/-- A read delivers what it was asked for, or reports less. -/
theorem delivers_or_short (kernel : Kernel) (index maxSize : Nat) :
    (∃ bytes, bytes.length = maxSize ∧ kernel.Delivers index bytes) ∨
      (kernel.completion index maxSize).res < maxSize := by
  have hstored := kernel.stored_le index maxSize
  have hle := kernel.res_le index maxSize
  by_cases hshort : (kernel.completion index maxSize).res < maxSize
  · exact Or.inr hshort
  · have hlength : (kernel.completion index maxSize).stored.length = maxSize := by omega
    have hres : (kernel.completion index maxSize).res = maxSize := by omega
    refine Or.inl ⟨(kernel.completion index maxSize).stored, hlength, ?_⟩
    rw [Delivers, hlength, delivers, hlength, ← hres]

end Kernel

/-- `co_await io.submit_read_some(client, buffer, max_size)` under a kernel. -/
def readFrom (kernel : Kernel) (client : Socket) (maxSize : Nat) : Handshake Nat := do
  let session ← get
  match readSomeVec client session.buffer maxSize
      (kernel.completion session.reads maxSize) with
  | .error _ => throw .terminated
  | .ok (buffer, handled) =>
      set { session with reads := session.reads + 1, buffer := buffer }
      match handled.values with
      | [] => throw .stuck
      | read :: _ => pure read

/-- The handshake under a kernel. -/
def handshakeFrom (kernel : Kernel) (client : Socket) (connected : Option Socket) :
    Except Stop Unit × Session :=
  (handleClientHandshake (readFrom kernel client) client connected).exec { unread := [] }

/-! ## One read -/

section Reads

variable {kernel : Kernel} {client : Socket} {α : Type}

/-- The vector has been cut below the cursor. -/
def Session.Past (session : Session) : Prop :=
  session.buffer.length < session.istream.cursor ∧ session.istream.cursor ≤ 512

/-- The handshake ended, with a `co_return` or because of an error code. -/
def Ended (kernel : Kernel) (result : Except Stop α × Session) : Prop :=
  ∃ reason, result.1 = .error reason ∧ (reason = .returned ∨ kernel.Faulty)

/-- A program whose first part ended, ended. -/
theorem Ended.proceed {β : Type} {result : Except Stop α × Session} (h : Ended kernel result)
    (rest : α → Handshake β) : Ended kernel (Program.proceed result rest) := by
  obtain ⟨reason, hreason, hcause⟩ := h
  rw [Program.proceed_stops rest hreason]
  exact ⟨reason, rfl, hcause⟩

/-- A read that is answered with a count appends as many of the stored bytes. -/
theorem exec_read_answered (kernel : Kernel) (client : Socket) (session : Session) {maxSize : Nat}
    (hsmall : session.buffer.length + maxSize ≤ 1024)
    (hnonneg : 0 ≤ (kernel.completion session.reads maxSize).res) :
    (readFrom kernel client maxSize).exec session =
      (.ok (kernel.completion session.reads maxSize).res.toNat,
        { session with
          reads := session.reads + 1
          buffer := session.buffer ++ (kernel.completion session.reads maxSize).stored.take
            (kernel.completion session.reads maxSize).res.toNat }) := by
  have hmax : session.buffer.length + maxSize ≤ vectorMaxSize :=
    Nat.le_trans hsmall (by decide)
  have hstored := kernel.stored_le session.reads maxSize
  have hle := kernel.res_le session.reads maxSize
  rcases hcompletion : kernel.completion session.reads maxSize with ⟨stored, res⟩
  rw [hcompletion] at hstored hle hnonneg
  dsimp only at hstored hle hnonneg ⊢
  simp only [readFrom, Program.exec_bind, Program.exec_get, Program.proceed_ok, hcompletion]
  obtain ⟨count, rfl⟩ := Int.eq_ofNat_of_zero_le hnonneg
  rw [read_some_vec_append client hmax hstored (by omega)]
  rfl

/-- What the handler makes of an error code. -/
theorem read_some_vec_error (client : Socket) {vec stored : List UInt8} {maxSize : Nat} {res : Int}
    (hfit : vec.length + maxSize ≤ vectorMaxSize) :
    readSomeVec client vec maxSize ⟨stored, res⟩ =
      handlePendingReadSomeVec res ⟨client.sockfd, vec.length⟩
        (kernelStore (vec ++ List.replicate maxSize 0) vec.length stored) := by
  rw [readSomeVec, submit_read_some_vec_eq client hfit]
  rfl

/-- A read that cuts the vector is answered with a count that passes every check. -/
theorem exec_read_cut (client : Socket) (session : Session) {maxSize : Nat}
    (hsmall : session.buffer.length + maxSize ≤ 1024)
    (hcuts : kernel.Cuts session.reads maxSize session.buffer.length) :
    ∃ (count : Nat) (kept : List UInt8), 1024 ≤ count ∧
      (kept.length : Int) =
        session.buffer.length + (kernel.completion session.reads maxSize).res ∧
      (readFrom kernel client maxSize).exec session =
        (.ok count, { session with reads := session.reads + 1, buffer := kept }) := by
  obtain ⟨hneg, hcode, hroom⟩ := hcuts
  have hmax : session.buffer.length + maxSize ≤ vectorMaxSize :=
    Nat.le_trans hsmall (by decide)
  have hge := kernel.res_ge session.reads maxSize
  rcases hcompletion : kernel.completion session.reads maxSize with ⟨stored, res⟩
  rw [hcompletion] at hneg hcode hroom hge
  dsimp only at hneg hcode hroom hge ⊢
  have hsz := sz_of_int_neg hneg (by omega)
  have hsum : (szAdd session.buffer.length (szOfInt res) : Int) = session.buffer.length + res := by
    unfold szAdd
    omega
  obtain ⟨kept, hresize, hkept⟩ : ∃ kept, vectorResize (kernelStore
      (session.buffer ++ List.replicate maxSize 0) session.buffer.length stored)
      (szAdd session.buffer.length (szOfInt res)) = .ok kept ∧
        kept.length = szAdd session.buffer.length (szOfInt res) := by
    have hle : szAdd session.buffer.length (szOfInt res) ≤ vectorMaxSize := by omega
    have hresize : vectorResize (kernelStore (session.buffer ++ List.replicate maxSize 0)
        session.buffer.length stored) (szAdd session.buffer.length (szOfInt res)) = _ :=
      if_pos hle
    exact ⟨_, hresize, (vector_resize_ok hresize).2⟩
  refine ⟨szOfInt res, kept, by omega, by omega, ?_⟩
  simp only [readFrom, Program.exec_bind, Program.exec_get, Program.proceed_ok, hcompletion,
    read_some_vec_error client hmax, handlePendingReadSomeVec]
  rw [if_neg (by omega), hresize]
  rfl

/-- An error code that does not cut the vector ends the handshake. -/
theorem read_from_fails (client : Socket) (session : Session) {maxSize : Nat}
    (hsmall : session.buffer.length + maxSize ≤ 1024)
    (hneg : (kernel.completion session.reads maxSize).res < 0)
    (hkeeps : ¬ kernel.Cuts session.reads maxSize session.buffer.length) :
    Ended kernel ((readFrom kernel client maxSize).exec session) := by
  have hfaulty : kernel.Faulty := ⟨session.reads, maxSize, hneg⟩
  have hmax : session.buffer.length + maxSize ≤ vectorMaxSize :=
    Nat.le_trans hsmall (by decide)
  have hge := kernel.res_ge session.reads maxSize
  unfold Kernel.Cuts at hkeeps
  rcases hcompletion : kernel.completion session.reads maxSize with ⟨stored, res⟩
  rw [hcompletion] at hneg hge hkeeps
  dsimp only at hneg hge hkeeps
  simp only [readFrom, Program.exec_bind, Program.exec_get, Program.proceed_ok, hcompletion,
    read_some_vec_error client hmax, handlePendingReadSomeVec]
  by_cases hreset : res = -104
  · rw [if_pos ⟨hneg, hreset⟩]
    exact ⟨.stuck, rfl, Or.inr hfaulty⟩
  · have hsz := sz_of_int_neg hneg (by omega)
    have hsmall := vector_max_size_lt
    have hlarge : ¬ szAdd session.buffer.length (szOfInt res) ≤ vectorMaxSize := by
      unfold szAdd
      omega
    rw [if_neg (fun h => hreset h.2), vectorResize, if_neg hlarge]
    exact ⟨.terminated, rfl, Or.inr hfaulty⟩

/-- A read is answered with a count, ends the handshake, or cuts the vector. -/
theorem read_from_cases (kernel : Kernel) (client : Socket) (session : Session) {maxSize : Nat}
    (hsmall : session.buffer.length + maxSize ≤ 1024) :
    0 ≤ (kernel.completion session.reads maxSize).res ∨
      Ended kernel ((readFrom kernel client maxSize).exec session) ∨
      kernel.Cuts session.reads maxSize session.buffer.length := by
  by_cases hnonneg : 0 ≤ (kernel.completion session.reads maxSize).res
  · exact Or.inl hnonneg
  · by_cases hcuts : kernel.Cuts session.reads maxSize session.buffer.length
    · exact Or.inr (Or.inr hcuts)
    · exact Or.inr (Or.inl (read_from_fails client session hsmall (by omega) hcuts))

/-- A read that delivers its bytes appends them. -/
theorem read_from_takes (client : Socket) {session : Session} {parsed bytes : List UInt8}
    (hsmall : parsed.length + bytes.length ≤ 1024)
    (hdelivers : kernel.Delivers session.reads bytes) :
    Takes (readFrom kernel client) session { session with reads := session.reads + 1 } parsed
      bytes := by
  have hread : readSomeVec client parsed bytes.length (delivers bytes) = _ :=
    read_some_vec_delivers client (Nat.le_trans hsmall (by decide)) (Nat.le_refl _)
  have hcompletion : kernel.completion session.reads bytes.length = delivers bytes := hdelivers
  simp only [Takes, readFrom, Program.exec_bind, Program.exec_get, Program.proceed_ok,
    Session.parsedTo, List.append_nil, hcompletion, hread, Program.exec_set, Program.exec_pure]

/-- Past the end, no bytes are left to read. -/
theorem Session.Past.misses {session : Session} (hpast : session.Past) {size : Nat}
    (hsize : size ≤ 512) : ¬ szAdd session.istream.cursor size ≤ session.buffer.length := by
  obtain ⟨hcut, hcursor⟩ := hpast
  rw [sz_add_eq (by omega)]
  omega

/-- Past the end, a byte keeps its value, or is used without one. -/
theorem exec_read_u8_past {session : Session} (hpast : session.Past) (value : UInt8) :
    (readU8 (some value)).exec session =
        (.ok value, { session with istream := session.istream.fail 1 }) ∧
      ((readU8 none).exec session).1 = .error .undefined := by
  have hmiss := hpast.misses (show 1 ≤ 512 by decide)
  constructor
  · simp only [readU8, Program.exec_bind, Program.exec_get, Program.proceed_ok,
      ByteIStream.readU8, if_neg hmiss, Program.exec_set, initialised, Program.exec_pure]
  · simp only [readU8, Program.exec_bind, Program.exec_get, Program.proceed_ok,
      ByteIStream.readU8, if_neg hmiss, Program.exec_set, initialised, Program.exec_throw]

/-- Past the end, an address is left as it was. -/
theorem exec_read_array_past {session : Session} (hpast : session.Past) :
    (readArray none).exec session =
      (.ok none, { session with istream := session.istream.fail 4 }) := by
  have hmiss := hpast.misses (show 4 ≤ 512 by decide)
  simp only [readArray, Program.exec_bind, Program.exec_get, Program.proceed_ok,
    ByteIStream.readArray, if_neg hmiss, Program.exec_set, Program.exec_pure]

/-- With fewer than two bytes behind the cursor, a port is left as it was. -/
theorem exec_read_u16_missing {session : Session} (hcursor : session.istream.cursor ≤ 512)
    (hmissing : session.buffer.length < session.istream.cursor + 2) :
    (readU16 none).exec session =
      (.ok none, { session with istream := session.istream.fail 2 }) := by
  have hmiss : ¬ szAdd session.istream.cursor 2 ≤ session.buffer.length := by
    rw [sz_add_eq (by omega)]
    omega
  simp only [readU16, Program.exec_bind, Program.exec_get, Program.proceed_ok,
    ByteIStream.readU16, if_neg hmiss, Program.exec_set, Program.exec_pure]

/-- Past the end, the loop over the methods does not get anywhere. -/
theorem scan_methods_past {session : Session} (hpast : session.Past) (fuel : Nat) (isOk : Bool) :
    ∃ reason, ((scanMethods fuel isOk).exec session).1 = .error reason := by
  obtain ⟨hcut, hcursor⟩ := hpast
  have hremains : session.istream.remaining session.buffer ≠ 0 := by
    unfold ByteIStream.remaining szSub
    omega
  unfold scanMethods
  rw [Program.exec_bind, Program.exec_get, Program.proceed_ok, if_neg hremains]
  cases fuel with
  | zero => exact ⟨.stuck, rfl⟩
  | succ fuel =>
      refine ⟨.undefined, ?_⟩
      rw [Program.exec_bind,
        Program.proceed_stops _ (exec_read_u8_past ⟨hcut, hcursor⟩ 0).2]

/-- A read whose count is checked ends the handshake, or delivers what it was asked for, or cuts
the vector. -/
theorem checked_cases (kernel : Kernel) (client : Socket) (session : Session)
    {parsed : List UInt8} {maxSize : Nat} (rest : Handshake α) (hparsed : parsed.length ≤ 512)
    (hsize : maxSize ≤ 512) :
    Ended kernel ((readFrom kernel client maxSize >>= fun count =>
      coReturnIf (count < maxSize) >>= fun _ => rest).exec (session.parsedTo parsed [])) ∨
    (∃ bytes, bytes.length = maxSize ∧ kernel.Delivers session.reads bytes) ∨
    kernel.Cuts session.reads maxSize parsed.length := by
  have hbuffer : (session.parsedTo parsed []).buffer = parsed := List.append_nil _
  have hsmall : (session.parsedTo parsed []).buffer.length + maxSize ≤ 1024 := by
    rw [hbuffer]
    omega
  rcases read_from_cases kernel client (session.parsedTo parsed []) hsmall with
    hnonneg | hended | hcuts
  · rcases kernel.delivers_or_short session.reads maxSize with hdelivers | hshort
    · exact Or.inr (Or.inl hdelivers)
    · have hcount : (kernel.completion session.reads maxSize).res.toNat < maxSize := by
        have hres : 0 ≤ (kernel.completion session.reads maxSize).res := hnonneg
        omega
      refine Or.inl ⟨.returned, ?_, Or.inl rfl⟩
      rw [Program.exec_bind, exec_read_answered kernel client _ hsmall hnonneg,
        Program.proceed_ok]
      simp [Session.parsedTo, hcount]
  · left
    rw [Program.exec_bind]
    exact hended.proceed _
  · rw [hbuffer] at hcuts
    exact Or.inr (Or.inr hcuts)

/-- After a read that cuts the vector, the handshake goes on past its end. -/
theorem exec_checked_cut (client : Socket) (session : Session) {parsed : List UInt8}
    {maxSize : Nat} (rest : Handshake α) (hparsed : parsed.length ≤ 512) (hsize : maxSize ≤ 512)
    (hcuts : kernel.Cuts session.reads maxSize parsed.length) :
    ∃ kept : List UInt8,
      (kept.length : Int) = parsed.length + (kernel.completion session.reads maxSize).res ∧
      Session.Past { session.parsedTo parsed [] with buffer := kept } ∧
      (readFrom kernel client maxSize >>= fun count =>
        coReturnIf (count < maxSize) >>= fun _ => rest).exec (session.parsedTo parsed []) =
          rest.exec { session.parsedTo parsed [] with
            reads := session.reads + 1, buffer := kept } := by
  have hbuffer : (session.parsedTo parsed []).buffer = parsed := List.append_nil _
  obtain ⟨count, kept, hcount, hkept, hread⟩ :=
    exec_read_cut client (session.parsedTo parsed []) (show _ ≤ 1024 by rw [hbuffer]; omega)
      (show kernel.Cuts session.reads maxSize _ by rw [hbuffer]; exact hcuts)
  rw [hbuffer] at hkept
  have hshort : ¬ count < maxSize := by omega
  refine ⟨kept, hkept, ⟨?_, hparsed⟩, ?_⟩
  · have hneg := hcuts.1
    have hkept : (kept.length : Int) =
        parsed.length + (kernel.completion session.reads maxSize).res := hkept
    show kept.length < parsed.length
    omega
  · rw [Program.exec_bind, hread, Program.proceed_ok, Program.exec_bind, exec_co_return_if,
      decide_eq_false hshort]
    rfl

end Reads

theorem read_from_unseen (kernel : Kernel) (client : Socket) (maxSize : Nat) :
    (readFrom kernel client maxSize).Keeps Unseen := by
  intro session
  simp only [readFrom, Program.exec_bind, Program.exec_get, Program.proceed_ok]
  split
  · exact ⟨rfl, rfl, rfl⟩
  · simp only [Program.exec_bind, Program.exec_set, Program.proceed_ok]
    split <;> exact ⟨rfl, rfl, rfl⟩

/-! ## The parts under a kernel -/

section Parts

variable {kernel : Kernel} {client : Socket} {session : Session} {parsed : List UInt8}

/-- The first read is accepted only if it delivers version 5. -/
theorem version_cases (kernel : Kernel) (client : Socket) :
    Ended kernel ((readVersion (readFrom kernel client)).exec { unread := [] }) ∨
      ∃ nmethods, kernel.Delivers 0 [5, nmethods] := by
  rcases checked_cases kernel client { unread := [] } _
    (show ([] : List UInt8).length ≤ 512 by decide) (show 2 ≤ 512 by decide) with
    hended | ⟨bytes, hlength, hdelivers⟩ | hcuts
  · exact Or.inl hended
  · obtain ⟨version, nmethods, rfl⟩ := List.length_eq_two.mp hlength
    by_cases hversion : version = 5
    · subst hversion
      exact Or.inr ⟨nmethods, hdelivers⟩
    · left
      have hread : Takes (readFrom kernel client) { unread := [] } { unread := [], reads := 1 } []
          [version, nmethods] := read_from_takes client (by simp) hdelivers
      have hexec : (readVersion (readFrom kernel client)).exec { unread := [] } = _ :=
        exec_version hread
      rw [hexec, if_neg hversion]
      exact ⟨.returned, rfl, Or.inl rfl⟩
  · -- there is nothing to cut yet
    obtain ⟨hneg, -, hroom⟩ := hcuts
    rw [List.length_nil] at hroom
    omega

/-- The methods are accepted only if they are delivered with a zero among them. -/
theorem methods_cases (kernel : Kernel) (client : Socket) (session : Session)
    (nmethods : UInt8) (hparsed : parsed.length ≤ 2) :
    Ended kernel
        ((readMethods (readFrom kernel client) nmethods).exec (session.parsedTo parsed [])) ∨
      ∃ methods, methods.length = nmethods.toNat ∧ 0 ∈ methods ∧
        kernel.Delivers session.reads methods := by
  have hbound : nmethods.toNat < 256 := nmethods.toNat_lt
  rcases checked_cases kernel client session _ (Nat.le_trans hparsed (by decide))
    (show nmethods.toNat ≤ 512 by omega) with
    hended | ⟨methods, hcounted, hdelivers⟩ | hcuts
  · exact Or.inl hended
  · by_cases hzero : 0 ∈ methods
    · exact Or.inr ⟨methods, hcounted, hzero, hdelivers⟩
    · left
      rw [exec_methods hparsed hcounted (read_from_takes client (by omega) hdelivers),
        if_neg hzero]
      exact ⟨.returned, rfl, Or.inl rfl⟩
  · left
    obtain ⟨kept, -, hpast, hexec⟩ := exec_checked_cut client session _
      (Nat.le_trans hparsed (by decide)) (show nmethods.toNat ≤ 512 by omega) hcuts
    have hafter : Session.Past { session.parsedTo parsed [] with
        reads := session.reads + 1, buffer := kept } := hpast
    obtain ⟨reason, hreason⟩ := scan_methods_past hafter kept.length false
    refine ⟨reason, ?_, Or.inr ⟨session.reads, nmethods.toNat, hcuts.1⟩⟩
    refine Eq.trans (congrArg Prod.fst hexec) ?_
    rw [Program.exec_bind, Program.exec_get, Program.proceed_ok, Program.exec_bind,
      Program.proceed_stops _ hreason]

/-- The session behind an acceptable greeting. -/
theorem exec_greet_from (client : Socket) {greeting : Greeting}
    (hversion : kernel.Delivers 0 [5, greeting.nmethods])
    (hmethods : kernel.Delivers 1 greeting.methods) :
    (greet (readFrom kernel client)).exec { unread := [] } = (.ok 5, greeted greeting []) := by
  have hbound : greeting.nmethods.toNat < 256 := greeting.nmethods.toNat_lt
  have hcounted := greeting.counted
  have hfirst : Takes (readFrom kernel client) { unread := [] } { unread := [], reads := 1 } []
      [5, greeting.nmethods] :=
    read_from_takes client (by simp) hversion
  have hsecond : Takes (readFrom kernel client) { unread := [], reads := 1 }
      { unread := [], reads := 2 } [5, greeting.nmethods] greeting.methods :=
    read_from_takes client (by simp; omega) hmethods
  exact exec_greet hfirst hsecond

/-- The handshake gets past the greeting only if an acceptable one is delivered. -/
theorem greet_from_cases (kernel : Kernel) (client : Socket) :
    Ended kernel ((greet (readFrom kernel client)).exec { unread := [] }) ∨
      ∃ greeting : Greeting, kernel.Delivers 0 [5, greeting.nmethods] ∧
        kernel.Delivers 1 greeting.methods := by
  rw [greet, Program.exec_bind]
  rcases version_cases kernel client with hended | ⟨nmethods, hversion⟩
  · exact Or.inl (hended.proceed _)
  · have hread : Takes (readFrom kernel client) { unread := [] } { unread := [], reads := 1 } []
        [5, nmethods] := read_from_takes client (by simp) hversion
    have hexec : (readVersion (readFrom kernel client)).exec { unread := [] } = _ :=
      exec_version hread
    rw [hexec, if_pos rfl, Program.proceed_ok, Program.exec_bind]
    rcases methods_cases kernel client { unread := [], reads := 1 } nmethods
      (show [5, nmethods].length ≤ 2 from Nat.le_refl 2) with
      hended | ⟨methods, hcounted, hzero, hmethods⟩
    · exact Or.inl (hended.proceed _)
    · exact Or.inr ⟨⟨nmethods, methods, hcounted, hzero⟩, hversion, hmethods⟩

/-- The handshake gets past the request header only if `05 01` is delivered. -/
theorem request_cases (kernel : Kernel) (client : Socket) (session : Session)
    (hparsed : parsed.length ≤ 300) :
    Ended kernel
        ((readRequest (readFrom kernel client) 5).exec (session.parsedTo parsed [])) ∨
      ∃ reserved atype, kernel.Delivers session.reads [5, 1, reserved, atype] := by
  have hsmall : parsed.length ≤ 512 := Nat.le_trans hparsed (by decide)
  rcases checked_cases kernel client session _ hsmall (show 4 ≤ 512 by decide) with
    hended | ⟨bytes, hlength, hdelivers⟩ | hcuts
  · exact Or.inl hended
  · obtain ⟨version, command, reserved, atype, rest, rfl⟩ := four_bytes (Nat.le_of_eq hlength.symm)
    obtain rfl : rest = [] := List.eq_nil_of_length_eq_zero (by simpa using hlength)
    by_cases hconnect : version = 5 ∧ command = 1
    · obtain ⟨rfl, rfl⟩ := hconnect
      exact Or.inr ⟨reserved, atype, hdelivers⟩
    · left
      have hread := read_from_takes client (show parsed.length +
        [version, command, reserved, atype].length ≤ 1024 by simp; omega) hdelivers
      rw [exec_request 5 hsmall hread, if_neg hconnect]
      exact ⟨.returned, rfl, Or.inl rfl⟩
  · left
    obtain ⟨kept, -, hpast, hexec⟩ :=
      exec_checked_cut client session _ hsmall (show 4 ≤ 512 by decide) hcuts
    -- The version keeps the value of the greeting, the command has none.
    have hafter : Session.Past { session.parsedTo parsed [] with
        reads := session.reads + 1, buffer := kept } := hpast
    have hfailed : Session.Past { session.parsedTo parsed [] with
        reads := session.reads + 1, buffer := kept,
        istream := (session.parsedTo parsed []).istream.fail 1 } := hpast
    refine ⟨.undefined, ?_, Or.inr ⟨session.reads, 4, hcuts.1⟩⟩
    refine Eq.trans (congrArg Prod.fst hexec) ?_
    rw [Program.exec_bind, (exec_read_u8_past hafter 5).1, Program.proceed_ok, Program.exec_bind,
      Program.proceed_stops _ (exec_read_u8_past hfailed 0).2]

/-- The handshake gets past the address only if it is delivered, not asked for, or cut. -/
theorem address_cases (kernel : Kernel) (client : Socket) (session : Session) (atype : UInt8)
    (hparsed : parsed.length ≤ 512) :
    Ended kernel ((readAddress (readFrom kernel client) atype .constructed).exec
        (session.parsedTo parsed [])) ∨
      (atype = 1 ∧ ∃ address : IPv4, kernel.Delivers session.reads address.toList) ∨
      atype = 3 ∨ (atype = 1 ∧ kernel.Cuts session.reads 4 parsed.length) := by
  by_cases hipv4 : atype = 1
  · subst hipv4
    rw [readAddress, if_pos rfl]
    rcases checked_cases kernel client session _ hparsed (show 4 ≤ 512 by decide) with
      hended | ⟨bytes, hlength, hdelivers⟩ | hcuts
    · exact Or.inl hended
    · obtain ⟨address, rest, rfl⟩ := address_bytes (Nat.le_of_eq hlength.symm)
      obtain rfl : rest = [] := List.eq_nil_of_length_eq_zero (by simpa using hlength)
      rw [List.append_nil] at hdelivers
      exact Or.inr (Or.inl ⟨rfl, address, hdelivers⟩)
    · exact Or.inr (Or.inr (Or.inr ⟨rfl, hcuts⟩))
  · by_cases hdomain : atype = 3
    · exact Or.inr (Or.inr (Or.inl hdomain))
    · left
      exact ⟨.returned, exec_address_unknown _ _ hipv4 hdomain, Or.inl rfl⟩

/-- An address under which the vector is cut stays unassigned. -/
theorem exec_address_cut (client : Socket) (session : Session)
    (hparsed : parsed.length ≤ 512)
    (hcuts : kernel.Cuts session.reads 4 parsed.length) :
    ∃ after : Session, after.Past ∧ after.reads = session.reads + 1 ∧
      (after.buffer.length : Int) = parsed.length + (kernel.completion session.reads 4).res ∧
      (readAddress (readFrom kernel client) 1 .constructed).exec (session.parsedTo parsed []) =
        (.ok (.ipv4 none), after) := by
  obtain ⟨kept, hkept, hpast, hexec⟩ :=
    exec_checked_cut client session _ hparsed (show 4 ≤ 512 by decide) hcuts
  have hafter : Session.Past { session.parsedTo parsed [] with
      reads := session.reads + 1, buffer := kept } := hpast
  refine ⟨{ session.parsedTo parsed [] with
    reads := session.reads + 1, buffer := kept,
    istream := (session.parsedTo parsed []).istream.fail 4 }, hpast, rfl, hkept, ?_⟩
  rw [readAddress, if_pos rfl]
  refine Eq.trans hexec ?_
  rw [Program.exec_bind, exec_read_array_past hafter, Program.proceed_ok, Program.exec_pure]

/-- The port is delivered, or missing, unless an error code ends the handshake. -/
theorem port_cases (kernel : Kernel) (client : Socket) (session : Session)
    (hparsed : parsed.length ≤ 512) :
    Ended kernel ((readPort (readFrom kernel client)).exec (session.parsedTo parsed [])) ∨
      (∃ hi lo, kernel.Delivers session.reads [hi, lo]) ∨
      kernel.Misses session.reads 2 parsed.length := by
  have hbuffer : (session.parsedTo parsed []).buffer = parsed := List.append_nil _
  rcases read_from_cases kernel client (session.parsedTo parsed [])
    (show _ + 2 ≤ 1024 by rw [hbuffer]; omega) with hnonneg | hended | hcuts
  · rcases kernel.delivers_or_short session.reads 2 with ⟨bytes, hlength, hdelivers⟩ | hshort
    · obtain ⟨hi, lo, rfl⟩ := List.length_eq_two.mp hlength
      exact Or.inr (Or.inl ⟨hi, lo, hdelivers⟩)
    · exact Or.inr (Or.inr (Or.inl ⟨hnonneg, hshort⟩))
  · left
    rw [readPort, Program.exec_bind]
    exact hended.proceed _
  · rw [hbuffer] at hcuts
    exact Or.inr (Or.inr (Or.inr hcuts))

/-- A read for the port that leaves fewer than two bytes behind the cursor. -/
theorem exec_port_missing (client : Socket) {session : Session}
    (hsmall : session.buffer.length ≤ 512) (hcursor : session.istream.cursor ≤ 512)
    (hanswered : 0 ≤ (kernel.completion session.reads 2).res ∨
      kernel.Cuts session.reads 2 session.buffer.length)
    (hmissing : session.buffer.length + (kernel.completion session.reads 2).res <
      session.istream.cursor + 2) :
    ∃ after, (readPort (readFrom kernel client)).exec session = (.ok none, after) := by
  have hfits : session.buffer.length + 2 ≤ 1024 := by omega
  rw [readPort, Program.exec_bind]
  rcases hanswered with hnonneg | hcuts
  · rw [exec_read_answered kernel client session hfits hnonneg, Program.proceed_ok]
    refine ⟨_, exec_read_u16_missing hcursor ?_⟩
    show (session.buffer ++ _).length < session.istream.cursor + 2
    rw [List.length_append, List.length_take]
    omega
  · obtain ⟨count, kept, -, hkept, hread⟩ := exec_read_cut client session hfits hcuts
    rw [hread, Program.proceed_ok]
    refine ⟨_, exec_read_u16_missing hcursor ?_⟩
    show kept.length < session.istream.cursor + 2
    omega

/-- A port that is missing stays unassigned. -/
theorem exec_port_misses (client : Socket) (session : Session) (hparsed : parsed.length ≤ 512)
    (hmisses : kernel.Misses session.reads 2 parsed.length) :
    ∃ after, (readPort (readFrom kernel client)).exec (session.parsedTo parsed []) =
      (.ok none, after) := by
  have hbuffer : (session.parsedTo parsed []).buffer = parsed := List.append_nil _
  have hcursor : (session.parsedTo parsed []).istream.cursor = parsed.length := rfl
  have hreads : (session.parsedTo parsed []).reads = session.reads := rfl
  refine exec_port_missing client ?_ ?_ ?_ ?_
  · rwa [hbuffer]
  · rwa [hcursor]
  · rw [hbuffer, hreads]
    exact hmisses.imp_left And.left
  · rw [hbuffer, hcursor, hreads]
    rcases hmisses with ⟨-, hshort⟩ | ⟨hneg, -⟩
    · omega
    · omega

end Parts

/-! ## Whole handshakes -/

section Whole

variable {kernel : Kernel} {client : Socket} {connected : Option Socket}

/-- The session behind the header of a request. -/
def headed (client : Socket) (greeting : Greeting) (reserved atype : UInt8) : Session :=
  ({ unread := [], reads := 3, written := [submitWriteSome client response] } :
    Session).parsedTo (greeting.bytes ++ [5, 1, reserved, atype]) []

theorem header_length (greeting : Greeting) (reserved atype : UInt8) :
    (greeting.bytes ++ [5, 1, reserved, atype]).length = greeting.headerSize := by
  rw [List.length_append]
  rfl

theorem header_size_le (greeting : Greeting) : greeting.headerSize ≤ 300 := by
  have hbytes := bytes_length_le greeting
  unfold Greeting.headerSize
  omega

/-- After a greeting that is delivered, the handshake answers and reads the request. -/
theorem handshake_from_greeted (client : Socket) (connected : Option Socket) {greeting : Greeting}
    (hversion : kernel.Delivers 0 [5, greeting.nmethods])
    (hmethods : kernel.Delivers 1 greeting.methods) :
    handshakeFrom kernel client connected =
      Program.proceed ((serveRequest (readFrom kernel client) client connected 5).exec
        (answered client greeting [])) fun _ => awaitJoinSet := by
  rw [handshakeFrom, handle_greeted client connected (exec_greet_from client hversion hmethods)]
  rfl

/-- After a header that is delivered, the handshake goes on with the address. -/
theorem request_from_headed (client : Socket) {greeting : Greeting} {reserved atype : UInt8}
    (h : kernel.Delivers 2 [5, 1, reserved, atype]) :
    (readRequest (readFrom kernel client) 5).exec (answered client greeting []) =
      (readAddress (readFrom kernel client) atype .constructed).exec
        (headed client greeting reserved atype) := by
  have hbytes := bytes_length_le greeting
  have hread : Takes (readFrom kernel client)
      { unread := [], reads := 2, written := [submitWriteSome client response] }
      { unread := [], reads := 3, written := [submitWriteSome client response] } greeting.bytes
      [5, 1, reserved, atype] :=
    read_from_takes client (by simp; omega) h
  have hexec := exec_request 5 (by omega) hread
  rw [if_pos ⟨rfl, rfl⟩] at hexec
  exact hexec

/-- The session behind an address. -/
def addressed (client : Socket) (greeting : Greeting) (reserved : UInt8) (address : IPv4) :
    Session :=
  ({ unread := [], reads := 4, written := [submitWriteSome client response] } :
    Session).parsedTo (greeting.bytes ++ [5, 1, reserved, 1] ++ address.toList) []

/-- After an address that is delivered. -/
theorem address_from_headed (client : Socket) (greeting : Greeting) (reserved : UInt8)
    {address : IPv4} (h : kernel.Delivers 3 address.toList) :
    (readAddress (readFrom kernel client) 1 .constructed).exec
        (headed client greeting reserved 1) =
      (.ok (.ipv4 (some address)), addressed client greeting reserved address) := by
  have hsize := header_size_le greeting
  have hlength := header_length greeting reserved 1
  have haddress : address.toList.length = 4 := Vector.length_toList
  have hread : Takes (readFrom kernel client)
      { unread := [], reads := 3, written := [submitWriteSome client response] }
      { unread := [], reads := 4, written := [submitWriteSome client response] }
      (greeting.bytes ++ [5, 1, reserved, 1]) address.toList :=
    read_from_takes client (by omega) h
  exact exec_address .constructed (by omega) hread

/-- After a header that is delivered, an address and a port that are read are dialled. -/
theorem handshake_from_reads (client : Socket) (connected : Option Socket) {greeting : Greeting}
    {reserved atype : UInt8} (h : kernel.DeliversHeader greeting reserved atype)
    {address : Option IPv4} {port : Option UInt16} {middle after : Session}
    (haddress : (readAddress (readFrom kernel client) atype .constructed).exec
      (headed client greeting reserved atype) = (.ok (.ipv4 address), middle))
    (hport : (readPort (readFrom kernel client)).exec middle = (.ok port, after)) :
    Unseen (headed client greeting reserved atype) after ∧
      handshakeFrom kernel client connected =
        Program.proceed ((connect client connected (.ipv4 address) port).exec after)
          fun _ => awaitJoinSet := by
  have hunseen := read_from_unseen kernel client
  have hfirst := read_address_unseen hunseen atype .constructed
    (headed client greeting reserved atype)
  have hsecond := read_port_unseen hunseen middle
  rw [haddress] at hfirst
  rw [hport] at hsecond
  refine ⟨IsTrans.trans _ _ _ hfirst hsecond, ?_⟩
  rw [handshake_from_greeted client connected h.version h.methods, serveRequest,
    Program.exec_bind, request_from_headed client h.header, haddress, Program.proceed_ok,
    Program.exec_bind, hport, Program.proceed_ok]

/-- Whatever the server dials according to `Kernel.Dials`, it does dial. -/
theorem Kernel.Dials.handshake (client : Socket) (connected : Option Socket)
    {address : Option IPv4} {port : Option UInt16} (h : kernel.Dials address port) :
    ∃ after : Session, after.written = [submitWriteSome client response] ∧ after.dials = [] ∧
      after.spawned = [] ∧ handshakeFrom kernel client connected =
        Program.proceed ((connect client connected (.ipv4 address) port).exec after)
          fun _ => awaitJoinSet := by
  suffices hreads : ∃ (greeting : Greeting) (reserved atype : UInt8) (middle after : Session),
      kernel.DeliversHeader greeting reserved atype ∧
      (readAddress (readFrom kernel client) atype .constructed).exec
        (headed client greeting reserved atype) = (.ok (.ipv4 address), middle) ∧
      (readPort (readFrom kernel client)).exec middle = (.ok port, after) by
    obtain ⟨greeting, reserved, atype, middle, after, hheader, haddress, hport⟩ := hreads
    obtain ⟨hunseen, hexec⟩ := handshake_from_reads client connected hheader haddress hport
    exact ⟨after, hunseen.written, hunseen.dials, hunseen.spawned, hexec⟩
  cases h with
  | @request request h =>
      have hsize := header_size_le request.greeting
      have hlength := header_length request.greeting request.reserved 1
      have hread : Takes (readFrom kernel client)
          { unread := [], reads := 4, written := [submitWriteSome client response] }
          { unread := [], reads := 5, written := [submitWriteSome client response] }
          (request.greeting.bytes ++ [5, 1, request.reserved, 1] ++ request.address.toList)
          [request.hi, request.lo] :=
        read_from_takes client (by simp at hlength ⊢; omega) h.port
      have hport := exec_port (by simp at hlength ⊢; omega) hread
      exact ⟨_, _, _, _, _, h.toDeliversHeader, address_from_headed client _ _ h.address, hport⟩
  | @portMissing greeting reserved address h haddress hmisses =>
      have hsize := header_size_le greeting
      have hlength := header_length greeting reserved 1
      have hbytes : (greeting.bytes ++ [5, 1, reserved, 1] ++ address.toList).length =
          greeting.headerSize + 4 := by
        rw [List.length_append, hlength, Vector.length_toList]
      obtain ⟨after, hport⟩ := exec_port_misses client
        { unread := [], reads := 4, written := [submitWriteSome client response] }
        (show (greeting.bytes ++ [5, 1, reserved, 1] ++ address.toList).length ≤ 512 by omega)
        (by rw [hbytes]; exact hmisses)
      exact ⟨_, _, _, _, after, h, address_from_headed client _ _ haddress, hport⟩
  | @domain greeting reserved hi lo h hdelivers =>
      have hsize := header_size_le greeting
      have hlength := header_length greeting reserved 3
      have hread : Takes (readFrom kernel client)
          { unread := [], reads := 3, written := [submitWriteSome client response] }
          { unread := [], reads := 4, written := [submitWriteSome client response] }
          (greeting.bytes ++ [5, 1, reserved, 3]) [hi, lo] :=
        read_from_takes client (by simp at hlength ⊢; omega) hdelivers
      have hport := exec_port (by omega) hread
      exact ⟨_, _, _, _, _, h, exec_address_domain .constructed _, hport⟩
  | @domainPortMissing greeting reserved h hmisses =>
      have hsize := header_size_le greeting
      have hlength := header_length greeting reserved 3
      obtain ⟨after, hport⟩ := exec_port_misses client
        { unread := [], reads := 3, written := [submitWriteSome client response] }
        (show (greeting.bytes ++ [5, 1, reserved, 3]).length ≤ 512 by omega)
        (by rw [hlength]; exact hmisses)
      exact ⟨_, _, _, _, after, h, exec_address_domain .constructed _, hport⟩
  | @addressCut greeting reserved h hcuts hanswered =>
      have hsize := header_size_le greeting
      have hlength := header_length greeting reserved 1
      obtain ⟨middle, ⟨hpast, hcursor⟩, hreads, hkept, haddress⟩ := exec_address_cut client
        { unread := [], reads := 3, written := [submitWriteSome client response] }
        (show (greeting.bytes ++ [5, 1, reserved, 1]).length ≤ 512 by omega)
        (by rw [hlength]; exact hcuts)
      have hfourth : middle.reads = 4 := hreads
      have hres : (kernel.completion 4 2).res ≤ 2 :=
        Int.le_trans (kernel.res_le 4 2) (by exact_mod_cast kernel.stored_le 4 2)
      have hread : 0 ≤ (kernel.completion middle.reads 2).res ∨
          kernel.Cuts middle.reads 2 middle.buffer.length := by
        rw [hfourth, hkept, hlength]
        exact hanswered
      obtain ⟨after, hport⟩ := exec_port_missing client (by omega) hcursor hread
        (by rw [hfourth]; omega)
      exact ⟨_, _, _, middle, after, h, haddress, hport⟩

/-- The handshake ended, and nothing was dialled. -/
def EndedUndialled (kernel : Kernel) (result : Except Stop Unit × Session) : Prop :=
  Ended kernel result ∧ result.2.dials = []

/-- What ends in a part that nobody can see has dialled nothing. -/
theorem Ended.undialled {α : Type} {program : Handshake α} {session : Session}
    (h : Ended kernel (program.exec session)) (hunseen : program.Keeps Unseen)
    (hdials : session.dials = []) (rest : α → Handshake Unit) :
    EndedUndialled kernel ((program >>= rest).exec session) := by
  obtain ⟨reason, hreason, hcause⟩ := h
  rw [Program.exec_bind, Program.proceed_stops _ hreason]
  exact ⟨⟨reason, rfl, hcause⟩, (hunseen session).dials.trans hdials⟩

/-- A handshake that has ended does not wait for its forwarders. -/
theorem EndedUndialled.join {result : Except Stop Unit × Session}
    (h : EndedUndialled kernel result) :
    EndedUndialled kernel (Program.proceed result fun _ => awaitJoinSet) :=
  ⟨h.1.proceed _, (congrArg Session.dials (join_keeps result)).trans h.2⟩

/-- A handshake that ends with its port has dialled nothing. -/
theorem port_ends (connected : Option Socket) {greeting : Greeting} {reserved atype : UInt8}
    (h : kernel.DeliversHeader greeting reserved atype) {address : Address} {middle : Session}
    (haddress : (readAddress (readFrom kernel client) atype .constructed).exec
      (headed client greeting reserved atype) = (.ok address, middle))
    (hended : Ended kernel ((readPort (readFrom kernel client)).exec middle)) :
    EndedUndialled kernel (handshakeFrom kernel client connected) := by
  have hunseen := read_from_unseen kernel client
  have hmiddle := read_address_unseen hunseen atype .constructed
    (headed client greeting reserved atype)
  rw [haddress] at hmiddle
  rw [handshake_from_greeted client connected h.version h.methods, serveRequest,
    Program.exec_bind, request_from_headed client h.header, haddress, Program.proceed_ok]
  exact (hended.undialled (read_port_unseen hunseen) hmiddle.dials _).join

/-- How far the handshake comes behind the header of a request. -/
theorem headed_cases (client : Socket) (connected : Option Socket) {greeting : Greeting}
    {reserved atype : UInt8} (h : kernel.DeliversHeader greeting reserved atype) :
    EndedUndialled kernel (handshakeFrom kernel client connected) ∨
      ∃ address port, kernel.Dials address port := by
  have hunseen := read_from_unseen kernel client
  have hsize := header_size_le greeting
  have hlength := header_length greeting reserved atype
  rcases address_cases kernel client
    { unread := [], reads := 3, written := [submitWriteSome client response] } atype
    (show (greeting.bytes ++ [5, 1, reserved, atype]).length ≤ 512 by omega) with
    hended | ⟨rfl, address, haddress⟩ | rfl | ⟨rfl, hcuts⟩
  · have hrequest : Ended kernel
        ((readRequest (readFrom kernel client) 5).exec (answered client greeting [])) := by
      rw [request_from_headed client h.header]
      exact hended
    rw [handshake_from_greeted client connected h.version h.methods]
    exact Or.inl (hrequest.undialled (read_request_unseen hunseen 5) rfl _).join
  · have hbytes : (greeting.bytes ++ [5, 1, reserved, 1] ++ address.toList).length =
        greeting.headerSize + 4 := by
      rw [List.length_append, hlength, Vector.length_toList]
    rcases port_cases kernel client
      { unread := [], reads := 4, written := [submitWriteSome client response] }
      (show (greeting.bytes ++ [5, 1, reserved, 1] ++ address.toList).length ≤ 512 by omega) with
      hended | ⟨hi, lo, hport⟩ | hmisses
    · exact Or.inl (port_ends connected h (address_from_headed client _ _ haddress) hended)
    · have hrequest : kernel.DeliversRequest ⟨greeting, reserved, address, hi, lo⟩ :=
        ⟨h, haddress, hport⟩
      exact Or.inr ⟨_, _, .request hrequest⟩
    · rw [hbytes] at hmisses
      exact Or.inr ⟨_, _, .portMissing h haddress hmisses⟩
  · rcases port_cases kernel client
      { unread := [], reads := 3, written := [submitWriteSome client response] }
      (show (greeting.bytes ++ [5, 1, reserved, 3]).length ≤ 512 by omega) with
      hended | ⟨hi, lo, hport⟩ | hmisses
    · exact Or.inl (port_ends connected h (exec_address_domain .constructed _) hended)
    · exact Or.inr ⟨_, _, .domain h hport⟩
    · rw [hlength] at hmisses
      exact Or.inr ⟨_, _, .domainPortMissing h hmisses⟩
  · obtain ⟨middle, ⟨hpast, hcursor⟩, hreads, hkept, haddress⟩ := exec_address_cut client
      { unread := [], reads := 3, written := [submitWriteSome client response] }
      (show (greeting.bytes ++ [5, 1, reserved, 1]).length ≤ 512 by omega) hcuts
    have hfourth : middle.reads = 4 := hreads
    have hsmall : middle.buffer.length + 2 ≤ 1024 := by omega
    rw [hlength] at hcuts hkept
    rcases read_from_cases kernel client middle hsmall with hnonneg | hended | hagain
    · rw [hfourth] at hnonneg
      exact Or.inr ⟨_, _, .addressCut h hcuts (Or.inl hnonneg)⟩
    · refine Or.inl (port_ends connected h haddress ?_)
      rw [readPort, Program.exec_bind]
      exact hended.proceed _
    · rw [hfourth, hkept] at hagain
      exact Or.inr ⟨_, _, .addressCut h hcuts (Or.inr hagain)⟩

/-- How far the handshake comes: it ends without dialling, or it dials. -/
theorem handshake_from_cases (kernel : Kernel) (client : Socket) (connected : Option Socket) :
    EndedUndialled kernel (handshakeFrom kernel client connected) ∨
      ∃ address port, kernel.Dials address port := by
  have hunseen := read_from_unseen kernel client
  rcases greet_from_cases kernel client with hended | ⟨greeting, hversion, hmethods⟩
  · exact Or.inl (hended.undialled (greet_unseen hunseen) rfl _)
  have hbytes := bytes_length_le greeting
  rcases request_cases kernel client
    { unread := [], reads := 2, written := [submitWriteSome client response] }
    (show greeting.bytes.length ≤ 300 by omega) with hended | ⟨reserved, atype, hheader⟩
  · rw [handshake_from_greeted client connected hversion hmethods]
    exact Or.inl (hended.undialled (read_request_unseen hunseen 5) rfl _).join
  · exact headed_cases client connected ⟨hversion, hmethods, hheader⟩

/-- What is dialled leaves one entry. -/
theorem Kernel.Dials.dialled (client : Socket) (connected : Option Socket)
    {address : Option IPv4} {port : Option UInt16} (h : kernel.Dials address port) :
    (handshakeFrom kernel client connected).2.dials.map (fun dial => (dial.address, dial.port)) =
      [(address, port)] := by
  obtain ⟨after, -, hdials, -, hexec⟩ := h.handshake client connected
  rw [hexec, join_keeps, connect_dials, hdials]
  rfl

/-- Under a kernel without error codes, however short its reads are, no handshake hangs in a read,
throws, or uses a variable without a value for a decision: it returns early, or it has dialled
once, answered, spawned both forwarders, and waits for them. -/
theorem kernel_ends_regularly (kernel : Kernel) (client : Socket) (connected : Option Socket)
    (hsound : ∀ index maxSize, 0 ≤ (kernel.completion index maxSize).res) :
    (handshakeFrom kernel client connected).1 = .error .returned ∨
      ∃ remote dial, connected = some remote ∧
        (handshakeFrom kernel client connected).1 = .error .joining ∧
        (handshakeFrom kernel client connected).2.dials = [dial] ∧
        (handshakeFrom kernel client connected).2.spawned = [(client, remote), (remote, client)] ∧
        (handshakeFrom kernel client connected).2.written.map PendingWriteSome.buffer =
          [response, lastResponse] := by
  have hfaultless : ¬ kernel.Faulty := by
    intro hfaulty
    obtain ⟨index, maxSize, hneg⟩ := hfaulty
    have hnonneg := hsound index maxSize
    omega
  rcases handshake_from_cases kernel client connected with
    ⟨⟨reason, hreason, hcause⟩, -⟩ | ⟨address, port, hdials⟩
  · left
    rcases hcause with rfl | hfaulty
    · exact hreason
    · exact absurd hfaulty hfaultless
  · obtain ⟨after, hwritten, hnone, hspawned, hexec⟩ := hdials.handshake client connected
    rw [hexec]
    cases connected with
    | none => exact Or.inl rfl
    | some remote =>
        refine Or.inr ⟨remote, ⟨address, port, after.unread⟩, rfl, rfl, ?_, ?_, ?_⟩
        · rw [join_keeps, connect_dials, hnone, List.nil_append]
        · show after.spawned ++ _ = _
          rw [hspawned, List.nil_append]
        · show (after.written ++ [submitWriteSome client lastResponse]).map _ = _
          rw [hwritten]
          rfl

end Whole

/-- The kernel whose reads deliver the given chunks, as far as they fit. -/
def Kernel.ofChunks (chunks : List (List UInt8)) : Kernel where
  completion := fun index maxSize => delivers ((chunks[index]?.getD []).take maxSize)
  stored_le := fun _ _ => List.length_take_le _ _
  res_ge := fun _ _ => Int.le_trans (by decide) (Int.natCast_nonneg _)
  res_le := fun _ _ => Int.le_refl _

/-- A request whose address arrives in two pieces ends with a `co_return`. -/
theorem kernel_ends_regularly_short :
    (handshakeFrom (.ofChunks [[5, 1], [0], [5, 1, 0, 1], [127, 0]]) ⟨3⟩ none).1 =
      .error .returned := by
  rcases kernel_ends_regularly (.ofChunks [[5, 1], [0], [5, 1, 0, 1], [127, 0]]) ⟨3⟩ none
    fun _ _ => Int.natCast_nonneg _ with hreturned | ⟨remote, dial, hsome, -⟩
  · exact hreturned
  · cases hsome

end Toad.Socks5
