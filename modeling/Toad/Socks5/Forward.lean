import Toad.Concurrency.IOContext

/-!
# Relaying one direction of a connection

`Socks5Server::forward_connection_data_`. The loop reads into a vector that it declares once
and never clears, and writes the whole vector each time. An action of the machine is the
completion of one read, so a schedule is the sequence of completions and its length is the
number of iterations. Since every write repeats everything read before, the relayed bytes
are the bytes read only up to the first chunk: `relay_fidelity_iff`.
-/

namespace Toad.Socks5

open Execution IOContext

/-- The loop's vector and the writes it has submitted, oldest first. -/
structure Forwarder where
  buffer : List UInt8 := []
  written : List PendingWriteSome := []
  deriving DecidableEq, Repr

/-- One iteration of the loop. There is no next state if the read's future is never set, so that
`co_await` does not return, or if the completion handler throws. -/
def forwardIteration (lhs rhs : Socket) (state : Forwarder) (completion : Completion) :
    Option Forwarder :=
  match readSomeVec lhs state.buffer 1024 completion with
  | .error _ => none
  | .ok (buffer, handled) =>
      match handled.values with
      | [] => none
      | _ :: _ =>
          some { buffer := buffer, written := state.written ++ [submitWriteSome rhs buffer] }

/-- `forward_connection_data_(lhs, rhs)`, driven by the completions of its reads. -/
def forwardConnectionData (lhs rhs : Socket) : Machine Forwarder Completion where
  init := {}
  next := forwardIteration lhs rhs

/-- The concatenation of the spans handed to `submit_write_some` for `rhs`. -/
def Forwarder.relayed (state : Forwarder) (rhs : Socket) : List UInt8 :=
  (state.written.filter fun write => write.sockfd = rhs.sockfd).flatMap PendingWriteSome.buffer

/-- The chunks that a read of at most 1024 bytes can deliver before the peer closes. -/
def ReadChunk (chunk : List UInt8) : Prop :=
  1 ≤ chunk.length ∧ chunk.length ≤ 1024

variable {lhs rhs : Socket}

/-- An iteration that fits in memory appends the chunk to the vector and writes all of it. -/
theorem forward_iteration_delivers (lhs rhs : Socket) {state : Forwarder} {chunk : List UInt8}
    (hfit : state.buffer.length + 1024 ≤ vectorMaxSize) (hchunk : chunk.length ≤ 1024) :
    forwardIteration lhs rhs state (delivers chunk) =
      some { buffer := state.buffer ++ chunk
             written := state.written ++ [submitWriteSome rhs (state.buffer ++ chunk)] } := by
  unfold forwardIteration
  rw [read_some_vec_delivers lhs hfit hchunk]

/-- An iteration that goes through did fit in memory. -/
theorem forward_iteration_fits {state following : Forwarder} {completion : Completion}
    (h : forwardIteration lhs rhs state completion = some following)
    (hsmall : state.buffer.length ≤ vectorMaxSize) :
    state.buffer.length + 1024 ≤ vectorMaxSize := by
  by_contra hlarge
  have hadd : szAdd state.buffer.length 1024 = state.buffer.length + 1024 := by
    apply sz_add_eq
    unfold vectorMaxSize at hsmall
    omega
  have hthrow : readSomeVec lhs state.buffer 1024 completion = .error .lengthError := by
    simp only [readSomeVec, submitReadSomeVec, hadd, vectorResize, if_neg hlarge]
    rfl
  unfold forwardIteration at h
  rw [hthrow] at h
  exact absurd h (by simp)

/-- The loop after `chunks`: the vector holds them all, and each write has added the vector as
it was then. -/
structure AfterChunks (rhs : Socket) (chunks : List (List UInt8)) (state : Forwarder) : Prop where
  buffer : state.buffer = chunks.flatten
  fits : state.buffer.length ≤ vectorMaxSize
  nonempty : chunks ≠ [] → state.relayed rhs ≠ []
  single : chunks.length ≤ 1 → state.relayed rhs = chunks.flatten
  longer : 2 ≤ chunks.length → chunks.flatten.length < (state.relayed rhs).length

/-- One more chunk: the relayed bytes grow by the whole vector. -/
theorem AfterChunks.step {chunks : List (List UInt8)} {chunk : List UInt8}
    {state following : Forwarder} (h : AfterChunks rhs chunks state) (hchunk : ReadChunk chunk)
    (hnext : forwardIteration lhs rhs state (delivers chunk) = some following) :
    AfterChunks rhs (chunks ++ [chunk]) following := by
  have hroom := forward_iteration_fits hnext h.fits
  rw [forward_iteration_delivers lhs rhs hroom hchunk.2, Option.some.injEq] at hnext
  subst hnext
  have hbytes : Forwarder.relayed
      { buffer := state.buffer ++ chunk
        written := state.written ++ [submitWriteSome rhs (state.buffer ++ chunk)] } rhs =
      state.relayed rhs ++ (chunks.flatten ++ chunk) := by
    simp [Forwarder.relayed, submitWriteSome, h.buffer]
  have hpos : 0 < chunk.length := hchunk.1
  refine ⟨by simp [h.buffer], ?_, ?_, ?_, ?_⟩
  · have := hchunk.2
    simp only [List.length_append]
    omega
  · intro _ hempty
    rw [hbytes] at hempty
    have hlength := congrArg List.length hempty
    simp only [List.length_append, List.length_nil] at hlength
    omega
  · intro hlength
    -- the only iteration so far is the first, with nothing relayed before it
    obtain rfl : chunks = [] := by
      rw [List.length_append, List.length_singleton] at hlength
      exact List.eq_nil_of_length_eq_zero (by omega)
    rw [hbytes, h.single (by simp)]
    simp
  · intro hlength
    have hsome : chunks ≠ [] := by
      rintro rfl
      simp at hlength
    have hearlier := List.length_pos_iff.mpr (h.nonempty hsome)
    rw [hbytes]
    simp only [List.flatten_append, List.flatten_singleton, List.length_append]
    omega

/-- The state reached by reading `chunks`. -/
theorem after_chunks (chunks : List (List UInt8)) (hchunks : ∀ chunk ∈ chunks, ReadChunk chunk)
    {state : Forwarder}
    (hrun : (forwardConnectionData lhs rhs).run (chunks.map delivers) = some state) :
    AfterChunks rhs chunks state := by
  induction chunks using List.reverseRecOn generalizing state with
  | nil =>
      obtain rfl : ({} : Forwarder) = state := Option.some.inj hrun
      refine ⟨rfl, Nat.zero_le _, fun h => absurd rfl h, fun _ => rfl, fun h => ?_⟩
      simp at h
  | append_singleton rest chunk ih =>
      rw [List.map_append, List.map_singleton] at hrun
      obtain ⟨middle, hrest, hlast⟩ := (Machine.run_concat _).mp hrun
      have hmiddle := ih (fun other hother => hchunks other (by simp [hother])) hrest
      exact hmiddle.step (hchunks chunk (by simp)) hlast

/-- The loop goes through any number of chunks as long as its vector fits in memory. -/
theorem forward_run_exists (chunks : List (List UInt8))
    (hchunks : ∀ chunk ∈ chunks, ReadChunk chunk)
    (hfit : 1024 * chunks.length ≤ vectorMaxSize) :
    ∃ state, (forwardConnectionData lhs rhs).run (chunks.map delivers) = some state ∧
      state.buffer.length ≤ 1024 * chunks.length := by
  induction chunks using List.reverseRecOn with
  | nil => exact ⟨{}, rfl, Nat.zero_le _⟩
  | append_singleton rest chunk ih =>
      rw [List.length_append, List.length_singleton] at hfit
      obtain ⟨middle, hrest, hsmall⟩ :=
        ih (fun other hother => hchunks other (by simp [hother])) (by omega)
      have hchunk := (hchunks chunk (by simp)).2
      have hroom : middle.buffer.length + 1024 ≤ vectorMaxSize := by omega
      have hnext := forward_iteration_delivers lhs rhs hroom hchunk
      have hrun := (Machine.run_concat (forwardConnectionData lhs rhs)).mpr ⟨middle, hrest, hnext⟩
      rw [← List.map_singleton, ← List.map_append] at hrun
      refine ⟨_, hrun, ?_⟩
      simp only [List.length_append, List.length_singleton]
      omega

/-- For every sequence of chunks, the loop reads them all while its vector fits in memory, and
the bytes it hands on are the bytes it read exactly if there was at most one chunk. -/
theorem relay_fidelity_iff (lhs rhs : Socket) (chunks : List (List UInt8))
    (hchunks : ∀ chunk ∈ chunks, ReadChunk chunk) :
    (1024 * chunks.length ≤ vectorMaxSize →
      ∃ state, (forwardConnectionData lhs rhs).run (chunks.map delivers) = some state) ∧
    ∀ state, (forwardConnectionData lhs rhs).run (chunks.map delivers) = some state →
      (state.relayed rhs = chunks.flatten ↔ chunks.length ≤ 1) := by
  constructor
  · intro hfit
    obtain ⟨state, hrun, _⟩ := forward_run_exists chunks hchunks hfit
    exact ⟨state, hrun⟩
  · intro state hrun
    have h := after_chunks chunks hchunks hrun
    refine ⟨fun heq => ?_, h.single⟩
    by_contra hmany
    have hlonger := h.longer (by omega)
    rw [heq] at hlonger
    exact Nat.lt_irrefl _ hlonger

/-- A single chunk is relayed as it is. -/
theorem relay_fidelity_single_chunk :
    ∃ state, (forwardConnectionData ⟨4⟩ ⟨5⟩).run [delivers [1, 2]] = some state ∧
      state.relayed ⟨5⟩ = [1, 2] := by
  obtain ⟨hreads, hrelays⟩ := relay_fidelity_iff ⟨4⟩ ⟨5⟩ [[1, 2]] (by simp [ReadChunk])
  obtain ⟨state, hrun⟩ := hreads (by decide)
  exact ⟨state, hrun, by simpa using hrelays state hrun⟩

/-- The chunks `01` and `02` are relayed as `01 01 02`. -/
theorem relay_repeats_first_chunk :
    ∃ state, (forwardConnectionData ⟨4⟩ ⟨5⟩).run [delivers [1], delivers [2]] = some state ∧
      state.relayed ⟨5⟩ = [1, 1, 2] ∧ state.relayed ⟨5⟩ ≠ [[1], [2]].flatten := by
  refine ⟨⟨[1, 2], [⟨5, [1]⟩, ⟨5, [1, 2]⟩]⟩, ?_, by decide, by decide⟩
  decide +kernel

end Toad.Socks5
