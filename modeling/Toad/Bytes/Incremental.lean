import Toad.Bytes.Chain
import Toad.Concurrency.ReadVector
import Toad.Execution.Machine

/-!
# Reading from a vector that is still being filled

A `ByteIStream` keeps a cursor into a vector that `submit_read_some` goes on pushing into, so that
a coroutine can parse what has arrived and come back for the rest. The machine here interleaves the
two in every order: reads into the vector, with whatever result the kernel reports, and reads
through the stream, of any type, whether or not their bytes have arrived. `Agrees` says that the
order does not matter: the values taken so far are those that a fresh stream takes from the vector
as it is now. `incremental_agrees_iff` says when that holds throughout.
-/

namespace Toad

namespace Incremental

open Execution IOContext
open RoundTrip (Value Target)
open Packing

/-- A destination in memory. -/
structure Destination where
  target : Target
  inMemory : target.InMemory

/-- The coroutine's vector, the stream over it, and what its reads have taken so far. -/
structure State where
  buffer : List UInt8 := []
  stream : ByteIStream := {}
  taken : List (Destination × Value) := []

/-- A read into the vector, or one through the stream. -/
inductive Action where
  | receive (maxSize : Nat) (completion : Completion)
  | read (destination : Destination)

/-- The request is one for memory that can exist; the kernel stores no more than it was asked for,
and reports an error code or no more than it stored. -/
def Admissible (maxSize : Nat) (completion : Completion) : Prop :=
  maxSize ≤ vectorMaxSize ∧ completion.stored.length ≤ maxSize ∧ -4095 ≤ completion.res ∧
    completion.res ≤ completion.stored.length

instance (maxSize : Nat) (completion : Completion) : Decidable (Admissible maxSize completion) :=
  inferInstanceAs (Decidable (_ ∧ _))

/-- The stream has its bytes, by the comparison that every read makes. -/
def Ready (state : State) (target : Target) : Prop :=
  szAdd state.stream.cursor target.size ≤ state.buffer.length

instance (state : State) (target : Target) : Decidable (Ready state target) :=
  inferInstanceAs (Decidable (_ ≤ _))

/-- One step. An exception out of `submit_read_some` or its handler ends the coroutine; one out of
`read_vector` is thrown before anything has changed. -/
def next (socket : Socket) (state : State) : Action → Option State
  | .receive maxSize completion =>
      if Admissible maxSize completion then
        match readSomeVec socket state.buffer maxSize completion with
        | .error _ => none
        | .ok (buffer, _) => some { state with buffer := buffer }
      else none
  | .read destination =>
      match RoundTrip.read state.stream state.buffer destination.target with
      | .error _ => some state
      | .ok (stream, out) =>
          match out with
          | some value =>
              if Ready state destination.target then
                some { state with
                  stream := stream, taken := state.taken ++ [(destination, value)] }
              else some { state with stream := stream }
          | none => some { state with stream := stream }

/-- A stream and a vector, both fresh. -/
def machine (socket : Socket) : Machine State Action where
  init := {}
  next := next socket

/-- A fresh stream over the vector takes the same values, and ends at the same cursor. -/
def Agrees (state : State) : Prop :=
  RoundTrip.readAll {} state.buffer (state.taken.map fun entry => entry.1.target) =
    .ok ({ cursor := state.stream.cursor }, state.taken.map fun entry => some entry.2)

/-- The step does not cut the vector below the cursor: an error code other than `ECONNRESET` takes
as many bytes off its end as the code says. -/
def KeepsTaken (state : State) : Action → Prop
  | .receive _ completion =>
      0 ≤ completion.res ∨ completion.res = -104 ∨
        (state.stream.cursor : Int) ≤ state.buffer.length + completion.res
  | .read _ => True

/-- What the stream has passed are the encodings of the values it has taken. -/
structure Parsed (state : State) : Prop where
  split : ∃ rest, state.buffer = RoundTrip.encodeAll (state.taken.map Prod.snd) ++ rest
  cursor : state.stream.cursor = (RoundTrip.encodeAll (state.taken.map Prod.snd)).length
  size_le : state.buffer.length ≤ vectorMaxSize
  fits : ∀ entry ∈ state.taken, entry.2.Fits
  accepts : ∀ entry ∈ state.taken, entry.2.Accepts entry.1.target

section Steps

variable {socket : Socket} {state following : State}

/-- What a read into the vector does to it: it appends something, or takes as many bytes off the
end as the error code says. -/
theorem receive_cases {vec after : List UInt8} {maxSize : Nat} {completion : Completion}
    {handled : Handled Nat} (hvec : vec.length ≤ vectorMaxSize)
    (hadmissible : Admissible maxSize completion)
    (h : readSomeVec socket vec maxSize completion = .ok (after, handled)) :
    after.length ≤ vectorMaxSize ∧
      (((0 ≤ completion.res ∨ completion.res = -104) ∧ ∃ more, after = vec ++ more) ∨
        (completion.res < 0 ∧ completion.res ≠ -104 ∧
          (after.length : Int) = vec.length + completion.res ∧ after <+: vec)) := by
  have hmax := vector_max_size_lt
  obtain ⟨stored, res⟩ := completion
  obtain ⟨hsize, hstored, hge, hle⟩ := hadmissible
  dsimp only at hstored hge hle ⊢
  have hfit : vec.length + maxSize ≤ vectorMaxSize := by
    by_contra hlarge
    have hadd : szAdd vec.length maxSize = vec.length + maxSize := sz_add_eq (by omega)
    simp [readSomeVec, submitReadSomeVec, hadd, vectorResize, hlarge, bind, Except.bind] at h
  by_cases hnonneg : 0 ≤ res
  · obtain ⟨count, rfl⟩ := Int.eq_ofNat_of_zero_le hnonneg
    have hcount : count ≤ stored.length := by omega
    rw [read_some_vec_append socket hfit hstored hcount] at h
    obtain ⟨rfl, -⟩ := Prod.mk.inj (Except.ok.inj h)
    refine ⟨?_, Or.inl ⟨Or.inl hnonneg, _, rfl⟩⟩
    rw [List.length_append, List.length_take]
    omega
  have hread : readSomeVec socket vec maxSize ⟨stored, res⟩ =
      handlePendingReadSomeVec res ⟨socket.sockfd, vec.length⟩
        (kernelStore (vec ++ List.replicate maxSize 0) vec.length stored) := by
    rw [readSomeVec, submit_read_some_vec_eq socket hfit]
    rfl
  rw [hread, kernel_store_reserved] at h
  by_cases hreset : res = -104
  · subst hreset
    obtain rfl := VectorRead.reset_keeps h
    refine ⟨?_, Or.inl ⟨Or.inr rfl, stored ++ List.replicate _ 0, List.append_assoc ..⟩⟩
    simp only [List.length_append, List.length_replicate]
    omega
  · have hcut : after.length < vec.length :=
      VectorRead.error_cuts (by omega) hge hreset hvec h
    have hsz := sz_of_int_neg (show res < 0 by omega) (by omega)
    rw [handlePendingReadSomeVec, if_neg (by omega)] at h
    cases hresize : vectorResize (vec ++ stored ++ List.replicate (maxSize - stored.length) 0)
        (szAdd vec.length (szOfInt res)) with
    | error exception =>
        rw [hresize] at h
        cases h
    | ok resized =>
        obtain ⟨hadmitted, hlength⟩ := vector_resize_ok hresize
        simp only [hresize, bind, Except.bind, pure, Except.pure, Except.ok.injEq,
          Prod.mk.injEq] at h
        obtain ⟨rfl, -⟩ := h
        refine ⟨by omega, Or.inr ⟨by omega, hreset, ?_, ?_⟩⟩
        · rw [hlength]
          unfold szAdd at hadmitted ⊢
          omega
        · rw [vector_resize_shrink (by simp; omega) hadmitted] at hresize
          rw [← Except.ok.inj hresize, List.append_assoc,
            List.take_append_of_le_length (by omega)]
          exact List.take_prefix _ _

/-- What a read through the stream does: it throws and changes nothing, or fails, or takes the
value whose encoding comes next. -/
theorem read_cases (h : Parsed state) {destination : Destination}
    (hnext : next socket state (.read destination) = some following) :
    following = state ∨
      following = { state with stream := state.stream.fail destination.target.size } ∨
      ∃ value rest,
        state.buffer = RoundTrip.encodeAll (state.taken.map Prod.snd) ++ value.encode ++ rest ∧
        value.Accepts destination.target ∧
        following = { state with
          stream := state.stream.advance value.encode.length
          taken := state.taken ++ [(destination, value)] } := by
  have hmax := vector_max_size_lt
  obtain ⟨⟨rest, hsplit⟩, hcursor, hsize, -, -⟩ := h
  have hlength : state.buffer.length =
      (RoundTrip.encodeAll (state.taken.map Prod.snd)).length + rest.length := by
    rw [hsplit, List.length_append]
  cases hread : RoundTrip.read state.stream state.buffer destination.target with
  | error exception =>
      simp only [next, hread, Option.some.injEq] at hnext
      exact Or.inl hnext.symm
  | ok result =>
      rcases Chain.read_ok hcursor (hsplit ▸ hsize) destination.inMemory (hsplit ▸ hread) with
        ⟨hfits, value, haccepts, hencode, rfl⟩ | ⟨hshort, rfl⟩
      · have hready : Ready state destination.target := by
          rw [Ready, sz_add_eq (by omega)]
          omega
        have hencoded : value.encode.length = destination.target.size := by
          rw [hencode, List.length_take_of_le hfits]
        simp only [next, hread, if_pos hready, Option.some.injEq] at hnext
        refine Or.inr (Or.inr ⟨value, rest.drop destination.target.size, ?_, haccepts, ?_⟩)
        · rw [hsplit, hencode, List.append_assoc, List.take_append_drop]
        · rw [hencoded]
          exact hnext.symm
      · have hunready : ¬ Ready state destination.target := by
          by_contra hready
          have hinside := Chain.read_inside (by omega) hsize destination.inMemory hready hread
          omega
        simp only [next, hread] at hnext
        refine Or.inr (Or.inl ?_)
        split at hnext
        · rw [if_neg hunready] at hnext
          exact (Option.some.inj hnext).symm
        · exact (Option.some.inj hnext).symm

/-- A value that a destination in the vector accepts is one the program can hold. -/
theorem fits_of_taken {value : Value} {before rest : List UInt8}
    (hsize : (before ++ value.encode ++ rest).length ≤ vectorMaxSize) : value.Fits := by
  cases value with
  | vector bytes =>
      rw [List.length_append, List.length_append] at hsize
      show bytes.length ≤ vectorMaxSize
      change before.length + bytes.length + rest.length ≤ vectorMaxSize at hsize
      omega
  | u8 value => trivial
  | u16 value => trivial
  | array size bytes => trivial

/-- Reading through the stream keeps what it has parsed. -/
theorem Parsed.read (h : Parsed state) {destination : Destination}
    (hnext : next socket state (.read destination) = some following) : Parsed following := by
  have hmax := vector_max_size_lt
  rcases read_cases h hnext with rfl | rfl | ⟨value, rest, hsplit, haccepts, rfl⟩
  · exact h
  · exact ⟨h.split, h.cursor, h.size_le, h.fits, h.accepts⟩
  · have hsize : (RoundTrip.encodeAll (state.taken.map Prod.snd) ++ value.encode ++
        rest).length ≤ vectorMaxSize := hsplit ▸ h.size_le
    have hencode : RoundTrip.encodeAll ((state.taken ++ [(destination, value)]).map Prod.snd) =
        RoundTrip.encodeAll (state.taken.map Prod.snd) ++ value.encode := by
      simp [RoundTrip.encodeAll]
    refine ⟨⟨rest, hencode ▸ hsplit⟩, ?_, h.size_le, ?_, ?_⟩
    · show szAdd state.stream.cursor value.encode.length = _
      rw [List.length_append, List.length_append] at hsize
      rw [hencode, List.length_append, h.cursor, sz_add_eq (by omega)]
    · intro entry hmem
      rcases List.mem_append.mp hmem with hmem | hmem
      · exact h.fits entry hmem
      · obtain rfl := List.mem_singleton.mp hmem
        exact fits_of_taken hsize
    · intro entry hmem
      rcases List.mem_append.mp hmem with hmem | hmem
      · exact h.accepts entry hmem
      · obtain rfl := List.mem_singleton.mp hmem
        exact haccepts

/-- A read into the vector, taken apart. -/
theorem receive_step {maxSize : Nat} {completion : Completion}
    (hnext : next socket state (.receive maxSize completion) = some following) :
    Admissible maxSize completion ∧ ∃ after handled,
      readSomeVec socket state.buffer maxSize completion = .ok (after, handled) ∧
        following = { state with buffer := after } := by
  simp only [next] at hnext
  split at hnext
  next hadmissible =>
    split at hnext
    · cases hnext
    next after handled hread =>
      exact ⟨hadmissible, after, handled, hread, (Option.some.inj hnext).symm⟩
  next => cases hnext

/-- Reading into the vector keeps what the stream has parsed, as long as it does not cut it. -/
theorem Parsed.receive (h : Parsed state) {maxSize : Nat} {completion : Completion}
    (hkeeps : KeepsTaken state (.receive maxSize completion))
    (hnext : next socket state (.receive maxSize completion) = some following) :
    Parsed following := by
  obtain ⟨hadmissible, after, handled, hread, rfl⟩ := receive_step hnext
  obtain ⟨rest, hsplit⟩ := h.split
  obtain ⟨hsize, ⟨-, more, rfl⟩ | ⟨hneg, hreset, hlength, hprefix⟩⟩ :=
    receive_cases h.size_le hadmissible hread
  · refine ⟨⟨rest ++ more, ?_⟩, h.cursor, hsize, h.fits, h.accepts⟩
    show state.buffer ++ more = _
    rw [hsplit, List.append_assoc]
  · -- The cut leaves the cursor inside, so what lies before it is a prefix of both vectors.
    have hinside : state.stream.cursor ≤ after.length := by
      rcases hkeeps with hnonneg | hcode | hcursor
      · omega
      · exact absurd hcode hreset
      · omega
    have hparsed : RoundTrip.encodeAll (state.taken.map Prod.snd) <+: after :=
      List.prefix_of_prefix_length_le (hsplit ▸ List.prefix_append _ _) hprefix
        (h.cursor ▸ hinside)
    obtain ⟨left, hleft⟩ := hparsed
    exact ⟨⟨left, hleft.symm⟩, h.cursor, hsize, h.fits, h.accepts⟩

/-- Where the stream has parsed its values, a fresh one takes the same. -/
theorem Parsed.agrees (h : Parsed state) : Agrees state := by
  have hmax := vector_max_size_lt
  obtain ⟨rest, hsplit⟩ := h.split
  have haccepts : List.Forall₂ Value.Accepts (state.taken.map Prod.snd)
      (state.taken.map fun entry => entry.1.target) := by
    rw [List.forall₂_map_left_iff, List.forall₂_map_right_iff, List.forall₂_same]
    exact h.accepts
  have hfits : ∀ value ∈ state.taken.map Prod.snd, value.Fits := by
    intro value hmem
    obtain ⟨entry, hentry, rfl⟩ := List.mem_map.mp hmem
    exact h.fits entry hentry
  have hsize : ([] ++ RoundTrip.encodeAll (state.taken.map Prod.snd) ++ rest).length < 2 ^ 64 := by
    rw [List.nil_append, ← hsplit]
    have hle := h.size_le
    omega
  have hread := RoundTrip.read_all_append (show ({} : ByteIStream).cursor =
    ([] : List UInt8).length from rfl) hsize hfits haccepts
  rw [List.nil_append, ← hsplit, List.length_nil, Nat.zero_add, ← h.cursor, List.map_map] at hread
  exact hread

/-- A stream whose cursor is past the end of the vector agrees with no fresh one. -/
theorem not_agrees_past (hsize : state.buffer.length ≤ vectorMaxSize)
    (hpast : state.buffer.length < state.stream.cursor) : ¬ Agrees state := by
  intro hagrees
  have hinMemory : ∀ target ∈ state.taken.map fun entry => entry.1.target, target.InMemory := by
    intro target hmem
    obtain ⟨entry, -, rfl⟩ := List.mem_map.mp hmem
    exact entry.1.inMemory
  obtain ⟨-, hcursor, -⟩ := Chain.read_all_taken hinMemory
    (show RoundTrip.readAll {} (Storage.mk state.buffer hsize).bytes _ = _ from hagrees)
  have hle := total_fit_le RoundTrip.Target.size state.buffer.length
    (state.taken.map fun entry => entry.1.target)
  dsimp only at hcursor
  omega

/-- Reading into the vector with an error code that cuts it ends the agreement. -/
theorem receive_breaks (h : Parsed state) {maxSize : Nat} {completion : Completion}
    (hcuts : ¬ KeepsTaken state (.receive maxSize completion))
    (hnext : next socket state (.receive maxSize completion) = some following) :
    ¬ Agrees following := by
  obtain ⟨hadmissible, after, handled, hread, rfl⟩ := receive_step hnext
  obtain ⟨hsize, ⟨hkept, -⟩ | ⟨hneg, hreset, hlength, -⟩⟩ :=
    receive_cases h.size_le hadmissible hread
  · refine absurd ?_ hcuts
    rcases hkept with hnonneg | hcode
    · exact Or.inl hnonneg
    · exact Or.inr (Or.inl hcode)
  · refine not_agrees_past hsize ?_
    show after.length < state.stream.cursor
    have hcursor : ¬ (state.stream.cursor : Int) ≤ state.buffer.length + completion.res :=
      fun hle => hcuts (Or.inr (Or.inr hle))
    omega

end Steps

/-- For every interleaving of reads into the vector and reads through the stream, the values taken
are throughout those that a fresh stream takes from the vector as it then is, exactly if no error
code of a read cuts the vector below the cursor. -/
theorem incremental_agrees_iff {socket : Socket} {schedule : List Action} {state : State}
    (h : (machine socket).run schedule = some state) :
    (machine socket).Guarded KeepsTaken schedule ↔
      (machine socket).Always Agrees schedule := by
  refine Machine.guarded_iff_always (I := Parsed) ?_ ?_ (fun _ hparsed => hparsed.agrees) ?_ h
  · exact ⟨⟨[], rfl⟩, rfl, Nat.zero_le _, fun _ hmem => absurd hmem List.not_mem_nil,
      fun _ hmem => absurd hmem List.not_mem_nil⟩
  · intro state action following hparsed hkeeps hnext
    change next socket state action = some following at hnext
    cases action with
    | receive maxSize completion => exact hparsed.receive hkeeps hnext
    | read destination => exact hparsed.read hnext
  · intro state action following hparsed hcuts hnext
    change next socket state action = some following at hnext
    cases action with
    | receive maxSize completion => exact receive_breaks hparsed hcuts hnext
    | read destination => exact absurd trivial hcuts

/-- A word is asked for after one of its bytes, and again after the other. -/
def retried : List Action :=
  [.receive 2 (delivers [1]), .read ⟨.u16 none, trivial⟩, .receive 2 (delivers [0xBB]),
    .read ⟨.u16 none, trivial⟩]

/-- The word is taken when it has arrived, and no step cuts the vector. -/
theorem incremental_agrees_retried :
    (∃ state, (machine ⟨3⟩).run retried = some state ∧
      state.taken.map Prod.snd = [.u16 0x01BB]) ∧
    (machine ⟨3⟩).Always Agrees retried := by
  have hrun : ((machine ⟨3⟩).run retried).map (fun state => state.taken.map Prod.snd) =
      some [.u16 0x01BB] := by
    decide +kernel
  obtain ⟨state, hstate, htaken⟩ := Option.map_eq_some_iff.mp hrun
  refine ⟨⟨state, hstate, htaken⟩, (incremental_agrees_iff hstate).mp ?_⟩
  refine ⟨Or.inl (by decide), fun _ _ => ⟨trivial, fun _ _ => ⟨Or.inl (by decide), fun _ _ => ?_⟩⟩⟩
  exact ⟨trivial, fun _ _ => trivial⟩

end Incremental

end Toad
