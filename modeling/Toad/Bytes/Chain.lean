import Toad.Bytes.RoundTrip
import Toad.Codec.Packing

/-!
# Chains of stream operations

The streams are used fluently, `stream.write_u8(a).write_u16(b)...`, and the error code is
looked at after the whole chain or not at all. No operation tests the error code of an earlier
one, so a chain goes on past an element that did not fit. The results here say what a whole
chain does for every list of elements and every buffer: a write chain stores the encodings of
the elements that `Packing.fit` selects, and a read chain fills the destinations that find
their bytes and leaves the others alone.
-/

namespace Toad

/-- Bytes in memory: an allocation has at most `PTRDIFF_MAX` bytes. -/
structure Storage where
  bytes : List UInt8
  size_le : bytes.length ≤ vectorMaxSize

/-- The bytes in the window of a buffer. -/
def Buffer.window (buf : Buffer) : List UInt8 :=
  (buf.shared.drop buf.offset).take buf.size

/-- A window inside the allocation has as many bytes as the buffer says. -/
theorem Buffer.length_window {buf : Buffer} (h : buf.WithinBounds buf.shared.length) :
    buf.window.length = buf.size := by
  change buf.offset + buf.size ≤ buf.shared.length at h
  rw [window, List.length_take, List.length_drop]
  omega

namespace RoundTrip.Target

/-- The number of bytes a read asks for. -/
def size : Target → Nat
  | .u8 _ => 1
  | .u16 _ => 2
  | .array size _ => size
  | .vector vec count => count.getD vec.length

/-- What the destination of a read holds before the call. -/
def held : Target → Option Value
  | .u8 out => out.map .u8
  | .u16 out => out.map .u16
  | .array size out => out.map (.array size)
  | .vector vec _ => some (.vector vec)

/-- The destination is an object in memory: an array has at most `PTRDIFF_MAX` bytes. The count
passed for a vector may be any number. -/
def InMemory : Target → Prop
  | .array size _ => size ≤ vectorMaxSize
  | _ => True

end RoundTrip.Target

namespace Chain

open RoundTrip (Value Target)
open Packing

/-- An element of a write chain: a value, or the window of another buffer. -/
inductive Write where
  | typed (value : Value)
  | buffer (buf : Buffer)
  deriving DecidableEq, Repr

/-- The number of bytes the element asks for. -/
def Write.size : Write → Nat
  | .typed value => value.encode.length
  | .buffer buf => buf.size

/-- The bytes the element stands for. -/
def Write.encode : Write → List UInt8
  | .typed value => value.encode
  | .buffer buf => buf.window

/-- The bytes of the element can be read: the window of a buffer lies in its allocation. -/
def Write.Readable : Write → Prop
  | .typed _ => True
  | .buffer buf => buf.WithinBounds buf.shared.length

/-- The element is an object in memory. -/
structure Write.InMemory (element : Write) : Prop where
  readable : element.Readable
  size_le : element.size ≤ vectorMaxSize

/-- The concatenation of the encodings. -/
def encodeAll (writes : List Write) : List UInt8 :=
  writes.flatMap Write.encode

/-- What a chain of reads leaves in its destinations, when `rest` lies after the cursor. A read
that finds its bytes takes them, and one that does not leaves its destination as it was and
the bytes to the reads after it. -/
def Outcomes : List UInt8 → List Target → List (Option Value) → Prop
  | _, [], outs => outs = []
  | rest, target :: targets, outs =>
      ∃ out others, outs = out :: others ∧
        ((target.size ≤ rest.length ∧
            (∃ value, value.Accepts target ∧ value.encode = rest.take target.size ∧
              out = some value) ∧
            Outcomes (rest.drop target.size) targets others) ∨
          (rest.length < target.size ∧ out = target.held ∧ Outcomes rest targets others))

/-- The write operation for one element. -/
def write (stream : ByteOStream) (buffer : List UInt8) : Write →
    Option (ByteOStream × List UInt8)
  | .typed value => RoundTrip.write stream buffer value
  | .buffer buf => stream.writeBuffer buffer buf

/-- A chain of writes. -/
def writeAll (stream : ByteOStream) (buffer : List UInt8) : List Write →
    Option (ByteOStream × List UInt8)
  | [] => some (stream, buffer)
  | element :: writes => do
      let (stream, buffer) ← write stream buffer element
      writeAll stream buffer writes

section Writes

variable {stream : ByteOStream} {buffer before rest : List UInt8}

/-- The bytes of a readable element are as many as it asks for. -/
theorem length_encode {element : Write} (h : element.Readable) :
    element.encode.length = element.size := by
  cases element with
  | typed value => rfl
  | buffer buf => exact Buffer.length_window h

/-- The encoding of a readable chain is as long as its elements together. -/
theorem length_encode_all {writes : List Write} (h : ∀ element ∈ writes, element.Readable) :
    (encodeAll writes).length = total Write.size writes := by
  induction writes with
  | nil => rfl
  | cons element writes ih =>
      have hrest := ih (fun other hmem => h other (List.mem_cons_of_mem _ hmem))
      rw [encodeAll, List.flatMap_cons, List.length_append, total_cons,
        length_encode (h element List.mem_cons_self)]
      exact congrArg (element.size + ·) hrest

/-- A chain in memory can be read. -/
theorem readable_of_in_memory {writes : List Write} (h : ∀ element ∈ writes, element.InMemory) :
    ∀ element ∈ writes, element.Readable :=
  fun element hmem => (h element hmem).readable

/-- A byte is in memory. -/
@[simp] theorem in_memory_u8 (value : UInt8) : (Write.typed (.u8 value)).InMemory :=
  ⟨trivial, show 1 ≤ vectorMaxSize by decide⟩

/-- A word is in memory. -/
@[simp] theorem in_memory_u16 (value : UInt16) : (Write.typed (.u16 value)).InMemory :=
  ⟨trivial, show 2 ≤ vectorMaxSize by decide⟩

/-- An array is in memory unless it is larger than any allocation. -/
@[simp] theorem in_memory_array {size : Nat} (bytes : Vector UInt8 size) :
    (Write.typed (.array size bytes)).InMemory ↔ size ≤ vectorMaxSize := by
  have hlength : (Write.typed (.array size bytes)).size = size := Vector.length_toList
  constructor
  · intro h
    rw [← hlength]
    exact h.size_le
  · intro h
    exact ⟨trivial, hlength.symm ▸ h⟩

/-- Copying the window of a buffer out of its allocation succeeds inside the allocation only,
and yields the window. -/
theorem copy_out_window {buf : Buffer} {bytes : List UInt8} :
    (ByteIStream.copyOut buf.shared buf.offset buf.size).map Vector.toList = some bytes ↔
      buf.WithinBounds buf.shared.length ∧ bytes = buf.window := by
  unfold ByteIStream.copyOut Buffer.WithinBounds
  split
  case isTrue hwithin =>
      simp only [hwithin, true_and, Option.map_some, Option.some.injEq]
      exact eq_comm
  case isFalse hout => simp [hout]

/-- A copy that passes the guard and returns was a copy inside the buffer. -/
theorem write_bytes_inside {size : Nat} {source : Option (List UInt8)}
    {result : ByteOStream × List UInt8} (hguard : szAdd stream.cursor size ≤ buffer.length)
    (h : stream.writeBytes buffer size source = some result) :
    ∃ bytes, source = some bytes ∧ stream.cursor + bytes.length ≤ buffer.length := by
  rw [ByteOStream.writeBytes, if_pos hguard] at h
  cases source with
  | none => exact absurd h (by simp [bind])
  | some bytes =>
      refine ⟨bytes, rfl, ?_⟩
      by_contra hout
      simp [ByteOStream.copyIn, hout] at h

/-- An element whose guard passes and that returns is readable and inside the buffer. -/
theorem write_inside {element : Write} {result : ByteOStream × List UInt8}
    (hcursor : stream.cursor ≤ buffer.length) (hsize : buffer.length ≤ vectorMaxSize)
    (hguard : szAdd stream.cursor element.size ≤ buffer.length)
    (h : write stream buffer element = some result) :
    element.Readable ∧ stream.cursor + element.size ≤ buffer.length := by
  have hmax := vector_max_size_lt
  cases element with
  | typed value =>
      refine ⟨trivial, ?_⟩
      cases value with
      | u8 value =>
          change szAdd stream.cursor 1 ≤ buffer.length at hguard
          rwa [sz_add_eq (by omega)] at hguard
      | u16 value =>
          change szAdd stream.cursor 2 ≤ buffer.length at hguard
          rwa [sz_add_eq (by omega)] at hguard
      | array size bytes =>
          have hlength : bytes.toList.length = size := Vector.length_toList
          change szAdd stream.cursor bytes.toList.length ≤ buffer.length at hguard
          rw [hlength] at hguard
          obtain ⟨copied, hcopied, hinside⟩ := write_bytes_inside hguard h
          rwa [← Option.some.inj hcopied] at hinside
      | vector bytes =>
          obtain ⟨copied, hcopied, hinside⟩ := write_bytes_inside hguard h
          rwa [← Option.some.inj hcopied] at hinside
  | buffer buf =>
      obtain ⟨copied, hcopied, hinside⟩ := write_bytes_inside hguard h
      obtain ⟨hwithin, rfl⟩ := copy_out_window.mp hcopied
      rw [Buffer.length_window hwithin] at hinside
      exact ⟨hwithin, hinside⟩

/-- A readable element replaces what stands at the cursor by its bytes. -/
theorem write_append {element : Write} {old after : List UInt8}
    (hcursor : stream.cursor = before.length) (hreadable : element.Readable)
    (hold : old.length = element.size)
    (hsize : (before ++ old ++ after).length < 2 ^ 64) :
    write stream (before ++ old ++ after) element =
      some (stream.advance element.size, before ++ element.encode ++ after) := by
  cases element with
  | typed value => exact RoundTrip.write_append value hcursor hold hsize
  | buffer buf =>
      have hsource := copy_out_window.mpr ⟨hreadable, rfl⟩
      show stream.writeBytes _ buf.size _ = _
      rw [hsource]
      exact ByteOStream.write_bytes_append hcursor (Buffer.length_window hreadable) hold hsize

/-- A readable element that finds room is stored whole at the cursor. -/
theorem write_fits {element : Write} (hcursor : stream.cursor = before.length)
    (hreadable : element.Readable) (hfits : element.size ≤ rest.length)
    (hsize : (before ++ rest).length ≤ vectorMaxSize) :
    write stream (before ++ rest) element =
      some (stream.advance element.size,
        before ++ element.encode ++ rest.drop element.size) := by
  have hmax := vector_max_size_lt
  have hsplit : before ++ rest =
      before ++ rest.take element.size ++ rest.drop element.size := by
    rw [List.append_assoc, List.take_append_drop]
  have hwrite := write_append hcursor hreadable (List.length_take_of_le hfits)
    (by rw [← hsplit]; omega)
  rwa [← hsplit] at hwrite

/-- An element whose guard fails is refused. -/
theorem write_refused {element : Write}
    (hguard : ¬ szAdd stream.cursor element.size ≤ buffer.length) :
    write stream buffer element = some (stream.fail, buffer) := by
  cases element with
  | typed value =>
      cases value with
      | u8 value => exact if_neg hguard
      | u16 value => exact if_neg hguard
      | array size bytes =>
          have hlength : bytes.toList.length = size := Vector.length_toList
          change ¬ szAdd stream.cursor bytes.toList.length ≤ buffer.length at hguard
          rw [hlength] at hguard
          exact if_neg hguard
      | vector bytes => exact if_neg hguard
  | buffer buf => exact if_neg hguard

/-- What one element of a chain does: it is stored whole at the cursor or refused, whatever
happened before it. -/
theorem write_some {element : Write} {result : ByteOStream × List UInt8}
    (hcursor : stream.cursor = before.length)
    (hsize : (before ++ rest).length ≤ vectorMaxSize)
    (h : write stream (before ++ rest) element = some result) :
    (element.Readable ∧ element.size ≤ rest.length ∧
      result = (stream.advance element.size,
        before ++ element.encode ++ rest.drop element.size)) ∨
    (rest.length < element.size ∧ result = (stream.fail, before ++ rest)) := by
  have hmax := vector_max_size_lt
  have htotal : (before ++ rest).length = before.length + rest.length := List.length_append
  by_cases hguard : szAdd stream.cursor element.size ≤ (before ++ rest).length
  · left
    obtain ⟨hreadable, hinside⟩ := write_inside (by omega) hsize hguard h
    have hfits : element.size ≤ rest.length := by omega
    have hwrite := write_fits hcursor hreadable hfits hsize
    exact ⟨hreadable, hfits, Option.some.inj (h.symm.trans hwrite)⟩
  · right
    refine ⟨?_, Option.some.inj (h.symm.trans (write_refused hguard))⟩
    by_contra hfits
    rw [sz_add_eq (by omega)] at hguard
    omega

/-- An element in memory never makes a write leave the buffer. -/
theorem write_returns {element : Write} (hcursor : stream.cursor = before.length)
    (hsize : (before ++ rest).length ≤ vectorMaxSize) (helement : element.InMemory) :
    ∃ result, write stream (before ++ rest) element = some result := by
  have hmax := vector_max_size_lt
  have htotal : (before ++ rest).length = before.length + rest.length := List.length_append
  have helementSize := helement.size_le
  by_cases hfits : element.size ≤ rest.length
  · exact ⟨_, write_fits hcursor helement.readable hfits hsize⟩
  · refine ⟨_, write_refused ?_⟩
    rw [sz_add_eq (by omega)]
    omega

/-- The state after an element has been stored is again one where the cursor stands at the end
of what has been written. -/
theorem advance_cursor {size : Nat} {stored : List UInt8}
    (hcursor : stream.cursor = before.length) (hstored : stored.length = size)
    (hsize : before.length + size ≤ vectorMaxSize) :
    (stream.advance size).cursor = (before ++ stored).length := by
  have hmax := vector_max_size_lt
  show szAdd stream.cursor size = _
  rw [sz_add_eq (by omega), hcursor, List.length_append, hstored]

/-- What a chain of writes leaves behind, for every list of elements: the bytes of the elements
that fitted, in order, from the cursor on, and an error code that is set once an element did
not fit. -/
theorem write_all_some {writes : List Write} {result : ByteOStream × List UInt8}
    (hcursor : stream.cursor = before.length)
    (hsize : (before ++ rest).length ≤ vectorMaxSize)
    (h : writeAll stream (before ++ rest) writes = some result) :
    result.1.cursor = before.length + total Write.size (fit Write.size rest.length writes) ∧
      (∀ element ∈ fit Write.size rest.length writes, element.Readable) ∧
      result.2 = before ++ encodeAll (fit Write.size rest.length writes) ++
        rest.drop (total Write.size (fit Write.size rest.length writes)) ∧
      (result.1.errc = .ok ↔
        stream.errc = .ok ∧ fit Write.size rest.length writes = writes) := by
  -- The induction moves each accepted element from the rest to what lies before the cursor.
  induction writes generalizing stream before rest with
  | nil =>
      obtain rfl := Option.some.inj h
      simp [fit, encodeAll, hcursor]
  | cons element writes ih =>
      rw [writeAll] at h
      obtain ⟨⟨next, buffer⟩, hwrite, hrest⟩ := Option.bind_eq_some_iff.mp h
      have hlength : (before ++ rest).length = before.length + rest.length := List.length_append
      rcases write_some hcursor hsize hwrite with ⟨hreadable, hfits, hnext⟩ | ⟨hshort, hnext⟩
      · obtain ⟨rfl, rfl⟩ := Prod.mk.inj hnext
        have hencode := length_encode hreadable
        have hcursor' := advance_cursor hcursor hencode (by omega)
        have hsize' :
            (before ++ element.encode ++ rest.drop element.size).length ≤ vectorMaxSize := by
          simp only [List.length_append, List.length_drop]
          omega
        obtain ⟨hfinal, hall, hbytes, herrc⟩ := ih hcursor' hsize' hrest
        rw [List.length_drop] at hfinal hall hbytes herrc
        rw [fit_cons_of_le hfits, total_cons, hfinal, hbytes, herrc]
        refine ⟨?_, ?_, ?_, ?_⟩
        · rw [List.length_append]
          omega
        · exact List.forall_mem_cons.mpr ⟨hreadable, hall⟩
        · simp [encodeAll, List.drop_drop]
        · rw [List.cons_inj_right]
          rfl
      · obtain ⟨rfl, rfl⟩ := Prod.mk.inj hnext
        have hsame : stream.fail.cursor = before.length := hcursor
        obtain ⟨hfinal, hall, hbytes, herrc⟩ := ih hsame hsize hrest
        rw [fit_cons_of_lt hshort]
        refine ⟨hfinal, hall, hbytes, ?_⟩
        rw [herrc]
        constructor
        · intro hok
          exact absurd hok.1 (by simp [ByteOStream.fail])
        · intro hok
          exact absurd hok.2 (fit_ne_of_lt hshort)

/-- A chain of readable elements replaces what stands at the cursor by their encodings. -/
theorem write_all_append {writes : List Write} {old after : List UInt8}
    (hcursor : stream.cursor = before.length)
    (hreadable : ∀ element ∈ writes, element.Readable)
    (hold : old.length = total Write.size writes)
    (hsize : (before ++ old ++ after).length < 2 ^ 64) :
    writeAll stream (before ++ old ++ after) writes =
      some ({ stream with cursor := before.length + total Write.size writes },
        before ++ encodeAll writes ++ after) := by
  induction writes generalizing stream before old with
  | nil =>
      obtain rfl : old = [] := List.eq_nil_of_length_eq_zero hold
      simp [writeAll, encodeAll, ← hcursor]
  | cons element writes ih =>
      have helement := hreadable element List.mem_cons_self
      have hencode := length_encode helement
      rw [total_cons] at hold
      obtain ⟨first, rest, rfl, hfirst⟩ : ∃ first rest, old = first ++ rest ∧
          first.length = element.size :=
        ⟨old.take element.size, old.drop element.size, by simp, by simp; omega⟩
      simp only [List.length_append] at hold hsize
      have hsplit : before ++ (first ++ rest) ++ after = before ++ first ++ (rest ++ after) := by
        simp
      have hjoin : before ++ element.encode ++ (rest ++ after) =
          (before ++ element.encode) ++ rest ++ after := by
        simp
      have hcursor' : (stream.advance element.size).cursor =
          (before ++ element.encode).length := by
        show szAdd stream.cursor element.size = _
        rw [sz_add_eq (by omega), hcursor, List.length_append, hencode]
      have hlt : (before ++ first ++ (rest ++ after)).length < 2 ^ 64 := by
        simp only [List.length_append]
        omega
      have hlt' : ((before ++ element.encode) ++ rest ++ after).length < 2 ^ 64 := by
        simp only [List.length_append]
        omega
      have hrest := ih hcursor'
        (fun other hmem => hreadable other (List.mem_cons_of_mem _ hmem)) (by omega) hlt'
      rw [hsplit, writeAll, write_append hcursor helement hfirst hlt]
      show writeAll (stream.advance element.size) _ writes = _
      rw [hjoin, hrest]
      simp [encodeAll, ByteOStream.advance, hencode, Nat.add_assoc]

/-- A fresh stream with room for all of a chain stores all of it. -/
theorem write_all_room {writes : List Write} {buffer : List UInt8}
    (hreadable : ∀ element ∈ writes, element.Readable) (hsize : buffer.length < 2 ^ 64)
    (hroom : total Write.size writes ≤ buffer.length) :
    writeAll {} buffer writes =
      some ({ cursor := total Write.size writes, errc := .ok },
        encodeAll writes ++ buffer.drop (total Write.size writes)) := by
  have hsplit : buffer = [] ++ buffer.take (total Write.size writes) ++
      buffer.drop (total Write.size writes) := by
    simp
  have hstart : ({} : ByteOStream).cursor = ([] : List UInt8).length := rfl
  have hwrite := write_all_append hstart hreadable (List.length_take_of_le hroom) (hsplit ▸ hsize)
  rw [← hsplit] at hwrite
  simpa using hwrite

/-- A chain of elements in memory always returns. -/
theorem write_all_returns {writes : List Write} (hcursor : stream.cursor = before.length)
    (hsize : (before ++ rest).length ≤ vectorMaxSize)
    (hwrites : ∀ element ∈ writes, element.InMemory) :
    ∃ result, writeAll stream (before ++ rest) writes = some result := by
  induction writes generalizing stream before rest with
  | nil => exact ⟨_, rfl⟩
  | cons element writes ih =>
      have hothers : ∀ other ∈ writes, other.InMemory := fun other hmem =>
        hwrites other (List.mem_cons_of_mem _ hmem)
      have hlength : (before ++ rest).length = before.length + rest.length := List.length_append
      obtain ⟨result, hwrite⟩ := write_returns hcursor hsize (hwrites element List.mem_cons_self)
      rw [writeAll, hwrite]
      rcases write_some hcursor hsize hwrite with ⟨hreadable, hfits, rfl⟩ | ⟨-, rfl⟩
      · have hencode := length_encode hreadable
        refine ih (advance_cursor hcursor hencode (by omega)) ?_ hothers
        simp only [List.length_append, List.length_drop]
        omega
      · have hsame : stream.fail.cursor = before.length := hcursor
        exact ih hsame hsize hothers

/-- A chain of elements in memory returns from a fresh stream. -/
theorem write_all_fresh (storage : Storage) {writes : List Write}
    (h : ∀ element ∈ writes, element.InMemory) :
    ∃ result, writeAll {} storage.bytes writes = some result :=
  write_all_returns (show ({} : ByteOStream).cursor = ([] : List UInt8).length from rfl)
    storage.size_le h

/-- What a chain of writes leaves in a buffer, when it starts from a fresh stream. -/
theorem write_all_taken {storage : Storage} {writes : List Write}
    {result : ByteOStream × List UInt8}
    (h : writeAll {} storage.bytes writes = some result) :
    result.2.take result.1.cursor = encodeAll (fit Write.size storage.bytes.length writes) ∧
      result.2.drop result.1.cursor = storage.bytes.drop result.1.cursor ∧
      result.1.cursor = total Write.size (fit Write.size storage.bytes.length writes) ∧
      (result.1.errc = .ok ↔ fit Write.size storage.bytes.length writes = writes) := by
  have hstart : ({} : ByteOStream).cursor = ([] : List UInt8).length := rfl
  obtain ⟨hcursor, hreadable, hbytes, herrc⟩ := write_all_some hstart storage.size_le h
  have hstored := length_encode_all hreadable
  rw [List.length_nil, Nat.zero_add, ← hstored] at hcursor
  rw [List.nil_append, ← hstored, ← hcursor] at hbytes
  refine ⟨?_, ?_, hcursor.trans hstored, by simpa using herrc⟩
  · rw [hbytes, hcursor, List.take_left]
  · rw [hbytes, hcursor, List.drop_left]

end Writes

section Reads

variable {stream : ByteIStream} {buffer before rest : List UInt8}

/-- The two bytes of a word are the digits of their combination. -/
theorem encode_combine (hi lo : UInt8) :
    (Value.u16 (ByteIStream.combine hi lo)).encode = [hi, lo] := by
  have hhi : hi.toNat < 256 := hi.toNat_lt
  have hlo : lo.toNat < 256 := lo.toNat_lt
  have hdiv : (256 * hi.toNat + lo.toNat) / 256 = hi.toNat := by omega
  have hmod : (256 * hi.toNat + lo.toNat) % 256 = lo.toNat := by omega
  rw [Value.encode, ByteIStream.combine_to_nat, hdiv, hmod, UInt8.ofNat_toNat, UInt8.ofNat_toNat]

/-- Every stretch of bytes of the right length is the encoding of a value for the
destination. -/
theorem exists_accepted (target : Target) {bytes : List UInt8}
    (hlength : bytes.length = target.size) :
    ∃ value : Value, value.Accepts target ∧ value.encode = bytes := by
  cases target with
  | u8 out =>
      obtain ⟨byte, rfl⟩ := List.length_eq_one_iff.mp hlength
      exact ⟨.u8 byte, trivial, rfl⟩
  | u16 out =>
      obtain ⟨hi, lo, rfl⟩ := List.length_eq_two.mp hlength
      exact ⟨.u16 (ByteIStream.combine hi lo), trivial, encode_combine hi lo⟩
  | array size out => exact ⟨.array size ⟨bytes.toArray, hlength⟩, rfl, rfl⟩
  | vector vec count => exact ⟨.vector bytes, hlength.symm, rfl⟩

/-- Every byte sequence of the right length is the encoding of values for the destinations of a
chain. -/
theorem exists_accepted_all {targets : List Target} {bytes : List UInt8}
    (hlength : bytes.length = total RoundTrip.Target.size targets) :
    ∃ values, List.Forall₂ Value.Accepts values targets ∧ RoundTrip.encodeAll values = bytes := by
  induction targets generalizing bytes with
  | nil => exact ⟨[], .nil, (List.eq_nil_of_length_eq_zero hlength).symm⟩
  | cons target targets ih =>
      rw [total_cons] at hlength
      obtain ⟨value, haccepts, hvalue⟩ := exists_accepted target
        (List.length_take_of_le (by omega : target.size ≤ bytes.length))
      have hdrop : (bytes.drop target.size).length = total RoundTrip.Target.size targets := by
        rw [List.length_drop]
        omega
      obtain ⟨values, hrest, hvalues⟩ := ih hdrop
      refine ⟨value :: values, .cons haccepts hrest, ?_⟩
      show value.encode ++ RoundTrip.encodeAll values = bytes
      rw [hvalue, hvalues, List.take_append_drop]

/-- A value for a byte is a byte. -/
theorem accepts_u8 {value : Value} {out : Option UInt8} (h : value.Accepts (.u8 out)) :
    ∃ byte, value = .u8 byte := by
  cases value with
  | u8 byte => exact ⟨byte, rfl⟩
  | u16 word => exact h.elim
  | array size bytes => exact h.elim
  | vector bytes => exact h.elim

/-- A value for a word is a word. -/
theorem accepts_u16 {value : Value} {out : Option UInt16} (h : value.Accepts (.u16 out)) :
    ∃ word, value = .u16 word := by
  cases value with
  | u8 byte => exact h.elim
  | u16 word => exact ⟨word, rfl⟩
  | array size bytes => exact h.elim
  | vector bytes => exact h.elim

/-- A value for an array is an array of its size. -/
theorem accepts_array {value : Value} {size : Nat} {out : Option (Vector UInt8 size)}
    (h : value.Accepts (.array size out)) : ∃ bytes, value = .array size bytes := by
  cases value with
  | u8 byte => exact h.elim
  | u16 word => exact h.elim
  | array other bytes =>
      obtain rfl : other = size := h
      exact ⟨bytes, rfl⟩
  | vector bytes => exact h.elim

/-- A read whose guard fails consumes nothing and leaves its destination alone. -/
theorem read_refused {target : Target}
    (hguard : ¬ szAdd stream.cursor target.size ≤ buffer.length) :
    RoundTrip.read stream buffer target = .ok (stream.fail target.size, target.held) := by
  cases target with
  | u8 out =>
      have hread : stream.readU8 buffer out = (stream.fail 1, out) := if_neg hguard
      simp only [RoundTrip.read, hread]
      rfl
  | u16 out =>
      have hread : stream.readU16 buffer out = (stream.fail 2, out) := if_neg hguard
      simp only [RoundTrip.read, hread]
      rfl
  | array size out =>
      have hread : stream.readArray buffer out = (stream.fail size, out) := if_neg hguard
      simp only [RoundTrip.read, hread]
      rfl
  | vector vec count =>
      have hread : stream.readVector buffer vec count =
          pure (stream.fail (count.getD vec.length), some vec) := if_neg hguard
      simp only [RoundTrip.read, hread]
      rfl

/-- A read whose guard passes and that returns has its bytes in the buffer: a count for which
the guard wraps makes `resize` throw. -/
theorem read_inside {target : Target} {result : ByteIStream × Option Value}
    (hcursor : stream.cursor ≤ buffer.length) (hsize : buffer.length ≤ vectorMaxSize)
    (htarget : target.InMemory)
    (hguard : szAdd stream.cursor target.size ≤ buffer.length)
    (h : RoundTrip.read stream buffer target = .ok result) :
    stream.cursor + target.size ≤ buffer.length := by
  have hmax := vector_max_size_lt
  have hsmall : target.size ≤ vectorMaxSize := by
    cases target with
    | u8 out => exact (by decide : 1 ≤ vectorMaxSize)
    | u16 out => exact (by decide : 2 ≤ vectorMaxSize)
    | array size out => exact htarget
    | vector vec count =>
        by_contra hlarge
        change ¬ count.getD vec.length ≤ vectorMaxSize at hlarge
        change szAdd stream.cursor (count.getD vec.length) ≤ buffer.length at hguard
        simp [RoundTrip.read, ByteIStream.readVector, hguard, vectorResize, hlarge, bind,
          Except.bind] at h
  rwa [sz_add_eq (by omega)] at hguard

/-- A chain of reads that returns is its first read and then the others. -/
theorem read_all_cons {target : Target} {targets : List Target}
    {result : ByteIStream × List (Option Value)}
    (h : RoundTrip.readAll stream buffer (target :: targets) = .ok result) :
    ∃ first others, RoundTrip.read stream buffer target = .ok first ∧
      RoundTrip.readAll first.1 buffer targets = .ok others ∧
      result = (others.1, first.2 :: others.2) := by
  rw [RoundTrip.readAll] at h
  cases hfirst : RoundTrip.read stream buffer target with
  | error exception => simp [hfirst, bind, Except.bind] at h
  | ok first =>
      cases hothers : RoundTrip.readAll first.1 buffer targets with
      | error exception => simp [hfirst, hothers, bind, Except.bind] at h
      | ok others =>
          refine ⟨first, others, rfl, hothers, ?_⟩
          simpa [hfirst, hothers, bind, Except.bind, pure, Except.pure] using h.symm

/-- A read that finds its bytes takes them. -/
theorem read_fits {target : Target} (hcursor : stream.cursor = before.length)
    (hsize : (before ++ rest).length ≤ vectorMaxSize) (hfits : target.size ≤ rest.length) :
    ∃ value : Value, value.Accepts target ∧ value.encode = rest.take target.size ∧
      RoundTrip.read stream (before ++ rest) target =
        .ok (stream.advance target.size, some value) := by
  have hmax := vector_max_size_lt
  have hlength : (before ++ rest).length = before.length + rest.length := List.length_append
  have htake : (rest.take target.size).length = target.size := List.length_take_of_le hfits
  obtain ⟨value, haccepts, hencode⟩ := exists_accepted target htake
  have hsplit : before ++ rest = before ++ value.encode ++ rest.drop target.size := by
    rw [hencode, List.append_assoc, List.take_append_drop]
  have hvalue : value.Fits := by
    cases value with
    | vector bytes =>
        change bytes.length ≤ vectorMaxSize
        rw [show bytes = rest.take target.size from hencode, htake]
        omega
    | u8 value => trivial
    | u16 value => trivial
    | array size bytes => trivial
  have hlt : (before ++ value.encode ++ rest.drop target.size).length < 2 ^ 64 := by
    rw [← hsplit]
    omega
  have hread := RoundTrip.read_append hcursor hlt hvalue haccepts
  rw [← hsplit, hencode, htake] at hread
  exact ⟨value, haccepts, hencode, hread⟩

/-- What one read of a chain does, whatever happened before it. -/
theorem read_ok {target : Target} {result : ByteIStream × Option Value}
    (hcursor : stream.cursor = before.length)
    (hsize : (before ++ rest).length ≤ vectorMaxSize) (htarget : target.InMemory)
    (h : RoundTrip.read stream (before ++ rest) target = .ok result) :
    (target.size ≤ rest.length ∧
      ∃ value : Value, value.Accepts target ∧ value.encode = rest.take target.size ∧
        result = (stream.advance target.size, some value)) ∨
    (rest.length < target.size ∧ result = (stream.fail target.size, target.held)) := by
  have hmax := vector_max_size_lt
  have hlength : (before ++ rest).length = before.length + rest.length := List.length_append
  by_cases hguard : szAdd stream.cursor target.size ≤ (before ++ rest).length
  · left
    have hinside := read_inside (by omega) hsize htarget hguard h
    have hfits : target.size ≤ rest.length := by omega
    obtain ⟨value, haccepts, hencode, hread⟩ := read_fits hcursor hsize hfits
    exact ⟨hfits, value, haccepts, hencode, Except.ok.inj (h.symm.trans hread)⟩
  · right
    refine ⟨?_, Except.ok.inj (h.symm.trans (read_refused hguard))⟩
    by_contra hfits
    rw [sz_add_eq (by omega)] at hguard
    omega

/-- A read that asks for no more than memory can hold never throws. -/
theorem read_returns {target : Target} (hcursor : stream.cursor = before.length)
    (hsize : (before ++ rest).length ≤ vectorMaxSize)
    (htarget : target.size ≤ vectorMaxSize) :
    ∃ result, RoundTrip.read stream (before ++ rest) target = .ok result := by
  have hmax := vector_max_size_lt
  have hlength : (before ++ rest).length = before.length + rest.length := List.length_append
  by_cases hfits : target.size ≤ rest.length
  · obtain ⟨value, -, -, hread⟩ := read_fits hcursor hsize hfits
    exact ⟨_, hread⟩
  · refine ⟨_, read_refused ?_⟩
    rw [sz_add_eq (by omega)]
    omega

/-- The state after a read that found its bytes. -/
theorem advance_cursor_read {size : Nat} (hcursor : stream.cursor = before.length)
    (hfits : size ≤ rest.length) (hsize : (before ++ rest).length ≤ vectorMaxSize) :
    (stream.advance size).cursor = (before ++ rest.take size).length := by
  have hmax := vector_max_size_lt
  rw [List.length_append] at hsize
  show szAdd stream.cursor size = _
  rw [sz_add_eq (by omega), hcursor, List.length_append, List.length_take_of_le hfits]

/-- What a chain of reads leaves behind, for every list of destinations: the reads that find
their bytes take them in order, and the error code is set once one did not. -/
theorem read_all_ok {targets : List Target} {result : ByteIStream × List (Option Value)}
    (hcursor : stream.cursor = before.length)
    (hsize : (before ++ rest).length ≤ vectorMaxSize)
    (htargets : ∀ target ∈ targets, target.InMemory)
    (h : RoundTrip.readAll stream (before ++ rest) targets = .ok result) :
    result.1.cursor = before.length +
        total RoundTrip.Target.size (fit RoundTrip.Target.size rest.length targets) ∧
      Outcomes rest targets result.2 ∧
      (result.1.errc = .ok ↔
        stream.errc = .ok ∧ fit RoundTrip.Target.size rest.length targets = targets) := by
  induction targets generalizing stream before rest result with
  | nil =>
      obtain rfl := Except.ok.inj h
      simp [fit, Outcomes, hcursor]
  | cons target targets ih =>
      have hothers : ∀ other ∈ targets, other.InMemory := fun other hmem =>
        htargets other (List.mem_cons_of_mem _ hmem)
      obtain ⟨⟨next, out⟩, ⟨last, outs⟩, hread, hrest, rfl⟩ := read_all_cons h
      rcases read_ok hcursor hsize (htargets target List.mem_cons_self) hread with
        ⟨hfits, value, haccepts, hencode, hnext⟩ | ⟨hshort, hnext⟩
      · obtain ⟨rfl, rfl⟩ := Prod.mk.inj hnext
        have hsplit : before ++ rest =
            before ++ rest.take target.size ++ rest.drop target.size := by
          rw [List.append_assoc, List.take_append_drop]
        have hcursor' := advance_cursor_read hcursor hfits hsize
        rw [hsplit] at hrest hsize
        obtain ⟨hfinal, houts, herrc⟩ := ih hcursor' hsize hothers hrest
        rw [List.length_drop] at hfinal herrc
        rw [fit_cons_of_le hfits, total_cons, hfinal, herrc]
        refine ⟨?_, ⟨_, _, rfl, .inl ⟨hfits, ⟨value, haccepts, hencode, rfl⟩, houts⟩⟩, ?_⟩
        · rw [List.length_append, List.length_take_of_le hfits]
          omega
        · rw [List.cons_inj_right]
          rfl
      · obtain ⟨rfl, rfl⟩ := Prod.mk.inj hnext
        have hsame : (stream.fail target.size).cursor = before.length := hcursor
        obtain ⟨hfinal, houts, herrc⟩ := ih hsame hsize hothers hrest
        rw [fit_cons_of_lt hshort]
        refine ⟨hfinal, ⟨_, _, rfl, .inr ⟨hshort, rfl, houts⟩⟩, ?_⟩
        rw [herrc]
        constructor
        · intro hok
          exact absurd hok.1 (by simp [ByteIStream.fail])
        · intro hok
          exact absurd hok.2 (fit_ne_of_lt hshort)

/-- What a chain of reads leaves behind, when it starts from a fresh stream. -/
theorem read_all_taken {storage : Storage} {targets : List Target}
    {result : ByteIStream × List (Option Value)}
    (htargets : ∀ target ∈ targets, target.InMemory)
    (h : RoundTrip.readAll {} storage.bytes targets = .ok result) :
    Outcomes storage.bytes targets result.2 ∧
      result.1.cursor = total RoundTrip.Target.size
        (fit RoundTrip.Target.size storage.bytes.length targets) ∧
      (result.1.errc = .ok ↔
        fit RoundTrip.Target.size storage.bytes.length targets = targets) := by
  obtain ⟨hcursor, houts, herrc⟩ := read_all_ok
    (show ({} : ByteIStream).cursor = ([] : List UInt8).length from rfl) storage.size_le htargets h
  rw [List.length_nil, Nat.zero_add] at hcursor
  exact ⟨houts, hcursor, by simpa using herrc⟩

/-- A chain of reads that ask for no more than memory can hold always returns. -/
theorem read_all_returns {targets : List Target} (hcursor : stream.cursor = before.length)
    (hsize : (before ++ rest).length ≤ vectorMaxSize)
    (htargets : ∀ target ∈ targets, target.size ≤ vectorMaxSize) :
    ∃ result, RoundTrip.readAll stream (before ++ rest) targets = .ok result := by
  induction targets generalizing stream before rest with
  | nil => exact ⟨_, rfl⟩
  | cons target targets ih =>
      have hothers : ∀ other ∈ targets, other.size ≤ vectorMaxSize := fun other hmem =>
        htargets other (List.mem_cons_of_mem _ hmem)
      have htarget := htargets target List.mem_cons_self
      obtain ⟨⟨next, out⟩, hread⟩ := read_returns hcursor hsize htarget
      have hinMemory : target.InMemory := by
        cases target with
        | array size out => exact htarget
        | u8 out => trivial
        | u16 out => trivial
        | vector vec count => trivial
      obtain ⟨⟨last, outs⟩, hrest⟩ :
          ∃ result, RoundTrip.readAll next (before ++ rest) targets = .ok result := by
        rcases read_ok hcursor hsize hinMemory hread with
          ⟨hfits, value, -, -, hnext⟩ | ⟨-, hnext⟩
        · obtain ⟨rfl, -⟩ := Prod.mk.inj hnext
          have hsplit : before ++ rest =
              before ++ rest.take target.size ++ rest.drop target.size := by
            rw [List.append_assoc, List.take_append_drop]
          have hcursor' := advance_cursor_read hcursor hfits hsize
          rw [hsplit] at hsize ⊢
          exact ih hcursor' hsize hothers
        · obtain ⟨rfl, -⟩ := Prod.mk.inj hnext
          have hsame : (stream.fail target.size).cursor = before.length := hcursor
          exact ih hsame hsize hothers
      refine ⟨(last, out :: outs), ?_⟩
      simp only [RoundTrip.readAll, hread, hrest, bind, Except.bind, pure, Except.pure]

end Reads

/-- No failure freezes a stream. For every buffer in memory, a chain of writes that returns
leaves before the cursor exactly the encodings of the elements that found room behind those
accepted before them, and leaves the rest of the buffer as it was; a chain of reads that
returns has filled exactly the destinations that found their bytes behind those consumed
before them, and no read that failed has consumed or stored anything. Either error code is
`Ok` exactly when every element of the chain fitted. Elements in memory make every chain of
writes return, and so do requests within `max_size()` for reads. -/
theorem chains_pass_over_what_does_not_fit (storage : Storage) :
    (∀ writes result, writeAll {} storage.bytes writes = some result →
      result.2.take result.1.cursor =
          encodeAll (fit Write.size storage.bytes.length writes) ∧
        result.2.drop result.1.cursor = storage.bytes.drop result.1.cursor ∧
        result.1.cursor = total Write.size (fit Write.size storage.bytes.length writes) ∧
        (result.1.errc = .ok ↔ fit Write.size storage.bytes.length writes = writes)) ∧
    (∀ writes, (∀ element ∈ writes, element.InMemory) →
      ∃ result, writeAll {} storage.bytes writes = some result) ∧
    (∀ targets result, (∀ target ∈ targets, target.InMemory) →
      RoundTrip.readAll {} storage.bytes targets = .ok result →
      Outcomes storage.bytes targets result.2 ∧
        result.1.cursor = total RoundTrip.Target.size
          (fit RoundTrip.Target.size storage.bytes.length targets) ∧
        (result.1.errc = .ok ↔
          fit RoundTrip.Target.size storage.bytes.length targets = targets)) ∧
    (∀ targets : List Target, (∀ target ∈ targets, target.size ≤ vectorMaxSize) →
      ∃ result, RoundTrip.readAll {} storage.bytes targets = .ok result) := by
  refine ⟨?_, ?_, ?_, ?_⟩
  · intro writes result h
    exact write_all_taken h
  · intro writes hwrites
    exact write_all_fresh storage hwrites
  · intro targets result htargets h
    exact read_all_taken htargets h
  · intro targets htargets
    exact read_all_returns (show ({} : ByteIStream).cursor = ([] : List UInt8).length from rfl)
      storage.size_le htargets

/-- A word that does not fit is passed over and the byte after it is written, so what lies
before the cursor is no prefix of the encodings; and a byte is read after a word was not
there. -/
theorem failure_does_not_freeze :
    writeAll {} [0] [.typed (.u16 0x0102), .typed (.u8 7)] =
        some ({ cursor := 1, errc := .notEnoughData }, [7]) ∧
      ¬ ([7] : List UInt8) <+: encodeAll [.typed (.u16 0x0102), .typed (.u8 7)] ∧
      RoundTrip.readAll {} [9] [.u16 none] =
        .ok ({ cursor := 0, lastSize := 2, errc := .notEnoughData }, [none]) ∧
      RoundTrip.readAll {} [9] [.u16 none, .u8 none] =
        .ok ({ cursor := 1, lastSize := 2, errc := .notEnoughData }, [none, some (.u8 9)]) := by
  have hone : szAdd 0 1 = 1 := sz_add_eq (by decide)
  have htwo : szAdd 0 2 = 2 := sz_add_eq (by decide)
  refine ⟨?_, by decide, ?_, ?_⟩
  · simp [writeAll, write, RoundTrip.write, ByteOStream.writeU16, ByteOStream.writeU8, hone, htwo,
      ByteOStream.copyIn, ByteOStream.fail, ByteOStream.advance]
  · simp [RoundTrip.readAll, RoundTrip.read, ByteIStream.readU16, htwo, ByteIStream.fail, bind,
      Except.bind, pure, Except.pure]
  · simp [RoundTrip.readAll, RoundTrip.read, ByteIStream.readU16, ByteIStream.readU8, hone, htwo,
      ByteIStream.fail, ByteIStream.advance, bind, Except.bind, pure, Except.pure]

end Chain

end Toad
