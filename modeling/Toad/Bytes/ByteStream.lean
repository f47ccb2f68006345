import Toad.Bytes.Buffer

/-!
# Reading and writing bytes through a cursor

`ByteIStream` and `ByteOStream` of `bytes/bytestream.hpp`. A stream refers to a buffer that
other code keeps growing, so the buffer is an argument of every operation and the stream
itself holds only the cursor, the error code, and (for reading) the size of the last failed
request. An output argument of a read is an `Option`: `none` is a variable that has not been
initialised, and a failed read leaves it as it was. A write returns the stream with the
changed buffer, and `none` where a store would leave the buffer.
-/

namespace Toad

/-- `ByteStreamErrorCode`. -/
inductive ByteStreamErrorCode where
  | ok
  | notEnoughData
  deriving DecidableEq, Repr

/-- `ByteIStream`, without the reference to its buffer. -/
structure ByteIStream where
  cursor : Nat := 0
  lastSize : Nat := 0
  errc : ByteStreamErrorCode := .ok
  deriving DecidableEq, Repr

namespace ByteIStream

/-- `remaining()`: the bytes of the buffer past the cursor. -/
def remaining (stream : ByteIStream) (buffer : List UInt8) : Nat :=
  szSub buffer.length stream.cursor

/-- The state after a request for `size` bytes that the buffer does not hold. -/
def fail (stream : ByteIStream) (size : Nat) : ByteIStream :=
  { stream with errc := .notEnoughData, lastSize := size }

/-- The state after `size` bytes have been taken. -/
def advance (stream : ByteIStream) (size : Nat) : ByteIStream :=
  { stream with cursor := szAdd stream.cursor size }

/-- `read_u8`. -/
def readU8 (stream : ByteIStream) (buffer : List UInt8) (out : Option UInt8) :
    ByteIStream × Option UInt8 :=
  if szAdd stream.cursor 1 ≤ buffer.length then
    (stream.advance 1, buffer[stream.cursor]?)
  else
    (stream.fail 1, out)

/-- `(hi << 8) | lo`, the big-endian combination of two bytes. -/
def combine (hi lo : UInt8) : UInt16 :=
  (hi.toUInt16 <<< 8) ||| lo.toUInt16

/-- `read_u16`. -/
def readU16 (stream : ByteIStream) (buffer : List UInt8) (out : Option UInt16) :
    ByteIStream × Option UInt16 :=
  if szAdd stream.cursor 2 ≤ buffer.length then
    (stream.advance 2, do
      let hi ← buffer[stream.cursor]?
      let lo ← buffer[stream.cursor + 1]?
      pure (combine hi lo))
  else
    (stream.fail 2, out)

/-- `memcpy` of `size` bytes at `offset` into an array; `none` where the copy would leave the
buffer. -/
def copyOut (buffer : List UInt8) (offset size : Nat) : Option (Vector UInt8 size) :=
  if h : offset + size ≤ buffer.length then
    some ⟨((buffer.drop offset).take size).toArray, by simp; omega⟩
  else
    none

/-- `read_array` for an array of `size` bytes. -/
def readArray {size : Nat} (stream : ByteIStream) (buffer : List UInt8)
    (out : Option (Vector UInt8 size)) : ByteIStream × Option (Vector UInt8 size) :=
  if szAdd stream.cursor size ≤ buffer.length then
    (stream.advance size, copyOut buffer stream.cursor size)
  else
    (stream.fail size, out)

/-- `read_vector`: the vector is resized before the bytes are copied into it, which can throw.
Without a count the vector asks for as many bytes as it has. -/
def readVector (stream : ByteIStream) (buffer vec : List UInt8) (count : Option Nat) :
    Except StdException (ByteIStream × Option (List UInt8)) :=
  let size := count.getD vec.length
  if szAdd stream.cursor size ≤ buffer.length then do
    let resized ← vectorResize vec size
    pure (stream.advance size,
      (copyOut buffer stream.cursor size).map fun bytes => bytes.toList ++ resized.drop size)
  else
    pure (stream.fail size, some vec)

variable {stream : ByteIStream} {buffer : List UInt8}

/-- The combination of two bytes is their big-endian value. -/
theorem combine_to_nat (hi lo : UInt8) : (combine hi lo).toNat = 256 * hi.toNat + lo.toNat := by
  have hhi : hi.toNat < 256 := hi.toNat_lt
  have hlo : lo.toNat < 256 := lo.toNat_lt
  have hshift : hi.toNat <<< 8 % 65536 = hi.toNat <<< 8 :=
    Nat.mod_eq_of_lt (by rw [Nat.shiftLeft_eq]; omega)
  simp only [combine, UInt16.toNat_or, UInt16.toNat_shiftLeft, UInt8.toNat_toUInt16]
  simp only [UInt16.reduceToNat, Nat.reduceMod, Nat.reducePow, hshift]
  rw [← Nat.shiftLeft_add_eq_or_of_lt (i := 8) (by omega), Nat.shiftLeft_eq]
  omega

/-- With the cursor inside a buffer that fits in memory, `remaining` is the exact difference. -/
theorem remaining_eq (hsize : buffer.length < 2 ^ 64) (h : stream.cursor ≤ buffer.length) :
    stream.remaining buffer = buffer.length - stream.cursor :=
  sz_sub_eq hsize h

/-- A byte at the cursor is read and the cursor moves past it. -/
theorem read_u8_append {before after : List UInt8} {byte : UInt8} (out : Option UInt8)
    (hcursor : stream.cursor = before.length)
    (hsize : (before ++ byte :: after).length < 2 ^ 64) :
    stream.readU8 (before ++ byte :: after) out = (stream.advance 1, some byte) := by
  simp only [List.length_append, List.length_cons] at hsize
  have hfit : szAdd stream.cursor 1 ≤ (before ++ byte :: after).length := by
    rw [sz_add_eq (by omega), hcursor]
    simp
  rw [readU8, if_pos hfit, hcursor]
  simp

/-- Two bytes at the cursor are read in big-endian order. -/
theorem read_u16_append {before after : List UInt8} {hi lo : UInt8} (out : Option UInt16)
    (hcursor : stream.cursor = before.length)
    (hsize : (before ++ hi :: lo :: after).length < 2 ^ 64) :
    stream.readU16 (before ++ hi :: lo :: after) out =
      (stream.advance 2, some (combine hi lo)) := by
  simp only [List.length_append, List.length_cons] at hsize
  have hfit : szAdd stream.cursor 2 ≤ (before ++ hi :: lo :: after).length := by
    rw [sz_add_eq (by omega), hcursor]
    simp
  rw [readU16, if_pos hfit, hcursor]
  simp

/-- With fewer than two bytes left a 16-bit read fails and leaves its output alone. -/
theorem read_u16_short (out : Option UInt16) (hcursor : stream.cursor ≤ buffer.length)
    (hsize : buffer.length + 2 < 2 ^ 64) (hshort : buffer.length < stream.cursor + 2) :
    stream.readU16 buffer out = (stream.fail 2, out) := by
  have hmiss : ¬ szAdd stream.cursor 2 ≤ buffer.length := by
    rw [sz_add_eq (by omega)]
    omega
  simp [readU16, hmiss]

/-- Copying out of the middle of a buffer yields what stands there. -/
theorem copy_out_append {size : Nat} (before after : List UInt8) (array : Vector UInt8 size) :
    copyOut (before ++ array.toList ++ after) before.length size = some array := by
  have hfit : before.length + size ≤ (before ++ array.toList ++ after).length := by
    simp
  have hslice : ((before ++ array.toList ++ after).drop before.length).take size =
      array.toList := by
    simp
  rw [copyOut, dif_pos hfit, Option.some.injEq, ← Vector.toArray_inj]
  exact (congrArg List.toArray hslice).trans rfl

/-- An array at the cursor is copied out and the cursor moves past it. -/
theorem read_array_append {size : Nat} {before after : List UInt8} {array : Vector UInt8 size}
    (out : Option (Vector UInt8 size)) (hcursor : stream.cursor = before.length)
    (hsize : (before ++ array.toList ++ after).length < 2 ^ 64) :
    stream.readArray (before ++ array.toList ++ after) out =
      (stream.advance size, some array) := by
  have hfit : szAdd stream.cursor size ≤ (before ++ array.toList ++ after).length := by
    simp only [List.length_append, Vector.length_toList] at hsize ⊢
    rw [sz_add_eq (by omega), hcursor]
    omega
  rw [readArray, if_pos hfit, hcursor, copy_out_append]

/-- A vector that asks for the bytes at the cursor, by count or by its own size, ends up
holding them. -/
theorem read_vector_append {before bytes after : List UInt8} {vec : List UInt8}
    {count : Option Nat} (hcursor : stream.cursor = before.length)
    (hsize : (before ++ bytes ++ after).length < 2 ^ 64) (hmax : bytes.length ≤ vectorMaxSize)
    (hcount : count.getD vec.length = bytes.length) :
    stream.readVector (before ++ bytes ++ after) vec count =
      .ok (stream.advance bytes.length, some bytes) := by
  have hfit : szAdd stream.cursor bytes.length ≤ (before ++ bytes ++ after).length := by
    simp only [List.length_append] at hsize ⊢
    rw [sz_add_eq (by omega), hcursor]
    omega
  -- The resized vector has exactly the requested size, so the copy replaces all of it.
  have hrest : (vec.take bytes.length ++
      List.replicate (bytes.length - vec.length) (0 : UInt8)).drop bytes.length = [] := by
    apply List.drop_eq_nil_of_le
    simp only [List.length_append, List.length_take, List.length_replicate]
    omega
  have hcopy := copy_out_append before after (⟨bytes.toArray, by simp⟩ : Vector UInt8 bytes.length)
  simp only [Vector.toList] at hcopy
  rw [readVector, hcount, if_pos hfit, vectorResize, if_pos hmax, hcursor, hcopy]
  show Except.ok (stream.advance bytes.length, some (bytes ++ _)) = _
  rw [hrest, List.append_nil]

end ByteIStream

/-- `ByteOStream`, without the reference to its buffer. -/
structure ByteOStream where
  cursor : Nat := 0
  errc : ByteStreamErrorCode := .ok
  deriving DecidableEq, Repr

namespace ByteOStream

/-- The state after a write that the buffer has no room for. -/
def fail (stream : ByteOStream) : ByteOStream :=
  { stream with errc := .notEnoughData }

/-- The state after `size` bytes have been stored. -/
def advance (stream : ByteOStream) (size : Nat) : ByteOStream :=
  { stream with cursor := szAdd stream.cursor size }

/-- `memcpy` of `bytes` into the buffer at `offset`; `none` where the copy would leave it. -/
def copyIn (buffer bytes : List UInt8) (offset : Nat) : Option (List UInt8) :=
  if offset + bytes.length ≤ buffer.length then
    some (buffer.take offset ++ bytes ++ buffer.drop (offset + bytes.length))
  else
    none

/-- `write_u8`. -/
def writeU8 (stream : ByteOStream) (buffer : List UInt8) (value : UInt8) :
    Option (ByteOStream × List UInt8) :=
  if szAdd stream.cursor 1 ≤ buffer.length then do
    let buffer ← copyIn buffer [value] stream.cursor
    pure (stream.advance 1, buffer)
  else
    pure (stream.fail, buffer)

/-- `write_u16`: the high byte is stored first, the cursor moving past each. -/
def writeU16 (stream : ByteOStream) (buffer : List UInt8) (value : UInt16) :
    Option (ByteOStream × List UInt8) :=
  if szAdd stream.cursor 2 ≤ buffer.length then do
    let buffer ← copyIn buffer [((value >>> 8) &&& 0xFF).toUInt8] stream.cursor
    let buffer ← copyIn buffer [(value &&& 0xFF).toUInt8] (stream.advance 1).cursor
    pure (stream.advance 2, buffer)
  else
    pure (stream.fail, buffer)

/-- The shared body of `write_array`, `write_vector` and `write_buffer`: `size` bytes are
asked for and `bytes` is what the copy reads. -/
def writeBytes (stream : ByteOStream) (buffer : List UInt8) (size : Nat)
    (bytes : Option (List UInt8)) : Option (ByteOStream × List UInt8) :=
  if szAdd stream.cursor size ≤ buffer.length then do
    let buffer ← copyIn buffer (← bytes) stream.cursor
    pure (stream.advance size, buffer)
  else
    pure (stream.fail, buffer)

/-- `write_array`. -/
def writeArray {size : Nat} (stream : ByteOStream) (buffer : List UInt8)
    (array : Vector UInt8 size) : Option (ByteOStream × List UInt8) :=
  stream.writeBytes buffer size (some array.toList)

/-- `write_vector`. -/
def writeVector (stream : ByteOStream) (buffer vec : List UInt8) :
    Option (ByteOStream × List UInt8) :=
  stream.writeBytes buffer vec.length (some vec)

/-- `write_buffer`: the bytes in the window of another `Buffer`. -/
def writeBuffer (stream : ByteOStream) (buffer : List UInt8) (buf : Buffer) :
    Option (ByteOStream × List UInt8) :=
  stream.writeBytes buffer buf.size
    ((ByteIStream.copyOut buf.shared buf.offset buf.size).map Vector.toList)

variable {stream : ByteOStream} {before old after : List UInt8}

/-- Copying over a stretch of the same length replaces exactly that stretch. -/
theorem copy_in_append (before after : List UInt8) {bytes : List UInt8}
    (hold : old.length = bytes.length) :
    copyIn (before ++ old ++ after) bytes before.length = some (before ++ bytes ++ after) := by
  have hfit : before.length + bytes.length ≤ (before ++ old ++ after).length := by
    simp [hold]
  have htake : (before ++ old ++ after).take before.length = before := by
    rw [List.append_assoc, List.take_left]
  have hdrop : (before ++ old ++ after).drop (before.length + bytes.length) = after := by
    rw [← hold, ← List.length_append, List.drop_left]
  rw [copyIn, if_pos hfit, htake, hdrop]

/-- A write finds room for what replaces a stretch of its own length. -/
theorem cursor_fits {size : Nat} (hcursor : stream.cursor = before.length)
    (hold : old.length = size) (hsize : (before ++ old ++ after).length < 2 ^ 64) :
    szAdd stream.cursor size ≤ (before ++ old ++ after).length := by
  simp only [List.length_append] at hsize ⊢
  rw [sz_add_eq (by omega), hcursor]
  omega

/-- `write_u8` replaces one byte at the cursor. -/
theorem write_u8_append {value : UInt8} (hcursor : stream.cursor = before.length)
    (hold : old.length = 1) (hsize : (before ++ old ++ after).length < 2 ^ 64) :
    stream.writeU8 (before ++ old ++ after) value =
      some (stream.advance 1, before ++ [value] ++ after) := by
  rw [writeU8, if_pos (cursor_fits hcursor hold hsize), hcursor, copy_in_append _ _ hold]
  rfl

/-- `write_array`, `write_vector` and `write_buffer` replace what stands at the cursor. -/
theorem write_bytes_append {bytes : List UInt8} {size : Nat}
    (hcursor : stream.cursor = before.length) (hbytes : bytes.length = size)
    (hold : old.length = size) (hsize : (before ++ old ++ after).length < 2 ^ 64) :
    stream.writeBytes (before ++ old ++ after) size (some bytes) =
      some (stream.advance size, before ++ bytes ++ after) := by
  rw [writeBytes, if_pos (cursor_fits hcursor hold hsize), hcursor]
  show (copyIn (before ++ old ++ after) bytes before.length).bind _ = _
  rw [copy_in_append _ _ (hold.trans hbytes.symm)]
  rfl

/-- `write_u16` replaces two bytes at the cursor by the high and the low byte. -/
theorem write_u16_append {value : UInt16} (hcursor : stream.cursor = before.length)
    (hold : old.length = 2) (hsize : (before ++ old ++ after).length < 2 ^ 64) :
    stream.writeU16 (before ++ old ++ after) value =
      some (stream.advance 2,
        before ++ [((value >>> 8) &&& 0xFF).toUInt8, (value &&& 0xFF).toUInt8] ++ after) := by
  obtain ⟨hi, lo, rfl⟩ := List.length_eq_two.mp hold
  have hfit := cursor_fits hcursor hold hsize
  simp only [List.length_append, List.length_cons, List.length_nil] at hsize
  -- The first store leaves the second byte as it was; the second store starts one further.
  have hfirst := copy_in_append before (lo :: after)
    (show [hi].length = [((value >>> 8) &&& 0xFF).toUInt8].length from rfl)
  have hsecond := copy_in_append (before ++ [((value >>> 8) &&& 0xFF).toUInt8]) after
    (show [lo].length = [(value &&& 0xFF).toUInt8].length from rfl)
  have hnext : (stream.advance 1).cursor =
      (before ++ [((value >>> 8) &&& 0xFF).toUInt8]).length := by
    show szAdd stream.cursor 1 = _
    rw [sz_add_eq (by omega), hcursor]
    simp
  simp only [List.append_assoc, List.cons_append, List.nil_append] at hfirst hsecond
  rw [writeU16, if_pos hfit, hnext, hcursor]
  simp only [List.append_assoc, List.cons_append, List.nil_append, hfirst, hsecond,
    Option.bind_eq_bind, Option.bind_some]
  rfl

end ByteOStream

end Toad
