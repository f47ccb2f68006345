import Toad.Bytes.ByteStream

/-!
# Round trips through the byte streams

A list of typed values is written with `ByteOStream` and read back with `ByteIStream`. The
writers and the readers share nothing but a cursor convention and a byte order; `encode`
states that byte order on its own, and one lemma for each side says that the operation moves
exactly the encoding of its value across the cursor.
-/

namespace Toad

namespace RoundTrip

/-- A value that the streams can carry. -/
inductive Value where
  | u8 (value : UInt8)
  | u16 (value : UInt16)
  | array (size : Nat) (bytes : Vector UInt8 size)
  | vector (bytes : List UInt8)
  deriving DecidableEq, Repr

/-- The value is one the program can hold: a vector is no longer than `max_size()`. -/
def Value.Fits : Value → Prop
  | .vector bytes => bytes.length ≤ vectorMaxSize
  | _ => True

/-- The big-endian encoding. -/
def Value.encode : Value → List UInt8
  | .u8 value => [value]
  | .u16 value => [UInt8.ofNat (value.toNat / 256), UInt8.ofNat (value.toNat % 256)]
  | .array _ bytes => bytes.toList
  | .vector bytes => bytes

/-- A list of values the program can hold. -/
structure Message where
  values : List Value
  fits : ∀ value ∈ values, value.Fits

/-- The concatenation of the encodings. -/
def encodeAll (values : List Value) : List UInt8 :=
  values.flatMap Value.encode

/-- The bytes of a `ByteBuffer`, whose `size()` is a `size_t`. -/
structure ByteBuffer where
  bytes : List UInt8
  size_lt : bytes.length < 2 ^ 64

/-- The destination of a read, with what it holds before the call. -/
inductive Target where
  | u8 (out : Option UInt8)
  | u16 (out : Option UInt16)
  | array (size : Nat) (out : Option (Vector UInt8 size))
  | vector (vec : List UInt8) (count : Option Nat)

/-- The destination has the type and the length of the value. A vector is read either with a
count or with the size it has. -/
def Value.Accepts : Value → Target → Prop
  | .u8 _, .u8 _ => True
  | .u16 _, .u16 _ => True
  | .array size _, .array size' _ => size = size'
  | .vector bytes, .vector vec count => count.getD vec.length = bytes.length
  | _, _ => False

/-- The write operation for one value. -/
def write (stream : ByteOStream) (buffer : List UInt8) : Value →
    Option (ByteOStream × List UInt8)
  | .u8 value => stream.writeU8 buffer value
  | .u16 value => stream.writeU16 buffer value
  | .array _ bytes => stream.writeArray buffer bytes
  | .vector bytes => stream.writeVector buffer bytes

/-- A chain of writes. -/
def writeAll (stream : ByteOStream) (buffer : List UInt8) : List Value →
    Option (ByteOStream × List UInt8)
  | [] => some (stream, buffer)
  | value :: values => do
      let (stream, buffer) ← write stream buffer value
      writeAll stream buffer values

/-- The read operation for one destination. -/
def read (stream : ByteIStream) (buffer : List UInt8) : Target →
    Except StdException (ByteIStream × Option Value)
  | .u8 out =>
      let (stream, out) := stream.readU8 buffer out
      pure (stream, out.map .u8)
  | .u16 out =>
      let (stream, out) := stream.readU16 buffer out
      pure (stream, out.map .u16)
  | .array size out =>
      let (stream, out) := stream.readArray buffer out
      pure (stream, out.map (.array size))
  | .vector vec count => do
      let (stream, out) ← stream.readVector buffer vec count
      pure (stream, out.map .vector)

/-- A chain of reads, with what each destination holds afterwards. -/
def readAll (stream : ByteIStream) (buffer : List UInt8) : List Target →
    Except StdException (ByteIStream × List (Option Value))
  | [] => pure (stream, [])
  | target :: targets => do
      let (stream, out) ← read stream buffer target
      let (stream, outs) ← readAll stream buffer targets
      pure (stream, out :: outs)

/-- Masking with `0xFF` and narrowing to a byte keeps the last base-256 digit. -/
theorem to_nat_masked (value : UInt16) : (value &&& 0xFF).toUInt8.toNat = value.toNat % 256 := by
  have hmask : value.toNat &&& 255 = value.toNat % 256 := Nat.and_two_pow_sub_one_eq_mod _ 8
  rw [UInt16.toNat_toUInt8, UInt16.toNat_and]
  show (value.toNat &&& 255) % 256 = _
  rw [hmask, Nat.mod_mod]

/-- The bytes that `write_u16` stores are the two base-256 digits. -/
theorem stored_bytes_eq (value : UInt16) :
    [((value >>> 8) &&& 0xFF).toUInt8, (value &&& 0xFF).toUInt8] = (Value.u16 value).encode := by
  have hhi : ((value >>> 8) &&& 0xFF).toUInt8 = UInt8.ofNat (value.toNat / 256) := by
    apply UInt8.toNat_inj.mp
    rw [to_nat_masked, UInt8.toNat_ofNat', UInt16.toNat_shiftRight, Nat.shiftRight_eq_div_pow]
    rfl
  have hlo : (value &&& 0xFF).toUInt8 = UInt8.ofNat (value.toNat % 256) := by
    apply UInt8.toNat_inj.mp
    rw [to_nat_masked, UInt8.toNat_ofNat', Nat.mod_mod]
  rw [hhi, hlo]
  rfl

/-- The two digits combine to the value they came from. -/
theorem combine_digits (value : UInt16) :
    ByteIStream.combine (UInt8.ofNat (value.toNat / 256)) (UInt8.ofNat (value.toNat % 256)) =
      value := by
  have hlt : value.toNat < 65536 := value.toNat_lt
  apply UInt16.toNat_inj.mp
  rw [ByteIStream.combine_to_nat]
  simp only [UInt8.toNat_ofNat']
  omega

/-- A write replaces what stands at the cursor by the encoding of its value. -/
theorem write_append {stream : ByteOStream} {before old after : List UInt8} (value : Value)
    (hcursor : stream.cursor = before.length) (hold : old.length = value.encode.length)
    (hsize : (before ++ old ++ after).length < 2 ^ 64) :
    write stream (before ++ old ++ after) value =
      some (stream.advance value.encode.length, before ++ value.encode ++ after) := by
  cases value with
  | u8 value => exact ByteOStream.write_u8_append hcursor hold hsize
  | u16 value =>
      show stream.writeU16 (before ++ old ++ after) value = _
      rw [ByteOStream.write_u16_append hcursor hold hsize, stored_bytes_eq]
      rfl
  | array size bytes =>
      have hlength : bytes.toList.length = size := Vector.length_toList
      show stream.writeBytes (before ++ old ++ after) size (some bytes.toList) =
        some (stream.advance bytes.toList.length, before ++ bytes.toList ++ after)
      rw [ByteOStream.write_bytes_append hcursor hlength (hold.trans hlength) hsize, hlength]
  | vector bytes => exact ByteOStream.write_bytes_append hcursor rfl hold hsize

/-- A read of a matching destination yields the value whose encoding stands at the cursor. -/
theorem read_append {stream : ByteIStream} {before after : List UInt8} {value : Value}
    {target : Target} (hcursor : stream.cursor = before.length)
    (hsize : (before ++ value.encode ++ after).length < 2 ^ 64) (hfits : value.Fits)
    (haccepts : value.Accepts target) :
    read stream (before ++ value.encode ++ after) target =
      .ok (stream.advance value.encode.length, some value) := by
  cases value with
  | u8 value =>
      cases target with
      | u8 out =>
          have happend : before ++ [value] ++ after = before ++ value :: after := by simp
          rw [Value.encode, happend] at hsize ⊢
          simp only [read, ByteIStream.read_u8_append out hcursor hsize]
          rfl
      | u16 out => exact haccepts.elim
      | array size out => exact haccepts.elim
      | vector vec count => exact haccepts.elim
  | u16 value =>
      cases target with
      | u8 out => exact haccepts.elim
      | u16 out =>
          have happend (hi lo : UInt8) :
              before ++ [hi, lo] ++ after = before ++ hi :: lo :: after := by
            simp
          rw [Value.encode, happend] at hsize ⊢
          simp only [read, ByteIStream.read_u16_append out hcursor hsize, combine_digits]
          rfl
      | array size out => exact haccepts.elim
      | vector vec count => exact haccepts.elim
  | array size bytes =>
      cases target with
      | u8 out => exact haccepts.elim
      | u16 out => exact haccepts.elim
      | array size' out =>
          obtain rfl : size = size' := haccepts
          rw [Value.encode] at hsize ⊢
          simp only [read, ByteIStream.read_array_append out hcursor hsize, Vector.length_toList]
          rfl
      | vector vec count => exact haccepts.elim
  | vector bytes =>
      cases target with
      | u8 out => exact haccepts.elim
      | u16 out => exact haccepts.elim
      | array size out => exact haccepts.elim
      | vector vec count =>
          rw [Value.encode] at hsize ⊢
          simp only [read, ByteIStream.read_vector_append hcursor hsize hfits haccepts]
          rfl

/-- A chain of writes replaces what stands at the cursor by the encodings in order. -/
theorem write_all_append {values : List Value} {stream : ByteOStream}
    {before old after : List UInt8} (hcursor : stream.cursor = before.length)
    (hold : old.length = (encodeAll values).length)
    (hsize : (before ++ old ++ after).length < 2 ^ 64) :
    writeAll stream (before ++ old ++ after) values =
      some ({ stream with cursor := before.length + (encodeAll values).length },
        before ++ encodeAll values ++ after) := by
  -- The induction moves the encoding of the head from the replaced part to what lies before.
  induction values generalizing stream before old with
  | nil =>
      obtain rfl : old = [] := List.eq_nil_of_length_eq_zero hold
      simp [writeAll, encodeAll, ← hcursor]
  | cons value values ih =>
      have hlength : (encodeAll (value :: values)).length =
          value.encode.length + (encodeAll values).length := by
        simp [encodeAll]
      rw [hlength] at hold
      obtain ⟨first, rest, rfl, hfirst⟩ : ∃ first rest, old = first ++ rest ∧
          first.length = value.encode.length :=
        ⟨old.take value.encode.length, old.drop value.encode.length, by simp, by simp; omega⟩
      have hrest : rest.length = (encodeAll values).length := by
        simp only [List.length_append] at hold
        omega
      have hsplit : before ++ (first ++ rest) ++ after = before ++ first ++ (rest ++ after) := by
        simp
      have hjoin : before ++ value.encode ++ (rest ++ after) =
          (before ++ value.encode) ++ rest ++ after := by
        simp
      rw [hsplit] at hsize ⊢
      simp only [List.length_append] at hsize
      have hcursor' : (stream.advance value.encode.length).cursor =
          (before ++ value.encode).length := by
        show szAdd stream.cursor value.encode.length = _
        rw [sz_add_eq (by omega), hcursor, List.length_append]
      have hwrite := write_append value hcursor hfirst
        (by simp only [List.length_append]; omega : (before ++ first ++ (rest ++ after)).length < _)
      rw [writeAll, hwrite]
      show writeAll (stream.advance value.encode.length) _ values = _
      rw [hjoin, ih hcursor' hrest (by simp only [List.length_append]; omega), hlength]
      simp [encodeAll, ByteOStream.advance, Nat.add_assoc]

/-- A chain of reads of matching destinations yields the values whose encodings stand at the
cursor. -/
theorem read_all_append {values : List Value} {targets : List Target} {stream : ByteIStream}
    {before after : List UInt8} (hcursor : stream.cursor = before.length)
    (hsize : (before ++ encodeAll values ++ after).length < 2 ^ 64)
    (hfits : ∀ value ∈ values, value.Fits)
    (haccepts : List.Forall₂ Value.Accepts values targets) :
    readAll stream (before ++ encodeAll values ++ after) targets =
      .ok ({ stream with cursor := before.length + (encodeAll values).length },
        values.map some) := by
  induction haccepts generalizing stream before with
  | nil => simp [readAll, encodeAll, ← hcursor, pure, Except.pure]
  | @cons value target values targets hhead _ ih =>
      have hjoin : before ++ encodeAll (value :: values) ++ after =
          before ++ value.encode ++ (encodeAll values ++ after) := by
        simp [encodeAll]
      have hjoin' : before ++ value.encode ++ (encodeAll values ++ after) =
          (before ++ value.encode) ++ encodeAll values ++ after := by
        simp
      rw [hjoin] at hsize ⊢
      have hcursor' : (stream.advance value.encode.length).cursor =
          (before ++ value.encode).length := by
        simp only [List.length_append] at hsize
        show szAdd stream.cursor value.encode.length = _
        rw [sz_add_eq (by omega), hcursor, List.length_append]
      have hread := read_append hcursor hsize (hfits value (by simp)) hhead
      have hrest := ih hcursor' (hjoin' ▸ hsize) fun other hmem =>
        hfits other (List.mem_cons_of_mem _ hmem)
      rw [← hjoin'] at hrest
      simp only [readAll, hread, hrest, bind, Except.bind, pure, Except.pure]
      simp [encodeAll, ByteIStream.advance, Nat.add_assoc]

/-- Whatever is written with a fresh `ByteOStream` into a buffer with room for it is read back
by a fresh `ByteIStream`, for every list of values and every way of passing the destinations.
The written bytes are the encodings in order, and the rest of the buffer is untouched. -/
theorem stream_round_trip (message : Message) (buffer : ByteBuffer) (targets : List Target)
    (haccepts : List.Forall₂ Value.Accepts message.values targets)
    (hroom : (encodeAll message.values).length ≤ buffer.bytes.length) :
    ∃ written,
      writeAll {} buffer.bytes message.values =
        some ({ cursor := (encodeAll message.values).length, errc := .ok }, written) ∧
      written = encodeAll message.values ++
        buffer.bytes.drop (encodeAll message.values).length ∧
      readAll {} written targets =
        .ok ({ cursor := (encodeAll message.values).length, lastSize := 0, errc := .ok },
          message.values.map some) := by
  obtain ⟨values, hfits⟩ := message
  obtain ⟨bytes, hlt⟩ := buffer
  change (encodeAll values).length ≤ bytes.length at hroom
  have hsplit : bytes = [] ++ bytes.take (encodeAll values).length ++
      bytes.drop (encodeAll values).length := by
    simp
  have htake : (bytes.take (encodeAll values).length).length = (encodeAll values).length :=
    List.length_take_of_le hroom
  have hlt' : ([] ++ encodeAll values ++ bytes.drop (encodeAll values).length).length <
      2 ^ 64 := by
    simp only [List.nil_append, List.length_append, List.length_drop]
    omega
  refine ⟨_, ?_, rfl, ?_⟩
  · have hwrite := write_all_append (show ({} : ByteOStream).cursor = ([] : List UInt8).length
      from rfl) htake (hsplit ▸ hlt)
    rw [← hsplit] at hwrite
    simpa using hwrite
  · have hread := read_all_append (show ({} : ByteIStream).cursor = ([] : List UInt8).length
      from rfl) hlt' hfits haccepts
    simpa using hread

/-- A byte, a word, an array and two vectors, one read by count and one by its size. -/
theorem stream_round_trip_mixed :
    ∃ written,
      writeAll {} (List.replicate 12 7)
        [.u8 5, .u16 0x01BB, .array 2 #v[9, 8], .vector [1, 2, 3], .vector [4]] =
          some ({ cursor := 9, errc := .ok }, written) ∧
      written = [5, 0x01, 0xBB, 9, 8, 1, 2, 3, 4, 7, 7, 7] ∧
      readAll {} written
        [.u8 none, .u16 (some 3), .array 2 none, .vector [] (some 3), .vector [0] none] =
          .ok ({ cursor := 9, lastSize := 0, errc := .ok },
            [some (.u8 5), some (.u16 0x01BB), some (.array 2 #v[9, 8]),
              some (.vector [1, 2, 3]), some (.vector [4])]) := by
  have haccepts : List.Forall₂ Value.Accepts
      [.u8 5, .u16 0x01BB, .array 2 #v[9, 8], .vector [1, 2, 3], .vector [4]]
      [.u8 none, .u16 (some 3), .array 2 none, .vector [] (some 3), .vector [0] none] := by
    simp [Value.Accepts]
  have hfits : ∀ value ∈ [Value.u8 5, .u16 0x01BB, .array 2 #v[9, 8], .vector [1, 2, 3],
      .vector [4]], value.Fits := by
    simp [Value.Fits, vectorMaxSize]
  exact stream_round_trip ⟨_, hfits⟩ ⟨List.replicate 12 7, by simp⟩ _ haccepts
    (by simp [encodeAll, Value.encode])

end RoundTrip

end Toad
