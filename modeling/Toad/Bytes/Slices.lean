import Toad.Bytes.Chain

/-!
# Slices of slices

`Buffer::slice` of `bytes/buffer.hpp` makes a new window into the same allocation and checks
nothing: the offset is a sum and the size a difference in `size_t`, and both may wrap. A packet is
taken apart by slicing slices, so the question is what a whole chain of them yields.
`slice_chain` says that the windows of a chain stay inside each other exactly if every step asks
for a range of the window before it, and that they then hold what slicing the bytes would.
-/

namespace Toad

namespace Buffer

/-- The arguments `from` and `to` of one `slice`. -/
structure Range where
  first : UInt64
  last : UInt64
  deriving DecidableEq, Repr

/-- A chain `buffer.slice(a, b).slice(c, d)...`. -/
def sliceAll (buffer : Buffer) : List Range → Buffer
  | [] => buffer
  | range :: ranges => (buffer.slice range.first.toNat range.last.toNat).sliceAll ranges

/-- The window of one buffer lies in that of another, in the same allocation. -/
structure Inside (inner outer : Buffer) : Prop where
  shared : inner.shared = outer.shared
  offset : outer.offset ≤ inner.offset
  last : inner.offset + inner.size ≤ outer.offset + outer.size

/-- Every window of a chain lies in the one before it. -/
def Nested (buffer : Buffer) : List Range → Prop
  | [] => True
  | range :: ranges =>
      (buffer.slice range.first.toNat range.last.toNat).Inside buffer ∧
        (buffer.slice range.first.toNat range.last.toNat).Nested ranges

/-- Every range of a chain is one of a window that has `size` bytes before the chain. -/
def Ordered (size : Nat) : List Range → Prop
  | [] => True
  | range :: ranges =>
      range.first ≤ range.last ∧ range.last.toNat ≤ size ∧
        Ordered (range.last.toNat - range.first.toNat) ranges

instance decidableOrdered : ∀ size ranges, Decidable (Ordered size ranges)
  | _, [] => isTrue trivial
  | size, range :: ranges =>
      have := decidableOrdered (range.last.toNat - range.first.toNat) ranges
      inferInstanceAs (Decidable (range.first ≤ range.last ∧ range.last.toNat ≤ size ∧ _))

/-- What slicing the bytes themselves leaves. -/
def sliceBytes (bytes : List UInt8) : List Range → List UInt8
  | [] => bytes
  | range :: ranges =>
      sliceBytes ((bytes.drop range.first.toNat).take (range.last.toNat - range.first.toNat)) ranges

variable {buffer : Buffer}

/-- A range of the window is sliced without wrapping. -/
theorem slice_eq (range : Range) (hsmall : buffer.offset + buffer.size < 2 ^ 63)
    (hle : range.first ≤ range.last) (hsize : range.last.toNat ≤ buffer.size) :
    buffer.slice range.first.toNat range.last.toNat =
      { buffer with
        offset := buffer.offset + range.first.toNat
        size := range.last.toNat - range.first.toNat } := by
  have hfirst : range.first.toNat ≤ range.last.toNat := UInt64.le_iff_toNat_le.mp hle
  rw [slice, sz_add_eq (by omega), sz_sub_eq (by omega) hfirst]

/-- One slice lies in its window exactly if it asks for a range of it. -/
theorem slice_inside_iff (range : Range) (hsmall : buffer.offset + buffer.size < 2 ^ 63) :
    (buffer.slice range.first.toNat range.last.toNat).Inside buffer ↔
      range.first ≤ range.last ∧ range.last.toNat ≤ buffer.size := by
  have hfirst : range.first.toNat < 2 ^ 64 := range.first.toNat_lt
  have hlast : range.last.toNat < 2 ^ 64 := range.last.toNat_lt
  constructor
  · intro h
    have hoffset : buffer.offset ≤ szAdd buffer.offset range.first.toNat := h.offset
    have hend : szAdd buffer.offset range.first.toNat +
        szSub range.last.toNat range.first.toNat ≤ buffer.offset + buffer.size := h.last
    rw [UInt64.le_iff_toNat_le]
    -- A wrapped offset lies before the window, and a wrapped size reaches beyond it.
    unfold szAdd at hoffset hend
    unfold szSub at hend
    omega
  · intro h
    rw [slice_eq range hsmall h.1 h.2]
    have hle : range.first.toNat ≤ range.last.toNat := UInt64.le_iff_toNat_le.mp h.1
    refine ⟨rfl, Nat.le_add_right _ _, ?_⟩
    show buffer.offset + range.first.toNat + (range.last.toNat - range.first.toNat) ≤ _
    omega

/-- The bytes of a slice are the slice of the bytes. -/
theorem window_slice (range : Range) (hsmall : buffer.offset + buffer.size < 2 ^ 63)
    (hle : range.first ≤ range.last) (hsize : range.last.toNat ≤ buffer.size) :
    (buffer.slice range.first.toNat range.last.toNat).window =
      (buffer.window.drop range.first.toNat).take (range.last.toNat - range.first.toNat) := by
  rw [slice_eq range hsmall hle hsize]
  show (buffer.shared.drop (buffer.offset + range.first.toNat)).take _ =
    (((buffer.shared.drop buffer.offset).take buffer.size).drop range.first.toNat).take _
  rw [List.drop_take, List.take_take, List.drop_drop,
    Nat.min_eq_left (show range.last.toNat - range.first.toNat ≤
      buffer.size - range.first.toNat by omega)]

/-- For every chain of slices of a window inside its allocation, whatever 64-bit bounds it is
given, each window of the chain lies in the one before it exactly if each step asks for a range of
the window it slices; the last window then holds what slicing the bytes would leave. -/
theorem slice_chain (ranges : List Range) (hwithin : buffer.WithinBounds buffer.shared.length)
    (hmemory : buffer.shared.length ≤ vectorMaxSize) :
    (buffer.Nested ranges ↔ Ordered buffer.size ranges) ∧
      (Ordered buffer.size ranges →
        (buffer.sliceAll ranges).window = sliceBytes buffer.window ranges) := by
  have hmax := vector_max_size_lt
  induction ranges generalizing buffer with
  | nil => exact ⟨Iff.rfl, fun _ => rfl⟩
  | cons range ranges ih =>
      have hsmall : buffer.offset + buffer.size < 2 ^ 63 :=
        Nat.lt_of_le_of_lt (Nat.le_trans hwithin hmemory) hmax
      by_cases hrange : range.first ≤ range.last ∧ range.last.toNat ≤ buffer.size
      · -- The step goes through, and what is left is the chain on its window.
        have hinside := (slice_inside_iff range hsmall).mpr hrange
        have hsize : (buffer.slice range.first.toNat range.last.toNat).size =
            range.last.toNat - range.first.toNat := by
          rw [slice_eq range hsmall hrange.1 hrange.2]
        have hrest := ih (Nat.le_trans hinside.last (hinside.shared ▸ hwithin))
          (hinside.shared ▸ hmemory)
        rw [hsize, window_slice range hsmall hrange.1 hrange.2] at hrest
        constructor
        · exact (and_iff_right hinside).trans (hrest.1.trans
            ((and_iff_right hrange.1).trans (and_iff_right hrange.2)).symm)
        · intro hordered
          exact hrest.2 hordered.2.2
      · refine ⟨iff_of_false ?_ ?_, ?_⟩
        · exact fun hnested => hrange ((slice_inside_iff range hsmall).mp hnested.1)
        · exact fun hordered => hrange ⟨hordered.1, hordered.2.1⟩
        · exact fun hordered => absurd ⟨hordered.1, hordered.2.1⟩ hrange

/-- A buffer of four bytes. -/
def fourBytes : Buffer where
  shared := [1, 2, 3, 4]
  offset := 0
  size := 4

/-- Two slices in a row, and one whose end lies before its start. -/
theorem slice_chain_four_bytes :
    (fourBytes.sliceAll [⟨1, 4⟩, ⟨0, 2⟩]).window = [2, 3] ∧ ¬ fourBytes.Nested [⟨3, 1⟩] := by
  have hwithin : fourBytes.WithinBounds fourBytes.shared.length := Nat.le_refl 4
  constructor
  · exact (slice_chain [⟨1, 4⟩, ⟨0, 2⟩] hwithin (by decide)).2 (by decide)
  · intro hnested
    have hordered := (slice_chain [⟨3, 1⟩] hwithin (by decide)).1.mp hnested
    revert hordered
    decide

end Buffer

end Toad
