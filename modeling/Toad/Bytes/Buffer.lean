import Toad.Defs

/-!
# Shared buffers

`bytes/buffer.hpp`. A `Buffer` is a window, given by `_offset` and `_size`, into a shared
allocation. Nothing in the source ties the window to the allocation: `slice` computes its
bounds in `size_t` and does not check them, so a signed length that is converted on the way
in can produce a window far outside. `WithinBounds` is the property a window should have.
-/

namespace Toad

/-- `Buffer`: the shared bytes and the window into them. -/
structure Buffer where
  shared : List UInt8
  offset : Nat
  size : Nat
  deriving DecidableEq, Repr

namespace Buffer

/-- `Buffer(sz size)`: a fresh allocation of zero bytes, all of it in the window. -/
def ofSize (size : Nat) : Buffer :=
  { shared := List.replicate size 0, offset := 0, size := size }

/-- `slice(from, to)`. -/
def slice (buffer : Buffer) (first last : Nat) : Buffer :=
  { buffer with offset := szAdd buffer.offset first, size := szSub last first }

/-- `slice(length)`. -/
def sliceLength (buffer : Buffer) (length : Nat) : Buffer :=
  buffer.slice 0 length

/-- The window lies inside an allocation of `capacity` bytes. -/
def WithinBounds (buffer : Buffer) (capacity : Nat) : Prop :=
  buffer.offset + buffer.size ≤ capacity

/-- Slicing a whole buffer to a `size_t` length keeps the start and takes that length. -/
theorem slice_length_of_size (size : Nat) {length : Nat} (h : length < 2 ^ 64) :
    (ofSize size).sliceLength length =
      { shared := List.replicate size 0, offset := 0, size := length } := by
  have hoffset : szAdd 0 0 = 0 := sz_add_eq (by omega)
  have hsize : szSub length 0 = length := by
    rw [sz_sub_eq h (Nat.zero_le _), Nat.sub_zero]
  show { ofSize size with offset := szAdd 0 0, size := szSub length 0 } = _
  rw [hoffset, hsize]
  rfl

end Buffer

end Toad
