import Mathlib.Algebra.Group.Int.Defs
import Mathlib.Algebra.Group.Nat.Defs
import Mathlib.Data.List.Basic

/-!
# Machine sizes and byte vectors

The source counts bytes in `size_t` (`sz`) and lets signed kernel results flow into it.
A size is a natural number here, and every operation that can leave the 64-bit range
reduces explicitly: `szAdd` and `szSub` wrap, `szOfInt` is the implicit conversion from a
signed value. They are irreducible, so that unification never evaluates a remainder;
proofs go through the lemmas below. `vectorResize` is `std::vector<u8>::resize`, with the
exception it throws past `max_size()`; up to there its allocation is taken to succeed.
-/

namespace Toad

/-- `a + b` in `size_t`. -/
@[irreducible] def szAdd (a b : Nat) : Nat :=
  (a + b) % 2 ^ 64

/-- `a - b` in `size_t`, for operands that are themselves `size_t` values. -/
@[irreducible] def szSub (a b : Nat) : Nat :=
  (a + 2 ^ 64 - b) % 2 ^ 64

/-- The conversion of a signed integer to `size_t`. -/
@[irreducible] def szOfInt (value : Int) : Nat :=
  (value % 2 ^ 64).toNat

/-- Addition is exact below `2 ^ 64`. -/
theorem sz_add_eq {a b : Nat} (h : a + b < 2 ^ 64) : szAdd a b = a + b := by
  unfold szAdd
  exact Nat.mod_eq_of_lt h

/-- Subtraction of a smaller size is exact. -/
theorem sz_sub_eq {a b : Nat} (ha : a < 2 ^ 64) (h : b ≤ a) : szSub a b = a - b := by
  unfold szSub
  omega

/-- A nonnegative value converts to itself. -/
theorem sz_of_int_nonneg {value : Int} (h : 0 ≤ value) (hlt : value < 2 ^ 64) :
    szOfInt value = value.toNat := by
  rw [szOfInt, Int.emod_eq_of_lt h hlt]

/-- A negative value converts to its distance from `2 ^ 64`. -/
theorem sz_of_int_neg {value : Int} (h : value < 0) (hge : -2 ^ 64 ≤ value) :
    (szOfInt value : Int) = 2 ^ 64 + value := by
  unfold szOfInt
  omega

/-- Exceptions of the standard library that a modelled call can throw. -/
inductive StdException where
  | lengthError
  deriving DecidableEq, Repr

/-- `std::vector<u8>::max_size()`: an allocation cannot exceed `PTRDIFF_MAX` bytes. -/
def vectorMaxSize : Nat :=
  2 ^ 63 - 1

/-- The size of a vector is far from the end of `sz`. -/
theorem vector_max_size_lt : vectorMaxSize < 2 ^ 63 := by
  unfold vectorMaxSize
  omega

/-- `vec.resize(size)`: truncate, or extend with zero bytes, or throw `std::length_error`. -/
def vectorResize (vec : List UInt8) (size : Nat) : Except StdException (List UInt8) :=
  if size ≤ vectorMaxSize then
    .ok (vec.take size ++ List.replicate (size - vec.length) 0)
  else
    .error .lengthError

/-- A resize that returns had an admissible size and reached it. -/
theorem vector_resize_ok {vec resized : List UInt8} {size : Nat}
    (h : vectorResize vec size = .ok resized) :
    size ≤ vectorMaxSize ∧ resized.length = size := by
  unfold vectorResize at h
  split at h
  case isTrue hle =>
      obtain rfl := Except.ok.inj h
      refine ⟨hle, ?_⟩
      rw [List.length_append, List.length_take, List.length_replicate]
      omega
  case isFalse => exact absurd h (by simp)

/-- Resizing to an admissible larger size appends zero bytes. -/
theorem vector_resize_grow {vec : List UInt8} {extra : Nat}
    (h : vec.length + extra ≤ vectorMaxSize) :
    vectorResize vec (vec.length + extra) = .ok (vec ++ List.replicate extra 0) := by
  have htake : vec.take (vec.length + extra) = vec := List.take_of_length_le (by omega)
  simp [vectorResize, h, htake]

/-- Resizing to an admissible smaller size keeps the front. -/
theorem vector_resize_shrink {vec : List UInt8} {size : Nat} (hle : size ≤ vec.length)
    (h : size ≤ vectorMaxSize) : vectorResize vec size = .ok (vec.take size) := by
  have hzero : size - vec.length = 0 := by omega
  simp [vectorResize, h, hzero]

end Toad
