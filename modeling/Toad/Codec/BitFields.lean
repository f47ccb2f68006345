import Mathlib.Data.Nat.Basic
import Mathlib.Data.Nat.Bitwise
import Mathlib.Algebra.Order.Ring.Nat

/-!
# Fields packed into bytes

Two fields share a byte: the high one is shifted up and the low one is joined to it. Each
operation is stated by the value it computes, so that packing and unpacking become division
and remainder.
-/

namespace BitFields

/-- Shifting a byte up keeps what still fits below the top. -/
theorem to_nat_shift_left (value shift : UInt8) (hshift : shift.toNat < 8) :
    (value <<< shift).toNat = 2 ^ shift.toNat * (value.toNat % 2 ^ (8 - shift.toNat)) := by
  have hsplit : 2 ^ 8 = 2 ^ shift.toNat * 2 ^ (8 - shift.toNat) := by
    rw [← Nat.pow_add, Nat.add_sub_cancel' (by omega)]
  rw [UInt8.toNat_shiftLeft, Nat.mod_eq_of_lt hshift, Nat.shiftLeft_eq, Nat.mul_comm, hsplit,
    Nat.mul_mod_mul_left]

/-- A byte packed from a high and a low field is their sum with weights. -/
theorem to_nat_pack (high low shift : UInt8) (hshift : shift.toNat < 8)
    (hlow : low.toNat < 2 ^ shift.toNat) :
    ((high <<< shift) ||| low).toNat =
      2 ^ shift.toNat * (high.toNat % 2 ^ (8 - shift.toNat)) + low.toNat := by
  rw [UInt8.toNat_or, to_nat_shift_left high shift hshift, Nat.two_pow_add_eq_or_of_lt hlow]

/-- A packed byte is zero only if both of its fields are. -/
theorem pack_eq_zero_iff (high low shift : UInt8) (hshift : shift.toNat < 8) :
    (high <<< shift) ||| low = 0 ↔ high.toNat % 2 ^ (8 - shift.toNat) = 0 ∧ low = 0 := by
  have hpos : 0 < 2 ^ shift.toNat := Nat.two_pow_pos _
  rw [← UInt8.toNat_inj, UInt8.toNat_or, to_nat_shift_left high shift hshift,
    ← UInt8.toNat_inj (a := low)]
  show _ ||| _ = 0 ↔ _ ∧ low.toNat = 0
  rw [Nat.or_eq_zero_iff, Nat.mul_eq_zero]
  omega

/-- Masking a byte with ones at the low end is a remainder. -/
theorem to_nat_mask (value mask : UInt8) (bits : Nat) (hmask : mask.toNat = 2 ^ bits - 1) :
    (value &&& mask).toNat = value.toNat % 2 ^ bits := by
  rw [UInt8.toNat_and, hmask, Nat.and_two_pow_sub_one_eq_mod]

/-- Masking a word with ones at the low end is a remainder. -/
theorem to_nat_mask_word (value mask : UInt16) (bits : Nat) (hmask : mask.toNat = 2 ^ bits - 1) :
    (value &&& mask).toNat = value.toNat % 2 ^ bits := by
  rw [UInt16.toNat_and, hmask, Nat.and_two_pow_sub_one_eq_mod]

/-- Shifting a byte down is a division. -/
theorem to_nat_shift_right (value shift : UInt8) (hshift : shift.toNat < 8) :
    (value >>> shift).toNat = value.toNat / 2 ^ shift.toNat := by
  rw [UInt8.toNat_shiftRight, Nat.mod_eq_of_lt hshift, Nat.shiftRight_eq_div_pow]

/-- Shifting a word down is a division. -/
theorem to_nat_shift_right_word (value shift : UInt16) (hshift : shift.toNat < 16) :
    (value >>> shift).toNat = value.toNat / 2 ^ shift.toNat := by
  rw [UInt16.toNat_shiftRight, Nat.mod_eq_of_lt hshift, Nat.shiftRight_eq_div_pow]

end BitFields
