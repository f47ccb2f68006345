import Mathlib.Data.Nat.ModEq
import Mathlib.Logic.Function.Basic

/-!
# Rings of slots

A ring has a fixed number of slots and is addressed by counters that only grow; position `p`
lives in slot `p % entries`. Two positions share a slot only if they are at least `entries`
apart, so inside a window of that length a ring behaves like an array: `get_set_of_window`.
-/

namespace Execution

namespace Ring

variable {α : Type*} {entries : Nat}

/-- Read the slot of a position. -/
def get (entries : Nat) (slots : Nat → α) (position : Nat) : α :=
  slots (position % entries)

/-- Write the slot of a position. -/
def set (entries : Nat) (slots : Nat → α) (position : Nat) (value : α) : Nat → α :=
  Function.update slots (position % entries) value

/-- A written slot reads back. -/
@[simp] theorem get_set_self (slots : Nat → α) (position : Nat) (value : α) :
    get entries (set entries slots position value) position = value :=
  Function.update_self ..

/-- Positions of one window have different slots. -/
theorem slot_ne {first second : Nat} (hlt : first < second) (hwindow : second < first + entries) :
    first % entries ≠ second % entries := by
  intro heq
  have hdvd : entries ∣ second - first := (Nat.modEq_iff_dvd' hlt.le).mp heq
  have hle := Nat.le_of_dvd (by omega) hdvd
  omega

/-- Writing one position of a window leaves the others alone. -/
theorem get_set_of_window {start position other : Nat} {value : α} (slots : Nat → α)
    (hposition : start ≤ position ∧ position < start + entries)
    (hother : start ≤ other ∧ other < start + entries) (hne : other ≠ position) :
    get entries (set entries slots position value) other = get entries slots other := by
  have hslot : other % entries ≠ position % entries := by
    rcases Nat.lt_or_gt_of_ne hne with hlt | hgt
    · exact slot_ne hlt (by omega)
    · exact (slot_ne hgt (by omega)).symm
  exact Function.update_of_ne hslot ..

end Ring

end Execution
