import Mathlib.Algebra.BigOperators.Group.List.Basic
import Mathlib.Algebra.Ring.Nat
import Mathlib.Data.List.Basic

/-!
# Greedy packing

Elements of different sizes are offered in order to a store with limited room. Each one that
still fits is taken, and each one that does not is passed over without ending the process, so
that a later, smaller element may be taken after a larger one was refused. `fit` is the list
of elements that are taken.
-/

namespace Packing

variable {α : Type*} {size : α → Nat} {room : Nat}

/-- The room that a list of elements takes. -/
def total (size : α → Nat) (elements : List α) : Nat :=
  (elements.map size).sum

/-- The elements that are taken, in order, when `room` is left. -/
def fit (size : α → Nat) : Nat → List α → List α
  | _, [] => []
  | room, element :: rest =>
      if size element ≤ room then
        element :: fit size (room - size element) rest
      else
        fit size room rest

/-- The empty list takes no room. -/
@[simp] theorem total_nil : total size [] = 0 :=
  rfl

/-- The room of a list is that of its head and that of its tail. -/
@[simp] theorem total_cons (element : α) (rest : List α) :
    total size (element :: rest) = size element + total size rest := by
  simp [total]

/-- An element that fits is taken. -/
theorem fit_cons_of_le {element : α} {rest : List α} (h : size element ≤ room) :
    fit size room (element :: rest) = element :: fit size (room - size element) rest := by
  rw [fit, if_pos h]

/-- An element that does not fit is passed over. -/
theorem fit_cons_of_lt {element : α} {rest : List α} (h : room < size element) :
    fit size room (element :: rest) = fit size room rest := by
  rw [fit, if_neg (by omega)]

/-- What is taken never exceeds the room. -/
theorem total_fit_le (size : α → Nat) (room : Nat) (elements : List α) :
    total size (fit size room elements) ≤ room := by
  induction elements generalizing room with
  | nil => exact Nat.zero_le _
  | cons element rest ih =>
      by_cases h : size element ≤ room
      · have hrest := ih (room - size element)
        rw [fit_cons_of_le h, total_cons]
        omega
      · rw [fit_cons_of_lt (by omega)]
        exact ih room

/-- Only elements that were offered are taken. -/
theorem mem_of_mem_fit {element : α} {elements : List α} (h : element ∈ fit size room elements) :
    element ∈ elements := by
  induction elements generalizing room with
  | nil => exact h
  | cons first rest ih =>
      by_cases hfits : size first ≤ room
      · rw [fit_cons_of_le hfits] at h
        rcases List.mem_cons.mp h with rfl | hrest
        · exact List.mem_cons_self
        · exact List.mem_cons_of_mem _ (ih hrest)
      · rw [fit_cons_of_lt (by omega)] at h
        exact List.mem_cons_of_mem _ (ih h)

/-- An element that does not fit is not among those taken after it. -/
theorem fit_ne_of_lt {element : α} {rest : List α} (h : room < size element) :
    fit size room rest ≠ element :: rest := by
  intro heq
  have hle := total_fit_le size room rest
  rw [heq, total_cons] at hle
  omega

/-- Everything is taken exactly when everything fits together. -/
theorem fit_eq_self_iff (elements : List α) :
    fit size room elements = elements ↔ total size elements ≤ room := by
  induction elements generalizing room with
  | nil => simp [fit]
  | cons element rest ih =>
      by_cases h : size element ≤ room
      · rw [fit_cons_of_le h, List.cons_inj_right, ih, total_cons]
        omega
      · have hlt : room < size element := by omega
        rw [fit_cons_of_lt hlt, total_cons]
        constructor
        · intro heq
          exact absurd heq (fit_ne_of_lt hlt)
        · intro hle
          omega

end Packing
