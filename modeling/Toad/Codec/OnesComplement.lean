import Mathlib.Algebra.BigOperators.Group.List.Basic
import Mathlib.Algebra.Ring.Nat
import Mathlib.Data.List.Basic

/-!
# One's-complement sums

Words below `base` are added with an end-around carry: whenever a partial sum reaches `base`,
the carry is added back at the low end. The result is the exact sum modulo `base - 1`, and of
the two representations of zero the sum yields `base - 1`, unless every word is zero.
`residue` says this without a carry.
-/

namespace OnesComplement

variable {base : Nat}

/-- Addition with an end-around carry. -/
def addCarry (base left right : Nat) : Nat :=
  if base ≤ left + right then left + right - base + 1 else left + right

/-- The representative of an exact sum among `0`, ..., `base - 1`: zero stands for an empty
sum only, and every other multiple of `base - 1` is represented by `base - 1`. -/
def residue (base exact : Nat) : Nat :=
  if exact = 0 then 0 else (exact - 1) % (base - 1) + 1

/-- The representative of zero is zero. -/
@[simp] theorem residue_zero : residue base 0 = 0 :=
  rfl

/-- A representative is a word. -/
theorem residue_lt (hbase : 2 ≤ base) (exact : Nat) : residue base exact < base := by
  have hmod : (exact - 1) % (base - 1) < base - 1 := Nat.mod_lt _ (by omega)
  unfold residue
  split <;> omega

/-- Only the empty sum is represented by zero. -/
theorem residue_eq_zero_iff {exact : Nat} : residue base exact = 0 ↔ exact = 0 := by
  unfold residue
  split
  · simpa
  · constructor <;> intro h <;> omega

/-- A representative differs from the exact sum by a multiple of `base - 1`. -/
theorem exact_eq (base exact : Nat) :
    ∃ carries, exact = residue base exact + (base - 1) * carries := by
  unfold residue
  split
  case isTrue hzero => exact ⟨0, by simpa using hzero⟩
  case isFalse hpos =>
      refine ⟨(exact - 1) / (base - 1), ?_⟩
      have hdiv := Nat.mod_add_div (exact - 1) (base - 1)
      omega

/-- Between one and `base - 1` there is one representative for each exact sum. -/
theorem residue_eq_of {exact word : Nat} (carries : Nat) (hpos : 0 < word) (hlt : word < base)
    (hexact : exact = word + (base - 1) * carries) : residue base exact = word := by
  have hmod : (exact - 1) % (base - 1) = word - 1 := by
    have hsplit : exact - 1 = word - 1 + (base - 1) * carries := by omega
    rw [hsplit, Nat.add_mul_mod_self_left, Nat.mod_eq_of_lt (by omega)]
  rw [residue, if_neg (by omega), hmod]
  omega

/-- One addition with carry keeps track of the exact sum. -/
theorem add_carry_residue (exact : Nat) {word : Nat} (hword : word < base) (hbase : 2 ≤ base) :
    addCarry base (residue base exact) word = residue base (exact + word) := by
  obtain ⟨carries, hcarries⟩ := exact_eq base exact
  have hlt := residue_lt hbase exact
  have hzero : residue base exact = 0 ↔ exact = 0 := residue_eq_zero_iff
  generalize residue base exact = sum at *
  unfold addCarry
  split
  case isTrue hcarry =>
      refine (residue_eq_of (carries + 1) (by omega) (by omega) ?_).symm
      rw [Nat.mul_succ]
      omega
  case isFalse hnone =>
      rcases Nat.eq_zero_or_pos (sum + word) with hnothing | hpos
      · have hexact : exact + word = 0 := by
          have := hzero.mp (by omega)
          omega
        rw [hexact, hnothing]
        rfl
      · exact (residue_eq_of carries hpos (by omega) (by omega)).symm

/-- Adding words one after the other with carries computes the representative of their exact
sum. -/
theorem foldl_add_carry {words : List Nat} (exact : Nat) (hwords : ∀ word ∈ words, word < base)
    (hbase : 2 ≤ base) :
    words.foldl (addCarry base) (residue base exact) = residue base (exact + words.sum) := by
  induction words generalizing exact with
  | nil => simp
  | cons word words ih =>
      rw [List.foldl_cons, add_carry_residue exact (hwords word (by simp)) hbase,
        ih (exact + word) (fun other hmem => hwords other (by simp [hmem])), List.sum_cons,
        Nat.add_assoc]

/-- A sum together with the complement of its representative is represented by all ones. -/
theorem residue_add_complement (hbase : 2 ≤ base) (exact : Nat) :
    residue base (exact + (base - 1 - residue base exact)) = base - 1 := by
  obtain ⟨carries, hcarries⟩ := exact_eq base exact
  have hlt := residue_lt hbase exact
  refine residue_eq_of carries (by omega) (by omega) ?_
  omega

/-- A further summand leaves the representative alone exactly when it is a multiple of
`base - 1` that does not turn an empty sum into another one. -/
theorem residue_add_eq_iff (hbase : 2 ≤ base) {exact extra : Nat} :
    residue base (exact + extra) = residue base exact ↔
      extra % (base - 1) = 0 ∧ (extra = 0 ∨ exact ≠ 0) := by
  obtain ⟨carries, hcarries⟩ := exact_eq base exact
  have hlt := residue_lt hbase exact
  constructor
  · intro heq
    obtain ⟨carries', hcarries'⟩ := exact_eq base (exact + extra)
    rw [heq] at hcarries'
    have hzero : exact = 0 → exact + extra = 0 := by
      intro hnone
      exact residue_eq_zero_iff.mp (heq.trans (residue_eq_zero_iff.mpr hnone))
    have hextra : extra + (base - 1) * carries = (base - 1) * carries' := by omega
    refine ⟨?_, by omega⟩
    have hmod := congrArg (· % (base - 1)) hextra
    simpa using hmod
  · intro h
    obtain ⟨hmod, hcase⟩ := h
    rcases hcase with rfl | hne
    · rfl
    · have hdiv := Nat.mod_add_div extra (base - 1)
      have hpos : 0 < residue base exact :=
        Nat.pos_of_ne_zero (fun hzero => hne (residue_eq_zero_iff.mp hzero))
      refine residue_eq_of (carries + extra / (base - 1)) hpos hlt ?_
      rw [Nat.mul_add]
      omega

/-- All ones stand for the multiples of `base - 1` other than the empty sum. -/
theorem residue_eq_ones_iff (hbase : 2 ≤ base) {exact : Nat} :
    residue base exact = base - 1 ↔ exact ≠ 0 ∧ exact % (base - 1) = 0 := by
  obtain ⟨carries, hcarries⟩ := exact_eq base exact
  constructor
  · intro hones
    rw [hones] at hcarries
    refine ⟨by omega, ?_⟩
    rw [hcarries, Nat.add_mul_mod_self_left, Nat.mod_self]
  · intro h
    obtain ⟨hne, hmod⟩ := h
    obtain ⟨quotient, hquotient⟩ := Nat.dvd_of_mod_eq_zero hmod
    cases quotient with
    | zero => exact absurd hquotient hne
    | succ carries =>
        refine residue_eq_of carries (by omega) (by omega) ?_
        rw [hquotient, Nat.mul_succ, Nat.add_comm]

/-- A sum of complements and the exact sum itself add up to a multiple of `base - 1`. -/
theorem sum_complements (hbase : 2 ≤ base) (exacts : List Nat) :
    ∃ carries, (exacts.map fun exact => base - 1 - residue base exact).sum + exacts.sum =
      (base - 1) * carries := by
  induction exacts with
  | nil => exact ⟨0, rfl⟩
  | cons exact rest ih =>
      obtain ⟨carries, hcarries⟩ := ih
      obtain ⟨quotient, hquotient⟩ := exact_eq base exact
      have hlt := residue_lt hbase exact
      refine ⟨carries + (quotient + 1), ?_⟩
      rw [List.map_cons, List.sum_cons, List.sum_cons, Nat.mul_add, Nat.mul_succ, ← hcarries]
      omega

/-- A sum of complements is empty exactly when every complement is zero. -/
theorem sum_complements_eq_zero_iff (hbase : 2 ≤ base) (exacts : List Nat) :
    (exacts.map fun exact => base - 1 - residue base exact).sum = 0 ↔
      ∀ exact ∈ exacts, exact ≠ 0 ∧ exact % (base - 1) = 0 := by
  rw [List.sum_eq_zero_iff_forall_eq_nat, List.forall_mem_map]
  refine forall₂_congr fun exact _ => ?_
  have hlt := residue_lt hbase exact
  rw [← residue_eq_ones_iff hbase]
  omega

/-- A number up to twice `step` that differs from a multiple of `step` by another one is nothing,
`step`, or twice that. -/
theorem small_multiple {step value left right : Nat} (hstep : 0 < step) (hle : value ≤ 2 * step)
    (h : value + step * left = step * right) :
    value = 0 ∨ value = step ∨ value = 2 * step := by
  have hlr : left ≤ right := Nat.le_of_mul_le_mul_left (by omega) hstep
  obtain ⟨count, rfl⟩ := Nat.exists_eq_add_of_le hlr
  rw [Nat.mul_add] at h
  have hvalue : value = step * count := by omega
  have hcount : count ≤ 2 := by
    rw [hvalue, Nat.mul_comm 2] at hle
    exact Nat.le_of_mul_le_mul_left hle hstep
  obtain rfl | rfl | rfl : count = 0 ∨ count = 1 ∨ count = 2 := by omega
  · exact .inl hvalue
  · exact .inr (.inl (by omega))
  · exact .inr (.inr (by omega))

/-- Adding complements gives the complement of the sum, except that a sum which is a multiple of
`base - 1`, and not empty, must be one of such multiples only. -/
theorem residue_complements_iff (hbase : 2 ≤ base) {exacts : List Nat} (hne : exacts ≠ []) :
    residue base (exacts.map fun exact => base - 1 - residue base exact).sum =
        base - 1 - residue base exacts.sum ↔
      (exacts.sum ≠ 0 → exacts.sum % (base - 1) = 0 →
        ∀ exact ∈ exacts, exact ≠ 0 ∧ exact % (base - 1) = 0) := by
  have hnone := sum_complements_eq_zero_iff hbase exacts
  obtain ⟨carries, hcarries⟩ := sum_complements hbase exacts
  -- The sum of the complements and the exact sum are not both empty.
  have hsome : exacts.sum = 0 →
      (exacts.map fun exact => base - 1 - residue base exact).sum ≠ 0 := by
    intro hsum hzero
    obtain ⟨exact, hmem⟩ := List.exists_mem_of_ne_nil exacts hne
    exact (hnone.mp hzero exact hmem).1 (List.sum_eq_zero_iff_forall_eq_nat.mp hsum exact hmem)
  rw [← hnone]
  generalize (exacts.map fun exact => base - 1 - residue base exact).sum = complements at *
  generalize exacts.sum = sum at *
  obtain ⟨left, hleft⟩ := exact_eq base complements
  obtain ⟨right, hright⟩ := exact_eq base sum
  have hlt := residue_lt hbase complements
  have hlt' := residue_lt hbase sum
  have hempty : residue base complements = 0 ↔ complements = 0 := residue_eq_zero_iff
  have hempty' : residue base sum = 0 ↔ sum = 0 := residue_eq_zero_iff
  have hones : residue base sum = base - 1 ↔ sum ≠ 0 ∧ sum % (base - 1) = 0 :=
    residue_eq_ones_iff hbase
  have hmultiple := small_multiple (show 0 < base - 1 by omega)
    (show residue base complements + residue base sum ≤ 2 * (base - 1) by omega)
    (show _ + (base - 1) * (left + right) = (base - 1) * carries by rw [Nat.mul_add]; omega)
  rcases hmultiple with hzero | hcomplement | hboth
  · exact absurd (hempty.mp (by omega)) (hsome (hempty'.mp (by omega)))
  · refine iff_of_true (by omega) fun hsum hmod => ?_
    have hall := hones.mpr ⟨hsum, hmod⟩
    exact hempty.mp (by omega)
  · have hall := hones.mp (by omega)
    refine iff_of_false (by omega) fun h => ?_
    have hnothing := hempty.mpr (h hall.1 hall.2)
    omega

end OnesComplement
