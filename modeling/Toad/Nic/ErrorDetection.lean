import Toad.Nic.Checksum

/-!
# What the checksum detects

The checksum of `nic/checksum.hpp` as a means to notice damage. Two spans have the same checksum
if their sums agree modulo `65535` and are both zero or both not, which leaves room for every
reordering of words. Damage to two neighbouring bytes is noticed wherever it lies, on a word or
across two, with one exception: `two_bytes_undetected_iff`.
-/

namespace Toad

namespace Checksum

open OnesComplement

variable {front rest : List UInt8}

/-- The value of two neighbouring bytes in the sum: one word, or the lower byte of a word and the
upper byte of the next. -/
def pairWeight (aligned : Bool) (first second : UInt8) : Nat :=
  if aligned then 256 * first.toNat + second.toNat else first.toNat + 256 * second.toNat

/-- A pair weighs at most `65535`, and its weight tells its bytes. -/
theorem pair_weight_le (aligned : Bool) (first second : UInt8) :
    pairWeight aligned first second ≤ 65535 := by
  have hfirst : first.toNat < 256 := first.toNat_lt
  have hsecond : second.toNat < 256 := second.toNat_lt
  unfold pairWeight
  split <;> omega

theorem pair_weight_inj (aligned : Bool) (first second other another : UInt8) :
    pairWeight aligned first second = pairWeight aligned other another ↔
      first = other ∧ second = another := by
  have hfirst : first.toNat < 256 := first.toNat_lt
  have hsecond : second.toNat < 256 := second.toNat_lt
  have hother : other.toNat < 256 := other.toNat_lt
  have hanother : another.toNat < 256 := another.toNat_lt
  rw [← UInt8.toNat_inj, ← UInt8.toNat_inj]
  unfold pairWeight
  split <;> omega

/-- The lightest pair weighs nothing and the heaviest `65535`. -/
theorem pair_weight_ends (aligned : Bool) :
    pairWeight aligned 0 0 = 0 ∧ pairWeight aligned 0xFF 0xFF = 65535 := by
  cases aligned with
  | false => exact ⟨rfl, rfl⟩
  | true => exact ⟨rfl, rfl⟩

/-- Two bytes add their weight to the sum of the others. -/
theorem word_sum_pair (first second : UInt8)
    (heven : (front ++ [first, second] ++ rest).length % 2 = 0) :
    wordSum (front ++ [first, second] ++ rest) =
      wordSum (front ++ [0, 0] ++ rest) +
        pairWeight (front.length % 2 == 0) first second := by
  induction front using words.induct with
  | case1 hi lo front ih =>
      simp only [List.cons_append, List.length_cons] at heven
      have hsum := ih (by omega)
      have hparity : (front.length + 1 + 1) % 2 = front.length % 2 := by omega
      simp only [wordSum, List.cons_append, words, List.sum_cons, List.length_cons,
        hparity] at hsum ⊢
      omega
  | case2 hi =>
      -- The pair lies across two words, so that there is a byte behind it.
      cases rest with
      | nil => simp at heven
      | cons next rest =>
          simp [wordSum, words, pairWeight]
          omega
  | case3 =>
      simp [wordSum, words, pairWeight]
      omega

/-- The others add up to nothing only if they are zero. -/
theorem word_sum_others_eq_zero_iff :
    wordSum (front ++ [0, 0] ++ rest) = 0 ↔ ∀ byte ∈ front ++ rest, byte = 0 := by
  rw [word_sum_eq_zero_iff]
  simp only [List.append_assoc, List.cons_append, List.nil_append, List.mem_append,
    List.mem_cons]
  constructor
  · intro h byte hmem
    refine h byte ?_
    rcases hmem with hmem | hmem
    · exact Or.inl hmem
    · exact Or.inr (Or.inr (Or.inr hmem))
  · intro h byte hmem
    rcases hmem with hmem | rfl | rfl | hmem
    · exact h byte (Or.inl hmem)
    · rfl
    · rfl
    · exact h byte (Or.inr hmem)

/-- Two spans have the same checksum exactly if their sums have the same representative. -/
theorem of_span_eq_iff {left right : List UInt8} (hleft : left.length % 2 = 0)
    (hright : right.length % 2 = 0) (hposLeft : 0 < left.length) (hposRight : 0 < right.length) :
    ofSpan left = ofSpan right ↔
      residue 65536 (wordSum left) = residue 65536 (wordSum right) := by
  obtain ⟨first, hfirst, hfirstValue⟩ := of_span_eq left hleft hposLeft
  obtain ⟨second, hsecond, hsecondValue⟩ := of_span_eq right hright hposRight
  have hltLeft := residue_lt (by decide : 2 ≤ 65536) (wordSum left)
  have hltRight := residue_lt (by decide : 2 ≤ 65536) (wordSum right)
  rw [hfirst, hsecond, Option.some.injEq]
  constructor
  · intro heq
    rw [heq] at hfirstValue
    omega
  · intro heq
    have hn : first.n.toNat = second.n.toNat := by rw [hfirstValue, hsecondValue, heq]
    obtain ⟨n⟩ := first
    obtain ⟨m⟩ := second
    exact congrArg Checksum.mk (UInt16.toNat_inj.mp hn)

/-- Raising the weight of a pair goes unnoticed exactly if it stays what it is, or rises from the
lightest to the heaviest pair beside bytes that are not all zero. -/
theorem raised_undetected_iff (aligned : Bool) {others : Nat} {first second other another : UInt8}
    (hle : pairWeight aligned first second ≤ pairWeight aligned other another) :
    residue 65536 (others + pairWeight aligned other another) =
        residue 65536 (others + pairWeight aligned first second) ↔
      (first = other ∧ second = another) ∨
        ((first = 0 ∧ second = 0) ∧ (other = 0xFF ∧ another = 0xFF) ∧ others ≠ 0) := by
  obtain ⟨hzero, hfull⟩ := pair_weight_ends aligned
  have hsum : others + pairWeight aligned other another =
      others + pairWeight aligned first second +
        (pairWeight aligned other another - pairWeight aligned first second) := by
    omega
  have hbound := pair_weight_le aligned other another
  rw [hsum, residue_add_eq_iff (by decide), ← pair_weight_inj aligned first second other another,
    ← pair_weight_inj aligned first second 0 0, ← pair_weight_inj aligned other another 0xFF 0xFF,
    hzero, hfull]
  omega

/-- A pair of bytes, wherever it stands in a span, is replaced by another without a change of the
checksum exactly if nothing changes, or if `00 00` and `FF FF` are exchanged in a span with some
other byte that is not zero. -/
theorem two_bytes_undetected_iff {front rest : List UInt8} {first second other another : UInt8}
    (heven : (front.length + rest.length) % 2 = 0) :
    ofSpan (front ++ [first, second] ++ rest) = ofSpan (front ++ [other, another] ++ rest) ↔
      (first = other ∧ second = another) ∨
      (((first = 0 ∧ second = 0) ∧ (other = 0xFF ∧ another = 0xFF) ∨
        (first = 0xFF ∧ second = 0xFF) ∧ (other = 0 ∧ another = 0)) ∧
        ∃ byte ∈ front ++ rest, byte ≠ 0) := by
  have hlength : ∀ one two : UInt8,
      (front ++ [one, two] ++ rest).length = front.length + rest.length + 2 := by
    intro one two
    simp only [List.length_append, List.length_cons, List.length_nil]
    omega
  have hothers : (∃ byte ∈ front ++ rest, byte ≠ 0) ↔ wordSum (front ++ [0, 0] ++ rest) ≠ 0 := by
    rw [Ne, word_sum_others_eq_zero_iff]
    push Not
    rfl
  rw [of_span_eq_iff (by rw [hlength]; omega) (by rw [hlength]; omega) (by rw [hlength]; omega)
    (by rw [hlength]; omega), word_sum_pair first second (by rw [hlength]; omega),
    word_sum_pair other another (by rw [hlength]; omega), hothers]
  obtain ⟨hzero, hfull⟩ := pair_weight_ends (front.length % 2 == 0)
  -- Of the two exchanges, one raises the weight and the other lowers it.
  rcases Nat.le_total (pairWeight (front.length % 2 == 0) first second)
    (pairWeight (front.length % 2 == 0) other another) with hle | hle
  · have hlowered : ¬ ((first = 0xFF ∧ second = 0xFF) ∧ other = 0 ∧ another = 0) := by
      intro h
      obtain ⟨⟨rfl, rfl⟩, rfl, rfl⟩ := h
      omega
    rw [eq_comm, raised_undetected_iff _ hle]
    simp only [iff_false_intro hlowered, or_false, and_assoc]
  · have hraised : ¬ ((first = 0 ∧ second = 0) ∧ other = 0xFF ∧ another = 0xFF) := by
      intro h
      obtain ⟨⟨rfl, rfl⟩, rfl, rfl⟩ := h
      omega
    rw [raised_undetected_iff _ hle]
    constructor
    · intro h
      rcases h with ⟨rfl, rfl⟩ | ⟨hlow, hhigh, hne⟩
      · exact Or.inl ⟨rfl, rfl⟩
      · exact Or.inr ⟨Or.inr ⟨hhigh, hlow⟩, hne⟩
    · intro h
      rcases h with ⟨rfl, rfl⟩ | ⟨hswapped | ⟨hhigh, hlow⟩, hne⟩
      · exact Or.inl ⟨rfl, rfl⟩
      · exact absurd hswapped hraised
      · exact Or.inr ⟨hlow, hhigh, hne⟩

/-- One damaged byte across two words is noticed, and so is an exchange of zeros and ones in a span
of zeros. -/
theorem two_bytes_detected :
    ofSpan [1, 2, 3, 4] ≠ ofSpan [1, 2, 7, 4] ∧
      ofSpan [0, 0, 0, 0] ≠ ofSpan [0, 0xFF, 0xFF, 0] := by
  constructor
  · intro heq
    have h := (two_bytes_undetected_iff
      (show (([1] : List UInt8).length + ([4] : List UInt8).length) % 2 = 0 from rfl)).mp heq
    revert h
    decide
  · intro heq
    have h := (two_bytes_undetected_iff
      (show (([0] : List UInt8).length + ([0] : List UInt8).length) % 2 = 0 from rfl)).mp heq
    revert h
    decide

end Checksum

end Toad
