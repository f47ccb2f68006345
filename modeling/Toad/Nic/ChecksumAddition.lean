import Toad.Nic.Checksum

/-!
# Adding checksums

`operator+` and `operator+=` of `nic/checksum.hpp`. Two checksums, that is, two complements, are
added as numbers and the carry is folded back once. Up to the two representations of zero this is
the checksum of the concatenation; `addition_concatenates_iff` says when it is that very word.
-/

namespace Toad

namespace Checksum

open OnesComplement

/-- `operator+`: the sum of the two words is folded and narrowed to a word. -/
def add (left right : Checksum) : Checksum :=
  let sum := left.n.toUInt32 + right.n.toUInt32
  { n := ((sum &&& 0xFFFF) + (sum >>> (16 : UInt32))).toUInt16 }

/-- `operator+=`. -/
def addAssign (left right : Checksum) : Checksum :=
  left.add right

/-- `sum += checksum(piece)` for each piece in turn; `none` is a failed assertion. -/
def addAll (sum : Checksum) : List (List UInt8) → Option Checksum
  | [] => some sum
  | piece :: pieces => do
      let checksum ← ofSpan piece
      addAll (sum.addAssign checksum) pieces

/-- The exact sum of the words of a list of pieces. -/
def totalSum (pieces : List Span) : Nat :=
  (pieces.map fun piece => wordSum piece.bytes).sum

/-- The words of the pieces together are zero or no multiple of `0xFFFF`, or else those of every
piece are a multiple of it and not zero. -/
def Separable (pieces : List Span) : Prop :=
  totalSum pieces ≠ 0 → totalSum pieces % 65535 = 0 →
    ∀ piece ∈ pieces, wordSum piece.bytes ≠ 0 ∧ wordSum piece.bytes % 65535 = 0

/-- `operator+` is an addition with an end-around carry. -/
theorem add_to_nat (left right : Checksum) :
    (left.add right).n.toNat = addCarry 65536 left.n.toNat right.n.toNat := by
  have hleft : left.n.toNat < 65536 := left.n.toNat_lt
  have hright : right.n.toNat < 65536 := right.n.toNat_lt
  have hsum : (left.n.toUInt32 + right.n.toUInt32).toNat = left.n.toNat + right.n.toNat := by
    rw [add_word_to_nat _ (by rwa [UInt16.toNat_toUInt32]), UInt16.toNat_toUInt32]
  show UInt16.toNat (UInt32.toUInt16 _) = _
  rw [UInt32.toNat_toUInt16, UInt32.toNat_add, to_nat_low_word, to_nat_high_word, hsum]
  unfold addCarry
  split <;> omega

/-- A fresh checksum adds nothing. -/
theorem fresh_add (checksum : Checksum) : ({} : Checksum).addAssign checksum = checksum := by
  have hlt : checksum.n.toNat < 65536 := checksum.n.toNat_lt
  have hvalue : (({} : Checksum).addAssign checksum).n.toNat = checksum.n.toNat := by
    rw [addAssign, add_to_nat]
    show addCarry 65536 0 _ = _
    rw [addCarry, if_neg (by omega), Nat.zero_add]
  exact congrArg Checksum.mk (UInt16.toNat_inj.mp hvalue)

/-- Adding the checksums of pieces one after the other adds up their complements. -/
theorem add_all_to_nat {sum : Checksum} {exact : Nat} (pieces : List Span)
    (hsum : sum.n.toNat = residue 65536 exact) :
    ∃ checksum, addAll sum (pieces.map Span.bytes) = some checksum ∧
      checksum.n.toNat = residue 65536 (exact +
        (pieces.map fun piece => 0xFFFF - residue 65536 (wordSum piece.bytes)).sum) := by
  induction pieces generalizing sum exact with
  | nil => exact ⟨sum, rfl, hsum⟩
  | cons piece pieces ih =>
      obtain ⟨checksum, hspan, hvalue⟩ := of_span_eq piece.bytes piece.even piece.nonempty
      have hstep : (sum.addAssign checksum).n.toNat =
          residue 65536 (exact + (0xFFFF - residue 65536 (wordSum piece.bytes))) := by
        rw [addAssign, add_to_nat, hsum, ← hvalue]
        exact add_carry_residue exact checksum.n.toNat_lt (by decide)
      obtain ⟨last, hlast, hresult⟩ := ih hstep
      refine ⟨last, ?_, ?_⟩
      · rw [List.map_cons, addAll, hspan]
        exact hlast
      · rw [hresult, List.map_cons, List.sum_cons, Nat.add_assoc]

/-- A list of pieces that is not empty is a span. -/
def join (first : Span) (rest : List Span) : Span where
  bytes := ((first :: rest).map Span.bytes).flatten
  even := by
    have hrest : (rest.map Span.bytes).flatten.length % 2 = 0 := by
      induction rest with
      | nil => rfl
      | cons piece rest ih =>
          have hpiece := piece.even
          rw [List.map_cons, List.flatten_cons, List.length_append]
          omega
    have hfirst := first.even
    rw [List.map_cons, List.flatten_cons, List.length_append]
    omega
  nonempty := by
    have hfirst := first.nonempty
    rw [List.map_cons, List.flatten_cons, List.length_append]
    omega

/-- The words of a concatenation of pieces are those of the pieces. -/
theorem word_sum_flatten (pieces : List Span) :
    wordSum (pieces.map Span.bytes).flatten = totalSum pieces := by
  induction pieces with
  | nil => rfl
  | cons piece pieces ih =>
      rw [List.map_cons, List.flatten_cons, word_sum_append _ piece.even, ih]
      rfl

/-- Adding up the checksums of the pieces gives the checksum of the whole exactly when the pieces
are separable. -/
theorem add_all_iff (first : Span) (rest : List Span) :
    addAll {} ((first :: rest).map Span.bytes) =
        ofSpan ((first :: rest).map Span.bytes).flatten ↔
      Separable (first :: rest) := by
  obtain ⟨sum, haddAll, hsum⟩ := add_all_to_nat (first :: rest)
    (show ({} : Checksum).n.toNat = residue 65536 0 from rfl)
  obtain ⟨whole, hspan, hwhole⟩ :=
    of_span_eq _ (join first rest).even (join first rest).nonempty
  have hspan' : ofSpan ((first :: rest).map Span.bytes).flatten = some whole := hspan
  have hcomplements := residue_complements_iff (by decide : 2 ≤ 65536)
    (show (first :: rest).map (fun piece => wordSum piece.bytes) ≠ [] by simp)
  rw [List.map_map, List.forall_mem_map] at hcomplements
  rw [Nat.zero_add] at hsum
  have hwords : wordSum (join first rest).bytes = totalSum (first :: rest) :=
    word_sum_flatten _
  rw [hwords] at hwhole
  calc addAll {} ((first :: rest).map Span.bytes) =
          ofSpan ((first :: rest).map Span.bytes).flatten
      ↔ sum = whole := by rw [haddAll, hspan', Option.some.injEq]
    _ ↔ sum.n.toNat = whole.n.toNat := by
        rw [UInt16.toNat_inj]
        constructor
        · intro heq
          rw [heq]
        · intro heq
          cases sum
          cases whole
          exact congrArg Checksum.mk heq
    _ ↔ Separable (first :: rest) := by
        rw [hsum, hwhole]
        exact hcomplements

/-- The sum of two checksums is the checksum of the concatenation exactly when the two pieces are
separable, and so is the checksum accumulated over any split into pieces. -/
theorem addition_concatenates_iff (left right : Span) (rest : List Span) :
    ((do pure ((← ofSpan left.bytes).add (← ofSpan right.bytes))) =
        ofSpan (left.bytes ++ right.bytes) ↔
      Separable [left, right]) ∧
    (addAll {} ((left :: rest).map Span.bytes) =
        ofSpan ((left :: rest).map Span.bytes).flatten ↔
      Separable (left :: rest)) := by
  refine ⟨?_, add_all_iff left rest⟩
  obtain ⟨first, hfirst, -⟩ := of_span_eq left.bytes left.even left.nonempty
  obtain ⟨second, hsecond, -⟩ := of_span_eq right.bytes right.even right.nonempty
  have hpair : addAll {} ([left, right].map Span.bytes) = some (first.add second) := by
    simp only [List.map_cons, List.map_nil, addAll, hfirst, hsecond, Option.bind_eq_bind,
      Option.bind_some, fresh_add]
    rfl
  have hiff := add_all_iff left [right]
  rw [hpair, List.map_cons, List.map_singleton, List.flatten_cons, List.flatten_singleton] at hiff
  rw [hfirst, hsecond]
  exact hiff

/-- The word `0x0001`. -/
def smallSpan : Span where
  bytes := [0x00, 0x01]
  even := rfl
  nonempty := by decide

/-- The word `0xFFFE`. -/
def largeSpan : Span where
  bytes := [0xFF, 0xFE]
  even := rfl
  nonempty := by decide

/-- The sum of two checksums is the other representation of zero. -/
theorem addition_misses_zero :
    (do pure ((← ofSpan smallSpan.bytes).add (← ofSpan largeSpan.bytes))) =
        some ({ n := 0xFFFF } : Checksum) ∧
      ofSpan (smallSpan.bytes ++ largeSpan.bytes) = some { n := 0x0000 } ∧
      (do pure ((← ofSpan smallSpan.bytes).add (← ofSpan largeSpan.bytes))) ≠
        ofSpan (smallSpan.bytes ++ largeSpan.bytes) := by
  decide

end Checksum

end Toad
