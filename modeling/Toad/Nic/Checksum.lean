import Toad.Bytes.ByteStream
import Toad.Codec.OnesComplement

/-!
# The Internet checksum

`nic/checksum.hpp`. The constructor from a span adds the big-endian words of the span in a
32-bit accumulator, folds the carry back at every step, and keeps the complement.
`internetChecksum` states the same value from the exact sum of the words, with an odd last byte
padded by zero, as the packet types pad their buffers.
-/

namespace Toad

/-- `checksum`. -/
structure Checksum where
  n : UInt16 := 0
  deriving DecidableEq, Repr

namespace Checksum

open OnesComplement

/-- The body of the loop: add a word, and carry an overflow into the least significant bit. -/
def accumulate (acc : UInt32) (word : UInt16) : UInt32 :=
  let acc := acc + word.toUInt32
  if acc > 0xFFFF then (acc &&& 0xFFFF) + 1 else acc

/-- The loop over the span, two bytes at a time. -/
def accumulateAll (acc : UInt32) : List UInt8 → UInt32
  | hi :: lo :: rest => accumulateAll (accumulate acc (ByteIStream.combine hi lo)) rest
  | _ => acc

/-- `checksum(std::span<u8>)`; `none` is a failed assertion. -/
def ofSpan (span : List UInt8) : Option Checksum :=
  if span.length % 2 = 0 ∧ 0 < span.length then
    let acc := accumulateAll 0 span
    let acc := (acc &&& 0xFFFF) + (acc >>> (16 : UInt32))
    some { n := (~~~acc &&& 0xFFFF).toUInt16 }
  else
    none

/-- A span that passes both assertions of the constructor. -/
structure Span where
  bytes : List UInt8
  even : bytes.length % 2 = 0
  nonempty : 0 < bytes.length

/-- One pass through the loop: the accumulator before it, the word, and the accumulator after
`acc += word` and after the carry. -/
structure Iteration where
  before : UInt32
  word : UInt16
  added : UInt32
  after : UInt32
  deriving DecidableEq, Repr

/-- The passes through the loop over a span, in order. -/
def iterations (acc : UInt32) : List UInt8 → List Iteration
  | hi :: lo :: rest =>
      let word := ByteIStream.combine hi lo
      { before := acc
        word := word
        added := acc + word.toUInt32
        after := accumulate acc word } :: iterations (accumulate acc word) rest
  | _ => []

/-- The big-endian words of a byte sequence, an odd last byte padded by zero. -/
def words : List UInt8 → List Nat
  | hi :: lo :: rest => (256 * hi.toNat + lo.toNat) :: words rest
  | [hi] => [256 * hi.toNat]
  | [] => []

/-- The exact sum of the words. -/
def wordSum (bytes : List UInt8) : Nat :=
  (words bytes).sum

/-- The one's-complement sum of the words. -/
def onesComplementSum (bytes : List UInt8) : Nat :=
  (words bytes).foldl (addCarry 65536) 0

/-- The Internet checksum of a byte sequence: the complement of its one's-complement sum. -/
def internetChecksum (bytes : List UInt8) : Nat :=
  0xFFFF - onesComplementSum bytes

/-- A word is below `2 ^ 16`. -/
theorem words_lt {bytes : List UInt8} {word : Nat} (h : word ∈ words bytes) : word < 65536 := by
  induction bytes using words.induct with
  | case1 hi lo rest ih =>
      have hhi : hi.toNat < 256 := hi.toNat_lt
      have hlo : lo.toNat < 256 := lo.toNat_lt
      rcases List.mem_cons.mp h with rfl | hrest
      · omega
      · exact ih hrest
  | case2 hi =>
      have hhi : hi.toNat < 256 := hi.toNat_lt
      obtain rfl := List.mem_singleton.mp h
      omega
  | case3 => exact absurd h List.not_mem_nil

/-- The one's-complement sum is the representative of the exact sum. -/
theorem ones_complement_sum_eq (bytes : List UInt8) :
    onesComplementSum bytes = residue 65536 (wordSum bytes) := by
  have hfold := foldl_add_carry 0 (fun word (hword : word ∈ words bytes) => words_lt hword)
    (by decide)
  rwa [residue_zero, Nat.zero_add] at hfold

/-- The words of a concatenation are those of its parts, when the first part is even. -/
theorem word_sum_append {front : List UInt8} (rest : List UInt8) (h : front.length % 2 = 0) :
    wordSum (front ++ rest) = wordSum front + wordSum rest := by
  induction front using words.induct with
  | case1 hi lo front ih =>
      have heven : front.length % 2 = 0 := by
        simp only [List.length_cons] at h
        omega
      have hrest := ih heven
      simp only [wordSum, List.cons_append, words, List.sum_cons] at hrest ⊢
      omega
  | case2 hi => exact absurd h (by simp)
  | case3 => simp [wordSum, words]

/-- Only zero bytes add up to nothing. -/
theorem word_sum_eq_zero_iff (bytes : List UInt8) :
    wordSum bytes = 0 ↔ ∀ byte ∈ bytes, byte = 0 := by
  have hzero (byte : UInt8) : byte = 0 ↔ byte.toNat = 0 := UInt8.toNat_inj.symm
  induction bytes using words.induct with
  | case1 hi lo rest ih =>
      have hsum : wordSum (hi :: lo :: rest) = 256 * hi.toNat + lo.toNat + wordSum rest := by
        simp [wordSum, words]
      have hrest : wordSum rest = 0 ↔ ∀ byte ∈ rest, byte = 0 := ih
      rw [hsum, List.forall_mem_cons, List.forall_mem_cons, ← hrest, hzero hi, hzero lo]
      omega
  | case2 hi =>
      have hsum : wordSum [hi] = 256 * hi.toNat := by simp [wordSum, words]
      rw [hsum, List.forall_mem_singleton, hzero hi]
      omega
  | case3 => simp [wordSum, words]

/-- Padding with zero bytes leaves the sum alone. -/
theorem word_sum_append_zeros (bytes : List UInt8) (count : Nat) :
    wordSum (bytes ++ List.replicate count 0) = wordSum bytes := by
  induction bytes using words.induct with
  | case1 hi lo rest ih =>
      simp only [wordSum, List.cons_append, words, List.sum_cons] at ih ⊢
      omega
  | case2 hi =>
      cases count with
      | zero => rw [List.replicate_zero, List.append_nil]
      | succ count =>
          have hzeros := (word_sum_eq_zero_iff (List.replicate count 0)).mpr (by simp)
          simp only [wordSum] at hzeros
          simp [wordSum, List.replicate_succ, words, hzeros]
  | case3 => exact (word_sum_eq_zero_iff _).mpr (by simp)

/-- Masking with `0xFFFF` keeps the low word. -/
theorem to_nat_low_word (value : UInt32) : (value &&& 0xFFFF).toNat = value.toNat % 65536 :=
  Nat.and_two_pow_sub_one_eq_mod _ 16

/-- Adding a word to an accumulator that is a word does not wrap. -/
theorem add_word_to_nat {acc : UInt32} (word : UInt16) (hacc : acc.toNat < 65536) :
    (acc + word.toUInt32).toNat = acc.toNat + word.toNat := by
  have hword : word.toNat < 65536 := word.toNat_lt
  rw [UInt32.toNat_add, UInt16.toNat_toUInt32]
  exact Nat.mod_eq_of_lt (by omega)

/-- One step of the loop is an addition with an end-around carry, without a wrap. -/
theorem accumulate_to_nat {acc : UInt32} {word : UInt16} (hacc : acc.toNat < 65536) :
    (accumulate acc word).toNat = addCarry 65536 acc.toNat word.toNat := by
  have hword : word.toNat < 65536 := word.toNat_lt
  have hsum := add_word_to_nat word hacc
  unfold accumulate addCarry
  by_cases hcarry : 65536 ≤ acc.toNat + word.toNat
  · have hover : acc + word.toUInt32 > 0xFFFF := by
      apply UInt32.lt_iff_toNat_lt.mpr
      rw [hsum]
      exact hcarry
    rw [if_pos hcarry]
    simp only [if_pos hover]
    rw [UInt32.toNat_add, to_nat_low_word, hsum]
    show ((acc.toNat + word.toNat) % 65536 + 1) % 2 ^ 32 = _
    omega
  · have hunder : ¬ acc + word.toUInt32 > 0xFFFF := by
      intro hover
      have hlt := UInt32.lt_iff_toNat_lt.mp hover
      rw [hsum] at hlt
      exact hcarry hlt
    rw [if_neg hcarry]
    simp only [if_neg hunder]
    exact hsum

/-- The loop keeps the representative of the exact sum of the words it has read. -/
theorem accumulate_all_to_nat {acc : UInt32} {span : List UInt8} {exact : Nat}
    (heven : span.length % 2 = 0) (hacc : acc.toNat = residue 65536 exact) :
    (accumulateAll acc span).toNat = residue 65536 (exact + wordSum span) := by
  induction span using words.induct generalizing acc exact with
  | case1 hi lo rest ih =>
      have hlength : rest.length % 2 = 0 := by
        simp only [List.length_cons] at heven
        omega
      have hmem : 256 * hi.toNat + lo.toNat ∈ words (hi :: lo :: rest) := List.mem_cons_self
      have hword := words_lt hmem
      have hlt : acc.toNat < 65536 := hacc ▸ residue_lt (by decide) exact
      have hstep : (accumulate acc (ByteIStream.combine hi lo)).toNat =
          residue 65536 (exact + (256 * hi.toNat + lo.toNat)) := by
        rw [accumulate_to_nat hlt, ByteIStream.combine_to_nat, hacc,
          add_carry_residue exact hword (by decide)]
      rw [accumulateAll, ih hlength hstep]
      simp only [wordSum, words, List.sum_cons, Nat.add_assoc]
  | case2 hi => exact absurd heven (by simp)
  | case3 => simpa [accumulateAll, wordSum, words] using hacc

/-- The upper half of an accumulator, as a number. -/
theorem to_nat_high_word (value : UInt32) :
    (value >>> (16 : UInt32)).toNat = value.toNat / 65536 := by
  rw [UInt32.toNat_shiftRight]
  show value.toNat >>> 16 = _
  rw [Nat.shiftRight_eq_div_pow]

/-- The last fold leaves an accumulator that is a word alone. -/
theorem last_fold {acc : UInt32} (hlt : acc.toNat < 65536) :
    (acc &&& 0xFFFF) + (acc >>> (16 : UInt32)) = acc := by
  apply UInt32.toNat_inj.mp
  rw [UInt32.toNat_add, to_nat_high_word, to_nat_low_word]
  omega

/-- The complement is taken within the word. -/
theorem complement_to_nat {acc : UInt32} (hlt : acc.toNat < 65536) :
    (~~~((acc &&& 0xFFFF) + (acc >>> (16 : UInt32))) &&& 0xFFFF).toUInt16.toNat =
      0xFFFF - acc.toNat := by
  rw [last_fold hlt, UInt32.toNat_toUInt16, to_nat_low_word, UInt32.toNat_not]
  show (4294967296 - 1 - acc.toNat) % 65536 % 65536 = _
  omega

/-- For every even, non-empty span the constructor returns the Internet checksum. -/
theorem of_span_eq (span : List UInt8) (heven : span.length % 2 = 0) (hpos : 0 < span.length) :
    ∃ checksum, ofSpan span = some checksum ∧
      checksum.n.toNat = 0xFFFF - residue 65536 (wordSum span) := by
  have hacc := accumulate_all_to_nat heven
    (show (0 : UInt32).toNat = residue 65536 0 from rfl)
  have hlt := residue_lt (by decide : 2 ≤ 65536) (0 + wordSum span)
  rw [← hacc] at hlt
  refine ⟨_, if_pos ⟨heven, hpos⟩, (complement_to_nat hlt).trans ?_⟩
  rw [hacc, Nat.zero_add]

/-- In every pass the accumulator is a word before and after it, and nothing wraps in between. -/
theorem iterations_bounded {acc : UInt32} {span : List UInt8} (hacc : acc.toNat < 65536) :
    ∀ iteration ∈ iterations acc span,
      iteration.added.toNat = iteration.before.toNat + iteration.word.toNat ∧
        iteration.added ≤ 0x1FFFE ∧ iteration.after ≤ 0xFFFF := by
  induction span using words.induct generalizing acc with
  | case1 hi lo rest ih =>
      have hword : (ByteIStream.combine hi lo).toNat < 65536 := UInt16.toNat_lt _
      have hadded := add_word_to_nat (ByteIStream.combine hi lo) hacc
      have hafter : (accumulate acc (ByteIStream.combine hi lo)).toNat < 65536 := by
        rw [accumulate_to_nat hacc, addCarry]
        split <;> omega
      rw [iterations, List.forall_mem_cons]
      refine ⟨⟨hadded, ?_, ?_⟩, ih hafter⟩
      · apply UInt32.le_iff_toNat_le.mpr
        show (acc + (ByteIStream.combine hi lo).toUInt32).toNat ≤ 0x1FFFE
        omega
      · apply UInt32.le_iff_toNat_le.mpr
        show (accumulate acc (ByteIStream.combine hi lo)).toNat ≤ 0xFFFF
        omega
  | case2 hi => exact List.forall_mem_nil _
  | case3 => exact List.forall_mem_nil _

/-- The words that the loop reads are the big-endian words of an even span. -/
theorem iterations_words {acc : UInt32} {span : List UInt8} (heven : span.length % 2 = 0) :
    (iterations acc span).map (fun iteration => iteration.word.toNat) = words span := by
  induction span using words.induct generalizing acc with
  | case1 hi lo rest ih =>
      have hrest : rest.length % 2 = 0 := by
        simp only [List.length_cons] at heven
        omega
      rw [iterations, words, List.map_cons, ih hrest, ByteIStream.combine_to_nat]
  | case2 hi => exact absurd heven (by simp)
  | case3 => rfl

/-- The passes end where the loop ends. -/
theorem iterations_last (acc : UInt32) (span : List UInt8) :
    ((iterations acc span).getLast?.map Iteration.after).getD acc = accumulateAll acc span := by
  induction span using words.induct generalizing acc with
  | case1 hi lo rest ih =>
      rw [accumulateAll, ← ih, iterations, List.getLast?_cons]
      cases (iterations (accumulate acc (ByteIStream.combine hi lo)) rest).getLast? with
      | none => rfl
      | some last => rfl
  | case2 hi => rfl
  | case3 => rfl

/-- For every even, non-empty span: in each pass through the loop the accumulator stays within
`0x1FFFE`, so that the addition is exact, and is a word at the end of the pass; the last fold
changes nothing; and the result is the complement of the exact sum of the words modulo `0xFFFF`,
where zero stands for a span of zero bytes only. -/
theorem loop_computes_sum (span : Span) :
    (∀ iteration ∈ iterations 0 span.bytes,
      iteration.added.toNat = iteration.before.toNat + iteration.word.toNat ∧
        iteration.added ≤ 0x1FFFE ∧ iteration.after ≤ 0xFFFF) ∧
    (iterations 0 span.bytes).map (fun iteration => iteration.word.toNat) = words span.bytes ∧
    ((iterations 0 span.bytes).getLast?.map Iteration.after).getD 0 =
      accumulateAll 0 span.bytes ∧
    (accumulateAll 0 span.bytes &&& 0xFFFF) + (accumulateAll 0 span.bytes >>> (16 : UInt32)) =
      accumulateAll 0 span.bytes ∧
    ∃ checksum, ofSpan span.bytes = some checksum ∧
      checksum.n.toNat =
        0xFFFF - (if span.bytes.all (· == 0) then 0
          else (wordSum span.bytes - 1) % 65535 + 1) := by
  refine ⟨iterations_bounded (by decide), iterations_words span.even, iterations_last 0 _, ?_, ?_⟩
  · apply last_fold
    rw [accumulate_all_to_nat span.even (show (0 : UInt32).toNat = residue 65536 0 from rfl)]
    exact residue_lt (by decide) _
  · obtain ⟨checksum, hspan, hvalue⟩ := of_span_eq span.bytes span.even span.nonempty
    refine ⟨checksum, hspan, hvalue.trans ?_⟩
    have hzero : wordSum span.bytes = 0 ↔ span.bytes.all (· == 0) := by
      rw [word_sum_eq_zero_iff, List.all_eq_true]
      simp only [beq_iff_eq]
    rw [residue]
    simp only [hzero]

end Checksum

end Toad
