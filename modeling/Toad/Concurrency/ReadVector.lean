import Toad.Concurrency.IOContext

/-!
# Reading into a vector

`submit_read_some(socket, vec, max_size)` stretches the vector before the operation, and the
handler of `PendingReadSomeVec` cuts it to `initial_size + read` afterwards, a signed result
added to an unsigned size. `appends_exactly_iff` says for which results the vector ends up with
exactly what arrived.
-/

namespace Toad

namespace IOContext

/-- One read into a vector, as the code can meet it: the vector and the request are values of
their types, and the kernel stores no more than it was asked for and reports an error code or
no more than it stored. -/
structure VectorRead where
  vec : List UInt8
  maxSize : Nat
  stored : List UInt8
  res : Int
  vec_le : vec.length ≤ vectorMaxSize
  max_size_lt : maxSize < 2 ^ 64
  stored_le : stored.length ≤ maxSize
  res_ge : -4095 ≤ res
  res_le : res ≤ stored.length

namespace VectorRead

/-- The read appends exactly what arrived: the submission gives the kernel room inside the
vector, the handler leaves the old content and the first `res` bytes that were stored, or the
old content alone for an error code, and the size that it resizes to is the exact sum. -/
def AppendsExactly (read : VectorRead) (socket : Socket) : Prop :=
  ∃ pending grown, submitReadSomeVec socket read.vec read.maxSize = .ok (pending, grown) ∧
    pending.initialSize + read.maxSize ≤ grown.length ∧
    ∃ after handled,
      handlePendingReadSomeVec read.res pending
          (kernelStore grown pending.initialSize read.stored) = .ok (after, handled) ∧
      after = (if 0 ≤ read.res then read.vec ++ read.stored.take read.res.toNat else read.vec) ∧
      (read.res = -104 ∨
        (szAdd pending.initialSize (szOfInt read.res) : Int) = pending.initialSize + read.res)

/-- A submission that returns has stretched the vector to the size computed in `sz`. -/
theorem submit_ok {socket : Socket} {vec grown : List UInt8} {maxSize : Nat}
    {pending : PendingReadSomeVec}
    (h : submitReadSomeVec socket vec maxSize = .ok (pending, grown)) :
    pending.initialSize = vec.length ∧ grown.length ≤ vectorMaxSize := by
  rw [submitReadSomeVec] at h
  cases hresize : vectorResize vec (szAdd vec.length maxSize) with
  | error exception => simp [hresize, bind, Except.bind] at h
  | ok resized =>
      obtain ⟨hle, hlength⟩ := vector_resize_ok hresize
      simp only [hresize, bind, Except.bind, pure, Except.pure, Except.ok.injEq,
        Prod.mk.injEq] at h
      obtain ⟨rfl, rfl⟩ := h
      exact ⟨rfl, hlength ▸ hle⟩

/-- An error code other than `ECONNRESET` makes the handler cut into the old content, or ask for
an impossible size. -/
theorem error_cuts {vec after : List UInt8} {pending : PendingReadSomeVec} {res : Int}
    {handled : Handled Nat} (hneg : res < 0) (hge : -4095 ≤ res) (hcode : res ≠ -104)
    (hinitial : pending.initialSize ≤ vectorMaxSize)
    (h : handlePendingReadSomeVec res pending vec = .ok (after, handled)) :
    after.length < pending.initialSize := by
  have hmax := vector_max_size_lt
  have hsz := sz_of_int_neg hneg (by omega)
  rw [handlePendingReadSomeVec, if_neg (by omega)] at h
  cases hresize : vectorResize vec (szAdd pending.initialSize (szOfInt res)) with
  | error exception => simp [hresize, bind, Except.bind] at h
  | ok resized =>
      obtain ⟨hle, hlength⟩ := vector_resize_ok hresize
      simp only [hresize, bind, Except.bind, pure, Except.pure, Except.ok.injEq,
        Prod.mk.injEq] at h
      rw [← h.1, hlength]
      -- The sum is either the exact one, below the old size, or close to `2 ^ 64`.
      unfold szAdd at hle ⊢
      omega

/-- A reset connection leaves the vector stretched. -/
theorem reset_keeps {vec after : List UInt8} {pending : PendingReadSomeVec}
    {handled : Handled Nat}
    (h : handlePendingReadSomeVec (-104) pending vec = .ok (after, handled)) : after = vec := by
  rw [handlePendingReadSomeVec, if_pos (by decide)] at h
  exact (Prod.mk.inj (Except.ok.inj h)).1.symm

/-- A read into a vector appends exactly what arrived if and only if the stretched vector fits in
memory and the result is not an error code, or the connection was reset during a read of
nothing. -/
theorem appends_exactly_iff (read : VectorRead) (socket : Socket) :
    read.AppendsExactly socket ↔
      read.vec.length + read.maxSize ≤ vectorMaxSize ∧
        (0 ≤ read.res ∨ (read.res = -104 ∧ read.maxSize = 0)) := by
  obtain ⟨vec, maxSize, stored, res, hvec, -, hstored, hge, hle⟩ := read
  have hmax := vector_max_size_lt
  constructor
  · intro h
    obtain ⟨pending, grown, hsubmit, hroom, after, handled, hhandle, hafter, -⟩ := h
    obtain ⟨hinitial, hgrown⟩ := submit_ok hsubmit
    dsimp only at hsubmit hroom hhandle hafter hinitial ⊢
    have hfit : vec.length + maxSize ≤ vectorMaxSize := by omega
    refine ⟨hfit, ?_⟩
    by_contra hnot
    have hneg : res < 0 := by omega
    rw [if_neg (by omega)] at hafter
    subst hafter
    by_cases hcode : res = -104
    · subst hcode
      -- The vector is left stretched by `max_size`, which is not zero.
      rw [submit_read_some_vec_eq socket hfit] at hsubmit
      obtain ⟨rfl, rfl⟩ := Prod.mk.inj (Except.ok.inj hsubmit)
      have hkept := congrArg List.length (reset_keeps hhandle)
      rw [kernel_store_reserved] at hkept
      simp only [List.length_append, List.length_replicate] at hkept
      omega
    · have hcut := error_cuts hneg hge hcode (by omega) hhandle
      omega
  · intro h
    obtain ⟨hfit, hres⟩ := h
    dsimp only at hfit hres
    refine ⟨_, _, submit_read_some_vec_eq socket hfit, by simp, ?_⟩
    rcases hres with hnonneg | ⟨rfl, rfl⟩
    · obtain ⟨count, rfl⟩ := Int.eq_ofNat_of_zero_le hnonneg
      have hread := read_some_vec_append socket hfit hstored (show count ≤ stored.length by omega)
      rw [readSomeVec, submit_read_some_vec_eq socket hfit] at hread
      have hsz : szOfInt (count : Int) = count := by
        rw [sz_of_int_nonneg (by omega) (by omega), Int.toNat_natCast]
      refine ⟨_, _, hread, ?_, .inr ?_⟩
      · rw [if_pos hnonneg, Int.toNat_natCast]
      · show (szAdd vec.length (szOfInt (count : Int)) : Int) = vec.length + count
        rw [hsz, sz_add_eq (by omega)]
        exact Int.natCast_add _ _
    · obtain rfl : stored = [] := List.eq_nil_of_length_eq_zero (by omega)
      have hreset : (-104 : Int) < 0 ∧ (-104 : Int) = -104 := by decide
      refine ⟨_, _, if_pos hreset, ?_, .inl rfl⟩
      rw [kernel_store_reserved]
      simp

/-- A read of two bytes that fails with `EAGAIN` on a vector of twelve bytes. -/
def failedRead : VectorRead where
  vec := List.replicate 12 1
  maxSize := 2
  stored := []
  res := -11
  vec_le := by decide
  max_size_lt := by decide
  stored_le := by decide
  res_ge := by decide
  res_le := by decide

/-- The failed read leaves at most eleven of the twelve bytes. -/
theorem failed_read_cuts : ¬ failedRead.AppendsExactly ⟨5⟩ := by
  intro h
  obtain ⟨pending, grown, hsubmit, -, after, handled, hhandle, hafter, -⟩ := h
  have hinitial : pending.initialSize = 12 := (submit_ok hsubmit).1
  have hmax : 12 ≤ vectorMaxSize := by decide
  have hcut := error_cuts (by decide) (by decide) (by decide) (by omega) hhandle
  rw [hafter, hinitial] at hcut
  exact absurd hcut (by decide)

end VectorRead

end IOContext

end Toad
