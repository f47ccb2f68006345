import Mathlib.Order.Defs.Unbundled

/-!
# Programs that may stop early

A program reads and changes a state and either returns a value or stops with a reason; the
state reached by then is kept in both cases. `exec` runs a program on a state, and its simp
set executes one statement at a time. `Keeps` is the frame rule: a relation between the
states before and after that every statement of a program respects holds of the whole
program. `Ensures` has a precondition, a postcondition for a program that returns, and one for a
program that stops.
-/

namespace Execution

/-- A program over states `σ` that stops with a reason in `ε` or returns a value. -/
abbrev Program (ε σ : Type) := ExceptT ε (StateM σ)

namespace Program

variable {ε σ α β : Type}

/-- Run a program on a state. -/
def exec (program : Program ε σ α) (state : σ) : Except ε α × σ :=
  program.run.run state

/-- Continue with the rest of a program after a first part. -/
def proceed (result : Except ε α × σ) (rest : α → Program ε σ β) : Except ε β × σ :=
  match result with
  | (.ok value, state) => exec (rest value) state
  | (.error reason, state) => (.error reason, state)

@[simp] theorem proceed_ok (value : α) (state : σ) (rest : α → Program ε σ β) :
    proceed (.ok value, state) rest = exec (rest value) state := rfl

@[simp] theorem proceed_error (reason : ε) (state : σ) (rest : α → Program ε σ β) :
    proceed (.error reason, state) rest = (.error reason, state) := rfl

@[simp] theorem exec_pure (value : α) (state : σ) :
    exec (pure value : Program ε σ α) state = (.ok value, state) := rfl

@[simp] theorem exec_throw (reason : ε) (state : σ) :
    exec (throw reason : Program ε σ α) state = (.error reason, state) := rfl

@[simp] theorem exec_get (state : σ) :
    exec (get : Program ε σ σ) state = (.ok state, state) := rfl

@[simp] theorem exec_set (new state : σ) :
    exec (set new : Program ε σ PUnit) state = (.ok ⟨⟩, new) := rfl

/-- A sequence of two programs. -/
@[simp] theorem exec_bind (program : Program ε σ α) (rest : α → Program ε σ β) (state : σ) :
    exec (program >>= rest) state = proceed (exec program state) rest := by
  show (ExceptT.bindCont rest (exec program state).1).run (exec program state).2 = _
  rcases exec program state with ⟨result, after⟩
  cases result with
  | ok value => rfl
  | error reason => rfl

/-- A program whose first part stops, stops there. -/
theorem proceed_stops {result : Except ε α × σ} {reason : ε} (rest : α → Program ε σ β)
    (h : result.1 = .error reason) : proceed result rest = (.error reason, result.2) := by
  rcases result with ⟨outcome, state⟩
  cases h
  rfl

/-- Every run of the program relates the state before to the state after. -/
def Keeps (R : σ → σ → Prop) (program : Program ε σ α) : Prop :=
  ∀ state, R state (exec program state).2

variable {R : σ → σ → Prop}

theorem keeps_pure [Std.Refl R] (value : α) : Keeps R (pure value : Program ε σ α) :=
  fun state => Std.Refl.refl state

theorem keeps_throw [Std.Refl R] (reason : ε) : Keeps R (throw reason : Program ε σ α) :=
  fun state => Std.Refl.refl state

theorem Keeps.mono {S : σ → σ → Prop} {program : Program ε σ α} (h : Keeps R program)
    (himp : ∀ before after, R before after → S before after) : Keeps S program :=
  fun state => himp _ _ (h state)

/-- The frame rule for a sequence. -/
theorem keeps_bind [IsTrans σ R] {program : Program ε σ α} {rest : α → Program ε σ β}
    (hprogram : Keeps R program) (hrest : ∀ value, Keeps R (rest value)) :
    Keeps R (program >>= rest) := by
  intro state
  rw [exec_bind]
  have hfirst := hprogram state
  rcases h : exec program state with ⟨result, after⟩
  rw [h] at hfirst
  cases result with
  | ok value => exact IsTrans.trans _ _ _ hfirst (hrest value after)
  | error reason => exact hfirst

/-- From every state in `P`, the program returns in `Q` or stops in `S`. -/
def Ensures (P : σ → Prop) (program : Program ε σ α) (Q : α → σ → Prop) (S : ε → σ → Prop) :
    Prop :=
  ∀ state, P state →
    (∀ value after, exec program state = (.ok value, after) → Q value after) ∧
      ∀ reason after, exec program state = (.error reason, after) → S reason after

section Ensures

variable {P : σ → Prop} {Q : α → σ → Prop} {T : β → σ → Prop} {S : ε → σ → Prop}

theorem ensures_pure {value : α} (h : ∀ state, P state → Q value state) :
    Ensures P (pure value : Program ε σ α) Q S := by
  intro state hstate
  refine ⟨fun _ _ hexec => ?_, fun _ _ hexec => ?_⟩
  · cases hexec
    exact h state hstate
  · cases hexec

theorem ensures_throw {reason : ε} (h : ∀ state, P state → S reason state) :
    Ensures P (throw reason : Program ε σ α) Q S := by
  intro state hstate
  refine ⟨fun _ _ hexec => ?_, fun _ _ hexec => ?_⟩
  · cases hexec
  · cases hexec
    exact h state hstate

theorem ensures_modify {update : σ → σ} {Q : PUnit → σ → Prop}
    (h : ∀ state, P state → Q ⟨⟩ (update state)) :
    Ensures P (modify update : Program ε σ PUnit) Q S := by
  intro state hstate
  refine ⟨fun _ _ hexec => ?_, fun _ _ hexec => ?_⟩
  · cases hexec
    exact h state hstate
  · cases hexec

/-- The rule for a sequence. -/
theorem ensures_bind {program : Program ε σ α} {rest : α → Program ε σ β}
    (hprogram : Ensures P program Q S) (hrest : ∀ value, Ensures (Q value) (rest value) T S) :
    Ensures P (program >>= rest) T S := by
  intro state hstate
  obtain ⟨hreturns, hstops⟩ := hprogram state hstate
  rw [exec_bind]
  rcases h : exec program state with ⟨result, after⟩
  cases result with
  | ok value => exact hrest value after (hreturns value after h)
  | error reason =>
      refine ⟨fun _ _ hexec => ?_, fun _ _ hexec => ?_⟩
      · cases hexec
      · cases hexec
        exact hstops reason after h

/-- A stop may be described with less. -/
theorem Ensures.weaken {program : Program ε σ α} {W : ε → σ → Prop}
    (h : Ensures P program Q S) (himp : ∀ reason state, S reason state → W reason state) :
    Ensures P program Q W := by
  intro state hstate
  obtain ⟨hreturns, hstops⟩ := h state hstate
  exact ⟨hreturns, fun reason after hexec => himp reason after (hstops reason after hexec)⟩

end Ensures

end Program

end Execution
