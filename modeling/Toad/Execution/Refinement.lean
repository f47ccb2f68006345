import Toad.Execution.Machine

/-!
# Refinement between machines

A machine refines another when each of its steps means an action of the other or nothing at all.
`label` gives that meaning, in the state in which the step is taken, and `observed` collects it
along a schedule: the abstract schedule that explains a concrete one. `guarded_refines` is the
induction rule. Its only goal besides the initial states is one step that meets the guard, under a
relation between the two states that also carries whatever invariant the step needs. `refines` is
the rule for machines all of whose runs are explained.
-/

namespace Execution

namespace Machine

variable {σ α τ β : Type*} (M : Machine σ α)

/-- The abstract actions that the steps of a schedule stand for, in order. -/
def observedFrom (label : σ → α → Option β) : σ → List α → List β
  | _, [] => []
  | state, action :: rest =>
      match M.next state action with
      | none => []
      | some following => (label state action).toList ++ observedFrom label following rest

/-- What a schedule stands for when it is taken from the initial state. -/
def observed (label : σ → α → Option β) (schedule : List α) : List β :=
  M.observedFrom label M.init schedule

variable {M} {A : Machine τ β} {label : σ → α → Option β} {guard : σ → α → Prop}
  {R : σ → τ → Prop}

/-- A guarded run from related states is explained by an abstract run between related states. -/
theorem guarded_refines_from
    (hstep : ∀ state abstract action following, R state abstract → guard state action →
      M.next state action = some following →
      ∃ after, A.runFrom abstract (label state action).toList = some after ∧ R following after)
    {schedule : List α} {start finish : σ} {abstract : τ} (hstart : R start abstract)
    (h : M.runFrom start schedule = some finish) (hguard : M.GuardedFrom guard start schedule) :
    ∃ after, A.runFrom abstract (M.observedFrom label start schedule) = some after ∧
      R finish after := by
  induction schedule generalizing start abstract with
  | nil =>
      obtain rfl : start = finish := Option.some.inj h
      exact ⟨abstract, rfl, hstart⟩
  | cons action rest ih =>
      simp only [run_from_cons, Option.bind_eq_some_iff] at h
      obtain ⟨following, hnext, hrest⟩ := h
      obtain ⟨haction, hlater⟩ := hguard
      obtain ⟨middle, hmiddle, hrelated⟩ :=
        hstep start abstract action following hstart haction hnext
      obtain ⟨after, hafter, hfinish⟩ := ih hrelated hrest (hlater following hnext)
      refine ⟨after, ?_, hfinish⟩
      simp only [observedFrom, hnext, run_from_append, hmiddle, Option.bind_some, hafter]

/-- Every guarded run of the machine is explained by a run of the abstract one that takes the
observed actions, and ends in a related state. -/
theorem guarded_refines (hinit : R M.init A.init)
    (hstep : ∀ state abstract action following, R state abstract → guard state action →
      M.next state action = some following →
      ∃ after, A.runFrom abstract (label state action).toList = some after ∧ R following after)
    {schedule : List α} {state : σ} (h : M.run schedule = some state)
    (hguard : M.Guarded guard schedule) :
    ∃ abstract, A.run (M.observed label schedule) = some abstract ∧ R state abstract :=
  guarded_refines_from hstep hinit h hguard

/-- Without a guard, every run is explained. -/
theorem refines (hinit : R M.init A.init)
    (hstep : ∀ state abstract action following, R state abstract →
      M.next state action = some following →
      ∃ after, A.runFrom abstract (label state action).toList = some after ∧ R following after)
    {schedule : List α} {state : σ} (h : M.run schedule = some state) :
    ∃ abstract, A.run (M.observed label schedule) = some abstract ∧ R state abstract :=
  guarded_refines hinit (fun _ _ _ _ hrelated _ hnext => hstep _ _ _ _ hrelated hnext) h
    (M.guarded_from_true M.init schedule)

/-- A step without a meaning leaves the abstract state alone. -/
theorem stutters {state following : σ} {abstract : τ} {action : α}
    (hlabel : label state action = none) (h : R following abstract) :
    ∃ after, A.runFrom abstract (label state action).toList = some after ∧ R following after := by
  rw [hlabel]
  exact ⟨abstract, rfl, h⟩

/-- A step that means one abstract action. -/
theorem matches_step {state following : σ} {abstract after : τ} {action : α} {event : β}
    (hlabel : label state action = some event) (hnext : A.next abstract event = some after)
    (h : R following after) :
    ∃ after, A.runFrom abstract (label state action).toList = some after ∧ R following after := by
  rw [hlabel]
  exact ⟨after, by simp [hnext], h⟩

end Machine

end Execution
