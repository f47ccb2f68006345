import Mathlib.Data.List.Induction

/-!
# Machines driven by a schedule

A machine has a state, an initial state, and a partial transition function: an action
either moves the state or is not enabled there. All choice lies in the schedule, the
list of actions taken, so a claim about every interleaving is a claim about every
schedule. `Guarded` restricts a run to steps that meet a condition on the state before
the step. `run_induction` and `guarded_invariant` are the two induction rules; both
leave one goal for the initial state and one for a single step.
-/

namespace Execution

/-- A labelled machine. `next state action` is the state after `action`, or `none` when the
action is not enabled in `state`. -/
structure Machine (σ α : Type*) where
  init : σ
  next : σ → α → Option σ

namespace Machine

variable {σ α : Type*} (M : Machine σ α)

/-- Execute a schedule from a given state; an action that is not enabled stops the run. -/
def runFrom : σ → List α → Option σ
  | state, [] => some state
  | state, action :: rest => (M.next state action).bind (fun following => runFrom following rest)

/-- Execute a schedule from the initial state. -/
def run (schedule : List α) : Option σ :=
  M.runFrom M.init schedule

/-- Every step that the schedule takes from `state` meets `guard` in the state before it. -/
def GuardedFrom (guard : σ → α → Prop) : σ → List α → Prop
  | _, [] => True
  | state, action :: rest =>
      guard state action ∧
        ∀ following, M.next state action = some following → GuardedFrom guard following rest

/-- Every step of the schedule, taken from the initial state, meets `guard`. -/
def Guarded (guard : σ → α → Prop) (schedule : List α) : Prop :=
  M.GuardedFrom guard M.init schedule

/-- Some schedule leads from the initial state to `state`. -/
def Reachable (state : σ) : Prop :=
  ∃ schedule, M.run schedule = some state

/-- Every state that the schedule passes through, its last one included, satisfies `S`. -/
def Always (S : σ → Prop) (schedule : List α) : Prop :=
  ∀ earlier middle, earlier <+: schedule → M.run earlier = some middle → S middle

/-- Some schedule leads from `state` to a state that satisfies `S`. -/
def LeadsTo (S : σ → Prop) (state : σ) : Prop :=
  ∃ schedule finish, M.runFrom state schedule = some finish ∧ S finish

/-- No action is enabled. -/
def Halted (state : σ) : Prop :=
  ∀ action, M.next state action = none

/-- On a given schedule a decidable guard can be evaluated. -/
instance decidableGuardedFrom {guard : σ → α → Prop}
    [∀ state action, Decidable (guard state action)] :
    ∀ state schedule, Decidable (M.GuardedFrom guard state schedule)
  | _, [] => isTrue trivial
  | state, action :: rest =>
      match h : M.next state action with
      | none => decidable_of_iff (guard state action) (by simp [GuardedFrom, h])
      | some following =>
          have : Decidable (M.GuardedFrom guard following rest) :=
            decidableGuardedFrom following rest
          decidable_of_iff (guard state action ∧ M.GuardedFrom guard following rest)
            (by simp [GuardedFrom, h])

instance {guard : σ → α → Prop} [∀ state action, Decidable (guard state action)]
    (schedule : List α) : Decidable (M.Guarded guard schedule) :=
  inferInstanceAs (Decidable (M.GuardedFrom guard M.init schedule))

@[simp] theorem run_from_nil (state : σ) : M.runFrom state [] = some state := rfl

@[simp] theorem run_from_cons (state : σ) (action : α) (rest : List α) :
    M.runFrom state (action :: rest) =
      (M.next state action).bind (fun following => M.runFrom following rest) := rfl

/-- A run that starts with a given step. -/
theorem run_from_step {state following finish : σ} {action : α} {rest : List α}
    (hnext : M.next state action = some following)
    (hrest : M.runFrom following rest = some finish) :
    M.runFrom state (action :: rest) = some finish := by
  rw [run_from_cons, hnext]
  exact hrest

/-- Running two schedules in a row is running the second from where the first ends. -/
theorem run_from_append (state : σ) (first second : List α) :
    M.runFrom state (first ++ second) =
      (M.runFrom state first).bind (fun middle => M.runFrom middle second) := by
  induction first generalizing state with
  | nil => rfl
  | cons action rest ih =>
      simp only [List.cons_append, run_from_cons]
      cases M.next state action with
      | none => rfl
      | some following => exact ih following

/-- The last step of a run. -/
theorem run_concat {schedule : List α} {action : α} {finish : σ} :
    M.run (schedule ++ [action]) = some finish ↔
      ∃ state, M.run schedule = some state ∧ M.next state action = some finish := by
  simp [run, run_from_append, Option.bind_eq_some_iff]

/-- The guard of a longer run is the guard of its prefix together with that of its last step. -/
theorem guarded_from_concat {guard : σ → α → Prop} {start state : σ} {schedule : List α}
    (action : α) (h : M.runFrom start schedule = some state) :
    M.GuardedFrom guard start (schedule ++ [action]) ↔
      M.GuardedFrom guard start schedule ∧ guard state action := by
  induction schedule generalizing start with
  | nil =>
      obtain rfl : start = state := Option.some.inj h
      simp [GuardedFrom]
  | cons head rest ih =>
      simp only [run_from_cons, Option.bind_eq_some_iff] at h
      obtain ⟨following, hhead, hrest⟩ := h
      simp only [List.cons_append, GuardedFrom, hhead, Option.some.injEq, forall_eq',
        ih hrest, and_assoc]

/-- A guard that a schedule meets is met by every prefix of it. -/
theorem guarded_from_left {guard : σ → α → Prop} {start : σ} {first second : List α}
    (h : M.GuardedFrom guard start (first ++ second)) : M.GuardedFrom guard start first := by
  induction first generalizing start with
  | nil => trivial
  | cons action rest ih =>
      obtain ⟨haction, hrest⟩ := h
      exact ⟨haction, fun following hnext => ih (hrest following hnext)⟩

/-- Every run meets the guard that asks for nothing. -/
theorem guarded_from_true (start : σ) (schedule : List α) :
    M.GuardedFrom (fun _ _ => True) start schedule := by
  induction schedule generalizing start with
  | nil => trivial
  | cons action rest ih => exact ⟨trivial, fun following _ => ih following⟩

variable {M}

/-- The guard of a longer run from the initial state. -/
theorem guarded_concat {guard : σ → α → Prop} {schedule : List α} {state : σ}
    (action : α) (h : M.run schedule = some state) :
    M.Guarded guard (schedule ++ [action]) ↔ M.Guarded guard schedule ∧ guard state action :=
  M.guarded_from_concat action h

/-- A state that satisfies `S` leads to one, without a step. -/
theorem LeadsTo.here {S : σ → Prop} {state : σ} (h : S state) : M.LeadsTo S state :=
  ⟨[], state, rfl, h⟩

/-- A run to a state that leads to `S`. -/
theorem LeadsTo.after {S : σ → Prop} {state middle : σ} {schedule : List α}
    (h : M.LeadsTo S middle) (hrun : M.runFrom state schedule = some middle) :
    M.LeadsTo S state := by
  obtain ⟨rest, finish, hrest, hfinish⟩ := h
  refine ⟨schedule ++ rest, finish, ?_, hfinish⟩
  rw [M.run_from_append, hrun]
  exact hrest

/-- A step to a state that leads to `S`. -/
theorem LeadsTo.step {S : σ → Prop} {state following : σ} {action : α}
    (h : M.LeadsTo S following) (hnext : M.next state action = some following) :
    M.LeadsTo S state :=
  h.after (M.run_from_step hnext (M.run_from_nil following))

/-- A step from a reachable state leads to one. -/
theorem Reachable.step {state following : σ} (h : M.Reachable state) (action : α)
    (hnext : M.next state action = some following) : M.Reachable following := by
  obtain ⟨schedule, hrun⟩ := h
  exact ⟨schedule ++ [action], M.run_concat.mpr ⟨state, hrun, hnext⟩⟩

/-- Induction over runs, one step at a time at the end of the schedule. -/
theorem run_induction {P : List α → σ → Prop} (hinit : P [] M.init)
    (hstep : ∀ schedule state action following, M.run schedule = some state →
      P schedule state → M.next state action = some following →
      P (schedule ++ [action]) following)
    {schedule : List α} {state : σ} (h : M.run schedule = some state) : P schedule state := by
  induction schedule using List.reverseRecOn generalizing state with
  | nil =>
      obtain rfl : M.init = state := Option.some.inj h
      exact hinit
  | append_singleton rest action ih =>
      obtain ⟨middle, hrest, hlast⟩ := M.run_concat.mp h
      exact hstep rest middle action state hrest (ih hrest) hlast

/-- A property that holds initially and is preserved by every step that meets the guard holds
at the end of every guarded run. -/
theorem guarded_invariant {guard : σ → α → Prop} {I : σ → Prop} (hinit : I M.init)
    (hstep : ∀ state action following, I state → guard state action →
      M.next state action = some following → I following)
    {schedule : List α} {state : σ} (h : M.run schedule = some state)
    (hguard : M.Guarded guard schedule) : I state := by
  refine run_induction (P := fun schedule state => M.Guarded guard schedule → I state)
    (fun _ => hinit) ?_ h hguard
  intro schedule state action following hrun ih hnext hlonger
  obtain ⟨hearlier, hlast⟩ := (guarded_concat action hrun).mp hlonger
  exact hstep state action following (ih hearlier) hlast hnext

/-- With an invariant that gives `S`, a guarded run satisfies `S` throughout. -/
theorem guarded_always {guard : σ → α → Prop} {I S : σ → Prop} (hinit : I M.init)
    (hstep : ∀ state action following, I state → guard state action →
      M.next state action = some following → I following)
    (hsafe : ∀ state, I state → S state) {schedule : List α}
    (hguard : M.Guarded guard schedule) : M.Always S schedule := by
  intro earlier middle hearlier hmiddle
  obtain ⟨later, rfl⟩ := hearlier
  exact hsafe middle (guarded_invariant hinit hstep hmiddle (M.guarded_from_left hguard))

/-- A property that holds initially and is preserved by every step holds in every reachable
state. -/
theorem reachable_invariant {I : σ → Prop} (hinit : I M.init)
    (hstep : ∀ state action following, I state →
      M.next state action = some following → I following)
    {state : σ} (h : M.Reachable state) : I state := by
  obtain ⟨schedule, hrun⟩ := h
  refine run_induction (P := fun _ state => I state) hinit ?_ hrun
  exact fun _ state action following _ ih hnext => hstep state action following ih hnext

/-- An invariant of every step that gives `S` makes every run satisfy `S` throughout. -/
theorem always_of_invariant {I S : σ → Prop} (hinit : I M.init)
    (hstep : ∀ state action following, I state →
      M.next state action = some following → I following)
    (hsafe : ∀ state, I state → S state) {schedule : List α} : M.Always S schedule :=
  fun earlier middle _ hmiddle =>
    hsafe middle (reachable_invariant hinit hstep ⟨earlier, hmiddle⟩)

/-- Guards that agree wherever an invariant holds are met by the same runs. -/
theorem guarded_congr {guard guard' : σ → α → Prop} {I : σ → Prop} (hinit : I M.init)
    (hstep : ∀ state action following, I state →
      M.next state action = some following → I following)
    (hguard : ∀ state action, I state → (guard state action ↔ guard' state action))
    (schedule : List α) : M.Guarded guard schedule ↔ M.Guarded guard' schedule := by
  show M.GuardedFrom guard M.init schedule ↔ M.GuardedFrom guard' M.init schedule
  generalize M.init = state at hinit
  induction schedule generalizing state with
  | nil => exact Iff.rfl
  | cons action rest ih =>
      refine and_congr (hguard state action hinit) (forall₂_congr fun following hnext => ?_)
      exact ih following (hstep state action following hinit hnext)

/-- A run either meets its guard and stays in `G`, or breaks it once and is in `L` from then on.
This gives an exact criterion whenever `G` and `L` exclude each other. -/
theorem guarded_or_lost {guard : σ → α → Prop} {G L : σ → Prop} (hinit : G M.init)
    (hgood : ∀ state action following, G state → guard state action →
      M.next state action = some following → G following)
    (hbreak : ∀ state action following, G state → ¬ guard state action →
      M.next state action = some following → L following)
    (hlost : ∀ state action following, L state →
      M.next state action = some following → L following)
    {schedule : List α} {state : σ} (h : M.run schedule = some state) :
    (M.Guarded guard schedule ∧ G state) ∨ (¬ M.Guarded guard schedule ∧ L state) := by
  refine run_induction (P := fun schedule state =>
    (M.Guarded guard schedule ∧ G state) ∨ (¬ M.Guarded guard schedule ∧ L state))
    (Or.inl ⟨trivial, hinit⟩) ?_ h
  intro schedule state action following hrun ih hnext
  rw [guarded_concat action hrun]
  rcases ih with ⟨hguarded, hstate⟩ | ⟨hbroken, hstate⟩
  · by_cases hg : guard state action
    · exact Or.inl ⟨⟨hguarded, hg⟩, hgood state action following hstate hg hnext⟩
    · exact Or.inr ⟨fun hboth => hg hboth.2, hbreak state action following hstate hg hnext⟩
  · exact Or.inr ⟨fun hboth => hbroken hboth.1, hlost state action following hstate hnext⟩

/-- When the guard keeps an invariant that gives `S`, and every step against the guard ends outside
`S`, a run satisfies `S` throughout exactly when all its steps meet the guard. -/
theorem guarded_iff_always {guard : σ → α → Prop} {I S : σ → Prop} (hinit : I M.init)
    (hstep : ∀ state action following, I state → guard state action →
      M.next state action = some following → I following)
    (hsafe : ∀ state, I state → S state)
    (hbreak : ∀ state action following, I state → ¬ guard state action →
      M.next state action = some following → ¬ S following)
    {schedule : List α} {state : σ} (h : M.run schedule = some state) :
    M.Guarded guard schedule ↔ M.Always S schedule := by
  refine ⟨guarded_always hinit hstep hsafe, fun halways => ?_⟩
  refine run_induction (P := fun schedule _ => M.Always S schedule → M.Guarded guard schedule)
    (fun _ => trivial) ?_ h halways
  intro schedule state action following hrun ih hnext halways
  have hearlier : M.Guarded guard schedule := ih fun earlier middle hshorter =>
    halways earlier middle (hshorter.trans (List.prefix_append schedule [action]))
  refine (guarded_concat action hrun).mpr ⟨hearlier, ?_⟩
  -- a last step against the guard would end the run outside `S`
  by_contra hguard
  have hinv := guarded_invariant hinit hstep hrun hearlier
  have hlonger : M.run (schedule ++ [action]) = some following :=
    M.run_concat.mpr ⟨state, hrun, hnext⟩
  exact hbreak state action following hinv hguard hnext
    (halways _ following (List.prefix_refl _) hlonger)

/-- When the guard keeps an invariant that gives `S`, and every step against the guard can be
followed by steps out of `S`, a guarded run satisfies `S` throughout, and a step against the guard
at its end can be followed by such steps. -/
theorem guarded_always_needed {guard : σ → α → Prop} {I S : σ → Prop} (hinit : I M.init)
    (hstep : ∀ state action following, I state → guard state action →
      M.next state action = some following → I following)
    (hsafe : ∀ state, I state → S state)
    (hbreak : ∀ state action following, I state → ¬ guard state action →
      M.next state action = some following → M.LeadsTo (fun finish => ¬ S finish) following)
    {schedule : List α} {state : σ} (h : M.run schedule = some state)
    (hguard : M.Guarded guard schedule) :
    M.Always S schedule ∧ ∀ action following, M.next state action = some following →
      ¬ guard state action → M.LeadsTo (fun finish => ¬ S finish) following :=
  ⟨guarded_always hinit hstep hsafe hguard, fun action following hnext hagainst =>
    hbreak state action following (guarded_invariant hinit hstep h hguard) hagainst hnext⟩

end Machine

end Execution
