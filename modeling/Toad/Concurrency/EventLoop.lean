import Mathlib.Data.List.Nodup
import Mathlib.Data.List.Perm.Subperm
import Toad.Concurrency.Completions
import Toad.Concurrency.Submission

/-!
# Through both rings

A `submit_*` call goes through the submission ring to the kernel and comes back through the
completion ring as the address of its `PendingVariant`. `Toad.Submission` has the first half and
`Toad.Completions` the second; here they run together, with the kernel in between and the event
loop as one thread that submits before it looks for completions. The conditions under which the
halves are exact are enough for the whole, `calls_completed`: every call is handled at most once,
with the result of its own operation, and all of them are once nothing is under way.
-/

namespace Toad

namespace EventLoop

open Execution

variable {C : Type} [DecidableEq C]

/-- The two rings, and whether the event loop has submitted since it took its last batch. -/
structure State (C : Type) where
  submission : Submission.State C := {}
  completion : Completions.State (Submission.Allocation C) := {}
  submitted : Bool := false

/-- A step on the side of the submission ring, or on the side of the completion ring. -/
inductive Action (C : Type) where
  | submission (action : Submission.Action C)
  | completion (action : Completions.Action (Submission.Allocation C))
  deriving DecidableEq, Repr

/-- What the kernel has found in the `user_data` of the entries it has received. -/
def State.accepted (state : State C) : List (Option (Submission.Allocation C)) :=
  state.submission.received.map fun entry => entry.2.userData

section Machine

variable (entries completions batchSize : Nat) (request : C → Request)

/-- One step. The kernel completes only what it has received, and the event loop goes through a
batch before it submits again. -/
def next (state : State C) : Action C → Option (State C)
  | .submission .submit =>
      if state.completion.loop = .peeking then
        (Submission.next entries request state.submission .submit).map fun submission =>
          { state with submission := submission, submitted := true }
      else none
  | .submission action =>
      (Submission.next entries request state.submission action).map fun submission =>
        { state with submission := submission }
  | .completion (.post cqe) =>
      if some cqe.userData ∈ state.accepted then
        (Completions.next completions batchSize state.completion (.post cqe)).map
          fun completion => { state with completion := completion }
      else none
  | .completion .peek =>
      if state.submitted then
        (Completions.next completions batchSize state.completion .peek).map fun completion =>
          { state with completion := completion, submitted := false }
      else none
  | .completion action =>
      (Completions.next completions batchSize state.completion action).map fun completion =>
        { state with completion := completion }

/-- The calls, the event loop and the kernel on two rings. -/
def machine : Machine (State C) (Action C) where
  init := {}
  next := next entries completions batchSize request

/-- The event loop submits whole calls, and the kernel does not reuse a slot before it is read. -/
def Orderly (state : State C) : Action C → Prop
  | .submission action => Submission.SubmitsWhole state.submission action
  | .completion action => Completions.KeepsUnread completions state.completion action

instance (state : State C) (action : Action C) : Decidable (Orderly completions state action) :=
  match action with
  | .submission action => inferInstanceAs (Decidable (Submission.SubmitsWhole _ action))
  | .completion action => inferInstanceAs (Decidable (Completions.KeepsUnread _ _ action))

/-- Nothing is under way: the kernel has received every call and completed what it received, and
the event loop has handled every completion and is between two batches. -/
structure State.Quiet (state : State C) : Prop where
  published : state.submission.published = state.submission.obtained.length
  completed : state.completion.posted.length = state.submission.received.length
  handled : state.completion.head = state.completion.posted.length
  between : state.completion.loop = .peeking

/-- The calls whose completions have been handled, in order. -/
def State.handledCalls (state : State C) : List C :=
  state.completion.handled.map fun cqe => cqe.userData.call

/-- Every handled completion is one that the kernel has posted, with its own result, and carries
the `PendingVariant` of the call it belongs to. No call is handled twice, and all are handled and
their `PendingVariant`s deleted when nothing is under way. -/
structure Matched (state : State C) : Prop where
  posted : state.completion.handled <+: state.completion.posted
  own : ∀ cqe ∈ state.completion.handled, cqe.userData.call ∈ state.submission.obtained ∧
    cqe.userData.pending = (request cqe.userData.call).pending
  once : state.handledCalls.Nodup
  all : state.Quiet → state.handledCalls.Perm state.submission.obtained ∧
    state.completion.deleted = state.completion.handled.map Completions.Cqe.userData

/-- Both rings are consistent, and the kernel has only completed what it received. -/
structure Inv (state : State C) : Prop where
  submission : Submission.Inv entries request state.submission
  completion : Completions.Inv completions state.completion
  received : ∀ cqe ∈ state.completion.posted, some cqe.userData ∈ state.accepted

end Machine

section Steps

variable {entries completions batchSize : Nat} {request : C → Request}
  {state following : State C} {action : Action C}

/-- The kernel forgets nothing that it has received. -/
theorem received_grows {before after : Submission.State C} {action : Submission.Action C}
    (h : Submission.next entries request before action = some after) :
    before.received <+: after.received := by
  cases action with
  | getSqe call =>
      simp only [Submission.next, Option.ite_none_right_eq_some, Option.some.injEq] at h
      obtain ⟨-, rfl⟩ := h
      exact List.prefix_refl _
  | prep call =>
      simp only [Submission.next] at h
      split at h
      next =>
        simp only [Option.ite_none_left_eq_some, Option.some.injEq] at h
        obtain ⟨-, rfl⟩ := h
        exact List.prefix_refl _
      next => cases h
  | setUserData call =>
      simp only [Submission.next] at h
      split at h
      next =>
        cases h
        exact List.prefix_refl _
      next => cases h
  | submit =>
      cases h
      exact List.prefix_append _ _

/-- Only the kernel posts. -/
theorem posted_eq {before after : Completions.State (Submission.Allocation C)}
    {action : Completions.Action (Submission.Allocation C)}
    (h : Completions.next completions batchSize before action = some after) :
    after.posted = before.posted ∨ ∃ cqe, action = .post cqe ∧
      after.posted = before.posted ++ [cqe] := by
  cases action with
  | post cqe =>
      simp only [Completions.next, Option.ite_none_right_eq_some, Option.some.injEq] at h
      obtain ⟨-, rfl⟩ := h
      exact Or.inr ⟨cqe, rfl, rfl⟩
  | peek | seen | delete =>
      simp only [Completions.next] at h
      split at h <;> cases h <;> exact Or.inl rfl
  | readUserData | handle =>
      simp only [Completions.next] at h
      split at h
      next =>
        obtain ⟨_, _, rfl⟩ := Option.map_eq_some_iff.mp h
        exact Or.inl rfl
      next => cases h

/-- A step is a step of one of the halves; the kernel posts only what it has received. -/
theorem next_cases (h : next entries completions batchSize request state action = some following) :
    (∃ half, action = .submission half ∧ following.completion = state.completion ∧
      Submission.next entries request state.submission half = some following.submission) ∨
    (∃ half, action = .completion half ∧ following.submission = state.submission ∧
      Completions.next completions batchSize state.completion half = some following.completion ∧
      ∀ cqe, half = .post cqe → some cqe.userData ∈ state.accepted) := by
  unfold next at h
  split at h
  next =>
    split at h
    next =>
      obtain ⟨_, hhalf, rfl⟩ := Option.map_eq_some_iff.mp h
      exact Or.inl ⟨_, rfl, rfl, hhalf⟩
    next => cases h
  next =>
    obtain ⟨_, hhalf, rfl⟩ := Option.map_eq_some_iff.mp h
    exact Or.inl ⟨_, rfl, rfl, hhalf⟩
  next cqe =>
    split at h
    next haccepted =>
      obtain ⟨_, hhalf, rfl⟩ := Option.map_eq_some_iff.mp h
      refine Or.inr ⟨_, rfl, rfl, hhalf, ?_⟩
      intro posted hposted
      cases hposted
      exact haccepted
    next => cases h
  next =>
    split at h
    next =>
      obtain ⟨_, hhalf, rfl⟩ := Option.map_eq_some_iff.mp h
      refine Or.inr ⟨_, rfl, rfl, hhalf, ?_⟩
      intro posted hposted
      cases hposted
    next => cases h
  next half hpost hpeek =>
    obtain ⟨_, hhalf, rfl⟩ := Option.map_eq_some_iff.mp h
    exact Or.inr ⟨_, rfl, rfl, hhalf, fun cqe hcqe => absurd hcqe (hpost cqe)⟩

/-- An orderly step keeps the invariant. -/
theorem Inv.step (h : Inv entries completions request state)
    (hguard : Orderly completions state action)
    (hnext : next entries completions batchSize request state action = some following) :
    Inv entries completions request following := by
  rcases next_cases hnext with ⟨half, rfl, hsame, hhalf⟩ | ⟨half, rfl, hsame, hhalf, haccepted⟩
  · refine ⟨h.submission.step hguard hhalf, hsame ▸ h.completion, ?_⟩
    rw [hsame]
    intro cqe hcqe
    exact ((received_grows hhalf).map _).subset (h.received cqe hcqe)
  · refine ⟨hsame ▸ h.submission, h.completion.step hguard hhalf, ?_⟩
    have hsent : following.accepted = state.accepted := by rw [State.accepted, hsame]; rfl
    rw [hsent]
    intro cqe hcqe
    rcases posted_eq hhalf with hposted | ⟨posted, rfl, hposted⟩
    · exact h.received cqe (hposted ▸ hcqe)
    · rw [hposted] at hcqe
      rcases List.mem_append.mp hcqe with hold | hnew
      · exact h.received cqe hold
      · obtain rfl := List.mem_singleton.mp hnew
        exact haccepted cqe rfl

omit [DecidableEq C] in
/-- What the kernel has completed belongs to a call that it has received. -/
theorem Inv.posted_own (h : Inv entries completions request state)
    {cqe : Completions.Cqe (Submission.Allocation C)} (hcqe : cqe ∈ state.completion.posted) :
    cqe.userData.call ∈ state.submission.obtained ∧
      cqe.userData.pending = (request cqe.userData.call).pending := by
  have haccepted := h.received cqe hcqe
  rw [State.accepted, h.submission.received, List.map_map, List.mem_map] at haccepted
  obtain ⟨call, hcall, hdata⟩ := haccepted
  obtain hdata : ⟨call, (request call).pending⟩ = cqe.userData := Option.some.inj hdata
  rw [← hdata]
  exact ⟨List.mem_of_mem_take hcall, rfl⟩

omit [DecidableEq C] in
/-- The invariant matches the completions with the calls. -/
theorem Inv.matched (h : Inv entries completions request state) : Matched request state := by
  have hexact := h.completion.exact
  have hown : ∀ cqe ∈ state.completion.handled, cqe.userData.call ∈ state.submission.obtained ∧
      cqe.userData.pending = (request cqe.userData.call).pending :=
    fun cqe hcqe => h.posted_own (hexact.handled.subset hcqe)
  have honce : state.handledCalls.Nodup := by
    have hcalls : state.handledCalls =
        (state.completion.handled.map Completions.Cqe.userData).map Submission.Allocation.call := by
      rw [List.map_map]
      rfl
    rw [hcalls]
    refine List.Nodup.map_on ?_ hexact.handled_once
    intro first hfirst second hsecond hcall
    obtain ⟨cqe, hcqe, rfl⟩ := List.mem_map.mp hfirst
    obtain ⟨cqe', hcqe', rfl⟩ := List.mem_map.mp hsecond
    have hpending : cqe.userData.pending = cqe'.userData.pending := by
      rw [(hown cqe hcqe).2, (hown cqe' hcqe').2, hcall]
    exact congrArg₂ Submission.Allocation.mk hcall hpending
  refine ⟨hexact.handled, hown, honce, ?_⟩
  intro hquiet
  obtain ⟨hhandled, hdeleted⟩ := hexact.complete hquiet.between
  have hsubset : state.handledCalls ⊆ state.submission.obtained := by
    intro call hcall
    obtain ⟨cqe, hcqe, rfl⟩ := List.mem_map.mp hcall
    exact (hown cqe hcqe).1
  -- as many completions were handled as calls were received, and these are all calls
  have hlength : state.submission.obtained.length ≤ state.handledCalls.length := by
    have hreceived := congrArg List.length h.submission.received
    rw [List.length_map, hquiet.published, List.take_length] at hreceived
    rw [State.handledCalls, List.length_map, hhandled, hquiet.handled, hquiet.completed,
      hreceived]
  refine ⟨(List.subperm_of_subset honce hsubset).perm_of_length_le hlength, ?_⟩
  refine hexact.deleted.eq_of_length ?_
  rw [List.length_map, hhandled, hdeleted]

end Steps

/-- In every run of the calls, the event loop and the kernel in which the event loop submits whole
calls only and the kernel reuses no slot before it is read, the completions are matched with the
calls throughout. -/
theorem calls_completed {entries completions batchSize : Nat} {request : C → Request}
    {schedule : List (Action C)}
    (hguard : (machine entries completions batchSize request).Guarded (Orderly completions)
      schedule) :
    (machine entries completions batchSize request).Always (Matched request) schedule := by
  refine Machine.guarded_always (I := Inv entries completions request) ?_
    (fun _ _ _ => Inv.step) (fun _ => Inv.matched) hguard
  refine ⟨?_, ?_, ?_⟩
  · constructor
    all_goals simp [machine]
  · refine ⟨List.nodup_nil, Nat.le_refl _, Nat.zero_le _, ?_, rfl, rfl⟩
    intro position _ hposition
    exact absurd hposition (Nat.not_lt_zero _)
  · intro cqe hcqe
    cases hcqe

/-- Two writes of one byte. -/
def twoWrites (call : Bool) : Request :=
  .writeSome ⟨5⟩ [if call then 1 else 0]

/-- The kernel completes the second write first, and the event loop takes both completions in one
batch. -/
def overtaken : List (Action Bool) :=
  [.submission (.getSqe true), .submission (.prep true), .submission (.setUserData true),
    .submission .submit, .submission (.getSqe false), .submission (.prep false),
    .submission (.setUserData false), .submission .submit,
    .completion (.post ⟨⟨false, (twoWrites false).pending⟩, 1⟩),
    .completion (.post ⟨⟨true, (twoWrites true).pending⟩, 1⟩), .completion .peek,
    .completion .seen, .completion .readUserData, .completion .handle, .completion .delete,
    .completion .seen, .completion .readUserData, .completion .handle, .completion .delete,
    .completion .seen]

/-- Both calls are handled, the second one first. -/
theorem calls_completed_overtaken :
    ∃ state, (machine 2 4 8 twoWrites).run overtaken = some state ∧ state.Quiet ∧
      state.handledCalls = [false, true] ∧ Matched twoWrites state := by
  obtain ⟨state, hrun⟩ : ∃ state, (machine 2 4 8 twoWrites).run overtaken = some state := ⟨_, rfl⟩
  have hmatched := calls_completed
    (show (machine 2 4 8 twoWrites).Guarded (Orderly 4) overtaken by decide) overtaken state
    (List.prefix_refl _) hrun
  obtain rfl := Option.some.inj hrun
  exact ⟨_, rfl, ⟨rfl, rfl, rfl, rfl⟩, rfl, hmatched⟩

end EventLoop

end Toad
