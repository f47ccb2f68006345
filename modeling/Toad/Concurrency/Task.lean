import Mathlib.Data.Fintype.Basic
import Mathlib.Data.List.Nodup
import Mathlib.Logic.Function.Basic
import Toad.Execution.Machine

/-!
# Who owns a coroutine frame

`concurrency/task.hpp` and the body of `Executor::worker_thread`. A coroutine that suspends
has handed its handle to a `Future`, a `Notify`, or `toad::spawn`, so that another worker may
pop and resume it at once, while the first worker still holds the handle in its local `Task`
and asks twice whether the frame is done. Frames and workers are arbitrary types; every
`done()` query, the resumption, the suspension, `leak`, and the destructor are separate
steps. `frame_ownership` gives the exact condition under which the source's ownership
argument holds: no frame is resumed while a worker that resumed it before has a query ahead.
-/

namespace Toad.Task

open Execution

/-- The state of a coroutine frame. `queued` covers the time from `Executor::spawn` until the
worker that popped the handle resumes it; `parked` means that a `Future` or a `Notify` holds the
handle. -/
inductive Frame (W : Type) where
  | fresh
  | queued
  | parked
  | running (worker : W)
  | final
  | destroyed
  deriving DecidableEq, Repr

/-- Where a worker stands in the body of its loop, with the frame in its local `Task`. -/
inductive Place (F : Type) where
  | idle
  /-- before `if (!task.done())` -/
  | loaded (frame : F)
  /-- in `Task::resume`, before `if (!handle_.done())` -/
  | entering (frame : F)
  /-- in `Task::resume`, before `handle_.resume()` -/
  | resuming (frame : F)
  /-- inside `handle_.resume()` -/
  | running (frame : F)
  /-- in `Task::resume`, before `return !handle_.done()` -/
  | returned (frame : F)
  /-- before the second `if (!task.done())` -/
  | deciding (frame : F)
  /-- before `task.leak()` -/
  | leaking (frame : F)
  /-- before the destructor of a `Task` that still has its handle -/
  | dropping (frame : F)
  deriving DecidableEq, Repr

/-- Frames, the executor's queue, the workers, and how often each frame was destroyed. -/
structure State (W F : Type) where
  frame : F → Frame W := fun _ => .fresh
  queue : List F := []
  worker : W → Place F := fun _ => .idle
  destroys : F → Nat := fun _ => 0

/-- The steps. `spawn` is the first spawn of a task, `wake` the spawn of a handle by `set_value`
or `notify_all`. A query carries the bit that a read of a frame in use or freed returns. -/
inductive Action (W F : Type) where
  | spawn (frame : F)
  | wake (frame : F)
  | pop (worker : W)
  | query (worker : W) (garbage : Bool)
  | resume (worker : W)
  | park (worker : W)
  | requeue (worker : W)
  | finish (worker : W)
  | leak (worker : W)
  | destroy (worker : W)
  deriving DecidableEq, Repr

variable {W F : Type} [DecidableEq W] [DecidableEq F]

/-- What `done()` returns: whether the frame is at its final suspension, and anything on a frame
that is being resumed or has been destroyed. -/
def Frame.done (frame : Frame W) (garbage : Bool) : Bool :=
  match frame with
  | .fresh | .queued | .parked => false
  | .final => true
  | .running _ | .destroyed => garbage

/-- Move one worker. -/
def State.move (state : State W F) (worker : W) (place : Place F) : State W F :=
  { state with worker := Function.update state.worker worker place }

/-- Set the state of one frame. -/
def State.mark (state : State W F) (frame : F) (status : Frame W) : State W F :=
  { state with frame := Function.update state.frame frame status }

/-- `_queue.emplace_back`. -/
def State.enqueue (state : State W F) (frame : F) : State W F :=
  { state.mark frame .queued with queue := state.queue ++ [frame] }

/-- One step. -/
def next (state : State W F) : Action W F → Option (State W F)
  | .spawn frame =>
      if state.frame frame = .fresh then some (state.enqueue frame) else none
  | .wake frame =>
      if state.frame frame = .parked then some (state.enqueue frame) else none
  | .pop worker =>
      match state.worker worker, state.queue with
      | .idle, frame :: rest => some ({ state with queue := rest }.move worker (.loaded frame))
      | _, _ => none
  | .query worker garbage =>
      match state.worker worker with
      | .loaded frame =>
          if (state.frame frame).done garbage then some (state.move worker (.dropping frame))
          else some (state.move worker (.entering frame))
      | .entering frame =>
          if (state.frame frame).done garbage then some (state.move worker (.returned frame))
          else some (state.move worker (.resuming frame))
      | .returned frame =>
          -- the caller discards the result of `Task::resume`
          some (state.move worker (.deciding frame))
      | .deciding frame =>
          if (state.frame frame).done garbage then some (state.move worker (.dropping frame))
          else some (state.move worker (.leaking frame))
      | _ => none
  | .resume worker =>
      match state.worker worker with
      | .resuming frame =>
          some ((state.mark frame (.running worker)).move worker (.running frame))
      | _ => none
  | .park worker =>
      match state.worker worker with
      | .running frame => some ((state.mark frame .parked).move worker (.returned frame))
      | _ => none
  | .requeue worker =>
      match state.worker worker with
      | .running frame => some ((state.enqueue frame).move worker (.returned frame))
      | _ => none
  | .finish worker =>
      match state.worker worker with
      | .running frame => some ((state.mark frame .final).move worker (.returned frame))
      | _ => none
  | .leak worker =>
      match state.worker worker with
      | .leaking _ => some (state.move worker .idle)
      | _ => none
  | .destroy worker =>
      match state.worker worker with
      | .dropping frame =>
          some ({ state.mark frame .destroyed with
            destroys := Function.update state.destroys frame
              (state.destroys frame + 1) }.move worker .idle)
      | _ => none

/-- Workers `W` on frames `F`. -/
def machine (W F : Type) [DecidableEq W] [DecidableEq F] : Machine (State W F) (Action W F) where
  init := {}
  next := next

/-- The frame on which the worker's next step is a `done()` query. -/
@[grind] def Place.queried : Place F → Option F
  | .loaded frame | .entering frame | .returned frame | .deciding frame => some frame
  | _ => none

/-- The frame that the worker has resumed and will query again. -/
@[grind] def Place.reviewed : Place F → Option F
  | .returned frame | .deciding frame => some frame
  | _ => none

/-- The frame that the worker has popped and not yet resumed. -/
@[grind] def Place.claimed : Place F → Option F
  | .loaded frame | .entering frame | .resuming frame => some frame
  | _ => none

/-- The frame that the worker's local `Task` will destroy next. -/
@[grind] def Place.dropped : Place F → Option F
  | .dropping frame => some frame
  | _ => none

/-- The step queries a frame that another worker is resuming or that has been destroyed, or it
destroys a frame that is not at its final suspension. -/
def Violation (state : State W F) : Action W F → Prop
  | .query worker _ =>
      ∃ frame, (state.worker worker).queried = some frame ∧
        (state.frame frame = .destroyed ∨
          ∃ other, other ≠ worker ∧ state.frame frame = .running other)
  | .destroy worker =>
      ∃ frame, (state.worker worker).dropped = some frame ∧ state.frame frame ≠ .final
  | _ => False

/-- Every frame was destroyed at most once, and no enabled step is a violation. -/
def Safe (state : State W F) : Prop :=
  (∀ frame, state.destroys frame ≤ 1) ∧
    ∀ action following, next state action = some following → ¬ Violation state action

/-- The step does not resume a frame that another worker, which resumed it before, has still to
query. -/
def ResumesAlone (state : State W F) : Action W F → Prop
  | .resume worker =>
      ∀ other, other ≠ worker → (state.worker other).reviewed = none ∨
        (state.worker other).reviewed ≠ (state.worker worker).claimed
  | _ => True

instance [Fintype W] (state : State W F) :
    ∀ action, Decidable (ResumesAlone state action)
  | .resume worker =>
      inferInstanceAs (Decidable (∀ other, other ≠ worker →
        (state.worker other).reviewed = none ∨
          (state.worker other).reviewed ≠ (state.worker worker).claimed))
  | .spawn _ | .wake _ | .pop _ | .query _ _ | .park _ | .requeue _ | .finish _ | .leak _
  | .destroy _ => isTrue trivial

/-- The invariant of runs in which frames are resumed alone. -/
structure Inv (state : State W F) : Prop where
  queue_nodup : state.queue.Nodup
  queue_queued : ∀ frame ∈ state.queue, state.frame frame = .queued
  claimed : ∀ worker frame, (state.worker worker).claimed = some frame →
    state.frame frame = .queued ∧ frame ∉ state.queue
  claimed_once : ∀ worker other frame, (state.worker worker).claimed = some frame →
    (state.worker other).claimed = some frame → worker = other
  running : ∀ worker frame, state.worker worker = .running frame →
    state.frame frame = .running worker
  reviewed : ∀ worker frame, (state.worker worker).reviewed = some frame →
    state.frame frame = .queued ∨ state.frame frame = .parked ∨ state.frame frame = .final
  dropped : ∀ worker frame, (state.worker worker).dropped = some frame →
    state.frame frame = .final
  final_once : ∀ worker other frame, state.frame frame = .final →
    ((state.worker worker).reviewed = some frame ∨ (state.worker worker).dropped = some frame) →
    ((state.worker other).reviewed = some frame ∨ (state.worker other).dropped = some frame) →
    worker = other
  destroys : ∀ frame, state.destroys frame = if state.frame frame = .destroyed then 1 else 0

theorem Inv.init : Inv (machine W F).init := by
  constructor <;> simp [machine, Place.claimed, Place.reviewed, Place.dropped]

omit [DecidableEq F] in
/-- The frame of a worker that resumes it is in nobody else's hands. -/
theorem Inv.running_alone {state : State W F} (h : Inv state) {worker : W} {frame : F}
    (hplace : state.worker worker = .running frame) (other : W) :
    (state.worker other).claimed ≠ some frame ∧ (state.worker other).reviewed ≠ some frame ∧
      (state.worker other).dropped ≠ some frame ∧ frame ∉ state.queue := by
  have hstatus := h.running worker frame hplace
  refine ⟨fun hother => ?_, fun hother => ?_, fun hother => ?_, fun hmem => ?_⟩
  · have := (h.claimed other frame hother).1
    simp [hstatus] at this
  · have := h.reviewed other frame hother
    simp [hstatus] at this
  · have := h.dropped other frame hother
    simp [hstatus] at this
  · have := h.queue_queued frame hmem
    simp [hstatus] at this

omit [DecidableEq F] in
/-- A worker may forget what it held, or hold the same frame at another place. -/
theorem Inv.relabel {state : State W F} (h : Inv state) (worker : W) (place : Place F)
    (hclaimed : place.claimed = none ∨ place.claimed = (state.worker worker).claimed)
    (hreviewed : place.reviewed = none ∨ place.reviewed = (state.worker worker).reviewed)
    (hdropped : place.dropped = none ∨ place.dropped = (state.worker worker).dropped)
    (hrunning : ∀ frame, place ≠ .running frame) : Inv (state.move worker place) := by
  obtain ⟨hnodup, hqueued, hclaim, honce, hrun, hreview, hdrop, hfinal, hcount⟩ := h
  refine ⟨hnodup, hqueued, ?_, ?_, ?_, ?_, ?_, ?_, hcount⟩
  all_goals
    simp only [State.move]
    grind [Function.update_apply]

/-- Enqueuing a frame that is in nobody's hands. -/
theorem Inv.enqueue {state : State W F} (h : Inv state) (frame : F)
    (hstatus : state.frame frame = .fresh ∨ state.frame frame = .parked) :
    Inv (state.enqueue frame) := by
  obtain ⟨hnodup, hqueued, hclaim, honce, hrun, hreview, hdrop, hfinal, hcount⟩ := h
  constructor
  all_goals
    simp only [State.enqueue, State.mark]
    grind [Function.update_apply]

omit [DecidableEq F] in
/-- Popping the front of the queue. -/
theorem Inv.pop {state : State W F} (h : Inv state) {worker : W} {frame : F} {rest : List F}
    (hqueue : state.queue = frame :: rest) :
    Inv ({ state with queue := rest }.move worker (.loaded frame)) := by
  have hfront := h.queue_queued frame (by simp [hqueue])
  -- nobody has claimed a frame that was in the queue
  have hunclaimed : ∀ other, (state.worker other).claimed ≠ some frame := by
    intro other hother
    exact (h.claimed other frame hother).2 (by simp [hqueue])
  obtain ⟨hnodup, hqueued, hclaim, honce, hrun, hreview, hdrop, hfinal, hcount⟩ := h
  rw [hqueue, List.nodup_cons] at hnodup
  have hrest : ∀ other ∈ rest, state.frame other = .queued := by
    intro other hmem
    exact hqueued other (hqueue ▸ List.mem_cons_of_mem _ hmem)
  refine ⟨hnodup.2, hrest, ?_, ?_, ?_, ?_, ?_, ?_, hcount⟩
  all_goals
    simp only [State.move]
    grind [Function.update_apply]

omit [DecidableEq F] in
/-- A worker that finds its frame done goes on to destroy it. -/
theorem Inv.drop {state : State W F} (h : Inv state) {worker : W} {frame : F}
    (hplace : state.worker worker = .deciding frame) (hstatus : state.frame frame = .final) :
    Inv (state.move worker (.dropping frame)) := by
  have hreviewing : (state.worker worker).reviewed = some frame := by rw [hplace]; rfl
  obtain ⟨hnodup, hqueued, hclaim, honce, hrun, hreview, hdrop, hfinal, hcount⟩ := h
  refine ⟨hnodup, hqueued, ?_, ?_, ?_, ?_, ?_, ?_, hcount⟩
  all_goals
    simp only [State.move]
    grind [Function.update_apply]

/-- Resuming a frame that nobody else has still to query. -/
theorem Inv.resume {state : State W F} (h : Inv state) {worker : W} {frame : F}
    (hplace : state.worker worker = .resuming frame)
    (halone : ∀ other, other ≠ worker → (state.worker other).reviewed ≠ some frame) :
    Inv ((state.mark frame (.running worker)).move worker (.running frame)) := by
  have hclaiming : (state.worker worker).claimed = some frame := by rw [hplace]; rfl
  obtain ⟨hstatus, hnotin⟩ := h.claimed worker frame hclaiming
  have hsole : ∀ other, (state.worker other).claimed = some frame → other = worker :=
    fun other hother => h.claimed_once other worker frame hother hclaiming
  have hundropped : ∀ other, (state.worker other).dropped ≠ some frame := by
    intro other hother
    have := h.dropped other frame hother
    simp [hstatus] at this
  obtain ⟨hnodup, hqueued, hclaim, honce, hrun, hreview, hdrop, hfinal, hcount⟩ := h
  refine ⟨hnodup, ?_, ?_, ?_, ?_, ?_, ?_, ?_, ?_⟩
  all_goals
    simp only [State.move, State.mark]
    grind [Function.update_apply]

/-- The end of a resumption, with the handle in a `Future` or a `Notify` or the coroutine at its
final suspension. -/
theorem Inv.suspend {state : State W F} (h : Inv state) {worker : W} {frame : F}
    {status : Frame W} (hplace : state.worker worker = .running frame)
    (hstatus : status = .parked ∨ status = .final) :
    Inv ((state.mark frame status).move worker (.returned frame)) := by
  have hbefore := h.running worker frame hplace
  have halone := h.running_alone hplace
  obtain ⟨hnodup, hqueued, hclaim, honce, hrun, hreview, hdrop, hfinal, hcount⟩ := h
  refine ⟨hnodup, ?_, ?_, ?_, ?_, ?_, ?_, ?_, ?_⟩
  all_goals
    simp only [State.move, State.mark]
    grind [Function.update_apply]

/-- The end of a resumption that spawned its own handle: the handle is handed over as a parked
one would be, and then woken. -/
theorem requeue_eq (state : State W F) (worker : W) (frame : F) :
    (state.enqueue frame).move worker (.returned frame) =
      ((state.mark frame .parked).move worker (.returned frame)).enqueue frame := by
  simp [State.enqueue, State.mark, State.move]

/-- Destroying a frame at its final suspension. -/
theorem Inv.destroy {state : State W F} (h : Inv state) {worker : W} {frame : F}
    (hplace : state.worker worker = .dropping frame) :
    Inv ({ state.mark frame .destroyed with
      destroys := Function.update state.destroys frame
        (state.destroys frame + 1) }.move worker .idle) := by
  have hdropping : (state.worker worker).dropped = some frame := by rw [hplace]; rfl
  have hbefore := h.dropped worker frame hdropping
  -- the frame is final, so this worker is the only one that still holds it
  have hsole : ∀ other, ((state.worker other).reviewed = some frame ∨
      (state.worker other).dropped = some frame) → other = worker :=
    fun other hother => h.final_once other worker frame hbefore hother (Or.inr hdropping)
  obtain ⟨hnodup, hqueued, hclaim, honce, hrun, hreview, hdrop, hfinal, hcount⟩ := h
  refine ⟨hnodup, ?_, ?_, ?_, ?_, ?_, ?_, ?_, ?_⟩
  all_goals
    simp only [State.move, State.mark]
    grind [Function.update_apply]

/-- A query finds a claimed frame not done, and lets the worker go on with the frame it has. -/
theorem Inv.query {state following : State W F} (h : Inv state) {worker : W} {garbage : Bool}
    (hnext : next state (.query worker garbage) = some following) : Inv following := by
  simp only [next] at hnext
  cases hplace : state.worker worker with
  | loaded frame =>
      have hqueued := (h.claimed worker frame (by rw [hplace]; rfl)).1
      simp only [hplace, hqueued, Frame.done, Bool.false_eq_true, if_false,
        Option.some.injEq] at hnext
      subst hnext
      exact h.relabel worker _ (Or.inr (by rw [hplace]; rfl)) (Or.inl rfl) (Or.inl rfl) (by simp)
  | entering frame =>
      have hqueued := (h.claimed worker frame (by rw [hplace]; rfl)).1
      simp only [hplace, hqueued, Frame.done, Bool.false_eq_true, if_false,
        Option.some.injEq] at hnext
      subst hnext
      exact h.relabel worker _ (Or.inr (by rw [hplace]; rfl)) (Or.inl rfl) (Or.inl rfl) (by simp)
  | returned frame =>
      simp only [hplace, Option.some.injEq] at hnext
      subst hnext
      exact h.relabel worker _ (Or.inl rfl) (Or.inr (by rw [hplace]; rfl)) (Or.inl rfl) (by simp)
  | deciding frame =>
      simp only [hplace] at hnext
      split at hnext
      · rename_i hdone
        obtain rfl := Option.some.inj hnext
        -- only a final frame answers that it is done
        have hfinal : state.frame frame = .final := by
          rcases h.reviewed worker frame (by rw [hplace]; rfl) with hs | hs | hs
          · simp [hs, Frame.done] at hdone
          · simp [hs, Frame.done] at hdone
          · exact hs
        exact h.drop hplace hfinal
      · obtain rfl := Option.some.inj hnext
        exact h.relabel worker _ (Or.inl rfl) (Or.inl rfl) (Or.inl rfl) (by simp)
  | idle | resuming | running | leaking | dropping =>
      simp [hplace] at hnext

/-- Every step of a run in which frames are resumed alone preserves the invariant. -/
theorem Inv.step {state following : State W F} (h : Inv state) {action : Action W F}
    (halone : ResumesAlone state action) (hnext : next state action = some following) :
    Inv following := by
  cases action with
  | spawn frame =>
      simp only [next, Option.ite_none_right_eq_some, Option.some.injEq] at hnext
      obtain ⟨hstatus, rfl⟩ := hnext
      exact h.enqueue frame (Or.inl hstatus)
  | wake frame =>
      simp only [next, Option.ite_none_right_eq_some, Option.some.injEq] at hnext
      obtain ⟨hstatus, rfl⟩ := hnext
      exact h.enqueue frame (Or.inr hstatus)
  | pop worker =>
      simp only [next] at hnext
      split at hnext
      · rename_i frame rest hplace hqueue
        obtain rfl := Option.some.inj hnext
        exact h.pop hqueue
      · cases hnext
  | query worker garbage =>
      exact h.query hnext
  | resume worker =>
      simp only [next] at hnext
      split at hnext
      · rename_i frame hplace
        obtain rfl := Option.some.inj hnext
        refine h.resume hplace fun other hother => ?_
        have := halone other hother
        rw [hplace] at this
        rcases this with hnone | hdifferent
        · simp [hnone]
        · exact hdifferent
      · cases hnext
  | park worker =>
      simp only [next] at hnext
      split at hnext
      · rename_i frame hplace
        obtain rfl := Option.some.inj hnext
        exact h.suspend hplace (Or.inl rfl)
      · cases hnext
  | requeue worker =>
      simp only [next] at hnext
      split at hnext
      · rename_i frame hplace
        obtain rfl := Option.some.inj hnext
        rw [requeue_eq]
        exact (h.suspend hplace (Or.inl rfl)).enqueue frame
          (Or.inr (by simp [State.mark, State.move]))
      · cases hnext
  | finish worker =>
      simp only [next] at hnext
      split at hnext
      · rename_i frame hplace
        obtain rfl := Option.some.inj hnext
        exact h.suspend hplace (Or.inr rfl)
      · cases hnext
  | leak worker =>
      simp only [next] at hnext
      split at hnext
      · obtain rfl := Option.some.inj hnext
        exact h.relabel worker .idle (Or.inl rfl) (Or.inl rfl) (Or.inl rfl) (by simp)
      · cases hnext
  | destroy worker =>
      simp only [next] at hnext
      split at hnext
      · rename_i frame hplace
        obtain rfl := Option.some.inj hnext
        exact h.destroy hplace
      · cases hnext

omit [DecidableEq W] [DecidableEq F] in
/-- A worker queries a frame before it resumes it or after. -/
theorem claimed_or_reviewed {place : Place F} {frame : F} (h : place.queried = some frame) :
    place.claimed = some frame ∨ place.reviewed = some frame := by
  cases place with
  | loaded | entering => exact Or.inl h
  | returned | deciding => exact Or.inr h
  | idle | resuming | running | leaking | dropping => cases h

omit [DecidableEq W] [DecidableEq F] in
/-- A frame that is still to be reviewed is queried next. -/
theorem reviewed_queried {place : Place F} {frame : F} (h : place.reviewed = some frame) :
    place.queried = some frame := by
  cases place with
  | returned | deciding => exact h
  | idle | loaded | entering | resuming | running | leaking | dropping => cases h

/-- A worker that stands before a query can make it. -/
theorem query_enabled (state : State W F) (worker : W) (garbage : Bool) {frame : F}
    (h : (state.worker worker).queried = some frame) :
    ∃ following, next state (.query worker garbage) = some following := by
  simp only [next]
  cases hplace : state.worker worker with
  | loaded | entering | deciding =>
      dsimp only
      split <;> exact ⟨_, rfl⟩
  | returned => exact ⟨_, rfl⟩
  | idle | resuming | running | leaking | dropping =>
      rw [hplace] at h
      cases h

/-- The invariant excludes every violation. -/
theorem Inv.safe {state : State W F} (h : Inv state) : Safe state := by
  refine ⟨fun frame => ?_, fun action following _ => ?_⟩
  · rw [h.destroys frame]
    split <;> decide
  · cases action with
    | query worker garbage =>
        intro hviolation
        obtain ⟨frame, hqueried, hbad⟩ := hviolation
        have hstatus : state.frame frame = .queued ∨ state.frame frame = .parked ∨
            state.frame frame = .final := by
          rcases claimed_or_reviewed hqueried with hclaimed | hreviewed
          · exact Or.inl (h.claimed worker frame hclaimed).1
          · exact h.reviewed worker frame hreviewed
        rcases hbad with hdestroyed | ⟨other, _, hrunning⟩
        · simp [hdestroyed] at hstatus
        · simp [hrunning] at hstatus
    | destroy worker =>
        intro hviolation
        obtain ⟨frame, hdropped, hbad⟩ := hviolation
        exact hbad (h.dropped worker frame hdropped)
    | spawn | wake | pop | resume | park | requeue | finish | leak => exact id

/-- A frame resumed while another worker has still to query it makes that query a violation. -/
theorem resume_unsafe {state following : State W F} {action : Action W F}
    (halone : ¬ ResumesAlone state action) (hnext : next state action = some following) :
    ¬ Safe following := by
  cases action with
  | resume worker =>
      simp only [next] at hnext
      split at hnext
      · rename_i frame hplace
        obtain rfl := Option.some.inj hnext
        simp only [ResumesAlone, not_forall, not_or, not_not] at halone
        obtain ⟨other, hother, -, hreviewed⟩ := halone
        rw [hplace] at hreviewed
        have hviolation : ∀ garbage, Violation
            ((state.mark frame (.running worker)).move worker (.running frame))
            (.query other garbage) := by
          intro garbage
          refine ⟨frame, ?_, Or.inr ⟨worker, hother.symm, ?_⟩⟩
          · simp only [State.move, State.mark, Function.update_of_ne hother]
            exact reviewed_queried hreviewed
          · simp [State.move, State.mark]
        intro hsafe
        obtain ⟨later, hlater⟩ := query_enabled
          ((state.mark frame (.running worker)).move worker (.running frame)) other false
          (hviolation false).choose_spec.1
        exact hsafe.2 _ later hlater (hviolation false)
      · cases hnext
  | spawn | wake | pop | query | park | requeue | finish | leak | destroy =>
      exact absurd trivial halone

/-- For any workers, any frames, and any interleaving: every frame is destroyed at most once and
at its final suspension, and nobody queries a frame that another worker is resuming or that has
been destroyed, exactly as long as no worker resumes a frame that another worker has still to
query. -/
theorem frame_ownership {schedule : List (Action W F)} {state : State W F}
    (h : (machine W F).run schedule = some state) :
    (machine W F).Guarded ResumesAlone schedule ↔ (machine W F).Always Safe schedule :=
  Machine.guarded_iff_always Inv.init (fun _ _ _ hinv halone hnext => hinv.step halone hnext)
    (fun _ hinv => hinv.safe) (fun _ _ _ _ halone hnext => resume_unsafe halone hnext) h

/-- One worker resumes the frame up to a suspension and leaks it before the other one resumes it
to its end and destroys it. -/
theorem frame_ownership_leaked_first :
    (machine Bool Unit).Always Safe
      [.spawn (), .pop false, .query false false, .query false false, .resume false, .park false,
        .query false false, .query false false, .leak false, .wake (), .pop true,
        .query true false, .query true false, .resume true, .finish true, .query true false,
        .query true false, .destroy true] :=
  (frame_ownership (show (machine Bool Unit).run _ = some _ from rfl)).mp (by decide)

/-- The first worker hands the handle to a `Future` and is still before its query inside
`Task::resume` when the second worker resumes the frame. -/
theorem resumed_before_query :
    ∃ state, (machine Bool Unit).run
      [.spawn (), .pop false, .query false false, .query false false, .resume false, .park false,
        .wake (), .pop true, .query true false, .query true false, .resume true] = some state ∧
      ¬ Safe state := by
  refine ⟨_, rfl, fun hsafe => ?_⟩
  exact hsafe.2 (.query false false) _ rfl ⟨(), rfl, Or.inr ⟨true, by decide, rfl⟩⟩

end Toad.Task
