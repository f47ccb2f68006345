import Toad.Execution.Linked
import Toad.Execution.Machine

/-!
# Walking the captured awaiters

The loop of `notify_all` in `concurrency/notify.hpp`. Each turn spawns the continuation of
`current` and then reads `current->next`; spawning queues the coroutine, and from then on any
worker may resume it. The awaiter lives in the frame of that coroutine, so after the resume
its `next` field is whatever the frame holds by then. A worker that is faster than the loop
makes it read a dead field and walk on from there.
-/

namespace Toad

namespace Traversal

open Execution

variable {A : Type} [DecidableEq A]

/-- Where the loop stands: at the test of `current`, or past the spawn and before the read of
`current->next`. -/
inductive Loop (A : Type) where
  | testing (current : Option A)
  | reading (current : A)
  deriving DecidableEq, Repr

/-- The `next` fields, the loop, what it has spawned, and what the workers have resumed.
`staleRead` records a read of `next` from an awaiter that was already gone. -/
structure State (A : Type) where
  link : A → Option A
  loop : Loop A
  spawned : List A := []
  resumed : List A := []
  staleRead : Bool := false

/-- The steps of the loop, and the resumption of a queued continuation by a worker, which leaves
any value in the `next` field. -/
inductive Action (A : Type) where
  | spawn
  | readNext
  | resume (awaiter : A) (garbage : Option A)
  deriving DecidableEq, Repr

/-- One step of the loop or of a worker. -/
def next (state : State A) : Action A → Option (State A)
  | .spawn =>
      match state.loop with
      | .testing (some current) =>
          some { state with spawned := state.spawned ++ [current], loop := .reading current }
      | _ => none
  | .readNext =>
      match state.loop with
      | .reading current =>
          some { state with
            loop := .testing (state.link current)
            staleRead := state.staleRead || decide (current ∈ state.resumed) }
      | _ => none
  | .resume awaiter garbage =>
      -- a continuation runs once for each time it was queued
      if state.resumed.count awaiter < state.spawned.count awaiter then
        some { state with
          link := Function.update state.link awaiter garbage
          resumed := state.resumed ++ [awaiter] }
      else
        none

/-- The loop over the list that starts at `head`, with workers that resume what it spawns. -/
def machine (link : A → Option A) (head : Option A) : Machine (State A) (Action A) where
  init := { link := link, loop := .testing head }
  next := next

/-- No `next` was read from a resumed awaiter, the loop has spawned a front part of the captured
list, and all of it when it ends. -/
def Exact (captured : List A) (state : State A) : Prop :=
  state.staleRead = false ∧ state.spawned <+: captured ∧
    (state.loop = .testing none → state.spawned = captured)

/-- A worker resumes a coroutine only after the loop has read the `next` of its awaiter. -/
def ResumesAfterRead (state : State A) : Action A → Prop
  | .resume awaiter _ => state.loop ≠ .reading awaiter
  | .spawn | .readNext => True

instance (state : State A) (action : Action A) : Decidable (ResumesAfterRead state action) :=
  match action with
  | .resume awaiter _ => inferInstanceAs (Decidable (state.loop ≠ .reading awaiter))
  | .spawn | .readNext => isTrue trivial

/-- The chain that the loop has still to walk. -/
def Ahead (state : State A) (rest : List A) : Prop :=
  match state.loop with
  | .testing current => Linked state.link current rest
  | .reading current =>
      Linked state.link (state.link current) rest ∧ current ∈ state.spawned ∧
        current ∉ state.resumed

/-- The invariant of a run in which nobody is resumed too early. -/
structure Inv (captured : List A) (state : State A) : Prop where
  split : ∃ rest, state.spawned ++ rest = captured ∧ Ahead state rest
  resumed_spawned : ∀ awaiter ∈ state.resumed, awaiter ∈ state.spawned
  fresh : state.staleRead = false

/-- The loop is about to read, or has read, the `next` of a resumed awaiter. -/
def Lost (state : State A) : Prop :=
  state.staleRead = true ∨ ∃ current ∈ state.resumed, state.loop = .reading current

section Steps

variable {captured : List A} {state following : State A} {action : Action A}

/-- A step that meets the guard keeps the invariant. -/
theorem Inv.step (hnodup : captured.Nodup) (h : Inv captured state)
    (hguard : ResumesAfterRead state action) (hnext : next state action = some following) :
    Inv captured following := by
  obtain ⟨⟨rest, hsplit, hahead⟩, hresumed, hfresh⟩ := h
  cases action with
  | spawn =>
      simp only [next] at hnext
      split at hnext
      · rename_i current hloop
        cases hnext
        rw [Ahead, hloop] at hahead
        obtain ⟨rest, rfl, htail⟩ := linked_some hahead
        have hnew : current ∉ state.spawned := by
          rw [← hsplit] at hnodup
          exact fun hmem => List.disjoint_of_nodup_append hnodup hmem (by simp)
        refine ⟨⟨rest, by simpa using hsplit, htail, by simp, ?_⟩, ?_, hfresh⟩
        · exact fun hmem => hnew (hresumed current hmem)
        · exact fun other hmem => List.mem_append_left _ (hresumed other hmem)
      · cases hnext
  | readNext =>
      simp only [next] at hnext
      split at hnext
      · rename_i current hloop
        cases hnext
        rw [Ahead, hloop] at hahead
        obtain ⟨hlinked, _, hnot⟩ := hahead
        exact ⟨⟨rest, hsplit, hlinked⟩, hresumed, by simp [hfresh, hnot]⟩
      · cases hnext
  | resume awaiter garbage =>
      simp only [next] at hnext
      split at hnext
      · rename_i hcount
        cases hnext
        have hspawned : awaiter ∈ state.spawned := by
          rw [← List.count_pos_iff]
          omega
        have hoffchain : awaiter ∉ rest := by
          rw [← hsplit] at hnodup
          exact fun hmem => List.disjoint_of_nodup_append hnodup hspawned hmem
        refine ⟨⟨rest, hsplit, ?_⟩, ?_, hfresh⟩
        · cases hloop : state.loop with
          | testing current =>
              simp only [Ahead, hloop] at hahead ⊢
              exact linked_update hahead hoffchain
          | reading current =>
              simp only [Ahead, hloop] at hahead ⊢
              obtain ⟨hlinked, hmem, hnot⟩ := hahead
              have hne : current ≠ awaiter := by
                intro heq
                subst heq
                exact hguard hloop
              rw [Function.update_of_ne hne]
              exact ⟨linked_update hlinked hoffchain, hmem, by simp [hnot, hne]⟩
        · intro other hmem
          rcases List.mem_append.mp hmem with hmem | hmem
          · exact hresumed other hmem
          · rw [List.mem_singleton.mp hmem]
            exact hspawned
      · cases hnext

/-- A resume before the read leaves the loop with a dead awaiter. -/
theorem resume_early_lost (hguard : ¬ ResumesAfterRead state action)
    (hnext : next state action = some following) : Lost following := by
  cases action with
  | spawn => exact absurd trivial hguard
  | readNext => exact absurd trivial hguard
  | resume awaiter garbage =>
      have hloop : state.loop = .reading awaiter := by simpa [ResumesAfterRead] using hguard
      simp only [next] at hnext
      split at hnext
      · cases hnext
        exact Or.inr ⟨awaiter, by simp, hloop⟩
      · cases hnext

/-- There is no way back from a dead awaiter. -/
theorem Lost.step (h : Lost state) (hnext : next state action = some following) :
    Lost following := by
  cases action with
  | spawn =>
      simp only [next] at hnext
      split at hnext
      · rename_i current hloop
        cases hnext
        refine h.imp_right fun hreading => ?_
        obtain ⟨other, _, hother⟩ := hreading
        rw [hloop] at hother
        cases hother
      · cases hnext
  | readNext =>
      simp only [next] at hnext
      split at hnext
      · rename_i current hloop
        cases hnext
        refine Or.inl ?_
        rcases h with hstale | ⟨other, hmem, hother⟩
        · simp [hstale]
        · rw [hloop] at hother
          cases hother
          simp [hmem]
      · cases hnext
  | resume awaiter garbage =>
      simp only [next] at hnext
      split at hnext
      · cases hnext
        refine h.imp_right fun hreading => ?_
        obtain ⟨other, hmem, hother⟩ := hreading
        exact ⟨other, List.mem_append_left _ hmem, hother⟩
      · cases hnext

omit [DecidableEq A] in
/-- The invariant gives the exact traversal. -/
theorem Inv.exact (h : Inv captured state) : Exact captured state := by
  obtain ⟨⟨rest, hsplit, hahead⟩, _, hfresh⟩ := h
  refine ⟨hfresh, ⟨rest, hsplit⟩, ?_⟩
  intro hloop
  rw [Ahead, hloop] at hahead
  obtain rfl : rest = [] := linked_none_iff.mp hahead
  rw [← hsplit, List.append_nil]

end Steps

/-- Over every captured list and every interleaving with the workers: if nobody is resumed
between the spawn of its continuation and the read of its `next`, the loop spawns exactly the
captured list and reads no dead field; and when the loop is not inside a turn at the end of the
run, only then. -/
theorem traversal_exact_iff {link : A → Option A} {head : Option A} {captured : List A}
    (hcaptured : Linked link head captured) {schedule : List (Action A)} {state : State A}
    (hrun : (machine link head).run schedule = some state) :
    ((machine link head).Guarded ResumesAfterRead schedule →
      (machine link head).Always (Exact captured) schedule) ∧
    ((∀ current, state.loop ≠ .reading current) →
      (machine link head).Always (Exact captured) schedule →
      (machine link head).Guarded ResumesAfterRead schedule) := by
  have hinit : Inv captured (machine link head).init :=
    ⟨⟨captured, rfl, hcaptured⟩, by simp [machine], rfl⟩
  have hstep : ∀ state action following, Inv captured state → ResumesAfterRead state action →
      (machine link head).next state action = some following → Inv captured following :=
    fun _ _ _ hinv hguard hnext => hinv.step (linked_nodup hcaptured) hguard hnext
  refine ⟨Machine.guarded_always hinit hstep (fun _ => Inv.exact), ?_⟩
  intro hbetween halways
  rcases Machine.guarded_or_lost (L := Lost) hinit hstep
    (fun _ _ _ _ => resume_early_lost) (fun _ _ _ => Lost.step) hrun
    with ⟨hguarded, _⟩ | ⟨_, hstale | ⟨current, _, hloop⟩⟩
  · exact hguarded
  · obtain ⟨hfresh, _⟩ := halways schedule state (List.prefix_refl _) hrun
    exact absurd (hfresh.symm.trans hstale) (by simp)
  · exact absurd hloop (hbetween current)

/-- The link fields of a captured list of two awaiters, `0` before `1`. -/
def pair : Nat → Option Nat :=
  fun awaiter => if awaiter = 0 then some 1 else none

/-- With each resume after its read, both awaiters are spawned. -/
theorem traversal_pair :
    ((machine pair (some 0)).run
      [.spawn, .readNext, .resume 0 (some 2), .spawn, .readNext, .resume 1 none]).map
        State.spawned = some [0, 1] ∧
      (machine pair (some 0)).Always (Exact [0, 1])
        [.spawn, .readNext, .resume 0 (some 2), .spawn, .readNext, .resume 1 none] := by
  have hcaptured : Linked pair (some 0) [0, 1] := ⟨rfl, rfl, rfl⟩
  exact ⟨rfl, (traversal_exact_iff hcaptured rfl).1 (by decide)⟩

/-- A worker resumes the first awaiter before the loop reads its `next`: the loop reads the dead
field, spawns an awaiter that was never captured, and never reaches the second one. -/
theorem early_resume_walks_astray :
    ((machine pair (some 0)).run [.spawn, .resume 0 (some 2), .readNext, .spawn, .readNext]).map
        (fun state => (state.staleRead, state.spawned, state.loop)) =
          some (true, [0, 2], .testing none) ∧
      Linked pair (some 0) [0, 1] ∧
      ¬ (machine pair (some 0)).Always (Exact [0, 1])
        [.spawn, .resume 0 (some 2), .readNext, .spawn, .readNext] := by
  refine ⟨rfl, ⟨rfl, rfl, rfl⟩, ?_⟩
  intro halways
  obtain ⟨hfresh, _⟩ := halways _ _ (List.prefix_refl _) rfl
  cases hfresh

end Traversal

end Toad
