import Mathlib.Data.Fintype.Basic
import Toad.Concurrency.Notify
import Toad.Execution.Refinement

/-!
# A `Notify` is an atomic stack

Seen from outside, a `Notify` is a stack of awaiters with three operations that take no time: push
an awaiter, take the whole stack away, and wake the next awaiter of what was taken. The code
reaches the same effect without a lock, by a compare-exchange that may fail and be retried and by
loads that may be out of date when they are used. `notify_refines_stack` places the operations: a
push happens at the compare-exchange that succeeds, a take at the exchange, and a wake at the
spawn.

The loop of `notify_all` reads `current->next` after it has spawned `current->continuation`, and
the workers resume what has been spawned: the spawn, the read, and the resumption are steps of
their own here, and a resumed awaiter leaves anything in its `next` field. The stack explains the
runs in which no awaiter is resumed between the two steps of the loop, the condition of
`Toad.Traversal`.
-/

namespace Toad

namespace AwaiterStack

open Execution

/-! ## The abstract stack -/

/-- The stack, newest awaiter first, and what is left of what each call has taken. -/
structure Stack (A K : Type) where
  stack : List A := []
  taken : K → List A := fun _ => []

/-- The operations. -/
inductive Event (A K : Type) where
  | push (awaiter : A)
  | take (call : K)
  | wake (call : K) (awaiter : A)
  deriving DecidableEq, Repr

variable {A K : Type} [DecidableEq A] [DecidableEq K]

/-- The effect of an operation. Only the first awaiter of what a call has taken can be woken. -/
def step (stack : Stack A K) : Event A K → Option (Stack A K)
  | .push awaiter => some { stack with stack := awaiter :: stack.stack }
  | .take call =>
      some { stack := [], taken := Function.update stack.taken call stack.stack }
  | .wake call awaiter =>
      match stack.taken call with
      | [] => none
      | first :: rest =>
          if first = awaiter then
            some { stack with taken := Function.update stack.taken call rest }
          else none

/-- The abstract machine. -/
def atomic (A K : Type) [DecidableEq A] [DecidableEq K] : Machine (Stack A K) (Event A K) where
  init := {}
  next := step

/-- An awaiter on the stack, or taken and not woken yet. -/
def Stack.Holds (stack : Stack A K) (awaiter : A) : Prop :=
  awaiter ∈ stack.stack ∨ ∃ call, awaiter ∈ stack.taken call

/-- No awaiter is on two of the lists. -/
structure Stack.Apart (stack : Stack A K) : Prop where
  untaken : ∀ awaiter ∈ stack.stack, ∀ call, awaiter ∉ stack.taken call
  once : ∀ call other, call ≠ other → ∀ awaiter ∈ stack.taken call, awaiter ∉ stack.taken other

omit [DecidableEq A] [DecidableEq K] in
/-- Pushing an awaiter that is nowhere yet. -/
theorem Stack.Apart.push {stack : Stack A K} (h : stack.Apart) {awaiter : A}
    (hnew : ¬ stack.Holds awaiter) :
    Stack.Apart { stack with stack := awaiter :: stack.stack } where
  untaken := by
    intro other hmem call hother
    rcases List.mem_cons.mp hmem with rfl | hmem
    · exact hnew (Or.inr ⟨call, hother⟩)
    · exact h.untaken other hmem call hother
  once := h.once

omit [DecidableEq A] in
/-- What a call has after one of them has taken the stack. -/
theorem mem_taken {stack : Stack A K} {call other : K} {awaiter : A}
    (hmem : awaiter ∈ Function.update stack.taken call stack.stack other) :
    (other = call ∧ awaiter ∈ stack.stack) ∨ (other ≠ call ∧ awaiter ∈ stack.taken other) := by
  by_cases heq : other = call
  · subst heq
    rw [Function.update_self] at hmem
    exact Or.inl ⟨rfl, hmem⟩
  · rw [Function.update_of_ne heq] at hmem
    exact Or.inr ⟨heq, hmem⟩

omit [DecidableEq A] in
/-- Taking the stack. -/
theorem Stack.Apart.take {stack : Stack A K} (h : stack.Apart) (call : K) :
    Stack.Apart { stack := [], taken := Function.update stack.taken call stack.stack } where
  untaken := fun awaiter hmem => absurd hmem List.not_mem_nil
  once := by
    intro first second hne awaiter hfirst hsecond
    rcases mem_taken hfirst with ⟨rfl, hstack⟩ | ⟨_, hbefore⟩
    · rcases mem_taken hsecond with ⟨rfl, _⟩ | ⟨_, hother⟩
      · exact hne rfl
      · exact h.untaken awaiter hstack second hother
    · rcases mem_taken hsecond with ⟨rfl, hstack⟩ | ⟨_, hother⟩
      · exact h.untaken awaiter hstack first hbefore
      · exact h.once first second hne awaiter hbefore hother

omit [DecidableEq A] in
/-- What is left after a wake is a part of what was taken. -/
theorem mem_woken {stack : Stack A K} {call other : K} {awaiter found : A} {rest : List A}
    (htaken : stack.taken call = awaiter :: rest)
    (hmem : found ∈ Function.update stack.taken call rest other) : found ∈ stack.taken other := by
  by_cases heq : other = call
  · subst heq
    rw [Function.update_self] at hmem
    rw [htaken]
    exact List.mem_cons_of_mem awaiter hmem
  · rwa [Function.update_of_ne heq] at hmem

omit [DecidableEq A] in
/-- Waking the first awaiter. -/
theorem Stack.Apart.wake {stack : Stack A K} (h : stack.Apart) {call : K} {awaiter : A}
    {rest : List A} (htaken : stack.taken call = awaiter :: rest) :
    Stack.Apart { stack with taken := Function.update stack.taken call rest } where
  untaken := fun other hmem place hother => h.untaken other hmem place (mem_woken htaken hother)
  once := fun first second hne other hfirst hsecond =>
    h.once first second hne other (mem_woken htaken hfirst) (mem_woken htaken hsecond)

omit [DecidableEq A] in
/-- The awaiter that has been woken is nowhere else. -/
theorem Stack.Apart.holds_woken {stack : Stack A K} (h : stack.Apart) {call : K}
    {awaiter other : A} {rest : List A} (htaken : stack.taken call = awaiter :: rest)
    (hnodup : (awaiter :: rest).Nodup)
    (hholds : Stack.Holds { stack with taken := Function.update stack.taken call rest } other) :
    stack.Holds other ∧ other ≠ awaiter := by
  have hmem : awaiter ∈ stack.taken call := by simp [htaken]
  rcases hholds with hstack | ⟨place, hplace⟩
  · refine ⟨Or.inl hstack, ?_⟩
    rintro rfl
    exact h.untaken other hstack call hmem
  · have hbefore := mem_woken htaken hplace
    refine ⟨Or.inr ⟨place, hbefore⟩, ?_⟩
    rintro rfl
    by_cases heq : place = call
    · subst heq
      exact (List.nodup_cons.mp hnodup).1 (by simpa using hplace)
    · exact h.once place call heq other hbefore hmem

/-! ## The code -/

/-- A `Notify` whose loop takes two steps a turn: `reading` is the awaiter that a call has spawned
and whose `next` it has not read. `resumed` counts the resumptions by the workers. -/
structure State (A K : Type) where
  base : Notify.State A K := {}
  reading : K → Option A := fun _ => none
  resumed : A → Nat := fun _ => 0

/-- An access to the flag, to the head, or to the `next` field of an awaiter before it is pushed;
the two steps of a turn of the loop; and the resumption of a queued continuation by a worker,
which leaves any value in the `next` field. -/
inductive Action (A K : Type) where
  | access (action : Notify.Action A K)
  | spawn (call : K)
  | readNext (call : K)
  | resume (awaiter : A) (garbage : Option A)
  deriving DecidableEq, Repr

/-- One step. -/
def next (state : State A K) : Action A K → Option (State A K)
  | .access (.spawnNext _) => none
  | .access action =>
      (Notify.next state.base action).map fun base => { state with base := base }
  | .spawn call =>
      match state.base.notifier call, state.reading call with
      | .walking (some awaiter), none =>
          some { state with
            base := state.base.spawn awaiter
            reading := Function.update state.reading call (some awaiter) }
      | _, _ => none
  | .readNext call =>
      match state.reading call with
      | some awaiter =>
          some { state with
            base := state.base.moveNotifier call (.walking (state.base.notify.link awaiter))
            reading := Function.update state.reading call none }
      | none => none
  | .resume awaiter garbage =>
      -- a continuation runs once for each time it was queued
      if state.resumed awaiter < state.base.spawned awaiter then
        some { state with
          base := { state.base with notify := state.base.notify.setNext awaiter garbage }
          resumed := Function.update state.resumed awaiter (state.resumed awaiter + 1) }
      else none

/-- Awaiters `A`, `notify_all` calls `K`, and the workers. -/
def machine (A K : Type) [DecidableEq A] [DecidableEq K] : Machine (State A K) (Action A K) where
  init := {}
  next := next

/-- A worker resumes a coroutine only after the call that spawned it has read the `next` of its
awaiter. -/
def ResumesAfterRead (state : State A K) : Action A K → Prop
  | .resume awaiter _ => ∀ call, state.reading call ≠ some awaiter
  | .access _ | .spawn _ | .readNext _ => True

instance [Fintype K] (state : State A K) : ∀ action, Decidable (ResumesAfterRead state action)
  | .resume _ _ => inferInstanceAs (Decidable (∀ _, _))
  | .access _ | .spawn _ | .readNext _ => isTrue trivial

/-- Where the operations happen in the code. -/
def meaning (state : State A K) : Action A K → Option (Event A K)
  | .access (.compareExchange awaiter spurious) =>
      match state.base.awaiter awaiter with
      | .swapping old =>
          if state.base.notify.head = old ∧ spurious = false then some (.push awaiter) else none
      | _ => none
  | .access (.exchange call) => some (.take call)
  | .spawn call =>
      match state.base.notifier call with
      | .walking (some awaiter) => some (.wake call awaiter)
      | _ => none
  | .access (.awaitReady _) | .access (.loadHead _) | .access (.setNext _)
  | .access (.storeFired _) | .access (.spawnNext _) | .readNext _ | .resume _ _ => none

/-- The pointer at which a call goes on: `current`, or the `next` that it is about to read. -/
def State.ahead (state : State A K) (call : K) : Option A :=
  match state.reading call with
  | none => (state.base.notifier call).current
  | some awaiter => state.base.notify.link awaiter

/-- The chains of the code are the lists of the abstract state. An awaiter on one of them is
suspended and has not been spawned, and one that is being read has been. -/
structure Represents (state : State A K) (stack : Stack A K) : Prop where
  head : Linked state.base.notify.link state.base.notify.head stack.stack
  ahead : ∀ call, Linked state.base.notify.link (state.ahead call) (stack.taken call)
  apart : stack.Apart
  waiting : ∀ awaiter, stack.Holds awaiter →
    state.base.awaiter awaiter = .suspended ∧ state.base.spawned awaiter = 0
  reading : ∀ call awaiter, state.reading call = some awaiter →
    state.base.notifier call = .walking (some awaiter) ∧
      state.base.awaiter awaiter = .suspended
  unspawned : ∀ awaiter, state.base.awaiter awaiter ≠ .suspended →
    state.base.spawned awaiter = 0
  next_set : ∀ awaiter old, state.base.awaiter awaiter = .swapping old →
    state.base.notify.link awaiter = old

section Accesses

variable {state : State A K} {stack : Stack A K}

omit [DecidableEq K] in
/-- Writing the `next` field of an awaiter that nobody waits behind and nobody reads. -/
theorem Represents.set_next (h : Represents state stack) {awaiter : A} (value : Option A)
    (hfree : ¬ stack.Holds awaiter) (hunread : ∀ call, state.reading call ≠ some awaiter)
    (hunswapped : ∀ old, state.base.awaiter awaiter ≠ .swapping old) :
    Represents { state with
      base := { state.base with notify := state.base.notify.setNext awaiter value } } stack := by
  refine ⟨linked_update h.head fun hmem => hfree (Or.inl hmem), fun call => ?_, h.apart, h.waiting,
    h.reading, h.unspawned, fun other old hother => ?_⟩
  · have hahead : Linked (Function.update state.base.notify.link awaiter value) (state.ahead call)
        (stack.taken call) :=
      linked_update (h.ahead call) fun hmem => hfree (Or.inr ⟨call, hmem⟩)
    unfold State.ahead at hahead ⊢
    cases hreading : state.reading call with
    | none =>
        simp only [hreading] at hahead
        exact hahead
    | some current =>
        have hne : current ≠ awaiter := fun heq => hunread call (heq ▸ hreading)
        simp only [hreading] at hahead
        simp only [Notify.setNext, Function.update_of_ne hne]
        exact hahead
  · have hne : other ≠ awaiter := fun heq => hunswapped old (heq ▸ hother)
    exact (Function.update_of_ne hne ..).trans (h.next_set other old hother)

omit [DecidableEq K] in
/-- An awaiter that has not suspended may move, as long as it has stored its `next` before it
swaps. -/
theorem Represents.move (h : Represents state stack) {awaiter : A} (place : Notify.Awaiter A)
    (hbefore : state.base.awaiter awaiter ≠ .suspended)
    (hnext : ∀ old, place = .swapping old → state.base.notify.link awaiter = old) :
    Represents { state with base := state.base.moveAwaiter awaiter place } stack := by
  have hmoved : (state.base.moveAwaiter awaiter place).awaiter awaiter = place :=
    Function.update_self ..
  have hother : ∀ other, other ≠ awaiter →
      (state.base.moveAwaiter awaiter place).awaiter other = state.base.awaiter other :=
    fun other hne => Function.update_of_ne hne ..
  have hkept : ∀ other, state.base.awaiter other = .suspended →
      (state.base.moveAwaiter awaiter place).awaiter other = .suspended := by
    intro other hsuspended
    have hne : other ≠ awaiter := fun heq => hbefore (heq ▸ hsuspended)
    exact (hother other hne).trans hsuspended
  refine ⟨h.head, h.ahead, h.apart, fun other hholds => ?_, fun call other hreading => ?_,
    fun other hplace => ?_, fun other old hplace => ?_⟩
  · obtain ⟨hsuspended, hspawned⟩ := h.waiting other hholds
    exact ⟨hkept other hsuspended, hspawned⟩
  · obtain ⟨hwalking, hsuspended⟩ := h.reading call other hreading
    exact ⟨hwalking, hkept other hsuspended⟩
  · exact h.unspawned other fun hsuspended => hplace (hkept other hsuspended)
  · by_cases heq : other = awaiter
    · subst heq
      exact hnext old (hmoved.symm.trans hplace)
    · exact h.next_set other old ((hother other heq).symm.trans hplace)

omit [DecidableEq A] [DecidableEq K] in
/-- An awaiter that has not suspended is on no list, and no call reads its `next`. -/
theorem Represents.unsuspended (h : Represents state stack) {awaiter : A}
    (hbefore : state.base.awaiter awaiter ≠ .suspended) :
    ¬ stack.Holds awaiter ∧ ∀ call, state.reading call ≠ some awaiter :=
  ⟨fun hholds => hbefore (h.waiting awaiter hholds).1,
    fun call hreading => hbefore (h.reading call awaiter hreading).2⟩

omit [DecidableEq K] in
/-- Storing `next` in front of the compare-exchange. -/
theorem Represents.link (h : Represents state stack) {awaiter : A} {old : Option A}
    (hplace : state.base.awaiter awaiter = .linking old) :
    Represents { state with
      base := { state.base with
        notify := state.base.notify.setNext awaiter old }.moveAwaiter awaiter (.swapping old) }
      stack := by
  have hbefore : state.base.awaiter awaiter ≠ .suspended := by simp [hplace]
  obtain ⟨hfree, hunread⟩ := h.unsuspended hbefore
  have hstored := h.set_next old hfree hunread (by simp [hplace])
  refine hstored.move (.swapping old) hbefore fun value hvalue => ?_
  cases hvalue
  exact Function.update_self ..

omit [DecidableEq K] in
/-- A successful compare-exchange pushes its awaiter. -/
theorem Represents.push (h : Represents state stack) {awaiter : A}
    (hplace : state.base.awaiter awaiter = .swapping state.base.notify.head) :
    Represents { state with
      base := { state.base with notify := state.base.notify.pushed awaiter }.moveAwaiter awaiter
        .suspended } { stack with stack := awaiter :: stack.stack } := by
  have hbefore : state.base.awaiter awaiter ≠ .suspended := by simp [hplace]
  obtain ⟨hfree, _⟩ := h.unsuspended hbefore
  have hkept : ∀ other, other = awaiter ∨ state.base.awaiter other = .suspended →
      Function.update state.base.awaiter awaiter .suspended other = .suspended := by
    intro other hother
    by_cases heq : other = awaiter
    · rw [heq, Function.update_self]
    · rw [Function.update_of_ne heq]
      exact hother.resolve_left heq
  refine ⟨⟨rfl, ?_⟩, h.ahead, h.apart.push hfree, fun other hholds => ?_,
    fun call other hreading => ?_, fun other hunsuspended => ?_, fun other old hswapping => ?_⟩
  · show Linked state.base.notify.link (state.base.notify.link awaiter) stack.stack
    rw [h.next_set awaiter _ hplace]
    exact h.head
  · rcases hholds with hmem | htaken
    · rcases List.mem_cons.mp hmem with rfl | hmem
      · exact ⟨hkept other (Or.inl rfl), h.unspawned other hbefore⟩
      · obtain ⟨hsuspended, hspawned⟩ := h.waiting other (Or.inl hmem)
        exact ⟨hkept other (Or.inr hsuspended), hspawned⟩
    · obtain ⟨hsuspended, hspawned⟩ := h.waiting other (Or.inr htaken)
      exact ⟨hkept other (Or.inr hsuspended), hspawned⟩
  · obtain ⟨hwalking, hsuspended⟩ := h.reading call other hreading
    exact ⟨hwalking, hkept other (Or.inr hsuspended)⟩
  · exact h.unspawned other fun hsuspended => hunsuspended (hkept other (Or.inr hsuspended))
  · have hne : other ≠ awaiter := by
      rintro rfl
      simp [Notify.State.moveAwaiter] at hswapping
    exact h.next_set other old (by simpa [Notify.State.moveAwaiter, hne] using hswapping)

omit [DecidableEq A] in
/-- A call moves to a place where it reads nothing. -/
theorem Represents.move_call (h : Represents state stack) {call : K} {place : Notify.Notifier A}
    {notify : Notify A} {after : Stack A K} (hreading : state.reading call = none)
    (hlink : notify.link = state.base.notify.link)
    (hhead : Linked notify.link notify.head after.stack)
    (hcurrent : Linked notify.link place.current (after.taken call))
    (hothers : ∀ other, other ≠ call → after.taken other = stack.taken other)
    (hapart : after.Apart) (hholds : ∀ awaiter, after.Holds awaiter → stack.Holds awaiter) :
    Represents { state with
      base := { state.base with notify := notify }.moveNotifier call place } after := by
  refine ⟨hhead, fun other => ?_, hapart, fun awaiter hmem => h.waiting awaiter (hholds _ hmem),
    fun other awaiter hother => ?_, h.unspawned, fun awaiter old hplace => ?_⟩
  · by_cases heq : other = call
    · subst heq
      simpa [State.ahead, hreading, Notify.State.moveNotifier] using hcurrent
    · have hahead := h.ahead other
      rw [← hothers other heq] at hahead
      simpa [State.ahead, Notify.State.moveNotifier, heq, hlink] using hahead
  · have hne : other ≠ call := by
      rintro rfl
      rw [hreading] at hother
      cases hother
    simpa [Notify.State.moveNotifier, hne] using h.reading other awaiter hother
  · show notify.link awaiter = old
    rw [hlink]
    exact h.next_set awaiter old hplace

omit [DecidableEq A] [DecidableEq K] in
/-- A call that has not reached its loop reads nothing. -/
theorem Represents.reading_none (h : Represents state stack) {call : K}
    (hplace : ∀ awaiter, state.base.notifier call ≠ .walking (some awaiter)) :
    state.reading call = none := by
  by_contra hreading
  obtain ⟨awaiter, hreading⟩ := Option.ne_none_iff_exists'.mp hreading
  exact hplace awaiter (h.reading call awaiter hreading).1

omit [DecidableEq A] in
/-- The exchange takes the stack. -/
theorem Represents.take (h : Represents state stack) {call : K}
    (hplace : state.base.notifier call = .exchanging) :
    Represents { state with
        base := { state.base with notify := state.base.notify.exchanged }.moveNotifier call
          (.walking state.base.notify.head) }
      { stack := [], taken := Function.update stack.taken call stack.stack } := by
  refine h.move_call (h.reading_none (by simp [hplace])) rfl rfl ?_
    (fun other hne => Function.update_of_ne hne ..) (h.apart.take call) ?_
  · show Linked state.base.notify.link state.base.notify.head
      (Function.update stack.taken call stack.stack call)
    rw [Function.update_self]
    exact h.head
  · rintro awaiter (hmem | ⟨other, hmem⟩)
    · exact absurd hmem List.not_mem_nil
    · rcases mem_taken hmem with ⟨_, hstack⟩ | ⟨_, htaken⟩
      · exact Or.inl hstack
      · exact Or.inr ⟨other, htaken⟩

/-- The spawn wakes the first awaiter of what the call has taken. -/
theorem Represents.wake (h : Represents state stack) {call : K} {awaiter : A}
    (hplace : state.base.notifier call = .walking (some awaiter))
    (hreading : state.reading call = none) :
    ∃ after, step stack (.wake call awaiter) = some after ∧
      Represents { state with
        base := state.base.spawn awaiter
        reading := Function.update state.reading call (some awaiter) } after := by
  have hcurrent := h.ahead call
  simp only [State.ahead, hreading, hplace, Notify.Notifier.current] at hcurrent
  obtain ⟨rest, hrest, htail⟩ := linked_some hcurrent
  have hsuspended := (h.waiting awaiter (Or.inr ⟨call, by simp [hrest]⟩)).1
  have hnodup : (awaiter :: rest).Nodup := hrest ▸ linked_nodup hcurrent
  refine ⟨{ stack with taken := Function.update stack.taken call rest },
    by simp only [step, hrest, if_true], ⟨h.head, fun other => ?_, h.apart.wake hrest,
      fun other hholds => ?_, fun other current hother => ?_, fun other hother => ?_, h.next_set⟩⟩
  · by_cases heq : other = call
    · subst heq
      simpa [State.ahead, Notify.State.spawn] using htail
    · simpa [State.ahead, Notify.State.spawn, heq] using h.ahead other
  · obtain ⟨hbefore, hne⟩ := h.apart.holds_woken hrest hnodup hholds
    simpa [Notify.State.spawn, hne] using h.waiting other hbefore
  · by_cases heq : other = call
    · subst heq
      obtain rfl : awaiter = current := by simpa using hother
      exact ⟨hplace, hsuspended⟩
    · exact h.reading other current (by simpa [heq] using hother)
  · have hne : other ≠ awaiter := by
      rintro rfl
      exact hother hsuspended
    simpa [Notify.State.spawn, hne] using h.unspawned other hother

omit [DecidableEq A] in
/-- The read of `next` takes a call to the pointer that it was ahead of. -/
theorem Represents.read (h : Represents state stack) {call : K} {awaiter : A}
    (hreading : state.reading call = some awaiter) :
    Represents { state with
      base := state.base.moveNotifier call (.walking (state.base.notify.link awaiter))
      reading := Function.update state.reading call none } stack := by
  refine ⟨h.head, fun other => ?_, h.apart, h.waiting, fun other current hother => ?_, h.unspawned,
    h.next_set⟩
  · have hahead := h.ahead other
    by_cases heq : other = call
    · subst heq
      simpa [State.ahead, hreading, Notify.State.moveNotifier, Notify.Notifier.current] using hahead
    · simpa [State.ahead, Notify.State.moveNotifier, heq] using hahead
  · have hne : other ≠ call := by
      rintro rfl
      simp at hother
    simpa [Notify.State.moveNotifier, hne] using
      h.reading other current (by simpa [hne] using hother)

omit [DecidableEq K] in
/-- A worker resumes an awaiter that no call is reading. -/
theorem Represents.resume (h : Represents state stack) {awaiter : A} (garbage : Option A)
    (hspawned : state.resumed awaiter < state.base.spawned awaiter)
    (hunread : ∀ call, state.reading call ≠ some awaiter) :
    Represents { state with
      base := { state.base with notify := state.base.notify.setNext awaiter garbage }
      resumed := Function.update state.resumed awaiter (state.resumed awaiter + 1) } stack := by
  have hpositive : state.base.spawned awaiter ≠ 0 := by omega
  have hfree : ¬ stack.Holds awaiter := fun hholds => hpositive (h.waiting awaiter hholds).2
  have hunswapped : ∀ old, state.base.awaiter awaiter ≠ .swapping old :=
    fun old hplace => hpositive (h.unspawned awaiter (by simp [hplace]))
  exact { h.set_next garbage hfree hunread hunswapped with }

/-- Every access is one of the operations or has no effect that anyone could see. -/
theorem Represents.access (h : Represents state stack) {action : Notify.Action A K}
    {base : Notify.State A K} (hloop : ∀ call, action ≠ .spawnNext call)
    (hnext : Notify.next state.base action = some base) :
    ∃ after, (atomic A K).runFrom stack (meaning state (.access action)).toList = some after ∧
      Represents { state with base := base } after := by
  cases Notify.next_step hnext with
  | pass awaiter hplace =>
      exact Machine.stutters rfl (h.move .passed (by simp [hplace]) (by simp))
  | enter awaiter hplace =>
      exact Machine.stutters rfl (h.move .loading (by simp [hplace]) (by simp))
  | load awaiter hplace =>
      exact Machine.stutters rfl (h.move (.linking _) (by simp [hplace]) (by simp))
  | link awaiter old hplace => exact Machine.stutters rfl (h.link hplace)
  | push awaiter hplace =>
      have hmeaning : meaning state (.access (.compareExchange awaiter false)) =
          some (.push awaiter) := by
        simp [meaning, hplace]
      exact Machine.matches_step (A := atomic A K) hmeaning rfl (h.push hplace)
  | retry awaiter spurious old hplace hfail =>
      refine Machine.stutters ?_ (h.move (.linking _) (by simp [hplace]) (by simp))
      simp only [meaning, hplace, if_neg hfail]
  | fire call hplace =>
      have hcurrent := h.ahead call
      have hreading : state.reading call = none := h.reading_none (by simp [hplace])
      simp only [State.ahead, hreading, hplace] at hcurrent
      exact Machine.stutters rfl (h.move_call hreading rfl h.head hcurrent (fun _ _ => rfl) h.apart
        (fun _ hholds => hholds))
  | capture call hplace => exact Machine.matches_step (A := atomic A K) rfl rfl (h.take hplace)
  | spawn call => exact absurd rfl (hloop call)

end Accesses

/-- Every step that resumes nobody too early is one of the operations or has no effect that anyone
could see. -/
theorem Represents.step {state following : State A K} {stack : Stack A K} {action : Action A K}
    (h : Represents state stack) (hguard : ResumesAfterRead state action)
    (hnext : next state action = some following) :
    ∃ after, (atomic A K).runFrom stack (meaning state action).toList = some after ∧
      Represents following after := by
  cases action with
  | access action =>
      have hloop : ∀ call, action ≠ .spawnNext call := by
        rintro call rfl
        cases hnext
      obtain ⟨base, hbase, rfl⟩ : ∃ base, Notify.next state.base action = some base ∧
          { state with base := base } = following := by
        cases action with
        | spawnNext call => exact absurd rfl (hloop call)
        | awaitReady | loadHead | setNext | compareExchange | storeFired | exchange =>
            exact Option.map_eq_some_iff.mp hnext
      exact h.access hloop hbase
  | spawn call =>
      simp only [next] at hnext
      split at hnext
      · rename_i awaiter hplace hreading
        obtain rfl := Option.some.inj hnext
        obtain ⟨after, hafter, hrepresents⟩ := h.wake hplace hreading
        have hmeaning : meaning state (.spawn call) = some (.wake call awaiter) := by
          simp only [meaning, hplace]
        exact Machine.matches_step (A := atomic A K) hmeaning hafter hrepresents
      · cases hnext
  | readNext call =>
      simp only [next] at hnext
      split at hnext
      · rename_i awaiter hreading
        obtain rfl := Option.some.inj hnext
        exact Machine.stutters rfl (h.read hreading)
      · cases hnext
  | resume awaiter garbage =>
      simp only [next, Option.ite_none_right_eq_some, Option.some.injEq] at hnext
      obtain ⟨hspawned, rfl⟩ := hnext
      exact Machine.stutters rfl (h.resume garbage hspawned hguard)

theorem represents_init : Represents (machine A K).init (atomic A K).init := by
  refine ⟨rfl, fun _ => rfl, ⟨fun _ hmem => absurd hmem List.not_mem_nil, ?_⟩, ?_, ?_,
    fun _ _ => rfl, ?_⟩
  · exact fun _ _ _ _ hmem => absurd hmem List.not_mem_nil
  · rintro awaiter (hmem | ⟨call, hmem⟩)
    · exact absurd hmem List.not_mem_nil
    · exact absurd hmem List.not_mem_nil
  · exact fun call awaiter hreading => nomatch hreading
  · exact fun awaiter old hplace => nomatch hplace

/-- Every run of awaiters and `notify_all` calls on a `Notify`, however their atomic accesses
interleave, however often a compare-exchange fails, and whatever a resumed coroutine leaves in the
memory of its awaiter, is explained by a run of the atomic stack that takes the observed operations
in their order, and ends in the state it represents: as long as no coroutine is resumed between the
spawn of its continuation and the read of its `next`. -/
theorem notify_refines_stack {schedule : List (Action A K)} {state : State A K}
    (h : (machine A K).run schedule = some state)
    (hguard : (machine A K).Guarded ResumesAfterRead schedule) :
    ∃ stack, (atomic A K).run ((machine A K).observed meaning schedule) = some stack ∧
      Represents state stack :=
  Machine.guarded_refines represents_init
    (fun _ _ _ _ hrepresents hguard hnext => hrepresents.step hguard hnext) h hguard

/-- Two awaiters load the same head; the second has to try again, and a call wakes it first. It is
resumed before the call comes to the other one. -/
def racingPushes : List (Action Bool Unit) :=
  [.access (.awaitReady false), .access (.awaitReady true), .access (.loadHead false),
    .access (.loadHead true), .access (.setNext false), .access (.setNext true),
    .access (.compareExchange false false), .access (.compareExchange true false),
    .access (.setNext true), .access (.compareExchange true false), .access (.storeFired ()),
    .access (.exchange ()), .spawn (), .readNext (), .resume true none, .spawn ()]

/-- What is observed of the race. -/
theorem notify_refines_stack_racing :
    (machine Bool Unit).observed meaning racingPushes =
        [.push false, .push true, .take (), .wake () true, .wake () false] ∧
      ∃ state stack, (machine Bool Unit).run racingPushes = some state ∧
        (atomic Bool Unit).run ((machine Bool Unit).observed meaning racingPushes) =
          some stack ∧ Represents state stack := by
  refine ⟨rfl, ?_⟩
  obtain ⟨stack, hstack, hrepresents⟩ := notify_refines_stack
    (show (machine Bool Unit).run racingPushes = some _ from rfl) (by decide)
  exact ⟨_, stack, rfl, hstack, hrepresents⟩

/-- Resumed between the two steps, the first awaiter sends the call back to itself, and the stack
has no run in which it is woken twice. -/
example :
    let resumedEarly : List (Action Bool Unit) :=
      racingPushes.take 12 ++ [.spawn (), .resume true (some true), .readNext (), .spawn ()]
    ((machine Bool Unit).run resumedEarly).isSome ∧
      (atomic Bool Unit).run ((machine Bool Unit).observed meaning resumedEarly) = none :=
  ⟨rfl, rfl⟩

end AwaiterStack

end Toad
