import Mathlib.Data.List.Nodup
import Toad.Execution.Machine
import Toad.Execution.Linked

/-!
# One-shot notifications

`concurrency/notify.hpp`. A `Notify` is a flag and a lock-free stack of awaiters. An awaiter
first loads the flag; if it is clear, it pushes itself with a load and a compare-exchange
loop. `notify_all` stores the flag, exchanges the stack for the null pointer, and spawns
what it captured. Flag and stack are two separate atomics, and the awaiter does not look at
the flag again: an awaiter that pushes itself after the exchange is never spawned.
`all_woken_iff` says that nothing else can go wrong, for any number of awaiters and any
sequentially consistent interleaving.
-/

namespace Toad

open Execution

/-- `Notify`, together with the `next` fields of the awaiters, which are nodes of its stack. -/
structure Notify (A : Type) where
  head : Option A := none
  fired : Bool := false
  link : A → Option A := fun _ => none

namespace Notify

variable {A K : Type} [DecidableEq A] [DecidableEq K]

/-- `fired_.store(true)`. -/
def storeFired (notify : Notify A) : Notify A :=
  { notify with fired := true }

/-- What `head_.exchange(nullptr)` leaves behind; it returns the old head. -/
def exchanged (notify : Notify A) : Notify A :=
  { notify with head := none }

/-- `awaiter->next = old_head`. -/
def setNext (notify : Notify A) (awaiter : A) (old : Option A) : Notify A :=
  { notify with link := Function.update notify.link awaiter old }

/-- A successful compare-exchange of the head. -/
def pushed (notify : Notify A) (awaiter : A) : Notify A :=
  { notify with head := some awaiter }

/-- Where an awaiter stands: in `await_ready`, past it, or in `push_awaiter_` before the load,
before the store of `next`, before the compare-exchange, or done. -/
inductive Awaiter (A : Type) where
  | start
  | passed
  | loading
  | linking (old : Option A)
  | swapping (old : Option A)
  | suspended
  deriving DecidableEq, Repr

/-- Where a `notify_all` call stands: before the store, before the exchange, or in the loop with
its variable `current`. -/
inductive Notifier (A : Type) where
  | idle
  | exchanging
  | walking (current : Option A)
  deriving DecidableEq, Repr

/-- The variable `current` of the loop, null before it. -/
def Notifier.current : Notifier A → Option A
  | .idle | .exchanging => none
  | .walking current => current

/-- Awaiters `A`, `notify_all` calls `K`, and how often each continuation was spawned. -/
structure State (A K : Type) where
  notify : Notify A := {}
  awaiter : A → Awaiter A := fun _ => .start
  notifier : K → Notifier A := fun _ => .idle
  spawned : A → Nat := fun _ => 0

/-- The atomic steps. A weak compare-exchange may fail spuriously. -/
inductive Action (A K : Type) where
  | awaitReady (awaiter : A)
  | loadHead (awaiter : A)
  | setNext (awaiter : A)
  | compareExchange (awaiter : A) (spurious : Bool)
  | storeFired (call : K)
  | exchange (call : K)
  | spawnNext (call : K)
  deriving DecidableEq, Repr

/-- Move one awaiter. -/
def State.moveAwaiter (state : State A K) (awaiter : A) (place : Awaiter A) : State A K :=
  { state with awaiter := Function.update state.awaiter awaiter place }

/-- Move one `notify_all` call. -/
def State.moveNotifier (state : State A K) (call : K) (place : Notifier A) : State A K :=
  { state with notifier := Function.update state.notifier call place }

omit [DecidableEq A] in
/-- The call moved to is where it was moved. -/
@[simp] theorem move_notifier_self (state : State A K) (call : K) (place : Notifier A) :
    (state.moveNotifier call place).notifier call = place :=
  Function.update_self ..

/-- Count a spawn of the awaiter's continuation. -/
def State.spawn (state : State A K) (awaiter : A) : State A K :=
  { state with spawned := Function.update state.spawned awaiter (state.spawned awaiter + 1) }

/-- One atomic step of an awaiter or of a `notify_all` call. -/
def next (state : State A K) : Action A K → Option (State A K)
  | .awaitReady awaiter =>
      match state.awaiter awaiter with
      | .start =>
          if state.notify.fired then some (state.moveAwaiter awaiter .passed)
          else some (state.moveAwaiter awaiter .loading)
      | _ => none
  | .loadHead awaiter =>
      match state.awaiter awaiter with
      | .loading => some (state.moveAwaiter awaiter (.linking state.notify.head))
      | _ => none
  | .setNext awaiter =>
      match state.awaiter awaiter with
      | .linking old =>
          some ({ state with notify := state.notify.setNext awaiter old }.moveAwaiter awaiter
            (.swapping old))
      | _ => none
  | .compareExchange awaiter spurious =>
      match state.awaiter awaiter with
      | .swapping old =>
          if state.notify.head = old ∧ spurious = false then
            some ({ state with notify := state.notify.pushed awaiter }.moveAwaiter awaiter
              .suspended)
          else
            -- a failed exchange reloads `old_head`, and the loop stores `next` again
            some (state.moveAwaiter awaiter (.linking state.notify.head))
      | _ => none
  | .storeFired call =>
      match state.notifier call with
      | .idle =>
          some ({ state with notify := state.notify.storeFired }.moveNotifier call .exchanging)
      | _ => none
  | .exchange call =>
      match state.notifier call with
      | .exchanging =>
          some ({ state with notify := state.notify.exchanged }.moveNotifier call
            (.walking state.notify.head))
      | _ => none
  | .spawnNext call =>
      match state.notifier call with
      | .walking (some awaiter) =>
          some ((state.spawn awaiter).moveNotifier call (.walking (state.notify.link awaiter)))
      | _ => none

/-- Awaiters `A` and `notify_all` calls `K` on one `Notify`. -/
def machine (A K : Type) [DecidableEq A] [DecidableEq K] : Machine (State A K) (Action A K) where
  init := {}
  next := next

/-- The steps of the machine, one constructor for each branch of the source. -/
inductive Step (state : State A K) : Action A K → State A K → Prop where
  | pass (awaiter : A) (hplace : state.awaiter awaiter = .start)
      (hfired : state.notify.fired = true) :
      Step state (.awaitReady awaiter) (state.moveAwaiter awaiter .passed)
  | enter (awaiter : A) (hplace : state.awaiter awaiter = .start) :
      Step state (.awaitReady awaiter) (state.moveAwaiter awaiter .loading)
  | load (awaiter : A) (hplace : state.awaiter awaiter = .loading) :
      Step state (.loadHead awaiter)
        (state.moveAwaiter awaiter (.linking state.notify.head))
  | link (awaiter : A) (old : Option A) (hplace : state.awaiter awaiter = .linking old) :
      Step state (.setNext awaiter)
        ({ state with notify := state.notify.setNext awaiter old }.moveAwaiter awaiter
          (.swapping old))
  | push (awaiter : A) (hplace : state.awaiter awaiter = .swapping state.notify.head) :
      Step state (.compareExchange awaiter false)
        ({ state with notify := state.notify.pushed awaiter }.moveAwaiter awaiter .suspended)
  | retry (awaiter : A) (spurious : Bool) (old : Option A)
      (hplace : state.awaiter awaiter = .swapping old)
      (hfail : ¬ (state.notify.head = old ∧ spurious = false)) :
      Step state (.compareExchange awaiter spurious)
        (state.moveAwaiter awaiter (.linking state.notify.head))
  | fire (call : K) (hplace : state.notifier call = .idle) :
      Step state (.storeFired call)
        ({ state with notify := state.notify.storeFired }.moveNotifier call .exchanging)
  | capture (call : K) (hplace : state.notifier call = .exchanging) :
      Step state (.exchange call)
        ({ state with notify := state.notify.exchanged }.moveNotifier call
          (.walking state.notify.head))
  | spawn (call : K) (awaiter : A) (hplace : state.notifier call = .walking (some awaiter)) :
      Step state (.spawnNext call)
        ((state.spawn awaiter).moveNotifier call (.walking (state.notify.link awaiter)))

/-- Every transition of the machine is one of these steps. -/
theorem next_step {state following : State A K} {action : Action A K}
    (h : next state action = some following) : Step state action following := by
  cases action with
  | awaitReady awaiter =>
      simp only [next] at h
      split at h
      · rename_i hplace
        split at h
        · rename_i hfired
          cases h
          exact .pass awaiter hplace hfired
        · cases h
          exact .enter awaiter hplace
      · cases h
  | loadHead awaiter =>
      simp only [next] at h
      split at h
      · rename_i hplace
        cases h
        exact .load awaiter hplace
      · cases h
  | setNext awaiter =>
      simp only [next] at h
      split at h
      · rename_i old hplace
        cases h
        exact .link awaiter old hplace
      · cases h
  | compareExchange awaiter spurious =>
      simp only [next] at h
      split at h
      · rename_i old hplace
        split at h
        · rename_i hswap
          obtain ⟨rfl, rfl⟩ := hswap
          cases h
          exact .push awaiter hplace
        · rename_i hfail
          cases h
          exact .retry awaiter spurious old hplace hfail
      · cases h
  | storeFired call =>
      simp only [next] at h
      split at h
      · rename_i hplace
        cases h
        exact .fire call hplace
      · cases h
  | exchange call =>
      simp only [next] at h
      split at h
      · rename_i hplace
        cases h
        exact .capture call hplace
      · cases h
  | spawnNext call =>
      simp only [next] at h
      split at h
      · rename_i awaiter hplace
        cases h
        exact .spawn call awaiter hplace
      · cases h

/-! ## Before any call -/

/-- The `notify_all` call that takes the step; the other steps are those of awaiters. -/
def Action.call : Action A K → Option K
  | .awaitReady _ | .loadHead _ | .setNext _ | .compareExchange _ _ => none
  | .storeFired call | .exchange call | .spawnNext call => some call

/-- The step of an awaiter reads or modifies the `Notify`. Storing `next` does not: that field is in
the frame of the awaiting coroutine. -/
def Action.touchesNotify : Action A K → Bool
  | .awaitReady _ | .loadHead _ | .compareExchange _ _ => true
  | .setNext _ | .storeFired _ | .exchange _ | .spawnNext _ => false

/-- No `notify_all` call has taken a step, and so nobody has seen the flag or was spawned. -/
structure Silent (state : State A K) : Prop where
  clear : state.notify.fired = false
  not_passed : ∀ awaiter, state.awaiter awaiter ≠ .passed
  unspawned : ∀ awaiter, state.spawned awaiter = 0
  idle : ∀ call, state.notifier call = .idle

/-- Awaiters alone wake nobody. -/
theorem Silent.step {state following : State A K} {action : Action A K} (h : Silent state)
    (hcall : action.call = none) (hnext : next state action = some following) :
    Silent following := by
  obtain ⟨hclear, hpassed, hunspawned, hidle⟩ := h
  have hmoved : ∀ awaiter place, place ≠ .passed → ∀ other,
      (state.moveAwaiter awaiter place).awaiter other ≠ .passed := by
    intro awaiter place hplace other
    by_cases hother : other = awaiter
    · rw [hother]
      simpa [State.moveAwaiter] using hplace
    · simpa [State.moveAwaiter, Function.update_of_ne hother] using hpassed other
  cases next_step hnext with
  | pass awaiter hplace hfired => simp [hclear] at hfired
  | enter awaiter => exact ⟨hclear, hmoved awaiter _ (by simp), hunspawned, hidle⟩
  | load awaiter => exact ⟨hclear, hmoved awaiter _ (by simp), hunspawned, hidle⟩
  | link awaiter => exact ⟨hclear, hmoved awaiter _ (by simp), hunspawned, hidle⟩
  | push awaiter => exact ⟨hclear, hmoved awaiter _ (by simp), hunspawned, hidle⟩
  | retry awaiter => exact ⟨hclear, hmoved awaiter _ (by simp), hunspawned, hidle⟩
  | fire | capture | spawn => cases hcall

/-! ## One awaiter -/

/-- A suspended awaiter is on the stack, captured by a call, or spawned; before that it is nowhere
to be found. -/
structure Stacked (notify : State Unit K) : Prop where
  tracked : notify.awaiter () = .suspended →
    notify.notify.head = some () ∨ (∃ call, notify.notifier call = .walking (some ())) ∨
      0 < notify.spawned ()
  fresh : notify.awaiter () ≠ .suspended →
    notify.notify.head = none ∧ (∀ call, notify.notifier call ≠ .walking (some ())) ∧
      notify.spawned () = 0

omit [DecidableEq K] in
/-- Moving the awaiter before it suspends. -/
theorem Stacked.move {notify : State Unit K} (h : Stacked notify) {place : Awaiter Unit}
    (hbefore : notify.awaiter () ≠ .suspended) (hafter : place ≠ .suspended)
    {link : Unit → Option Unit} :
    Stacked ({ notify with
      notify := { notify.notify with link := link } }.moveAwaiter () place) where
  tracked := by
    intro hplace
    exact absurd hplace (by simpa [State.moveAwaiter] using hafter)
  fresh := fun _ => h.fresh hbefore

/-- Moving a call that has captured nothing yet: what it takes off the stack, it captures. -/
theorem Stacked.move_call {notify : State Unit K} (h : Stacked notify) {call : K}
    {place : Notifier Unit} {head : Option Unit} {fired : Bool}
    (hbefore : notify.notifier call ≠ .walking (some ()))
    (hkept : notify.notify.head = some () → head = some () ∨ place = .walking (some ()))
    (hempty : notify.notify.head = none → head = none ∧ place ≠ .walking (some ())) :
    Stacked ({ notify with
      notify := { notify.notify with head := head, fired := fired } }.moveNotifier call place) where
  tracked := by
    intro hsuspended
    rcases h.tracked hsuspended with hhead | ⟨other, hother⟩ | hspawned
    · rcases hkept hhead with hstays | rfl
      · exact Or.inl hstays
      · exact Or.inr (Or.inl ⟨call, move_notifier_self ..⟩)
    · have hne : other ≠ call := fun heq => hbefore (heq ▸ hother)
      exact Or.inr (Or.inl ⟨other, by simpa [State.moveNotifier, hne] using hother⟩)
    · exact Or.inr (Or.inr hspawned)
  fresh := by
    intro hawaiter
    obtain ⟨hhead, hwalking, hspawned⟩ := h.fresh hawaiter
    obtain ⟨hnone, hplace⟩ := hempty hhead
    refine ⟨hnone, fun other => ?_, hspawned⟩
    by_cases hsame : other = call
    · simpa [hsame] using hplace
    · simpa [State.moveNotifier, hsame] using hwalking other

/-- Every step keeps track of the awaiter. -/
theorem Stacked.step {notify after : State Unit K} {action : Action Unit K} (h : Stacked notify)
    (hnext : next notify action = some after) : Stacked after := by
  cases next_step hnext with
  | pass awaiter hplace | enter awaiter hplace | load awaiter hplace =>
      exact h.move (by simp [hplace]) (by simp)
  | link awaiter old hplace => exact h.move (by simp [hplace]) (by simp)
  | retry awaiter spurious old hplace => exact h.move (by simp [hplace]) (by simp)
  | push awaiter hplace =>
      refine ⟨fun _ => Or.inl rfl, fun hawaiter => ?_⟩
      simp [State.moveAwaiter] at hawaiter
  | fire call hplace =>
      exact h.move_call (by simp [hplace]) Or.inl (fun hhead => ⟨hhead, by simp⟩)
  | capture call hplace =>
      refine h.move_call (by simp [hplace]) (fun hhead => Or.inr (by rw [hhead])) ?_
      exact fun hhead => ⟨rfl, by simp [hhead]⟩
  | spawn call awaiter hplace =>
      have hsuspended : notify.awaiter () = .suspended := by
        by_contra hawaiter
        exact (h.fresh hawaiter).2.1 call hplace
      refine ⟨fun _ => Or.inr (Or.inr ?_), fun hawaiter => absurd hsuspended hawaiter⟩
      simp [State.moveNotifier, State.spawn]

/-! ## One call of `notify_all` -/

/-- The invariant of a run with one `notify_all` call. `stacked` is the chain from `head_`,
`captured` what the loop has still to spawn. -/
structure Inv (state : State A Unit) (stacked captured : List A) : Prop where
  head_linked : Linked state.notify.link state.notify.head stacked
  current_linked : Linked state.notify.link (state.notifier ()).current captured
  nodup : (stacked ++ captured).Nodup
  waiting : ∀ awaiter ∈ stacked ++ captured,
    state.awaiter awaiter = .suspended ∧ state.spawned awaiter = 0
  woken : ∀ awaiter ∉ stacked ++ captured,
    state.awaiter awaiter = .suspended → state.spawned awaiter = 1
  unspawned : ∀ awaiter, state.awaiter awaiter ≠ .suspended → state.spawned awaiter = 0
  next_set : ∀ awaiter old, state.awaiter awaiter = .swapping old →
    state.notify.link awaiter = old
  passed_fired : ∀ awaiter, state.awaiter awaiter = .passed → state.notify.fired = true

/-- The call has exchanged the head. -/
def Exchanged (state : State A Unit) : Prop :=
  ∃ current, state.notifier () = .walking current

instance (state : State A Unit) : Decidable (Exchanged state) :=
  match h : state.notifier () with
  | .idle => isFalse (by simp [Exchanged, h])
  | .exchanging => isFalse (by simp [Exchanged, h])
  | .walking current => isTrue ⟨current, h⟩

/-- The step is a compare-exchange that succeeds. -/
def Pushes (state : State A K) : Action A K → Prop
  | .compareExchange awaiter false => state.awaiter awaiter = .swapping state.notify.head
  | _ => False

instance (state : State A K) (action : Action A K) : Decidable (Pushes state action) :=
  match action with
  | .compareExchange awaiter false =>
      inferInstanceAs (Decidable (state.awaiter awaiter = .swapping state.notify.head))
  | .compareExchange _ true => isFalse id
  | .awaitReady _ | .loadHead _ | .setNext _ => isFalse id
  | .storeFired _ | .exchange _ | .spawnNext _ => isFalse id

/-- The step does not push an awaiter after the exchange. -/
def PushesInTime (state : State A Unit) (action : Action A Unit) : Prop :=
  Pushes state action → ¬ Exchanged state

instance (state : State A Unit) (action : Action A Unit) :
    Decidable (PushesInTime state action) :=
  inferInstanceAs (Decidable (_ → _))

/-- Every awaiter passed `await_ready` on a set flag or was spawned exactly once, and none is
left on the stack once the flag is set. -/
def AllWoken (state : State A Unit) : Prop :=
  (∀ awaiter, (state.awaiter awaiter = .passed ∧ state.notify.fired = true) ∨
    state.spawned awaiter = 1) ∧
  (state.notify.fired = true → state.notify.head = none)

omit [DecidableEq A] in
/-- An awaiter that has not suspended is on neither chain. -/
theorem Inv.not_mem {state : State A Unit} {stacked captured : List A} {awaiter : A}
    (h : Inv state stacked captured) (hplace : state.awaiter awaiter ≠ .suspended) :
    awaiter ∉ stacked ++ captured :=
  fun hmem => hplace (h.waiting awaiter hmem).1

/-- Moving an awaiter around before it suspends keeps the invariant. -/
theorem Inv.move {state : State A Unit} {stacked captured : List A}
    (h : Inv state stacked captured) (awaiter : A) (place : Awaiter A)
    (hbefore : state.awaiter awaiter ≠ .suspended) (hafter : place ≠ .suspended)
    (hnext : ∀ old, place = .swapping old → state.notify.link awaiter = old)
    (hfired : place = .passed → state.notify.fired = true) :
    Inv (state.moveAwaiter awaiter place) stacked captured := by
  have hmoved : (state.moveAwaiter awaiter place).awaiter awaiter = place :=
    Function.update_self ..
  have hother : ∀ other, other ≠ awaiter →
      (state.moveAwaiter awaiter place).awaiter other = state.awaiter other :=
    fun other hne => Function.update_of_ne hne ..
  refine ⟨h.head_linked, h.current_linked, h.nodup, ?_, ?_, ?_, ?_, ?_⟩
  · intro other hmem
    have hne : other ≠ awaiter := fun heq => h.not_mem hbefore (heq ▸ hmem)
    rw [hother other hne]
    exact h.waiting other hmem
  · intro other hmem hplace
    by_cases heq : other = awaiter
    · subst heq
      exact absurd (hmoved.symm.trans hplace) hafter
    · rw [hother other heq] at hplace
      exact h.woken other hmem hplace
  · intro other hplace
    by_cases heq : other = awaiter
    · subst heq
      exact h.unspawned other hbefore
    · rw [hother other heq] at hplace
      exact h.unspawned other hplace
  · intro other old hplace
    by_cases heq : other = awaiter
    · subst heq
      exact hnext old (hmoved.symm.trans hplace)
    · rw [hother other heq] at hplace
      exact h.next_set other old hplace
  · intro other hplace
    by_cases heq : other = awaiter
    · subst heq
      exact hfired (hmoved.symm.trans hplace)
    · rw [hother other heq] at hplace
      exact h.passed_fired other hplace

/-- Storing the `next` field of an awaiter that has not suspended keeps both chains. -/
theorem Inv.link {state : State A Unit} {stacked captured : List A} {awaiter : A}
    {old : Option A} (h : Inv state stacked captured)
    (hplace : state.awaiter awaiter = .linking old) :
    Inv ({ state with notify := state.notify.setNext awaiter old }.moveAwaiter awaiter
      (.swapping old)) stacked captured := by
  have hbefore : state.awaiter awaiter ≠ .suspended := by simp [hplace]
  have houtside := h.not_mem hbefore
  rw [List.mem_append, not_or] at houtside
  -- the intermediate state, with the field stored and the awaiter not yet moved
  have hstored :
      Inv { state with notify := state.notify.setNext awaiter old } stacked captured := by
    refine ⟨linked_update h.head_linked houtside.1, linked_update h.current_linked houtside.2,
      h.nodup, h.waiting, h.woken, h.unspawned, ?_, h.passed_fired⟩
    intro other value hother
    have hne : other ≠ awaiter := by
      rintro rfl
      rw [hplace] at hother
      cases hother
    show Function.update state.notify.link awaiter old other = value
    rw [Function.update_of_ne hne]
    exact h.next_set other value hother
  refine hstored.move awaiter (.swapping old) hbefore (by simp) ?_ (by simp)
  intro value hvalue
  cases hvalue
  exact Function.update_self ..

/-- A successful compare-exchange puts the awaiter on top of the stack. -/
theorem Inv.push {state : State A Unit} {stacked captured : List A} {awaiter : A}
    (h : Inv state stacked captured)
    (hplace : state.awaiter awaiter = .swapping state.notify.head) :
    Inv ({ state with notify := state.notify.pushed awaiter }.moveAwaiter awaiter .suspended)
      (awaiter :: stacked) captured := by
  have hbefore : state.awaiter awaiter ≠ .suspended := by simp [hplace]
  have houtside := h.not_mem hbefore
  have hother : ∀ other, other ≠ awaiter →
      Function.update state.awaiter awaiter .suspended other = state.awaiter other :=
    fun other hne => Function.update_of_ne hne ..
  refine ⟨⟨rfl, ?_⟩, h.current_linked, List.nodup_cons.mpr ⟨houtside, h.nodup⟩,
    ?_, ?_, ?_, ?_, ?_⟩
  · show Linked state.notify.link (state.notify.link awaiter) stacked
    rw [h.next_set awaiter _ hplace]
    exact h.head_linked
  · intro other hmem
    rw [List.cons_append, List.mem_cons] at hmem
    by_cases heq : other = awaiter
    · subst heq
      exact ⟨Function.update_self .., h.unspawned other hbefore⟩
    · refine ⟨(hother other heq).trans ?_, ?_⟩
      · exact (h.waiting other (hmem.resolve_left heq)).1
      · exact (h.waiting other (hmem.resolve_left heq)).2
  · intro other hmem hsuspended
    rw [List.cons_append, List.mem_cons, not_or] at hmem
    exact h.woken other hmem.2 ((hother other hmem.1).symm.trans hsuspended)
  · intro other hnot
    have hne : other ≠ awaiter := by
      rintro rfl
      exact hnot (Function.update_self ..)
    exact h.unspawned other (fun heq => hnot ((hother other hne).trans heq))
  · intro other old hswapping
    have hne : other ≠ awaiter := by
      rintro rfl
      exact absurd ((Function.update_self ..).symm.trans hswapping) (by simp)
    exact h.next_set other old ((hother other hne).symm.trans hswapping)
  · intro other hpassed
    have hne : other ≠ awaiter := by
      rintro rfl
      exact absurd ((Function.update_self ..).symm.trans hpassed) (by simp)
    exact h.passed_fired other ((hother other hne).symm.trans hpassed)

omit [DecidableEq A] in
/-- Storing the flag changes neither chain. -/
theorem Inv.fire {state : State A Unit} {stacked captured : List A}
    (h : Inv state stacked captured) (hplace : state.notifier () = .idle) :
    Inv ({ state with notify := state.notify.storeFired }.moveNotifier () .exchanging)
      stacked captured := by
  have hcurrent := h.current_linked
  rw [hplace] at hcurrent
  exact ⟨h.head_linked, hcurrent, h.nodup, h.waiting, h.woken, h.unspawned, h.next_set,
    fun _ _ => rfl⟩

omit [DecidableEq A] in
/-- The exchange moves the whole stack to the loop. -/
theorem Inv.capture {state : State A Unit} {stacked captured : List A}
    (h : Inv state stacked captured) (hplace : state.notifier () = .exchanging) :
    Inv ({ state with notify := state.notify.exchanged }.moveNotifier ()
      (.walking state.notify.head)) [] stacked := by
  have hcurrent := h.current_linked
  rw [hplace] at hcurrent
  obtain rfl : captured = [] := linked_none_iff.mp hcurrent
  refine ⟨rfl, h.head_linked, ?_, ?_, ?_, h.unspawned, h.next_set, h.passed_fired⟩
  · simpa using h.nodup
  · intro other hmem
    exact h.waiting other (by simpa using hmem)
  · intro other hmem
    exact h.woken other (by simpa using hmem)

/-- One turn of the loop spawns the first captured awaiter. -/
theorem Inv.spawn {state : State A Unit} {stacked captured : List A} {awaiter : A}
    (h : Inv state stacked captured) (hplace : state.notifier () = .walking (some awaiter)) :
    ∃ rest, captured = awaiter :: rest ∧
      Inv ((state.spawn awaiter).moveNotifier () (.walking (state.notify.link awaiter)))
        stacked rest := by
  have hcurrent := h.current_linked
  rw [hplace] at hcurrent
  obtain ⟨rest, rfl, hrest⟩ := linked_some hcurrent
  have hfirst : awaiter ∈ stacked ++ awaiter :: rest := by simp
  have hnodup := h.nodup
  rw [List.nodup_middle, List.nodup_cons] at hnodup
  have hcount : ∀ other, other ≠ awaiter →
      Function.update state.spawned awaiter (state.spawned awaiter + 1) other =
        state.spawned other :=
    fun other hne => Function.update_of_ne hne ..
  refine ⟨rest, rfl, h.head_linked, hrest, hnodup.2, ?_, ?_, ?_, h.next_set, h.passed_fired⟩
  · intro other hmem
    have hne : other ≠ awaiter := fun heq => hnodup.1 (heq ▸ hmem)
    have hold := h.waiting other (by
      rw [List.mem_append] at hmem ⊢
      exact hmem.imp_right (List.mem_cons_of_mem _))
    exact ⟨hold.1, (hcount other hne).trans hold.2⟩
  · intro other hmem hsuspended
    by_cases heq : other = awaiter
    · subst heq
      show Function.update state.spawned other (state.spawned other + 1) other = 1
      rw [Function.update_self, (h.waiting other hfirst).2]
    · refine (hcount other heq).trans (h.woken other ?_ hsuspended)
      rw [List.mem_append] at hmem ⊢
      rintro (hmem' | hmem')
      · exact hmem (Or.inl hmem')
      · exact hmem (Or.inr ((List.mem_cons.mp hmem').resolve_left heq))
  · intro other hnot
    have hne : other ≠ awaiter := by
      rintro rfl
      exact hnot (h.waiting other hfirst).1
    exact (hcount other hne).trans (h.unspawned other hnot)

/-- What a step does to the stack: a push adds to it, the exchange empties it, and every other
step leaves it alone. -/
theorem Inv.step {state following : State A Unit} {action : Action A Unit}
    {stacked captured : List A} (h : Inv state stacked captured)
    (hstep : Step state action following) :
    ∃ stacked' captured', Inv following stacked' captured' ∧
      ((Pushes state action ∧ stacked' ≠ [] ∧ (Exchanged following ↔ Exchanged state)) ∨
        (¬ Pushes state action ∧ stacked' = stacked ∧
          (Exchanged following ↔ Exchanged state)) ∨
        (¬ Pushes state action ∧ stacked' = [] ∧ ¬ Exchanged state)) := by
  cases hstep with
  | pass awaiter hplace hfired =>
      have hmoved := h.move awaiter .passed (by simp [hplace]) (by simp) (by simp)
        (fun _ => hfired)
      exact ⟨_, _, hmoved, Or.inr (Or.inl ⟨id, rfl, Iff.rfl⟩)⟩
  | enter awaiter hplace =>
      have hmoved := h.move awaiter .loading (by simp [hplace]) (by simp) (by simp) (by simp)
      exact ⟨_, _, hmoved, Or.inr (Or.inl ⟨id, rfl, Iff.rfl⟩)⟩
  | load awaiter hplace =>
      have hmoved := h.move awaiter (.linking state.notify.head) (by simp [hplace]) (by simp)
        (by simp) (by simp)
      exact ⟨_, _, hmoved, Or.inr (Or.inl ⟨id, rfl, Iff.rfl⟩)⟩
  | link awaiter old hplace =>
      exact ⟨_, _, h.link hplace, Or.inr (Or.inl ⟨id, rfl, Iff.rfl⟩)⟩
  | push awaiter hplace =>
      exact ⟨_, _, h.push hplace, Or.inl ⟨hplace, by simp, Iff.rfl⟩⟩
  | retry awaiter spurious old hplace hfail =>
      have hmoved := h.move awaiter (.linking state.notify.head) (by simp [hplace]) (by simp)
        (by simp) (by simp)
      refine ⟨_, _, hmoved, Or.inr (Or.inl ⟨?_, rfl, Iff.rfl⟩)⟩
      intro hpush
      cases spurious with
      | true => exact hpush
      | false =>
          have hold : Awaiter.swapping old = .swapping state.notify.head := hplace.symm.trans hpush
          exact hfail ⟨(Awaiter.swapping.inj hold).symm, rfl⟩
  | fire call hplace =>
      refine ⟨_, _, h.fire hplace, Or.inr (Or.inl ⟨id, rfl, ?_⟩)⟩
      refine iff_of_false ?_ ?_
      · intro hexchanged
        obtain ⟨current, hcurrent⟩ := hexchanged
        rw [move_notifier_self] at hcurrent
        cases hcurrent
      · intro hexchanged
        obtain ⟨current, hcurrent⟩ := hexchanged
        exact absurd (hplace.symm.trans hcurrent) (by simp)
  | capture call hplace =>
      refine ⟨_, _, h.capture hplace, Or.inr (Or.inr ⟨id, rfl, ?_⟩)⟩
      intro hexchanged
      obtain ⟨current, hcurrent⟩ := hexchanged
      exact absurd (hplace.symm.trans hcurrent) (by simp)
  | spawn call awaiter hplace =>
      obtain ⟨rest, rfl, hspawned⟩ := h.spawn hplace
      refine ⟨_, _, hspawned, Or.inr (Or.inl ⟨id, rfl, ?_⟩)⟩
      exact iff_of_true ⟨_, move_notifier_self ..⟩ ⟨_, hplace⟩

/-- Every awaiter that suspended so far is woken or will be. -/
def Covered (state : State A Unit) : Prop :=
  ∃ stacked captured, Inv state stacked captured ∧ (Exchanged state → stacked = [])

/-- Some awaiter is stuck on the stack. -/
def Stranded (state : State A Unit) : Prop :=
  ∃ stacked captured, Inv state stacked captured ∧ Exchanged state ∧ stacked ≠ []

/-- A step that pushes in time keeps every awaiter covered. -/
theorem Covered.step {state following : State A Unit} {action : Action A Unit}
    (h : Covered state) (hguard : PushesInTime state action)
    (hnext : next state action = some following) : Covered following := by
  obtain ⟨stacked, captured, hinv, hempty⟩ := h
  obtain ⟨stacked', captured', hinv', heffect⟩ := hinv.step (next_step hnext)
  refine ⟨stacked', captured', hinv', fun hexchanged => ?_⟩
  rcases heffect with ⟨hpush, _, hiff⟩ | ⟨_, rfl, hiff⟩ | ⟨_, rfl, _⟩
  · exact absurd (hiff.mp hexchanged) (hguard hpush)
  · exact hempty (hiff.mp hexchanged)
  · rfl

/-- A late push strands its awaiter. -/
theorem Covered.late_push {state following : State A Unit} {action : Action A Unit}
    (h : Covered state) (hguard : ¬ PushesInTime state action)
    (hnext : next state action = some following) : Stranded following := by
  obtain ⟨stacked, captured, hinv, _⟩ := h
  obtain ⟨stacked', captured', hinv', heffect⟩ := hinv.step (next_step hnext)
  obtain ⟨hpush, hexchanged⟩ : Pushes state action ∧ Exchanged state := by
    simpa [PushesInTime] using hguard
  rcases heffect with ⟨_, hne, hiff⟩ | ⟨hnot, _⟩ | ⟨hnot, _⟩
  · exact ⟨stacked', captured', hinv', hiff.mpr hexchanged, hne⟩
  · exact absurd hpush hnot
  · exact absurd hpush hnot

/-- A stranded awaiter stays stranded. -/
theorem Stranded.step {state following : State A Unit} {action : Action A Unit}
    (h : Stranded state) (hnext : next state action = some following) : Stranded following := by
  obtain ⟨stacked, captured, hinv, hexchanged, hsome⟩ := h
  obtain ⟨stacked', captured', hinv', heffect⟩ := hinv.step (next_step hnext)
  refine ⟨stacked', captured', hinv', ?_⟩
  rcases heffect with ⟨_, hne, hiff⟩ | ⟨_, rfl, hiff⟩ | ⟨_, _, hnot⟩
  · exact ⟨hiff.mpr hexchanged, hne⟩
  · exact ⟨hiff.mpr hexchanged, hsome⟩
  · exact absurd hexchanged hnot

/-- In a final state the call is over and every awaiter has passed or suspended. -/
theorem halted_places {state : State A Unit} (hfinal : (machine A Unit).Halted state) :
    state.notifier () = .walking none ∧
      ∀ awaiter, state.awaiter awaiter = .passed ∨ state.awaiter awaiter = .suspended := by
  constructor
  · cases hplace : state.notifier () with
    | idle =>
        have hnone : next state (.storeFired ()) = none := hfinal (.storeFired ())
        simp [next, hplace] at hnone
    | exchanging =>
        have hnone : next state (.exchange ()) = none := hfinal (.exchange ())
        simp [next, hplace] at hnone
    | walking current =>
        cases current with
        | none => rfl
        | some awaiter =>
            have hnone : next state (.spawnNext ()) = none := hfinal (.spawnNext ())
            simp [next, hplace] at hnone
  · intro awaiter
    cases hplace : state.awaiter awaiter with
    | start =>
        have hnone : next state (.awaitReady awaiter) = none := hfinal (.awaitReady awaiter)
        simp only [next, hplace] at hnone
        split at hnone <;> cases hnone
    | passed => exact Or.inl rfl
    | loading =>
        have hnone : next state (.loadHead awaiter) = none := hfinal (.loadHead awaiter)
        simp [next, hplace] at hnone
    | linking old =>
        have hnone : next state (.setNext awaiter) = none := hfinal (.setNext awaiter)
        simp [next, hplace] at hnone
    | swapping old =>
        have hnone : next state (.compareExchange awaiter false) = none :=
          hfinal (.compareExchange awaiter false)
        simp only [next, hplace] at hnone
        split at hnone <;> cases hnone
    | suspended => exact Or.inr rfl

/-- A final state in which everybody is covered has woken everybody. -/
theorem Covered.all_woken {state : State A Unit} (h : Covered state)
    (hfinal : (machine A Unit).Halted state) : AllWoken state := by
  obtain ⟨stacked, captured, hinv, hempty⟩ := h
  obtain ⟨hover, hplaces⟩ := halted_places hfinal
  obtain rfl : stacked = [] := hempty ⟨none, hover⟩
  have hcurrent := hinv.current_linked
  rw [hover] at hcurrent
  obtain rfl : captured = [] := linked_none_iff.mp hcurrent
  refine ⟨fun awaiter => ?_, fun _ => hinv.head_linked⟩
  rcases hplaces awaiter with hpassed | hsuspended
  · exact Or.inl ⟨hpassed, hinv.passed_fired awaiter hpassed⟩
  · exact Or.inr (hinv.woken awaiter (by simp) hsuspended)

omit [DecidableEq A] in
/-- A stranded awaiter is neither spawned nor past `await_ready`. -/
theorem Stranded.not_all_woken {state : State A Unit} (h : Stranded state) :
    ¬ AllWoken state := by
  obtain ⟨stacked, captured, hinv, _, hsome⟩ := h
  intro hall
  obtain ⟨hwoken, _⟩ := hall
  obtain ⟨awaiter, rest, rfl⟩ := List.exists_cons_of_ne_nil hsome
  obtain ⟨hsuspended, hzero⟩ := hinv.waiting awaiter (by simp)
  rcases hwoken awaiter with ⟨hpassed, _⟩ | hone
  · exact absurd (hsuspended.symm.trans hpassed) (by simp)
  · omega

omit [DecidableEq A] in
/-- The empty `Notify` satisfies the invariant. -/
theorem inv_init : Inv ({} : State A Unit) [] [] :=
  ⟨rfl, rfl, List.nodup_nil, by simp, by simp, fun _ _ => rfl, by simp, by simp⟩

/-- In every final state of every interleaving of any number of awaiters with one `notify_all`
call, everybody has been woken exactly if no awaiter pushed itself after the exchange. -/
theorem all_woken_iff {schedule : List (Action A Unit)} {state : State A Unit}
    (hrun : (machine A Unit).run schedule = some state)
    (hfinal : (machine A Unit).Halted state) :
    AllWoken state ↔ (machine A Unit).Guarded PushesInTime schedule := by
  have hinit : Covered (machine A Unit).init := ⟨[], [], inv_init, fun _ => rfl⟩
  rcases Machine.guarded_or_lost (M := machine A Unit) (G := Covered) (L := Stranded) hinit
    (fun _ _ _ => Covered.step) (fun _ _ _ => Covered.late_push)
    (fun _ _ _ => Stranded.step) hrun with ⟨hguarded, hcovered⟩ | ⟨hbroken, hstranded⟩
  · exact iff_of_true (hcovered.all_woken hfinal) hguarded
  · exact iff_of_false hstranded.not_all_woken hbroken

/-- One awaiter that pushes before the exchange is spawned exactly once. -/
theorem all_woken_pushed_first :
    ∃ state, (machine Unit Unit).run
      [.awaitReady (), .loadHead (), .storeFired (), .setNext (), .compareExchange () false,
        .exchange (), .spawnNext ()] = some state ∧ AllWoken state := by
  refine ⟨_, rfl, (all_woken_iff (show (machine Unit Unit).run
    [.awaitReady (), .loadHead (), .storeFired (), .setNext (), .compareExchange () false,
      .exchange (), .spawnNext ()] = some _ from rfl) ?_).mpr (by decide)⟩
  intro action
  cases action <;> rfl

/-- An awaiter that loads the flag before the store and pushes itself after the exchange is left
on the stack: it is never spawned. -/
theorem late_push_lost :
    ∃ state, (machine Unit Unit).run
      [.awaitReady (), .storeFired (), .exchange (), .loadHead (), .setNext (),
        .compareExchange () false] = some state ∧ (machine Unit Unit).Halted state ∧
      state.notify.fired = true ∧ state.notify.head = some () ∧ state.spawned () = 0 ∧
      ¬ AllWoken state := by
  refine ⟨_, rfl, ?_, rfl, rfl, rfl, ?_⟩
  · intro action
    cases action <;> rfl
  · intro hall
    obtain ⟨_, hhead⟩ := hall
    exact absurd (hhead rfl) (by decide)

end Notify

end Toad
