import Toad.Concurrency.Notify

/-!
# The awaiter chains of a `Notify`

Any number of awaiters push themselves on the stack of one `Notify` while any number of
`notify_all` calls take the whole stack away. The machine is that of `Toad.Notify`, started
with every awaiter at the first step of `push_awaiter_`, whatever the flag says; each call
remembers the head that its exchange returned. The chain from `head_` and the chains from
the remembered heads never share, repeat or lose a node.
-/

namespace Toad

namespace NotifyChains

open Execution

variable {A K : Type} [DecidableEq A] [DecidableEq K]

/-- A state of the awaiters and calls, and the head that each call's exchange returned. -/
structure State (A K : Type) where
  base : Notify.State A K := { awaiter := fun _ => .loading }
  captured : K → Option (Option A) := fun _ => none

/-- Remember what the exchange of a call returns. -/
def record (state : State A K) : Notify.Action A K → K → Option (Option A)
  | .exchange call => Function.update state.captured call (some state.base.notify.head)
  | _ => state.captured

/-- One atomic step. -/
def next (state : State A K) (action : Notify.Action A K) : Option (State A K) :=
  (Notify.next state.base action).map fun following =>
    { base := following, captured := record state action }

/-- Pushing awaiters `A` and `notify_all` calls `K` on one `Notify`. -/
def machine (A K : Type) [DecidableEq A] [DecidableEq K] :
    Machine (State A K) (Notify.Action A K) where
  init := {}
  next := next

/-- The pointer that a chain starts from: `head_`, or what a call captured. A call that has not
exchanged the head yet has captured nothing. -/
def State.root (state : State A K) : Option K → Option A
  | none => state.base.notify.head
  | some call => (state.captured call).join

/-- Every chain is finite, and an awaiter stands on the chains exactly once if its
compare-exchange has succeeded, and not at all otherwise. -/
structure Partition (state : State A K) (chain : Option K → List A) : Prop where
  linked : ∀ place, Linked state.base.notify.link (state.root place) (chain place)
  nodup : ∀ place, (chain place).Nodup
  once : ∀ awaiter, state.base.awaiter awaiter = .suspended → ∃! place, awaiter ∈ chain place
  no_other : ∀ awaiter place, awaiter ∈ chain place → state.base.awaiter awaiter = .suspended

/-- The invariant: the partition, and what the pushes and calls under way rely on. -/
structure Inv (state : State A K) (chain : Option K → List A) : Prop extends
    Partition state chain where
  next_set : ∀ awaiter old, state.base.awaiter awaiter = .swapping old →
    state.base.notify.link awaiter = old
  not_captured : ∀ call, state.base.notifier call = .exchanging ∨
    state.base.notifier call = .idle → state.captured call = none

omit [DecidableEq K] in
/-- Moving an awaiter around before it suspends keeps every chain. -/
theorem Inv.move {state : State A K} {chain : Option K → List A} (h : Inv state chain)
    (awaiter : A) (place : Notify.Awaiter A)
    (hbefore : state.base.awaiter awaiter ≠ .suspended) (hafter : place ≠ .suspended)
    (hnext : ∀ old, place = .swapping old → state.base.notify.link awaiter = old) :
    Inv { state with base := state.base.moveAwaiter awaiter place } chain := by
  have hmoved : (state.base.moveAwaiter awaiter place).awaiter awaiter = place :=
    Function.update_self ..
  have hother : ∀ other, other ≠ awaiter →
      (state.base.moveAwaiter awaiter place).awaiter other = state.base.awaiter other :=
    fun other hne => Function.update_of_ne hne ..
  refine ⟨⟨h.linked, h.nodup, ?_, ?_⟩, ?_, h.not_captured⟩
  · intro other hsuspended
    by_cases heq : other = awaiter
    · subst heq
      exact absurd (hmoved.symm.trans hsuspended) hafter
    · exact h.once other ((hother other heq).symm.trans hsuspended)
  · intro other where' hmem
    have hsuspended := h.no_other other where' hmem
    have hne : other ≠ awaiter := fun heq => hbefore (heq ▸ hsuspended)
    exact (hother other hne).trans hsuspended
  · intro other old hswapping
    by_cases heq : other = awaiter
    · subst heq
      exact hnext old (hmoved.symm.trans hswapping)
    · exact h.next_set other old ((hother other heq).symm.trans hswapping)

omit [DecidableEq K] in
/-- Storing the `next` field of an awaiter that has not suspended keeps every chain: no chain
runs through it. -/
theorem Inv.link {state : State A K} {chain : Option K → List A} {awaiter : A}
    {old : Option A} (h : Inv state chain)
    (hplace : state.base.awaiter awaiter = .linking old) :
    Inv { state with base := { state.base with
      notify := state.base.notify.setNext awaiter old }.moveAwaiter awaiter (.swapping old) }
      chain := by
  have hbefore : state.base.awaiter awaiter ≠ .suspended := by simp [hplace]
  have hoffchain : ∀ place, awaiter ∉ chain place :=
    fun place hmem => hbefore (h.no_other awaiter place hmem)
  have hstored : Inv { state with base := { state.base with
      notify := state.base.notify.setNext awaiter old } } chain := by
    refine ⟨⟨?_, h.nodup, h.once, h.no_other⟩, ?_, h.not_captured⟩
    · intro place
      have hlinked : Linked (Function.update state.base.notify.link awaiter old)
          (state.root place) (chain place) :=
        linked_update (h.linked place) (hoffchain place)
      cases place with
      | none => exact hlinked
      | some call => exact hlinked
    · intro other value hother
      have hne : other ≠ awaiter := by
        intro heq
        rw [heq, hplace] at hother
        cases hother
      show Function.update state.base.notify.link awaiter old other = value
      rw [Function.update_of_ne hne]
      exact h.next_set other value hother
  refine hstored.move awaiter (.swapping old) hbefore (by simp) ?_
  intro value hvalue
  cases hvalue
  exact Function.update_self ..

/-- A successful compare-exchange puts the awaiter on the chain from `head_`. -/
theorem Inv.push {state : State A K} {chain : Option K → List A} {awaiter : A}
    (h : Inv state chain)
    (hplace : state.base.awaiter awaiter = .swapping state.base.notify.head) :
    Inv { state with base := { state.base with
      notify := state.base.notify.pushed awaiter }.moveAwaiter awaiter .suspended }
      (Function.update chain none (awaiter :: chain none)) := by
  have hbefore : state.base.awaiter awaiter ≠ .suspended := by simp [hplace]
  have hoffchain : ∀ place, awaiter ∉ chain place :=
    fun place hmem => hbefore (h.no_other awaiter place hmem)
  have hother : ∀ other, other ≠ awaiter →
      Function.update state.base.awaiter awaiter .suspended other = state.base.awaiter other :=
    fun other hne => Function.update_of_ne hne ..
  have hmem : ∀ other, other ≠ awaiter → ∀ place,
      other ∈ Function.update chain none (awaiter :: chain none) place ↔
        other ∈ chain place := by
    intro other hne place
    cases place with
    | none => simp [hne]
    | some call => simp
  refine ⟨⟨?_, ?_, ?_, ?_⟩, ?_, h.not_captured⟩
  · intro place
    cases place with
    | none =>
        refine ⟨rfl, ?_⟩
        show Linked state.base.notify.link (state.base.notify.link awaiter) (chain none)
        rw [h.next_set awaiter _ hplace]
        exact h.linked none
    | some call => exact h.linked (some call)
  · intro place
    cases place with
    | none => simpa using ⟨hoffchain none, h.nodup none⟩
    | some call => exact h.nodup (some call)
  · intro other hsuspended
    by_cases heq : other = awaiter
    · subst heq
      refine ⟨none, by simp, ?_⟩
      intro place hplace'
      cases place with
      | none => rfl
      | some call => exact absurd hplace' (hoffchain (some call))
    · simp only [hmem other heq]
      exact h.once other ((hother other heq).symm.trans hsuspended)
  · intro other place hother'
    by_cases heq : other = awaiter
    · rw [heq]
      exact Function.update_self ..
    · rw [hmem other heq] at hother'
      exact (hother other heq).trans (h.no_other other place hother')
  · intro other old hswapping
    have hne : other ≠ awaiter := by
      intro heq
      subst heq
      exact absurd ((Function.update_self ..).symm.trans hswapping) (by simp)
    exact h.next_set other old ((hother other hne).symm.trans hswapping)

omit [DecidableEq A] in
/-- The chains after an exchange by `call`. -/
def handOver (chain : Option K → List A) (call : K) : Option K → List A
  | none => []
  | some other => if other = call then chain none else chain (some other)

omit [DecidableEq A] in
/-- Where the awaiters on a call's chain were before the exchange. -/
theorem mem_hand_over {chain : Option K → List A} {call other : K} {awaiter : A} :
    awaiter ∈ handOver chain call (some other) ↔
      (other = call ∧ awaiter ∈ chain none) ∨ (other ≠ call ∧ awaiter ∈ chain (some other)) := by
  by_cases heq : other = call
  · simp [handOver, heq]
  · simp [handOver, heq]

omit [DecidableEq A] in
/-- An exchange by a call without a chain leaves every awaiter on exactly one chain. -/
theorem exists_unique_hand_over {chain : Option K → List A} {call : K} {awaiter : A}
    (hempty : chain (some call) = []) (h : ∃! place, awaiter ∈ chain place) :
    ∃! place, awaiter ∈ handOver chain call place := by
  obtain ⟨place, hmem, hunique⟩ := h
  cases place with
  | none =>
      refine ⟨some call, mem_hand_over.mpr (Or.inl ⟨rfl, hmem⟩), ?_⟩
      intro other hother
      cases other with
      | none => exact absurd hother List.not_mem_nil
      | some other =>
          rcases mem_hand_over.mp hother with ⟨rfl, _⟩ | ⟨_, hmem'⟩
          · rfl
          · exact absurd (hunique (some other) hmem') (by simp)
  | some owner =>
      have hne : owner ≠ call := by
        intro heq
        rw [heq, hempty] at hmem
        exact absurd hmem List.not_mem_nil
      refine ⟨some owner, mem_hand_over.mpr (Or.inr ⟨hne, hmem⟩), ?_⟩
      intro other hother
      cases other with
      | none => exact absurd hother List.not_mem_nil
      | some other =>
          rcases mem_hand_over.mp hother with ⟨_, hmem'⟩ | ⟨_, hmem'⟩
          · exact absurd (hunique none hmem') (by simp)
          · exact hunique (some other) hmem'

omit [DecidableEq A] in
/-- The exchange turns the chain from `head_` into the chain of the call. -/
theorem Inv.capture {state : State A K} {chain : Option K → List A} {call : K}
    (h : Inv state chain) (hplace : state.base.notifier call = .exchanging) :
    Inv { base := { state.base with notify := state.base.notify.exchanged }.moveNotifier call
            (.walking state.base.notify.head)
          captured := Function.update state.captured call (some state.base.notify.head) }
      (handOver chain call) := by
  have hempty : chain (some call) = [] := by
    have hlinked := h.linked (some call)
    rw [State.root, h.not_captured call (Or.inl hplace)] at hlinked
    exact linked_none_iff.mp hlinked
  have hroot : ∀ other, other ≠ call →
      Function.update state.captured call (some state.base.notify.head) other =
        state.captured other :=
    fun other hne => Function.update_of_ne hne ..
  refine ⟨⟨?_, ?_, ?_, ?_⟩, h.next_set, ?_⟩
  · intro place
    cases place with
    | none => rfl
    | some other =>
        show Linked state.base.notify.link _ _
        by_cases heq : other = call
        · subst heq
          simpa [handOver, State.root] using h.linked none
        · simpa [handOver, State.root, heq] using h.linked (some other)
  · intro place
    cases place with
    | none => exact List.nodup_nil
    | some other =>
        by_cases heq : other = call
        · simpa [handOver, heq] using h.nodup none
        · simpa [handOver, heq] using h.nodup (some other)
  · intro awaiter hsuspended
    exact exists_unique_hand_over hempty (h.once awaiter hsuspended)
  · intro awaiter place hmem
    cases place with
    | none => exact absurd hmem (List.not_mem_nil)
    | some other =>
        rcases mem_hand_over.mp hmem with ⟨_, hmem'⟩ | ⟨_, hmem'⟩
        · exact h.no_other awaiter none hmem'
        · exact h.no_other awaiter (some other) hmem'
  · intro other hbefore
    have hne : other ≠ call := by
      intro heq
      subst heq
      simp at hbefore
    have hsame : ({ state.base with notify := state.base.notify.exchanged }.moveNotifier call
        (.walking state.base.notify.head)).notifier other = state.base.notifier other :=
      Function.update_of_ne hne ..
    rw [hsame] at hbefore
    exact (hroot other hne).trans (h.not_captured other hbefore)

omit [DecidableEq A] in
/-- The steps of a call other than its exchange keep every chain. -/
theorem Inv.advance {state : State A K} {chain : Option K → List A} {call : K}
    {place : Notify.Notifier A} {following : Notify.State A K} (h : Inv state chain)
    (hlink : following.notify.link = state.base.notify.link)
    (hhead : following.notify.head = state.base.notify.head)
    (hawaiter : following.awaiter = state.base.awaiter)
    (hnotifier : following.notifier = Function.update state.base.notifier call place)
    (hidle : place = .exchanging → state.base.notifier call = .idle) (hback : place ≠ .idle) :
    Inv { state with base := following } chain := by
  refine ⟨⟨?_, h.nodup, ?_, ?_⟩, ?_, ?_⟩
  · intro chosen
    have hlinked := h.linked chosen
    cases chosen with
    | none => simpa [State.root, hlink, hhead] using hlinked
    | some other => simpa [State.root, hlink] using hlinked
  · simpa only [hawaiter] using h.once
  · simpa only [hawaiter] using h.no_other
  · simpa only [hawaiter, hlink] using h.next_set
  · intro other hbefore
    simp only [hnotifier] at hbefore
    by_cases heq : other = call
    · subst heq
      rw [Function.update_self] at hbefore
      exact h.not_captured other (Or.inr (hidle (hbefore.resolve_right hback)))
    · rw [Function.update_of_ne heq] at hbefore
      exact h.not_captured other hbefore

/-- Every step keeps the chains, up to one push or one hand-over. -/
theorem Inv.step {state following : State A K} {action : Notify.Action A K}
    {chain : Option K → List A} (h : Inv state chain)
    (hnext : next state action = some following) : ∃ chain', Inv following chain' := by
  obtain ⟨base, hbase, rfl⟩ := Option.map_eq_some_iff.mp hnext
  cases Notify.next_step hbase with
  | pass awaiter hplace => exact ⟨chain, h.move awaiter .passed (by simp [hplace]) (by simp)
      (by simp)⟩
  | enter awaiter hplace => exact ⟨chain, h.move awaiter .loading (by simp [hplace]) (by simp)
      (by simp)⟩
  | load awaiter hplace => exact ⟨chain, h.move awaiter _ (by simp [hplace]) (by simp) (by simp)⟩
  | link awaiter old hplace => exact ⟨chain, h.link hplace⟩
  | push awaiter hplace => exact ⟨_, h.push hplace⟩
  | retry awaiter spurious old hplace =>
      exact ⟨chain, h.move awaiter _ (by simp [hplace]) (by simp) (by simp)⟩
  | fire call hplace =>
      exact ⟨chain, h.advance rfl rfl rfl rfl (fun _ => hplace) (by simp)⟩
  | capture call hplace => exact ⟨_, h.capture hplace⟩
  | spawn call awaiter hplace =>
      exact ⟨chain, h.advance rfl rfl rfl rfl (by simp) (by simp)⟩

/-- In every reachable state, for any number of awaiters and `notify_all` calls and any
interleaving of their steps, the chain from `head_` and the chains captured so far hold every
awaiter whose compare-exchange succeeded exactly once, and no other. -/
theorem chains_partition {state : State A K} (h : (machine A K).Reachable state) :
    ∃ chain, Partition state chain := by
  have hinit : ∃ chain, Inv (machine A K).init chain := by
    refine ⟨fun _ => [], ⟨?_, fun _ => List.nodup_nil, ?_, ?_⟩, ?_, fun _ _ => rfl⟩
    · intro place
      cases place with
      | none => rfl
      | some call => rfl
    · intro awaiter hsuspended
      cases hsuspended
    · intro awaiter place hmem
      exact absurd hmem List.not_mem_nil
    · intro awaiter old hswapping
      cases hswapping
  obtain ⟨chain, hinv⟩ := Machine.reachable_invariant
    (I := fun state => ∃ chain, Inv state chain) hinit
    (fun _ _ _ hinv hnext => hinv.elim fun _ hinv => hinv.step hnext) h
  exact ⟨chain, hinv.toPartition⟩

/-- Two awaiters race for the head: the second retries after a failed exchange and after a
spurious one, a call captures both, and a third awaiter pushes itself after that. -/
def racedSchedule : List (Notify.Action (Fin 3) Bool) :=
  [.loadHead 0, .loadHead 1, .setNext 0, .setNext 1, .compareExchange 0 false,
    .compareExchange 1 false, .setNext 1, .compareExchange 1 true, .setNext 1,
    .compareExchange 1 false, .storeFired true, .exchange true, .loadHead 2, .setNext 2,
    .compareExchange 2 false]

/-- In that race the call holds both awaiters and the stack the third. -/
theorem chains_partition_raced :
    ((machine (Fin 3) Bool).run racedSchedule).map (fun state =>
      (state.root none, state.root (some true), state.base.notify.link 1)) =
        some (some 2, some 1, some 0) ∧
      ∀ state, (machine (Fin 3) Bool).run racedSchedule = some state →
        ∃ chain, Partition state chain :=
  ⟨rfl, fun _ hrun => chains_partition ⟨racedSchedule, hrun⟩⟩

end NotifyChains

end Toad
