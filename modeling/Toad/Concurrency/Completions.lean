import Mathlib.Data.List.Nodup
import Toad.Execution.Machine
import Toad.Execution.Ring

/-!
# Completions

The batch loop of `event_loop` in `concurrency/iocontext.hpp`. The loop peeks at a batch of
completion slots and, for each, first returns the slot to the kernel with `io_uring_cqe_seen`
and only then reads `user_data` and, in the handler, `res`. The kernel may reuse a slot as soon
as it is returned, which it does when the ring was full. Every handler returns false, so every
handled `PendingVariant` is deleted.
-/

namespace Toad

namespace Completions

open Execution

variable {P : Type} [DecidableEq P]

/-- A completion: the `PendingVariant` it belongs to, and the result. -/
structure Cqe (P : Type) where
  userData : P
  res : Int
  deriving DecidableEq, Repr

/-- Where the event loop stands: before the peek, or in the batch loop before
`io_uring_cqe_seen`, before the read of `user_data`, before the handler reads `res`, or before
the deletion. The lists are the positions of the batch still to come. -/
inductive Loop (P : Type) where
  | peeking
  | marking (batch : List Nat)
  | readingUserData (position : Nat) (rest : List Nat)
  | handling (position : Nat) (pending : P) (rest : List Nat)
  | deleting (pending : P) (rest : List Nat)
  deriving DecidableEq, Repr

/-- The completion ring, everything posted to it (its length is the tail), and what the event
loop has handled and deleted. -/
structure State (P : Type) where
  slots : Nat → Option (Cqe P) := fun _ => none
  posted : List (Cqe P) := []
  head : Nat := 0
  loop : Loop P := .peeking
  handled : List (Cqe P) := []
  deleted : List P := []

/-- The kernel posts a completion, or the event loop takes its next step. -/
inductive Action (P : Type) where
  | post (cqe : Cqe P)
  | peek
  | seen
  | readUserData
  | handle
  | delete
  deriving DecidableEq, Repr

section Machine

variable (entries batchSize : Nat)

/-- The kernel writes a completion into the slot of the tail. -/
def State.post (state : State P) (cqe : Cqe P) : State P :=
  { state with
    slots := Ring.set entries state.slots state.posted.length (some cqe)
    posted := state.posted ++ [cqe] }

/-- One step. The kernel needs a free slot, and posts one completion for each operation. -/
def next (state : State P) : Action P → Option (State P)
  | .post cqe =>
      if state.posted.length < state.head + entries ∧
          cqe.userData ∉ state.posted.map Cqe.userData then
        some (state.post entries cqe)
      else none
  | .peek =>
      match state.loop with
      | .peeking =>
          let available := state.posted.length - state.head
          some { state with loop := .marking (List.range' state.head (min batchSize available)) }
      | _ => none
  | .seen =>
      match state.loop with
      | .marking [] => some { state with loop := .peeking }
      | .marking (position :: rest) =>
          some { state with head := state.head + 1, loop := .readingUserData position rest }
      | _ => none
  | .readUserData =>
      match state.loop with
      | .readingUserData position rest =>
          (Ring.get entries state.slots position).map fun cqe =>
            { state with loop := .handling position cqe.userData rest }
      | _ => none
  | .handle =>
      match state.loop with
      | .handling position pending rest =>
          (Ring.get entries state.slots position).map fun cqe =>
            { state with
              handled := state.handled ++ [{ userData := pending, res := cqe.res }]
              loop := .deleting pending rest }
      | _ => none
  | .delete =>
      match state.loop with
      | .deleting pending rest =>
          some { state with deleted := state.deleted ++ [pending], loop := .marking rest }
      | _ => none

/-- The kernel and the event loop on a ring of `entries` slots. -/
def machine (P : Type) [DecidableEq P] : Machine (State P) (Action P) where
  init := {}
  next := next entries batchSize

/-- The completions are handled in the order in which they were posted, each with its own
`user_data` and `res`, no `PendingVariant` is handled or deleted twice, and between two batches
everything before the head has been handled and deleted. -/
structure Exact (state : State P) : Prop where
  handled : state.handled <+: state.posted
  handled_once : (state.handled.map Cqe.userData).Nodup
  deleted : state.deleted <+: state.handled.map Cqe.userData
  deleted_once : state.deleted.Nodup
  complete : state.loop = .peeking →
    state.handled.length = state.head ∧ state.deleted.length = state.head

/-- Posting the completion now would overwrite something that the event loop has still to read
from the slot it has just returned: the whole slot, or a result that is different. -/
def Overwrites (state : State P) (cqe : Cqe P) : Prop :=
  match state.loop with
  | .readingUserData position _ => state.posted.length = position + entries
  | .handling position _ _ =>
      state.posted.length = position + entries ∧
        (Ring.get entries state.slots position).map Cqe.res ≠ some cqe.res
  | _ => False

instance (state : State P) (cqe : Cqe P) : Decidable (Overwrites entries state cqe) :=
  match h : state.loop with
  | .readingUserData position _ =>
      decidable_of_iff (state.posted.length = position + entries) (by simp [Overwrites, h])
  | .handling position _ _ =>
      decidable_of_iff (state.posted.length = position + entries ∧
        (Ring.get entries state.slots position).map Cqe.res ≠ some cqe.res)
        (by simp [Overwrites, h])
  | .peeking => isFalse (by simp [Overwrites, h])
  | .marking _ => isFalse (by simp [Overwrites, h])
  | .deleting _ _ => isFalse (by simp [Overwrites, h])

/-- The kernel does not reuse a slot before the event loop has read it. -/
def KeepsUnread (state : State P) : Action P → Prop
  | .post cqe => ¬ Overwrites entries state cqe
  | _ => True

instance (state : State P) (action : Action P) : Decidable (KeepsUnread entries state action) :=
  match action with
  | .post cqe => inferInstanceAs (Decidable (¬ Overwrites entries state cqe))
  | .peek | .seen | .readUserData | .handle | .delete => isTrue trivial

/-- Exactly the first `count` completions are handled and deleted. -/
def Done (state : State P) (count : Nat) : Prop :=
  state.handled = state.posted.take count ∧ state.deleted = state.handled.map Cqe.userData

/-- The rest of the batch starts at the head and lies before the tail. -/
def Ahead (state : State P) (rest : List Nat) : Prop :=
  ∃ count, rest = List.range' state.head count ∧ state.head + count ≤ state.posted.length

/-- What each place of the loop relies on. -/
def Consistent (state : State P) : Prop :=
  match state.loop with
  | .peeking => Done state state.head
  | .marking batch => Done state state.head ∧ Ahead state batch
  | .readingUserData position rest =>
      position + 1 = state.head ∧ Done state position ∧ Ahead state rest ∧
        Ring.get entries state.slots position = state.posted[position]?
  | .handling position pending rest =>
      position + 1 = state.head ∧ Done state position ∧ Ahead state rest ∧
        ∃ cqe, state.posted[position]? = some cqe ∧ pending = cqe.userData ∧
          (Ring.get entries state.slots position).map Cqe.res = some cqe.res
  | .deleting pending rest =>
      Ahead state rest ∧ state.handled = state.posted.take state.head ∧
        state.deleted ++ [pending] = state.handled.map Cqe.userData

/-- The invariant of a run in which no slot is reused too early. -/
structure Inv (state : State P) : Prop where
  unique : (state.posted.map Cqe.userData).Nodup
  head_le : state.head ≤ state.posted.length
  window : state.posted.length ≤ state.head + entries
  content : ∀ position, state.head ≤ position → position < state.posted.length →
    Ring.get entries state.slots position = state.posted[position]?
  place : Consistent entries state

/-- Something was handled that is not what was posted. -/
def Mismatch (state : State P) : Prop :=
  ∃ (position : Nat) (entry cqe : Cqe P), state.handled[position]? = some entry ∧
    state.posted[position]? = some cqe ∧ entry ≠ cqe

/-- The full ring holds a newer completion in the slot that the loop is about to read. -/
def Doomed (state : State P) : Prop :=
  state.posted.length = state.head + entries ∧
    ∃ cqe newer, state.posted[state.handled.length]? = some cqe ∧
      Ring.get entries state.slots state.handled.length = some newer ∧
      ((∃ rest, state.loop = .readingUserData state.handled.length rest ∧
          newer.userData ≠ cqe.userData) ∨
        ∃ pending rest, state.loop = .handling state.handled.length pending rest ∧
          (pending ≠ cqe.userData ∨ newer.res ≠ cqe.res))

end Machine

section Steps

variable {entries batchSize : Nat} {state following : State P} {action : Action P}

omit [DecidableEq P] in
/-- A completion that was handled and deleted stays so when another is posted. -/
theorem Done.post {count : Nat} {cqe : Cqe P} (h : Done state count)
    (hcount : count ≤ state.posted.length) : Done (state.post entries cqe) count := by
  refine ⟨?_, h.2⟩
  show state.handled = (state.posted ++ [cqe]).take count
  rw [List.take_append_of_le_length hcount]
  exact h.1

omit [DecidableEq P] in
/-- A batch stays before the tail when another completion is posted. -/
theorem Ahead.post {rest : List Nat} {cqe : Cqe P} (h : Ahead state rest) :
    Ahead (state.post entries cqe) rest := by
  obtain ⟨count, hrest, hle⟩ := h
  refine ⟨count, hrest, ?_⟩
  show state.head + count ≤ (state.posted ++ [cqe]).length
  rw [List.length_append]
  omega

omit [DecidableEq P] in
/-- The number of handled completions. -/
theorem Done.length_eq {count : Nat} (h : Done state count)
    (hcount : count ≤ state.posted.length) : state.handled.length = count := by
  rw [h.1, List.length_take, Nat.min_eq_left hcount]

omit [DecidableEq P] in
/-- The slot just returned keeps its contents unless the ring was full. -/
theorem get_post_returned {position : Nat} {cqe : Cqe P} (hreturned : position + 1 = state.head)
    (hle : state.head ≤ state.posted.length) (hroom : state.posted.length < state.head + entries)
    (hfull : state.posted.length ≠ position + entries) :
    Ring.get entries (state.post entries cqe).slots position =
      Ring.get entries state.slots position := by
  have htail : position ≤ state.posted.length ∧ state.posted.length < position + entries :=
    ⟨by omega, by omega⟩
  exact Ring.get_set_of_window state.slots htail ⟨Nat.le_refl _, by omega⟩ (by omega)

omit [DecidableEq P] in
/-- In a full ring the next completion lands in the slot just returned. -/
theorem get_post_full {position : Nat} {cqe : Cqe P}
    (hfull : state.posted.length = position + entries) :
    Ring.get entries (state.post entries cqe).slots position = some cqe := by
  have hslot : position % entries = state.posted.length % entries := by
    rw [hfull, Nat.add_mod_right]
  rw [Ring.get, hslot]
  exact Ring.get_set_self state.slots state.posted.length (some cqe)

omit [DecidableEq P] in
/-- A posting that overwrites nothing unread changes nothing the loop relies on. -/
theorem Consistent.post {cqe : Cqe P} (h : Consistent entries state)
    (hle : state.head ≤ state.posted.length) (hroom : state.posted.length < state.head + entries)
    (hguard : ¬ Overwrites entries state cqe) : Consistent entries (state.post entries cqe) := by
  have hposted : (state.post entries cqe).posted = state.posted ++ [cqe] := rfl
  have hsame : (state.post entries cqe).loop = state.loop := rfl
  cases hloop : state.loop with
  | peeking =>
      simp only [Consistent, hsame, hloop] at h ⊢
      exact h.post hle
  | marking batch =>
      simp only [Consistent, hsame, hloop] at h ⊢
      exact ⟨h.1.post hle, h.2.post⟩
  | readingUserData position rest =>
      simp only [Consistent, hsame, hloop] at h ⊢
      obtain ⟨hreturned, hdone, hahead, hslot⟩ := h
      have hfull : state.posted.length ≠ position + entries := by
        simpa [Overwrites, hloop] using hguard
      refine ⟨hreturned, hdone.post (by omega), hahead.post, ?_⟩
      rw [get_post_returned hreturned hle hroom hfull, hslot, hposted,
        List.getElem?_append_left (by omega)]
  | handling position pending rest =>
      simp only [Consistent, hsame, hloop] at h ⊢
      obtain ⟨hreturned, hdone, hahead, old, hold, hpending, hres⟩ := h
      refine ⟨hreturned, hdone.post (by omega), hahead.post, old, ?_, hpending, ?_⟩
      · rw [hposted, List.getElem?_append_left (by omega), hold]
      · by_cases hfull : state.posted.length = position + entries
        · have hequal : (Ring.get entries state.slots position).map Cqe.res = some cqe.res := by
            simpa [Overwrites, hloop, hfull] using hguard
          rw [get_post_full hfull, ← hres, hequal]
          rfl
        · rw [get_post_returned hreturned hle hroom hfull]
          exact hres
  | deleting pending rest =>
      simp only [Consistent, hsame, hloop] at h ⊢
      obtain ⟨hahead, hhandled, hdeleted⟩ := h
      refine ⟨hahead.post, ?_, hdeleted⟩
      show state.handled = (state.posted ++ [cqe]).take state.head
      rw [List.take_append_of_le_length hle]
      exact hhandled

omit [DecidableEq P] in
/-- A posting that overwrites nothing unread keeps the invariant. -/
theorem Inv.post {cqe : Cqe P} (h : Inv entries state) (hguard : ¬ Overwrites entries state cqe)
    (hroom : state.posted.length < state.head + entries)
    (hnew : cqe.userData ∉ state.posted.map Cqe.userData) :
    Inv entries (state.post entries cqe) := by
  obtain ⟨hunique, hle, hwindow, hcontent, hplace⟩ := h
  have hgrown : (state.posted ++ [cqe]).length = state.posted.length + 1 := by simp
  refine ⟨?_, ?_, ?_, ?_, ?_⟩
  · show ((state.posted ++ [cqe]).map Cqe.userData).Nodup
    rw [List.map_append, List.map_singleton, ← List.concat_eq_append]
    exact hunique.concat hnew
  · show state.head ≤ (state.posted ++ [cqe]).length
    omega
  · show (state.posted ++ [cqe]).length ≤ state.head + entries
    omega
  · intro position hhead htail
    by_cases hlast : position = state.posted.length
    · subst hlast
      show Ring.get entries (Ring.set entries state.slots _ _) _ = (state.posted ++ [cqe])[_]?
      simp
    · have hlt : position < state.posted.length := by
        change position < (state.posted ++ [cqe]).length at htail
        omega
      show Ring.get entries (Ring.set entries state.slots _ _) _ = (state.posted ++ [cqe])[_]?
      rw [List.getElem?_append_left hlt, ← hcontent position hhead hlt]
      exact Ring.get_set_of_window state.slots ⟨hle, hroom⟩ ⟨hhead, by omega⟩ hlast
  · exact hplace.post hle hroom hguard

/-- Counting an entry out moves the head past the first position of the batch. -/
theorem Inv.seen (h : Inv entries state)
    (hnext : next entries batchSize state .seen = some following) :
    Inv entries following := by
  simp only [next] at hnext
  split at hnext
  · rename_i hloop
    cases hnext
    obtain ⟨hunique, hle, hwindow, hcontent, hplace⟩ := h
    simp only [Consistent, hloop] at hplace
    exact ⟨hunique, hle, hwindow, hcontent, hplace.1⟩
  · rename_i position rest hloop
    cases hnext
    obtain ⟨hunique, hle, hwindow, hcontent, hplace⟩ := h
    simp only [Consistent, hloop] at hplace
    obtain ⟨hdone, count, hbatch, hcount⟩ := hplace
    -- the batch is not empty, and its first position is the head
    cases count with
    | zero => simp at hbatch
    | succ count =>
        rw [List.range'_succ] at hbatch
        obtain ⟨rfl, rfl⟩ := List.cons.inj hbatch
        have hnext : state.head + 1 ≤ state.posted.length := by omega
        have hwindow' : state.posted.length ≤ state.head + 1 + entries := by omega
        have hrest : state.head + 1 + count ≤ state.posted.length := by omega
        refine ⟨hunique, hnext, hwindow', ?_, rfl, hdone, ⟨count, rfl, hrest⟩, ?_⟩
        · intro position hposition htail
          exact hcontent position (Nat.le_of_succ_le hposition) htail
        · exact hcontent state.head (Nat.le_refl _) hnext
  · cases hnext

/-- The operation of an entry is read from a slot that still holds it. -/
theorem Inv.read_user_data (h : Inv entries state)
    (hnext : next entries batchSize state .readUserData = some following) :
    Inv entries following := by
  simp only [next] at hnext
  split at hnext
  · rename_i position rest hloop
    obtain ⟨hunique, hle, hwindow, hcontent, hplace⟩ := h
    simp only [Consistent, hloop] at hplace
    obtain ⟨hreturned, hdone, hahead, hslot⟩ := hplace
    obtain ⟨cqe, hcqe, rfl⟩ := Option.map_eq_some_iff.mp hnext
    refine ⟨hunique, hle, hwindow, hcontent, hreturned, hdone, hahead, cqe, ?_, rfl, ?_⟩
    · rw [← hslot, hcqe]
    · show (Ring.get entries state.slots position).map Cqe.res = _
      rw [hcqe]
      rfl
  · cases hnext

/-- The handled entry is the next one that was posted. -/
theorem Inv.handle (h : Inv entries state)
    (hnext : next entries batchSize state .handle = some following) :
    Inv entries following := by
  simp only [next] at hnext
  split at hnext
  · rename_i position pending rest hloop
    obtain ⟨hunique, hle, hwindow, hcontent, hplace⟩ := h
    simp only [Consistent, hloop] at hplace
    obtain ⟨hreturned, hdone, hahead, cqe, hcqe, rfl, hres⟩ := hplace
    obtain ⟨found, hfound, rfl⟩ := Option.map_eq_some_iff.mp hnext
    rw [hfound] at hres
    have hentry : ({ userData := cqe.userData, res := found.res } : Cqe P) = cqe := by
      rw [Option.some.inj hres]
    rw [hentry]
    refine ⟨hunique, hle, hwindow, hcontent, hahead, ?_, ?_⟩
    · show state.handled ++ [cqe] = state.posted.take state.head
      rw [← hreturned, List.take_add_one, hcqe, hdone.1]
      rfl
    · show state.deleted ++ [cqe.userData] = (state.handled ++ [cqe]).map Cqe.userData
      rw [hdone.2, List.map_append]
      rfl
  · cases hnext

/-- A step of the event loop keeps the invariant. -/
theorem Inv.step (h : Inv entries state) (hguard : KeepsUnread entries state action)
    (hnext : next entries batchSize state action = some following) :
    Inv entries following := by
  cases action with
  | post cqe =>
      simp only [next, Option.ite_none_right_eq_some, Option.some.injEq] at hnext
      obtain ⟨⟨hroom, hnew⟩, rfl⟩ := hnext
      exact h.post hguard hroom hnew
  | peek =>
      simp only [next] at hnext
      split at hnext
      · rename_i hloop
        cases hnext
        obtain ⟨hunique, hle, hwindow, hcontent, hplace⟩ := h
        simp only [Consistent, hloop] at hplace
        refine ⟨hunique, hle, hwindow, hcontent, hplace, _, rfl, ?_⟩
        show state.head + min batchSize (state.posted.length - state.head) ≤ state.posted.length
        omega
      · cases hnext
  | seen => exact h.seen hnext
  | readUserData => exact h.read_user_data hnext
  | handle => exact h.handle hnext
  | delete =>
      simp only [next] at hnext
      split at hnext
      · rename_i pending rest hloop
        cases hnext
        obtain ⟨hunique, hle, hwindow, hcontent, hplace⟩ := h
        simp only [Consistent, hloop] at hplace
        obtain ⟨hahead, hhandled, hdeleted⟩ := hplace
        exact ⟨hunique, hle, hwindow, hcontent, ⟨hhandled, hdeleted⟩, hahead⟩
      · cases hnext

omit [DecidableEq P] in
/-- The invariant gives the exact handling. -/
theorem Inv.exact (h : Inv entries state) : Exact state := by
  obtain ⟨hunique, hle, _, _, hplace⟩ := h
  -- in every place the handled completions are a front part of the posted ones
  obtain ⟨count, hhandled, hdeleted⟩ : ∃ count, state.handled = state.posted.take count ∧
      state.deleted <+: state.handled.map Cqe.userData := by
    cases hloop : state.loop with
    | peeking =>
        simp only [Consistent, hloop] at hplace
        exact ⟨_, hplace.1, hplace.2 ▸ List.prefix_refl _⟩
    | marking batch =>
        simp only [Consistent, hloop] at hplace
        exact ⟨_, hplace.1.1, hplace.1.2 ▸ List.prefix_refl _⟩
    | readingUserData position rest =>
        simp only [Consistent, hloop] at hplace
        obtain ⟨_, hdone, _⟩ := hplace
        exact ⟨_, hdone.1, hdone.2 ▸ List.prefix_refl _⟩
    | handling position pending rest =>
        simp only [Consistent, hloop] at hplace
        obtain ⟨_, hdone, _⟩ := hplace
        exact ⟨_, hdone.1, hdone.2 ▸ List.prefix_refl _⟩
    | deleting pending rest =>
        simp only [Consistent, hloop] at hplace
        obtain ⟨_, hhandled, hdeleted⟩ := hplace
        exact ⟨_, hhandled, ⟨[pending], hdeleted⟩⟩
  have hfront : state.handled <+: state.posted := hhandled ▸ List.take_prefix _ _
  have honce : (state.handled.map Cqe.userData).Nodup :=
    hunique.sublist (hfront.sublist.map Cqe.userData)
  refine ⟨hfront, honce, hdeleted, honce.sublist hdeleted.sublist, ?_⟩
  intro hloop
  simp only [Consistent, hloop] at hplace
  have hlength := hplace.length_eq hle
  refine ⟨hlength, ?_⟩
  rw [hplace.2, List.length_map, hlength]

/-- A posting into a slot that is still to be read dooms the loop. -/
theorem Inv.overwritten (h : Inv entries state) (hguard : ¬ KeepsUnread entries state action)
    (hnext : next entries batchSize state action = some following) : Doomed entries following := by
  cases action with
  | peek | seen | readUserData | handle | delete => exact absurd trivial hguard
  | post cqe =>
      have hover : Overwrites entries state cqe := not_not.mp hguard
      simp only [next, Option.ite_none_right_eq_some, Option.some.injEq] at hnext
      obtain ⟨⟨hroom, hnew⟩, rfl⟩ := hnext
      obtain ⟨_, hle, _, _, hplace⟩ := h
      have hgrown : (state.post entries cqe).posted.length = state.posted.length + 1 := by
        simp [State.post]
      have hkept : ∀ (position : Nat) (old : Cqe P), state.posted[position]? = some old →
          (state.post entries cqe).posted[position]? = some old := by
        intro position old hold
        show (state.posted ++ [cqe])[position]? = some old
        rw [List.getElem?_append_left (List.getElem?_eq_some_iff.mp hold).1, hold]
      cases hloop : state.loop with
      | peeking | marking | deleting => simp [Overwrites, hloop] at hover
      | readingUserData position rest =>
          simp only [Overwrites, hloop] at hover
          simp only [Consistent, hloop] at hplace
          obtain ⟨hreturned, hdone, _, _⟩ := hplace
          have hlength : state.handled.length = position := hdone.length_eq (by omega)
          obtain ⟨old, hold⟩ : ∃ old, state.posted[position]? = some old :=
            ⟨_, List.getElem?_eq_getElem (by omega)⟩
          have hne : cqe.userData ≠ old.userData := fun heq =>
            hnew (heq ▸ List.mem_map_of_mem (List.mem_of_getElem? hold))
          subst hlength
          refine ⟨?_, old, cqe, hkept _ _ hold, get_post_full hover, Or.inl ⟨rest, hloop, hne⟩⟩
          show _ = state.head + entries
          omega
      | handling position pending rest =>
          simp only [Overwrites, hloop] at hover
          simp only [Consistent, hloop] at hplace
          obtain ⟨hfull, hdiffers⟩ := hover
          obtain ⟨hreturned, hdone, _, old, hold, _, hres⟩ := hplace
          have hlength : state.handled.length = position := hdone.length_eq (by omega)
          have hne : cqe.res ≠ old.res := by
            intro heq
            rw [hres, heq] at hdiffers
            exact hdiffers rfl
          subst hlength
          refine ⟨?_, old, cqe, hkept _ _ hold, get_post_full hfull,
            Or.inr ⟨pending, rest, hloop, Or.inr hne⟩⟩
          show _ = state.head + entries
          omega

/-- A doomed loop handles something that was not posted. -/
theorem Doomed.step (h : Doomed entries state)
    (hnext : next entries batchSize state action = some following) :
    Mismatch following ∨ Doomed entries following := by
  obtain ⟨hfull, cqe, newer, hcqe, hnewer, hloop⟩ := h
  rcases hloop with ⟨rest, hloop, hne⟩ | ⟨pending, rest, hloop, hne⟩
  · cases action with
    | post other =>
        simp only [next, Option.ite_none_right_eq_some] at hnext
        omega
    | readUserData =>
        simp only [next, hloop, hnewer, Option.map_some, Option.some.injEq] at hnext
        subst hnext
        exact Or.inr ⟨hfull, cqe, newer, hcqe, hnewer, Or.inr ⟨_, rest, rfl, Or.inl hne⟩⟩
    | peek | seen | handle | delete => simp [next, hloop] at hnext
  · cases action with
    | post other =>
        simp only [next, Option.ite_none_right_eq_some] at hnext
        omega
    | handle =>
        simp only [next, hloop, hnewer, Option.map_some, Option.some.injEq] at hnext
        subst hnext
        refine Or.inl ⟨state.handled.length, ⟨pending, newer.res⟩, cqe, by simp, hcqe, ?_⟩
        intro heq
        rw [← heq] at hne
        exact hne.elim (fun h => h rfl) (fun h => h rfl)
    | peek | seen | readUserData | delete => simp [next, hloop] at hnext

/-- What was handled and what was posted stays in place. -/
theorem Mismatch.step (h : Mismatch state)
    (hnext : next entries batchSize state action = some following) : Mismatch following := by
  have hgrows : state.handled <+: following.handled ∧ state.posted <+: following.posted := by
    cases action with
    | post cqe =>
        simp only [next, Option.ite_none_right_eq_some, Option.some.injEq] at hnext
        obtain ⟨_, rfl⟩ := hnext
        exact ⟨List.prefix_refl _, List.prefix_append _ _⟩
    | peek =>
        simp only [next] at hnext
        split at hnext
        · cases hnext
          exact ⟨List.prefix_refl _, List.prefix_refl _⟩
        · cases hnext
    | seen =>
        simp only [next] at hnext
        split at hnext
        · cases hnext
          exact ⟨List.prefix_refl _, List.prefix_refl _⟩
        · cases hnext
          exact ⟨List.prefix_refl _, List.prefix_refl _⟩
        · cases hnext
    | readUserData =>
        simp only [next] at hnext
        split at hnext
        · obtain ⟨cqe, _, rfl⟩ := Option.map_eq_some_iff.mp hnext
          exact ⟨List.prefix_refl _, List.prefix_refl _⟩
        · cases hnext
    | handle =>
        simp only [next] at hnext
        split at hnext
        · obtain ⟨cqe, _, rfl⟩ := Option.map_eq_some_iff.mp hnext
          exact ⟨List.prefix_append _ _, List.prefix_refl _⟩
        · cases hnext
    | delete =>
        simp only [next] at hnext
        split at hnext
        · cases hnext
          exact ⟨List.prefix_refl _, List.prefix_refl _⟩
        · cases hnext
  obtain ⟨position, entry, cqe, hentry, hcqe, hne⟩ := h
  obtain ⟨⟨_, hhandled⟩, _, hposted⟩ := hgrows
  refine ⟨position, entry, cqe, ?_, ?_, hne⟩
  · rw [← hhandled, List.getElem?_append_left (List.getElem?_eq_some_iff.mp hentry).1, hentry]
  · rw [← hposted, List.getElem?_append_left (List.getElem?_eq_some_iff.mp hcqe).1, hcqe]

omit [DecidableEq P] in
/-- A mismatch contradicts the exact handling. -/
theorem Mismatch.not_exact (h : Mismatch state) : ¬ Exact state := by
  intro hexact
  obtain ⟨position, entry, cqe, hentry, hcqe, hne⟩ := h
  obtain ⟨_, hposted⟩ := hexact.handled
  rw [← hposted, List.getElem?_append_left (List.getElem?_eq_some_iff.mp hentry).1, hentry] at hcqe
  exact hne (Option.some.inj hcqe)

end Steps

/-- For every ring, every batch size, and every interleaving of the kernel's postings with the
batch loop: if the kernel never reuses a slot that the loop has returned and not yet read, every
completion is handled once with its own `user_data` and `res` and every `PendingVariant` deleted
once; and when the loop is between two batches at the end of the run, only then. -/
theorem completions_exact_iff {entries batchSize : Nat} {schedule : List (Action P)}
    {state : State P} (hrun : (machine entries batchSize P).run schedule = some state) :
    ((machine entries batchSize P).Guarded (KeepsUnread entries) schedule →
      (machine entries batchSize P).Always Exact schedule) ∧
    (state.loop = .peeking → (machine entries batchSize P).Always Exact schedule →
      (machine entries batchSize P).Guarded (KeepsUnread entries) schedule) := by
  have hinit : Inv entries (machine entries batchSize P).init := by
    refine ⟨List.nodup_nil, Nat.le_refl _, Nat.zero_le _, ?_, rfl, rfl⟩
    intro position _ hposition
    exact absurd hposition (Nat.not_lt_zero _)
  have hstep : ∀ state action following, Inv entries state → KeepsUnread entries state action →
      (machine entries batchSize P).next state action = some following → Inv entries following :=
    fun _ _ _ => Inv.step
  refine ⟨Machine.guarded_always hinit hstep fun _ => Inv.exact, ?_⟩
  intro hloop halways
  rcases Machine.guarded_or_lost (L := fun state => Mismatch state ∨ Doomed entries state) hinit
    hstep (fun _ _ _ hinv hguard hnext => Or.inr (hinv.overwritten hguard hnext))
    (fun _ _ _ hlost hnext => hlost.elim (fun h => Or.inl (h.step hnext)) fun h => h.step hnext)
    hrun with ⟨hguarded, _⟩ | ⟨_, hmismatch | ⟨_, _, _, _, _, hdoomed⟩⟩
  · exact hguarded
  · exact absurd (halways schedule state (List.prefix_refl _) hrun) hmismatch.not_exact
  · rw [hloop] at hdoomed
    simp at hdoomed

/-- Two completions in a ring of two slots, the third posted when the first was read. -/
theorem completions_exact_three :
    ((machine 2 8 Nat).run [.post ⟨10, 1⟩, .post ⟨20, 2⟩, .peek, .seen, .readUserData, .handle,
      .post ⟨30, 3⟩, .delete, .seen, .readUserData, .handle, .delete, .seen]).map State.handled =
        some [⟨10, 1⟩, ⟨20, 2⟩] ∧
      (machine 2 8 Nat).Always Exact [.post ⟨10, 1⟩, .post ⟨20, 2⟩, .peek, .seen, .readUserData,
        .handle, .post ⟨30, 3⟩, .delete, .seen, .readUserData, .handle, .delete, .seen] :=
  ⟨rfl, (completions_exact_iff rfl).1 (by decide)⟩

/-- In a full ring the kernel posts right after `io_uring_cqe_seen`: the first completion is never
handled, and the third `PendingVariant` is handled and deleted twice. -/
theorem full_ring_handles_twice :
    ((machine 2 8 Nat).run [.post ⟨10, 1⟩, .post ⟨20, 2⟩, .peek, .seen, .post ⟨30, 3⟩,
      .readUserData, .handle, .delete, .seen, .readUserData, .handle, .delete, .seen, .peek, .seen,
      .readUserData, .handle, .delete]).map (fun state => (state.handled, state.deleted)) =
        some ([⟨30, 3⟩, ⟨20, 2⟩, ⟨30, 3⟩], [30, 20, 30]) ∧
      ¬ (machine 2 8 Nat).Always Exact [.post ⟨10, 1⟩, .post ⟨20, 2⟩, .peek, .seen,
        .post ⟨30, 3⟩, .readUserData, .handle, .delete, .seen, .readUserData, .handle, .delete,
        .seen, .peek, .seen, .readUserData, .handle, .delete] := by
  refine ⟨rfl, ?_⟩
  intro halways
  have hexact := halways _ _ (List.prefix_refl _) rfl
  exact absurd hexact.deleted_once (by decide)

end Completions

end Toad
