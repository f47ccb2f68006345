import Mathlib.Data.List.Nodup
import Mathlib.Logic.Function.Basic

/-!
# Linked chains

A singly linked list in memory is a head pointer together with a `next` pointer for each
node. `Linked next head nodes` says that following `next` from `head` visits exactly
`nodes`, in order, and then reaches the null pointer.
-/

namespace Execution

variable {α : Type*} {next : α → Option α}

/-- Following `next` from `head` visits exactly these nodes and then the null pointer. -/
def Linked (next : α → Option α) : Option α → List α → Prop
  | head, [] => head = none
  | head, node :: rest => head = some node ∧ Linked next (next node) rest

/-- Only the empty chain starts at the null pointer. -/
theorem linked_none_iff {nodes : List α} : Linked next none nodes ↔ nodes = [] := by
  cases nodes with
  | nil => simp [Linked]
  | cons node rest => simp [Linked]

/-- A chain that starts at a node has that node at its front. -/
theorem linked_some {node : α} {nodes : List α} (h : Linked next (some node) nodes) :
    ∃ rest, nodes = node :: rest ∧ Linked next (next node) rest := by
  cases nodes with
  | nil => exact absurd h (by simp [Linked])
  | cons first rest =>
      obtain ⟨hfirst, hrest⟩ := h
      obtain rfl : node = first := Option.some.inj hfirst
      exact ⟨rest, rfl, hrest⟩

/-- Writing the pointer of a node outside a chain leaves the chain as it is. -/
theorem linked_update [DecidableEq α] {head target : Option α} {node : α} {nodes : List α}
    (h : Linked next head nodes) (hnode : node ∉ nodes) :
    Linked (Function.update next node target) head nodes := by
  induction nodes generalizing head with
  | nil => exact h
  | cons first rest ih =>
      obtain ⟨hhead, hrest⟩ := h
      have hne : first ≠ node := fun heq => hnode (by simp [heq])
      refine ⟨hhead, ?_⟩
      rw [Function.update_of_ne hne]
      exact ih hrest (fun hmem => hnode (by simp [hmem]))

/-- What follows a node of a chain is itself a chain, from that node's pointer. -/
theorem linked_tail {head : Option α} {before after : List α} {node : α}
    (h : Linked next head (before ++ node :: after)) : Linked next (next node) after := by
  induction before generalizing head with
  | nil => exact h.2
  | cons first rest ih => exact ih h.2

/-- A head has at most one chain. -/
theorem linked_unique {head : Option α} {nodes others : List α} (h : Linked next head nodes)
    (hothers : Linked next head others) : nodes = others := by
  induction nodes generalizing head others with
  | nil =>
      obtain rfl : head = none := h
      exact (linked_none_iff.mp hothers).symm
  | cons node rest ih =>
      obtain ⟨rfl, hrest⟩ := h
      obtain ⟨others, rfl, hothersRest⟩ := linked_some hothers
      rw [ih hrest hothersRest]

/-- A chain visits no node twice: it would have to go on for ever. -/
theorem linked_nodup {head : Option α} {nodes : List α} (h : Linked next head nodes) :
    nodes.Nodup := by
  induction nodes generalizing head with
  | nil => exact List.nodup_nil
  | cons node rest ih =>
      refine List.nodup_cons.mpr ⟨?_, ih h.2⟩
      intro hmem
      obtain ⟨before, after, rfl⟩ := List.append_of_mem hmem
      have hagain : before ++ node :: after = after := linked_unique h.2 (linked_tail h.2)
      have hlength := congrArg List.length hagain
      simp only [List.length_append, List.length_cons] at hlength
      omega

end Execution
