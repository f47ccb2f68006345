import Mathlib.Data.List.Basic

/-!
# Order in a log

A log only grows at its end. `Precedes first later log` says that no entry of the kind `later` comes
before one of the kind `first`. An entry that is appended has to find its cause in the log so far,
`Precedes.append`, and what has been read of a log agrees with the log, `Precedes.left`.
-/

namespace Execution

variable {α β : Type*}

/-- Before every entry of the one kind there is one of the other. -/
def Precedes (first later : α → Prop) (log : List α) : Prop :=
  ∀ earlier entry rest,
    log = earlier ++ entry :: rest → later entry → ∃ cause ∈ earlier, first cause

section Precedes

variable {first later later' : α → Prop} {log entries : List α}

/-- Nothing needs a cause. -/
theorem precedes_of_not (h : ∀ entry ∈ log, ¬ later entry) : Precedes first later log := by
  intro earlier entry rest hlog hlater
  subst hlog
  exact absurd hlater (h entry (List.mem_append_right _ (List.mem_cons_self ..)))

/-- What is read of a log from its start. -/
theorem Precedes.left (h : Precedes first later (log ++ entries)) : Precedes first later log := by
  intro earlier entry rest hlog
  refine h earlier entry (rest ++ entries) ?_
  rw [hlog, List.append_assoc, List.cons_append]

/-- Every new entry has its cause in the log. -/
theorem Precedes.append (h : Precedes first later log)
    (hentries : ∀ entry ∈ entries, later entry → ∃ cause ∈ log, first cause) :
    Precedes first later (log ++ entries) := by
  intro earlier entry rest hlog hlater
  rcases List.append_eq_append_iff.mp hlog with ⟨middle, hearlier, hnew⟩ | ⟨middle, hold, hrest⟩
  · have hmem : entry ∈ entries := by
      rw [hnew]
      exact List.mem_append_right _ (List.mem_cons_self ..)
    obtain ⟨cause, hcause, hfirst⟩ := hentries entry hmem hlater
    exact ⟨cause, hearlier ▸ List.mem_append_left _ hcause, hfirst⟩
  · cases middle with
    | nil =>
        have hmem : entry ∈ entries := by
          rw [List.nil_append] at hrest
          rw [← hrest]
          exact List.mem_cons_self ..
        obtain ⟨cause, hcause, hfirst⟩ := hentries entry hmem hlater
        rw [List.append_nil] at hold
        exact ⟨cause, hold ▸ hcause, hfirst⟩
    | cons head middle =>
        obtain ⟨rfl, -⟩ := List.cons.inj hrest
        exact h earlier entry middle hold hlater

/-- Fewer entries that need a cause. -/
theorem Precedes.weaken (h : Precedes first later log)
    (hlater : ∀ entry ∈ log, later' entry → later entry) : Precedes first later' log := by
  intro earlier entry rest hlog hentry
  have hmem : entry ∈ log := by
    rw [hlog]
    exact List.mem_append_right _ (List.mem_cons_self ..)
  exact h earlier entry rest hlog (hlater entry hmem hentry)

end Precedes

end Execution
