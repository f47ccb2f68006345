import Mathlib.Logic.ExistsUnique
import Mathlib.Logic.Function.Basic

/-!
# Owned resources

Resources are opened and closed, and while a resource is open some holder owns it. `Ledger`
counts the openings and closings; `Balanced ledger holds` says that the holders own exactly the
open resources, each by one of them, and that every resource was closed as often as it was
opened, up to the opening that is still on. A close of something that was never opened fails and
is no closing. The rules below are the ways to keep that balance (acquire, release, hand over,
assign) and the two ways to lose it.
-/

namespace Execution

variable {O R : Type*} [DecidableEq O] [DecidableEq R]

/-- Which resources are open, and how often each was opened and closed. -/
structure Ledger (R : Type*) where
  isOpen : R → Bool := fun _ => false
  opened : R → Nat := fun _ => 0
  closed : R → Nat := fun _ => 0

namespace Ledger

/-- Open a resource. -/
def acquire (ledger : Ledger R) (resource : R) : Ledger R :=
  { ledger with
    isOpen := Function.update ledger.isOpen resource true
    opened := Function.update ledger.opened resource (ledger.opened resource + 1) }

/-- Close a resource, open or not, that was opened at some time. -/
def close (ledger : Ledger R) (resource : R) : Ledger R :=
  if ledger.opened resource = 0 then ledger
  else
    { ledger with
      isOpen := Function.update ledger.isOpen resource false
      closed := Function.update ledger.closed resource (ledger.closed resource + 1) }

/-- Close what a holder owns, if anything. -/
def closeOwned (ledger : Ledger R) : Option R → Ledger R
  | some resource => ledger.close resource
  | none => ledger

/-- The holders own exactly the open resources, each of them once, and the counts agree. -/
structure Balanced (ledger : Ledger R) (holds : O → Option R) : Prop where
  held_open : ∀ holder resource, holds holder = some resource → ledger.isOpen resource = true
  owned : ∀ resource, ledger.isOpen resource = true → ∃! holder, holds holder = some resource
  count : ∀ resource, ledger.opened resource =
    ledger.closed resource + if ledger.isOpen resource then 1 else 0

variable {ledger : Ledger R} {holds : O → Option R}

omit [DecidableEq O] [DecidableEq R] in
/-- A resource has one holder. -/
theorem Balanced.holder_eq (h : Balanced ledger holds) {first second : O} {resource : R}
    (hfirst : holds first = some resource) (hsecond : holds second = some resource) :
    first = second :=
  (h.owned resource (h.held_open first resource hfirst)).unique hfirst hsecond

/-- A close of what was never opened does nothing. -/
theorem close_never_opened {resource : R} (hopened : ledger.opened resource = 0) :
    ledger.close resource = ledger :=
  if_pos hopened

/-- A close of what was opened at some time. -/
theorem close_opened {resource : R} (hopened : ledger.opened resource ≠ 0) :
    ledger.close resource =
      { ledger with
        isOpen := Function.update ledger.isOpen resource false
        closed := Function.update ledger.closed resource (ledger.closed resource + 1) } :=
  if_neg hopened

omit [DecidableEq O] [DecidableEq R] in
/-- What a holder owns was opened. -/
theorem Balanced.opened (h : Balanced ledger holds) {holder : O} {resource : R}
    (hholder : holds holder = some resource) : ledger.opened resource ≠ 0 := by
  have hcount := h.count resource
  rw [h.held_open holder resource hholder, if_pos rfl] at hcount
  omega

/-- A holder that owns nothing acquires a resource that is not open. -/
theorem Balanced.acquire (h : Balanced ledger holds) {holder : O} {resource : R}
    (hempty : holds holder = none) (hfresh : ledger.isOpen resource = false) :
    Balanced (ledger.acquire resource) (Function.update holds holder (some resource)) := by
  have hunheld : ∀ other, holds other ≠ some resource := by
    intro other hother
    exact absurd ((h.held_open other resource hother).symm.trans hfresh) (by simp)
  refine ⟨?_, ?_, ?_⟩
  · intro other found hfound
    by_cases heq : found = resource
    · rw [heq]
      exact Function.update_self ..
    · refine (Function.update_of_ne heq ..).trans ?_
      by_cases hholder : other = holder
      · rw [hholder, Function.update_self] at hfound
        exact absurd (Option.some.inj hfound).symm heq
      · rw [Function.update_of_ne hholder] at hfound
        exact h.held_open other found hfound
  · intro found hfound
    by_cases heq : found = resource
    · subst heq
      refine ⟨holder, Function.update_self .., ?_⟩
      intro other hother
      by_contra hne
      rw [Function.update_of_ne hne] at hother
      exact hunheld other hother
    · replace hfound : ledger.isOpen found = true :=
        (Function.update_of_ne heq ..).symm.trans hfound
      obtain ⟨owner, howner, hunique⟩ := h.owned found hfound
      have hne : owner ≠ holder := by
        intro hholder
        rw [hholder, hempty] at howner
        cases howner
      refine ⟨owner, (Function.update_of_ne hne ..).trans howner, ?_⟩
      intro other hother
      refine hunique other ?_
      by_cases hholder : other = holder
      · rw [hholder, Function.update_self] at hother
        exact absurd (Option.some.inj hother).symm heq
      · rwa [Function.update_of_ne hholder] at hother
  · intro found
    by_cases heq : found = resource
    · subst heq
      have hcount := h.count found
      simp [hfresh] at hcount
      simp [Ledger.acquire, hcount]
    · simpa [Ledger.acquire, heq] using h.count found

/-- A holder closes what it owns. -/
theorem Balanced.release (h : Balanced ledger holds) (holder : O) :
    Balanced (ledger.closeOwned (holds holder)) (Function.update holds holder none) := by
  cases hholds : holds holder with
  | none =>
      have hsame : Function.update holds holder none = holds := by
        rw [← hholds, Function.update_eq_self]
      rw [hsame]
      exact h
  | some resource =>
      rw [closeOwned, close_opened (h.opened hholds)]
      refine ⟨?_, ?_, ?_⟩
      · intro other found hfound
        have hne : other ≠ holder := by
          intro heq
          rw [heq, Function.update_self] at hfound
          cases hfound
        rw [Function.update_of_ne hne] at hfound
        have hresource : found ≠ resource := by
          intro heq
          subst heq
          exact hne (h.holder_eq hfound hholds)
        exact (Function.update_of_ne hresource ..).trans (h.held_open other found hfound)
      · intro found hfound
        have hresource : found ≠ resource := by
          intro heq
          rw [heq] at hfound
          exact absurd ((Function.update_self ..).symm.trans hfound) (by simp)
        replace hfound : ledger.isOpen found = true :=
          (Function.update_of_ne hresource ..).symm.trans hfound
        obtain ⟨owner, howner, hunique⟩ := h.owned found hfound
        have hne : owner ≠ holder := by
          intro heq
          rw [heq, hholds] at howner
          exact hresource (Option.some.inj howner).symm
        refine ⟨owner, (Function.update_of_ne hne ..).trans howner, ?_⟩
        intro other hother
        by_cases heq : other = holder
        · rw [heq, Function.update_self] at hother
          cases hother
        · rw [Function.update_of_ne heq] at hother
          exact hunique other hother
      · intro found
        by_cases heq : found = resource
        · subst heq
          have hcount := h.count found
          simp [h.held_open holder found hholds] at hcount
          simp [hcount]
        · simpa [heq] using h.count found

omit [DecidableEq R] in
/-- A holder hands over what it owns to one that owns nothing. -/
theorem Balanced.move (h : Balanced ledger holds) {source target : O}
    (hempty : holds target = none) (hne : target ≠ source) :
    Balanced ledger
      (Function.update (Function.update holds source none) target (holds source)) := by
  -- who held `resource` before, and who does now
  have hmoved : ∀ holder resource,
      Function.update (Function.update holds source none) target (holds source) holder =
        some resource ↔
      (holder = target ∧ holds source = some resource) ∨
        (holder ≠ target ∧ holder ≠ source ∧ holds holder = some resource) := by
    intro holder resource
    by_cases htarget : holder = target
    · subst htarget
      simp
    · by_cases hsource : holder = source
      · subst hsource
        simp [htarget]
      · simp [htarget, hsource]
  refine ⟨?_, ?_, h.count⟩
  · intro holder resource hholder
    rcases (hmoved holder resource).mp hholder with ⟨_, hsource⟩ | ⟨_, _, hkept⟩
    · exact h.held_open source resource hsource
    · exact h.held_open holder resource hkept
  · intro resource hopen
    obtain ⟨owner, howner, hunique⟩ := h.owned resource hopen
    have htarget : owner ≠ target := by
      intro heq
      rw [heq, hempty] at howner
      cases howner
    by_cases hsource : owner = source
    · subst hsource
      refine ⟨target, (hmoved target resource).mpr (Or.inl ⟨rfl, howner⟩), ?_⟩
      intro other hother
      rcases (hmoved other resource).mp hother with ⟨rfl, _⟩ | ⟨_, hother, hkept⟩
      · rfl
      · exact absurd (hunique other hkept) hother
    · refine ⟨owner, (hmoved owner resource).mpr (Or.inr ⟨htarget, hsource, howner⟩), ?_⟩
      intro other hother
      rcases (hmoved other resource).mp hother with ⟨_, hgiven⟩ | ⟨_, _, hkept⟩
      · exact absurd (hunique source hgiven).symm hsource
      · exact hunique other hkept

/-- A holder closes what it owns and takes over what another one owns. -/
theorem Balanced.assign {target source : O} {owned : Option R} (h : Balanced ledger holds)
    (hne : target ≠ source) (howned : holds source = owned) :
    Balanced (ledger.closeOwned (holds target))
      (Function.update (Function.update holds target owned) source none) := by
  have hreleased := h.release target
  have hkept : Function.update holds target none source = owned := by
    rw [Function.update_of_ne hne.symm, howned]
  have hmoved := hreleased.move (Function.update_self ..) hne
  rwa [hkept, Function.update_comm hne.symm, Function.update_idem] at hmoved

omit [DecidableEq O] [DecidableEq R] in
/-- The balance is lost when a holder gives up an open resource and nobody takes it. -/
theorem Balanced.not_stranded (h : Balanced ledger holds) {after : O → Option R} {holder : O}
    {resource : R} (hholder : holds holder = some resource)
    (hafter : ∀ other, after other = some resource →
      other ≠ holder ∧ holds other = some resource) :
    ¬ Balanced ledger after := by
  intro hbalanced
  obtain ⟨other, hother, _⟩ := hbalanced.owned resource (h.held_open holder resource hholder)
  obtain ⟨hne, hheld⟩ := hafter other hother
  exact hne (h.holder_eq hheld hholder)

omit [DecidableEq O] in
/-- The balance is lost when a resource is closed over the head of its holder, or twice. -/
theorem Balanced.not_closed (h : Balanced ledger holds) {resource : R}
    (hopened : ledger.opened resource ≠ 0) : ¬ Balanced (ledger.close resource) holds := by
  rw [close_opened hopened]
  intro hbalanced
  cases hopen : ledger.isOpen resource with
  | true =>
      obtain ⟨holder, hholder, _⟩ := h.owned resource hopen
      have hclosed := hbalanced.held_open holder resource hholder
      simp at hclosed
  | false =>
      have hbefore := h.count resource
      have hafter := hbalanced.count resource
      rw [hopen] at hbefore
      simp only [Function.update_self] at hafter
      omega

end Ledger

end Execution
