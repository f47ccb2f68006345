import Toad.Concurrency.IOContext
import Toad.Execution.Ledger
import Toad.Execution.Machine

/-!
# Ownership of descriptors

`net/socket.hpp`, `net/listener.hpp`, and the parts of `concurrency/iocontext.hpp` and
`concurrency/future.hpp` that pass a descriptor on. A descriptor comes from `socket()` or from
an accept; from then on it belongs to a `Socket` or `Listener` object, to a pending connect, or
to the `Socket` inside a `FutureState`. An empty `Socket` holds `-1`, an empty `Listener` holds
`0`. `State.holds` reads the owners off the objects, and each step either is one of the rules
of the ledger or breaks the balance.
-/

namespace Toad

namespace Descriptors

open Execution

variable {V F : Type} [DecidableEq V] [DecidableEq F]

/-- A number that can be a descriptor: those of the source are greater than zero. -/
def descriptor (sockfd : Int) : Option Int :=
  if 0 < sockfd then some sockfd else none

/-- The descriptor of an optional socket. -/
def socketDescriptor (value : Option Socket) : Option Int :=
  value.bind fun socket => descriptor socket.sockfd

/-- An operation under way whose completion will settle a future. A connect is submitted with a
descriptor that `socket()` returned. -/
inductive Pending where
  | accept (pending : PendingListen)
  | connect (pending : PendingConnect) (positive : 0 < pending.sockfd)
  deriving DecidableEq

/-- The descriptor that a pending operation owns: an accept only borrows that of its listener. -/
def Pending.owned : Pending → Option Int
  | .accept _ => none
  | .connect pending _ => descriptor pending.sockfd

/-- Who can own a descriptor. -/
inductive Holder (V F : Type) where
  | socket (name : V)
  | listener (name : V)
  | connecting (future : F)
  | value (future : F)
  deriving DecidableEq, Repr

/-- The live `Socket` and `Listener` objects by name, the pending operations and the futures that
they will settle, and the ledger of the operating system. An accept yields a `Socket` and a
connect a `std::optional<Socket>`; both are optional here. -/
structure State (V F : Type) where
  sockets : V → Option Int := fun _ => none
  listeners : V → Option Int := fun _ => none
  pending : F → Option Pending := fun _ => none
  futures : F → Option (FutureState (Option Socket) Unit) := fun _ => none
  ledger : Ledger Int := {}

namespace State

/-- Assign a `Socket` object; `none` ends its life. -/
def setSocket (state : State V F) (name : V) (content : Option Int) : State V F :=
  { state with sockets := Function.update state.sockets name content }

/-- Assign a `Listener` object; `none` ends its life. -/
def setListener (state : State V F) (name : V) (content : Option Int) : State V F :=
  { state with listeners := Function.update state.listeners name content }

/-- Allocate or delete a pending operation. -/
def setPending (state : State V F) (future : F) (content : Option Pending) : State V F :=
  { state with pending := Function.update state.pending future content }

/-- Assign a `FutureState`; `none` ends its life. -/
def setFuture (state : State V F) (future : F)
    (content : Option (FutureState (Option Socket) Unit)) : State V F :=
  { state with futures := Function.update state.futures future content }

/-- The operating system hands out a descriptor. -/
def acquire (state : State V F) (sockfd : Int) : State V F :=
  { state with ledger := state.ledger.acquire sockfd }

/-- `close(sockfd)`; a number that cannot be a descriptor, or was never handed out, closes
nothing. -/
def close (state : State V F) (sockfd : Int) : State V F :=
  { state with ledger := state.ledger.closeOwned (descriptor sockfd) }

/-- `if (sockfd != marker) close(sockfd)`, with the marker of an empty object. -/
def closeUnless (state : State V F) (marker sockfd : Int) : State V F :=
  if sockfd = marker then state else state.close sockfd

/-- `~Socket` on the number it holds. -/
def destroySocket (state : State V F) (sockfd : Int) : State V F :=
  state.closeUnless (-1) sockfd

/-- `~Listener` on the number it holds. -/
def destroyListener (state : State V F) (sockfd : Int) : State V F :=
  state.closeUnless 0 sockfd

/-- Destroy an optional socket. -/
def destroyValue (state : State V F) : Option Socket → State V F
  | some socket => state.destroySocket socket.sockfd
  | none => state

/-- `handle.set_value(value)`: the value goes into the future, or is destroyed with the local
variable or temporary it came in. -/
def setValue (state : State V F) (future : F) (value : Option Socket) : Option (State V F) :=
  match FutureState.setValue (state.futures future) value with
  | .expired | .neverAwaited => some (state.destroyValue value)
  | .assertFailed => none
  | .stored following _ => some (state.setFuture future (some following))

/-- `~FutureState`: the destructor of the value runs if `is_ready` is false. On raw storage it
finds whatever is there. -/
def destroyFuture (state : State V F) (future : FutureState (Option Socket) Unit)
    (garbage : Option Socket) : State V F :=
  if future.isReady then state else state.destroyValue (future.value.getD garbage)

/-- What each holder owns. -/
def holds (state : State V F) : Holder V F → Option Int
  | .socket name => (state.sockets name).bind descriptor
  | .listener name => (state.listeners name).bind descriptor
  | .connecting future => (state.pending future).bind Pending.owned
  | .value future =>
      (state.futures future).bind fun content => content.value.bind socketDescriptor

end State

/-- The steps. `socket()` and an accept name the descriptor they return, a dropped future what
its raw storage holds. -/
inductive Action (V F : Type) where
  | newListener (name : V) (sockfd : Int)
  | emptyListener (name : V)
  | submitAccept (future : F) (listener : V)
  | submitConnect (future : F) (sockfd : Int)
  | awaitSuspend (future : F)
  | complete (future : F) (res : Int)
  | awaitResume (future : F) (name : V)
  | dropFuture (future : F) (garbage : Option Socket)
  | constructSocket (target source : V)
  | assignSocket (target source : V)
  | endSocket (name : V)
  | constructListener (target source : V)
  | assignListener (target source : V)
  | endListener (name : V)
  deriving DecidableEq, Repr

/-- `_handle_pending` for the two operations that pass descriptors on, followed by the deletion
of the `PendingVariant`. An accept brings a new descriptor with it. -/
def complete (state : State V F) (future : F) (res : Int) : Option (State V F) :=
  match state.pending future with
  | none => none
  | some (.accept pending) =>
      if res = 0 ∨ state.ledger.isOpen res then none
      else
        let state := if 0 < res then state.acquire res else state
        ((IOContext.handlePendingListen res pending).values.map some).foldlM
          (fun state value => state.setValue future value) (state.setPending future none)
  | some (.connect pending _) =>
      (IOContext.handlePendingConnect res pending).values.foldlM
        (fun state value => state.setValue future value) (state.setPending future none)

/-- One step. -/
def next (state : State V F) : Action V F → Option (State V F)
  | .newListener name sockfd =>
      if state.listeners name = none ∧ 0 < sockfd ∧ state.ledger.isOpen sockfd = false then
        some ((state.acquire sockfd).setListener name (some sockfd))
      else none
  | .emptyListener name =>
      if state.listeners name = none then some (state.setListener name (some 0)) else none
  | .submitAccept future listener =>
      if state.futures future = none ∧ state.pending future = none then
        (state.listeners listener).map fun sockfd =>
          (state.setFuture future (some {})).setPending future (some (.accept ⟨sockfd⟩))
      else none
  | .submitConnect future sockfd =>
      if h : 0 < sockfd ∧ state.futures future = none ∧ state.pending future = none ∧
          state.ledger.isOpen sockfd = false then
        some (((state.setFuture future (some {})).acquire sockfd).setPending future
          (some (.connect ⟨sockfd⟩ h.1)))
      else none
  | .awaitSuspend future =>
      (state.futures future).map fun content =>
        state.setFuture future (some (content.awaitSuspend ()).1)
  | .complete future res => complete state future res
  | .awaitResume future name =>
      if state.sockets name = none then
        match (state.futures future).bind FutureState.awaitResume with
        | some (some value, content) =>
            some ((state.setFuture future (some content)).setSocket name
              (value.map Socket.sockfd))
        | _ => none
      else none
  | .dropFuture future garbage =>
      (state.futures future).map fun content =>
        (state.destroyFuture content garbage).setFuture future none
  | .constructSocket target source =>
      if state.sockets target = none then
        -- the member starts as -1, so the constructor closes nothing
        (state.sockets source).map fun sockfd =>
          (state.setSocket source (some (-1))).setSocket target (some sockfd)
      else none
  | .assignSocket target source =>
      match state.sockets target, state.sockets source with
      | some old, some sockfd =>
          if target = source then some state
          else
            some (((state.destroySocket old).setSocket target (some sockfd)).setSocket source
              (some (-1)))
      | _, _ => none
  | .endSocket name =>
      (state.sockets name).map fun sockfd => (state.destroySocket sockfd).setSocket name none
  | .constructListener target source =>
      if state.listeners target = none then
        (state.listeners source).map fun sockfd =>
          (state.setListener source (some 0)).setListener target (some sockfd)
      else none
  | .assignListener target source =>
      match state.listeners target, state.listeners source with
      | some _, some sockfd =>
          if target = source then some state
          else
            -- unlike `Socket`, nothing closes what the target held
            some ((state.setListener target (some sockfd)).setListener source (some 0))
      | _, _ => none
  | .endListener name =>
      (state.listeners name).map fun sockfd =>
        (state.destroyListener sockfd).setListener name none

/-- The objects of a program that uses the library, in any order of steps. -/
def machine (V F : Type) [DecidableEq V] [DecidableEq F] :
    Machine (State V F) (Action V F) where
  init := {}
  next := next

/-- Every open descriptor has exactly one owner, every owner's descriptor is open, and no
descriptor was closed more often than it was obtained. -/
def Owned (state : State V F) : Prop :=
  state.ledger.Balanced state.holds

/-- The step does not strand or steal a descriptor: a connect does not fail, a `Listener` is
assigned only over one that owns nothing, and a `FutureState` is destroyed only when its value
owns nothing, and before it is ready only if its raw storage does not look like a socket with a
number that was ever handed out. -/
def KeepsOwner (state : State V F) : Action V F → Prop
  | .complete future res =>
      match state.pending future with
      | some (.connect _ _) => 0 ≤ res
      | _ => True
  | .assignListener target source => target = source ∨ state.holds (.listener target) = none
  | .dropFuture future garbage =>
      state.holds (.value future) = none ∧
        ((state.futures future).map FutureState.isReady = some false →
          ∀ sockfd ∈ socketDescriptor garbage, state.ledger.opened sockfd = 0)
  | _ => True

instance (state : State V F) (action : Action V F) : Decidable (KeepsOwner state action) :=
  match action with
  | .complete future res =>
      match h : state.pending future with
      | some (.connect _ _) => decidable_of_iff (0 ≤ res) (by simp [KeepsOwner, h])
      | some (.accept _) => isTrue (by simp [KeepsOwner, h])
      | none => isTrue (by simp [KeepsOwner, h])
  | .assignListener _ _ => inferInstanceAs (Decidable (_ ∨ _))
  | .dropFuture _ _ => inferInstanceAs (Decidable (_ ∧ _))
  | .newListener _ _ | .emptyListener _ | .submitAccept _ _ | .submitConnect _ _ => isTrue trivial
  | .awaitSuspend _ | .awaitResume _ _ | .constructSocket _ _ => isTrue trivial
  | .assignSocket _ _ | .endSocket _ | .constructListener _ _ | .endListener _ => isTrue trivial

/-- The storage of a future is raw until the future is ready. -/
def Raw (state : State V F) : Prop :=
  ∀ future content, state.futures future = some content → content.isReady = false →
    content.value = none

/-- The invariant of a run that keeps every descriptor with its owner. -/
structure Inv (state : State V F) : Prop where
  owned : Owned state
  raw : Raw state

section Objects

variable {state following : State V F}

/-- Assigning a `Socket` changes one holder. -/
@[simp] theorem holds_set_socket (state : State V F) (name : V) (content : Option Int) :
    (state.setSocket name content).holds =
      Function.update state.holds (.socket name) (content.bind descriptor) := by
  funext holder
  cases holder with
  | socket other =>
      by_cases heq : other = name
      · subst heq
        simp [State.setSocket, State.holds]
      · simp [State.setSocket, State.holds, heq]
  | listener other | connecting other | value other => simp [State.setSocket, State.holds]

/-- Assigning a `Listener` changes one holder. -/
@[simp] theorem holds_set_listener (state : State V F) (name : V) (content : Option Int) :
    (state.setListener name content).holds =
      Function.update state.holds (.listener name) (content.bind descriptor) := by
  funext holder
  cases holder with
  | listener other =>
      by_cases heq : other = name
      · subst heq
        simp [State.setListener, State.holds]
      · simp [State.setListener, State.holds, heq]
  | socket other | connecting other | value other => simp [State.setListener, State.holds]

/-- Assigning a pending operation changes one holder. -/
@[simp] theorem holds_set_pending (state : State V F) (future : F) (content : Option Pending) :
    (state.setPending future content).holds =
      Function.update state.holds (.connecting future) (content.bind Pending.owned) := by
  funext holder
  cases holder with
  | connecting other =>
      by_cases heq : other = future
      · subst heq
        simp [State.setPending, State.holds]
      · simp [State.setPending, State.holds, heq]
  | socket other | listener other | value other => simp [State.setPending, State.holds]

/-- Assigning a `FutureState` changes one holder. -/
@[simp] theorem holds_set_future (state : State V F) (future : F)
    (content : Option (FutureState (Option Socket) Unit)) :
    (state.setFuture future content).holds =
      Function.update state.holds (.value future)
        (content.bind fun content => content.value.bind socketDescriptor) := by
  funext holder
  cases holder with
  | value other =>
      by_cases heq : other = future
      · subst heq
        simp [State.setFuture, State.holds]
      · simp [State.setFuture, State.holds, heq]
  | socket other | listener other | connecting other => simp [State.setFuture, State.holds]

omit [DecidableEq V] [DecidableEq F] in
/-- Neither the destructor of an empty object nor that of an object without a descriptor closes
anything, so the marker does not matter. -/
theorem close_unless_eq {marker : Int} (state : State V F) (sockfd : Int) (hmarker : marker ≤ 0) :
    state.closeUnless marker sockfd = state.close sockfd := by
  rw [State.closeUnless]
  split
  · rename_i heq
    have hnone : descriptor sockfd = none := by
      simp only [descriptor, ite_eq_right_iff, reduceCtorEq]
      omega
    rw [State.close, hnone]
    rfl
  · rfl

omit [DecidableEq V] [DecidableEq F] in
/-- Destroying an optional socket closes its descriptor. -/
theorem destroy_value_eq (state : State V F) (value : Option Socket) :
    state.destroyValue value =
      { state with ledger := state.ledger.closeOwned (socketDescriptor value) } := by
  cases value with
  | none => rfl
  | some socket => exact close_unless_eq state socket.sockfd (by omega)

/-- Assigning nothing to a holder that owns nothing changes nothing. -/
theorem update_none {holder : Holder V F} (h : state.holds holder = none) :
    Function.update state.holds holder none = state.holds := by
  rw [← h, Function.update_eq_self]

omit [DecidableEq V] in
/-- Assigning a future that is ready, or whose storage is raw, keeps the others as they are. -/
theorem Raw.setFuture (h : Raw state) (future : F)
    {content : Option (FutureState (Option Socket) Unit)}
    (hcontent : ∀ found, content = some found → found.isReady = false → found.value = none) :
    Raw (state.setFuture future content) := by
  intro other found hfound
  by_cases heq : other = future
  · subst heq
    have hself : (state.setFuture other content).futures other = content :=
      Function.update_self ..
    exact hcontent found (hself.symm.trans hfound)
  · have hother : (state.setFuture future content).futures other = state.futures other :=
      Function.update_of_ne heq ..
    exact h other found (hother.symm.trans hfound)

omit [DecidableEq V] in
/-- `set_value` destroys the value, or stores it in a future that was not ready. -/
theorem set_value_cases {future : F} {value : Option Socket}
    (h : state.setValue future value = some following) :
    following = state.destroyValue value ∨
      ∃ content, state.futures future = some content ∧ content.isReady = false ∧
        following = state.setFuture future
          (some { content with isReady := true, value := some value }) := by
  simp only [State.setValue] at h
  split at h
  · exact Or.inl (Option.some.inj h).symm
  · exact Or.inl (Option.some.inj h).symm
  · cases h
  · rename_i stored handle hstored
    obtain ⟨content, hcontent, hready, rfl⟩ := FutureState.set_value_stored hstored
    exact Or.inr ⟨content, hcontent, hready, (Option.some.inj h).symm⟩

/-! ## The ways of a descriptor -/

omit [DecidableEq V] [DecidableEq F] in
/-- Nothing changes hands. -/
theorem Inv.kept (h : Inv state) (hledger : following.ledger = state.ledger)
    (hholds : following.holds = state.holds) (hraw : Raw following) : Inv following := by
  refine ⟨?_, hraw⟩
  rw [Owned, hledger, hholds]
  exact h.owned

/-- A holder that owned nothing gets a new descriptor. -/
theorem Inv.acquired (h : Inv state) {holder : Holder V F} {sockfd : Int}
    (hempty : state.holds holder = none) (hpos : 0 < sockfd)
    (hfresh : state.ledger.isOpen sockfd = false)
    (hledger : following.ledger = state.ledger.acquire sockfd)
    (hholds : following.holds = Function.update state.holds holder (descriptor sockfd))
    (hraw : Raw following) : Inv following := by
  refine ⟨?_, hraw⟩
  rw [Owned, hledger, hholds, descriptor, if_pos hpos]
  exact h.owned.acquire hempty hfresh

/-- A holder closes what it owned. -/
theorem Inv.released (h : Inv state) (holder : Holder V F)
    (hledger : following.ledger = state.ledger.closeOwned (state.holds holder))
    (hholds : following.holds = Function.update state.holds holder none)
    (hraw : Raw following) : Inv following := by
  refine ⟨?_, hraw⟩
  rw [Owned, hledger, hholds]
  exact h.owned.release holder

/-- A holder hands over to one that owned nothing. -/
theorem Inv.moved (h : Inv state) {target source : Holder V F} {owned : Option Int}
    (hempty : state.holds target = none) (hsource : state.holds source = owned)
    (hne : target ≠ source) (hledger : following.ledger = state.ledger)
    (hholds : following.holds =
      Function.update (Function.update state.holds source none) target owned)
    (hraw : Raw following) : Inv following := by
  refine ⟨?_, hraw⟩
  rw [Owned, hledger, hholds, ← hsource]
  exact h.owned.move hempty hne

/-- A holder closes what it owned and takes over from another one. -/
theorem Inv.assigned (h : Inv state) {target source : Holder V F} {owned : Option Int}
    (hsource : state.holds source = owned) (hne : target ≠ source)
    (hledger : following.ledger = state.ledger.closeOwned (state.holds target))
    (hholds : following.holds =
      Function.update (Function.update state.holds target owned) source none)
    (hraw : Raw following) : Inv following := by
  refine ⟨?_, hraw⟩
  rw [Owned, hledger, hholds]
  exact h.owned.assign hne hsource

/-- Whoever hands a value to `set_value` gives its descriptor away: to the future, or to the
operating system when the value is destroyed. -/
theorem Inv.setValue {given : State V F} {future : F} {value : Option Socket} (h : Inv state)
    (source : Holder V F) (hset : given.setValue future value = some following)
    (hsource : state.holds source = socketDescriptor value) (hne : source ≠ .value future)
    (hgiven : given.holds = Function.update state.holds source none)
    (hledger : given.ledger = state.ledger) (hfutures : given.futures = state.futures) :
    Inv following := by
  have hraw : Raw given := by
    intro other found hfound
    exact h.raw other found (hfutures ▸ hfound)
  rcases set_value_cases hset with rfl | ⟨content, hcontent, hready, rfl⟩
  · rw [destroy_value_eq]
    refine h.released source ?_ hgiven hraw
    rw [hsource, ← hledger]
  · rw [hfutures] at hcontent
    have hempty : state.holds (.value future) = none := by
      simp [State.holds, hcontent, h.raw future content hcontent hready]
    refine h.moved hempty hsource hne.symm hledger ?_ (hraw.setFuture future ?_)
    · rw [holds_set_future, hgiven]
      rfl
    · intro found hfound hnot
      cases hfound
      cases hnot

/-- A completion keeps every descriptor with its owner, unless a connect has failed. -/
theorem Inv.complete {future : F} {res : Int} (h : Inv state)
    (hguard : KeepsOwner state (.complete future res))
    (hnext : complete state future res = some following) : Inv following := by
  simp only [Descriptors.complete] at hnext
  split at hnext
  · cases hnext
  · rename_i pending hpending
    simp only [IOContext.handlePendingListen, List.map_cons, List.map_nil, List.foldlM_cons,
      List.foldlM_nil, bind_pure, Option.ite_none_left_eq_some, not_or, Bool.not_eq_true] at hnext
    obtain ⟨⟨hzero, hclosed⟩, hset⟩ := hnext
    have hempty : state.holds (.connecting future) = none := by
      simp [State.holds, hpending, Pending.owned]
    by_cases hpos : 0 < res
    · -- the new descriptor is in the completion: as if it were that of a pending connect
      have harrived : Inv ((state.acquire res).setPending future (some (.connect ⟨res⟩ hpos))) :=
        h.acquired hempty hpos hclosed rfl (holds_set_pending ..) h.raw
      rw [if_pos hpos] at hset
      refine harrived.setValue (.connecting future) hset ?_ (by simp) ?_ rfl rfl
      · simp [socketDescriptor, Pending.owned]
      · simp
    · rw [if_neg hpos] at hset
      refine h.setValue (.connecting future) hset ?_ (by simp) (by simp) rfl rfl
      simp [hempty, socketDescriptor, descriptor, hpos]
  · rename_i pending hpositive hpending
    have hres : ¬ res < 0 := by
      simp only [KeepsOwner, hpending] at hguard
      omega
    simp only [IOContext.handlePendingConnect, if_neg hres, List.foldlM_cons, List.foldlM_nil,
      bind_pure] at hnext
    refine h.setValue (.connecting future) hnext ?_ (by simp) ?_ rfl rfl
    · simp [State.holds, hpending, Pending.owned, socketDescriptor]
    · simp

omit [DecidableEq V] in
/-- A fresh future has raw storage. -/
theorem Raw.fresh_future (h : Raw state) (future : F) : Raw (state.setFuture future (some {})) := by
  refine h.setFuture future fun found hfound _ => ?_
  cases hfound
  rfl

/-- A fresh future owns nothing. -/
theorem holds_fresh_future {future : F} (hfuture : state.futures future = none) :
    (state.setFuture future (some {})).holds = state.holds := by
  have hvalue : state.holds (.value future) = none := by simp [State.holds, hfuture]
  exact (holds_set_future ..).trans (update_none hvalue)

/-- Suspending on a future leaves its storage alone. -/
theorem Inv.await_suspend {future : F} (h : Inv state)
    (hnext : next state (.awaitSuspend future) = some following) : Inv following := by
  simp only [next, Option.map_eq_some_iff] at hnext
  obtain ⟨content, hcontent, rfl⟩ := hnext
  have hvalue : (content.awaitSuspend ()).1.value = content.value := by
    simp only [FutureState.awaitSuspend]
    split <;> rfl
  have hready : (content.awaitSuspend ()).1.isReady = content.isReady := by
    simp only [FutureState.awaitSuspend]
    split <;> rfl
  refine h.kept rfl ?_ (h.raw.setFuture future ?_)
  · have hsame : state.holds (.value future) =
        (content.awaitSuspend ()).1.value.bind socketDescriptor := by
      simp [State.holds, hcontent, hvalue]
    rw [holds_set_future, Option.bind_some, ← hsame, Function.update_eq_self]
  · intro found hfound hnot
    cases hfound
    rw [hvalue]
    exact h.raw future content hcontent (hready ▸ hnot)

/-- The value of a future moves to a new `Socket`. -/
theorem Inv.await_resume {future : F} {name : V} (h : Inv state)
    (hnext : next state (.awaitResume future name) = some following) : Inv following := by
  simp only [next, Option.ite_none_right_eq_some] at hnext
  obtain ⟨hdead, hnext⟩ := hnext
  split at hnext
  · rename_i value after hresume
    cases hnext
    obtain ⟨content, hcontent, hresume⟩ := Option.bind_eq_some_iff.mp hresume
    simp only [FutureState.awaitResume, Option.ite_none_right_eq_some, Option.some.injEq,
      Prod.mk.injEq] at hresume
    obtain ⟨hready, hvalue, rfl⟩ := hresume
    have hsource : state.holds (.value future) = (value.map Socket.sockfd).bind descriptor := by
      simp only [State.holds, hcontent, hvalue, Option.bind_some]
      cases value <;> rfl
    have hempty : state.holds (.socket name) = none := by simp [State.holds, hdead]
    refine h.moved hempty hsource (by simp) rfl ?_
      (h.raw.setFuture future fun found hfound _ => by cases hfound; rfl)
    rw [holds_set_socket, holds_set_future]
    rfl
  · cases hnext

/-- A future that owns nothing is destroyed without closing anything. -/
theorem Inv.drop_future {future : F} {garbage : Option Socket} (h : Inv state)
    (hguard : KeepsOwner state (.dropFuture future garbage))
    (hnext : next state (.dropFuture future garbage) = some following) : Inv following := by
  simp only [next, Option.map_eq_some_iff] at hnext
  obtain ⟨content, hcontent, rfl⟩ := hnext
  obtain ⟨hempty, hgarbage⟩ := hguard
  have hnothing : state.destroyFuture content garbage = state := by
    rw [State.destroyFuture]
    split
    · rfl
    · rename_i hready
      have hraw := h.raw future content hcontent (by simpa using hready)
      have hclosed : state.ledger.closeOwned (socketDescriptor garbage) = state.ledger := by
        cases hsockfd : socketDescriptor garbage with
        | none => rfl
        | some sockfd =>
            refine Ledger.close_never_opened (hgarbage ?_ sockfd hsockfd)
            simpa [hcontent] using hready
      rw [hraw, Option.getD_none, destroy_value_eq, hclosed]
  rw [hnothing]
  exact h.kept rfl ((holds_set_future ..).trans (update_none hempty))
    (h.raw.setFuture future fun found hfound => by cases hfound)

/-- Assigning a `Socket` closes what the target owned and moves the descriptor of the source. -/
theorem Inv.assign_socket {target source : V} (h : Inv state)
    (hnext : next state (.assignSocket target source) = some following) : Inv following := by
  simp only [next] at hnext
  split at hnext
  · rename_i old sockfd htarget hsource
    by_cases hsame : target = source
    · rw [if_pos hsame] at hnext
      cases hnext
      exact h
    · rw [if_neg hsame] at hnext
      cases hnext
      have hold : state.holds (.socket target) = descriptor old := by
        simp [State.holds, htarget]
      have howned : state.holds (.socket source) = descriptor sockfd := by
        simp [State.holds, hsource]
      have hne : Holder.socket target ≠ (.socket source : Holder V F) := by simpa using hsame
      rw [State.destroySocket, close_unless_eq _ _ (by omega)]
      refine h.assigned howned hne (by rw [hold]; rfl) ?_ h.raw
      rw [holds_set_socket, holds_set_socket]
      rfl
  · cases hnext

/-- Assigning a `Listener` to one that owns nothing moves the descriptor of the source. -/
theorem Inv.assign_listener {target source : V} (h : Inv state)
    (hguard : KeepsOwner state (.assignListener target source))
    (hnext : next state (.assignListener target source) = some following) : Inv following := by
  simp only [next] at hnext
  split at hnext
  · rename_i old sockfd htarget hsource
    by_cases hsame : target = source
    · rw [if_pos hsame] at hnext
      cases hnext
      exact h
    · rw [if_neg hsame] at hnext
      cases hnext
      have hempty : state.holds (.listener target) = none := hguard.resolve_left hsame
      have howned : state.holds (.listener source) = descriptor sockfd := by
        simp [State.holds, hsource]
      have hne : Holder.listener target ≠ (.listener source : Holder V F) := by
        simpa using hsame
      refine h.assigned howned hne (by rw [hempty]; rfl) ?_ h.raw
      rw [holds_set_listener, holds_set_listener]
      rfl
  · cases hnext

/-- Every step that keeps the owners keeps the invariant. -/
theorem Inv.step {action : Action V F} (h : Inv state) (hguard : KeepsOwner state action)
    (hnext : next state action = some following) : Inv following := by
  cases action with
  | newListener name sockfd =>
      simp only [next, Option.ite_none_right_eq_some, Option.some.injEq] at hnext
      obtain ⟨⟨hdead, hpos, hfresh⟩, rfl⟩ := hnext
      have hempty : state.holds (.listener name) = none := by simp [State.holds, hdead]
      exact h.acquired hempty hpos hfresh rfl (holds_set_listener ..) h.raw
  | emptyListener name =>
      simp only [next, Option.ite_none_right_eq_some, Option.some.injEq] at hnext
      obtain ⟨hdead, rfl⟩ := hnext
      have hempty : state.holds (.listener name) = none := by simp [State.holds, hdead]
      exact h.kept rfl ((holds_set_listener ..).trans (update_none hempty)) h.raw
  | submitAccept future listener =>
      simp only [next, Option.ite_none_right_eq_some, Option.map_eq_some_iff] at hnext
      obtain ⟨⟨hfuture, hpending⟩, sockfd, _, rfl⟩ := hnext
      have hconnecting : state.holds (.connecting future) = none := by
        simp [State.holds, hpending]
      refine h.kept rfl ?_ (h.raw.fresh_future future)
      rw [holds_set_pending, holds_fresh_future hfuture]
      exact update_none hconnecting
  | submitConnect future sockfd =>
      simp only [next, Option.dite_none_right_eq_some, Option.some.injEq] at hnext
      obtain ⟨⟨hpos, hfuture, hpending, hfresh⟩, rfl⟩ := hnext
      have hconnecting : state.holds (.connecting future) = none := by
        simp [State.holds, hpending]
      refine h.acquired hconnecting hpos hfresh rfl ?_ (h.raw.fresh_future future)
      rw [holds_set_pending]
      show Function.update (state.setFuture future (some {})).holds _ (descriptor sockfd) = _
      rw [holds_fresh_future hfuture]
  | awaitSuspend future => exact h.await_suspend hnext
  | complete future res => exact h.complete hguard hnext
  | awaitResume future name => exact h.await_resume hnext
  | dropFuture future garbage => exact h.drop_future hguard hnext
  | constructSocket target source =>
      simp only [next, Option.ite_none_right_eq_some, Option.map_eq_some_iff] at hnext
      obtain ⟨hdead, sockfd, hsource, rfl⟩ := hnext
      have hempty : state.holds (.socket target) = none := by simp [State.holds, hdead]
      have howned : state.holds (.socket source) = descriptor sockfd := by
        simp [State.holds, hsource]
      have hne : target ≠ source := by
        intro heq
        rw [heq, hsource] at hdead
        cases hdead
      refine h.moved hempty howned (by simpa using hne) rfl ?_ h.raw
      rw [holds_set_socket, holds_set_socket]
      rfl
  | assignSocket target source => exact h.assign_socket hnext
  | endSocket name =>
      simp only [next, Option.map_eq_some_iff] at hnext
      obtain ⟨sockfd, hsockfd, rfl⟩ := hnext
      have howned : state.holds (.socket name) = descriptor sockfd := by
        simp [State.holds, hsockfd]
      rw [State.destroySocket, close_unless_eq _ _ (by omega)]
      exact h.released (.socket name) (by rw [howned]; rfl) (holds_set_socket ..) h.raw
  | constructListener target source =>
      simp only [next, Option.ite_none_right_eq_some, Option.map_eq_some_iff] at hnext
      obtain ⟨hdead, sockfd, hsource, rfl⟩ := hnext
      have hempty : state.holds (.listener target) = none := by simp [State.holds, hdead]
      have howned : state.holds (.listener source) = descriptor sockfd := by
        simp [State.holds, hsource]
      have hne : target ≠ source := by
        intro heq
        rw [heq, hsource] at hdead
        cases hdead
      refine h.moved hempty howned (by simpa using hne) rfl ?_ h.raw
      rw [holds_set_listener, holds_set_listener]
      rfl
  | assignListener target source => exact h.assign_listener hguard hnext
  | endListener name =>
      simp only [next, Option.map_eq_some_iff] at hnext
      obtain ⟨sockfd, hsockfd, rfl⟩ := hnext
      have howned : state.holds (.listener name) = descriptor sockfd := by
        simp [State.holds, hsockfd]
      rw [State.destroyListener, close_unless_eq _ _ (by omega)]
      exact h.released (.listener name) (by rw [howned]; rfl) (holds_set_listener ..) h.raw

/-- A failed connect strands its descriptor. -/
theorem Inv.failed_connect {future : F} {res : Int} {pending : PendingConnect}
    {hpos : 0 < pending.sockfd} (h : Inv state)
    (hpending : state.pending future = some (.connect pending hpos)) (hres : res < 0)
    (hnext : Descriptors.complete state future res = some following) : ¬ Owned following := by
  have hholds : state.holds (.connecting future) = some pending.sockfd := by
    simp [State.holds, hpending, Pending.owned, descriptor, hpos]
  simp only [Descriptors.complete, hpending, IOContext.handlePendingConnect, if_pos hres,
    List.foldlM_cons, List.foldlM_nil, bind_pure] at hnext
  -- setting the future to `std::nullopt` gives the descriptor to nobody
  rcases set_value_cases hnext with rfl | ⟨content, _, _, rfl⟩
  · rw [destroy_value_eq, Owned]
    show ¬ state.ledger.Balanced (state.setPending future none).holds
    rw [holds_set_pending]
    refine h.owned.not_stranded hholds fun other hother => ?_
    have hne : other ≠ .connecting future := by
      intro heq
      simp [heq] at hother
    exact ⟨hne, by simpa [hne] using hother⟩
  · rw [Owned, holds_set_future, holds_set_pending]
    show ¬ state.ledger.Balanced _
    refine h.owned.not_stranded hholds fun other hother => ?_
    have hvalue : other ≠ .value future := by
      intro heq
      simp [heq, socketDescriptor] at hother
    have hne : other ≠ .connecting future := by
      intro heq
      simp [heq] at hother
    exact ⟨hne, by simpa [hvalue, hne] using hother⟩

/-- Assigning a `Listener` over one that owns a descriptor strands that descriptor. -/
theorem Inv.assigned_listener {target source : V} {resource : Int} (h : Inv state)
    (hne : target ≠ source) (hholds : state.holds (.listener target) = some resource)
    (hnext : next state (.assignListener target source) = some following) :
    ¬ Owned following := by
  simp only [next] at hnext
  split at hnext
  · rename_i old sockfd htarget hsource
    rw [if_neg hne] at hnext
    cases hnext
    have howned : state.holds (.listener source) = descriptor sockfd := by
      simp [State.holds, hsource]
    rw [Owned, holds_set_listener, holds_set_listener]
    show ¬ state.ledger.Balanced _
    refine h.owned.not_stranded hholds fun other hother => ?_
    have hother' : other ≠ .listener source := by
      intro heq
      simp [heq, descriptor] at hother
    rw [Function.update_of_ne hother'] at hother
    have htarget' : other ≠ .listener target := by
      intro heq
      -- the target now owns what the source owned, which is something else
      rw [heq, Function.update_self, Option.bind_some, ← howned] at hother
      exact hne (Holder.listener.inj (h.owned.holder_eq hholds hother))
    exact ⟨htarget', by rwa [Function.update_of_ne htarget'] at hother⟩
  · cases hnext

/-- Destroying a future strands a descriptor in its value, and closes one that its raw storage
names over the head of its owner, or again. -/
theorem Inv.dropped_future {future : F} {garbage : Option Socket} (h : Inv state)
    (hguard : ¬ KeepsOwner state (.dropFuture future garbage))
    (hnext : next state (.dropFuture future garbage) = some following) : ¬ Owned following := by
  simp only [next, Option.map_eq_some_iff] at hnext
  obtain ⟨content, hcontent, rfl⟩ := hnext
  cases hready : content.isReady with
  | true =>
      obtain ⟨resource, hresource⟩ : ∃ resource, state.holds (.value future) = some resource := by
        rw [← Option.ne_none_iff_exists']
        intro hempty
        exact hguard ⟨hempty, by simp [hcontent, hready]⟩
      rw [State.destroyFuture, if_pos hready, Owned, holds_set_future]
      show ¬ state.ledger.Balanced _
      refine h.owned.not_stranded hresource fun other hother => ?_
      have hne : other ≠ .value future := by
        intro heq
        simp [heq] at hother
      exact ⟨hne, by simpa [hne] using hother⟩
  | false =>
      have hraw := h.raw future content hcontent hready
      have hempty : state.holds (.value future) = none := by simp [State.holds, hcontent, hraw]
      obtain ⟨resource, hresource, hopened⟩ : ∃ resource,
          socketDescriptor garbage = some resource ∧ state.ledger.opened resource ≠ 0 := by
        by_contra hnone
        refine hguard ⟨hempty, fun _ resource hresource => ?_⟩
        by_contra hopened
        exact hnone ⟨resource, hresource, hopened⟩
      have hdestroyed : state.destroyFuture content garbage =
          { state with ledger := state.ledger.close resource } := by
        rw [State.destroyFuture, hready, hraw, Option.getD_none, destroy_value_eq, hresource]
        rfl
      rw [hdestroyed, Owned, holds_set_future]
      show ¬ (state.ledger.close resource).Balanced (Function.update state.holds _ none)
      rw [update_none hempty]
      exact h.owned.not_closed hopened

/-- A step against the guard leaves a descriptor without its owner. -/
theorem Inv.lost {action : Action V F} (h : Inv state) (hguard : ¬ KeepsOwner state action)
    (hnext : next state action = some following) : ¬ Owned following := by
  cases action with
  | complete future res =>
      cases hpending : state.pending future with
      | none => simp [KeepsOwner, hpending] at hguard
      | some content =>
          cases content with
          | accept pending => simp [KeepsOwner, hpending] at hguard
          | connect pending hpos =>
              simp only [KeepsOwner, hpending] at hguard
              exact h.failed_connect hpending (by omega) hnext
  | assignListener target source =>
      simp only [KeepsOwner, not_or] at hguard
      obtain ⟨resource, hresource⟩ := Option.ne_none_iff_exists'.mp hguard.2
      exact h.assigned_listener hguard.1 hresource hnext
  | dropFuture future garbage => exact h.dropped_future hguard hnext
  | newListener | emptyListener | submitAccept | submitConnect => exact absurd trivial hguard
  | awaitSuspend | awaitResume | constructSocket | assignSocket => exact absurd trivial hguard
  | endSocket | constructListener | endListener => exact absurd trivial hguard

end Objects

/-- In every run every descriptor has exactly one owner until it is closed, and is closed once,
exactly if no connect fails, no `Listener` is assigned over one that owns a descriptor, and no
`FutureState` is destroyed with a `Socket` in it or, before it is ready, with raw storage that
looks like one with a number that was ever handed out. -/
theorem descriptors_owned_iff {schedule : List (Action V F)} {state : State V F}
    (hrun : (machine V F).run schedule = some state) :
    (machine V F).Guarded KeepsOwner schedule ↔ (machine V F).Always Owned schedule := by
  have hinit : Inv (machine V F).init := by
    refine ⟨⟨?_, ?_, ?_⟩, ?_⟩
    · intro holder resource hholder
      cases holder <;> cases hholder
    · intro resource hopen
      cases hopen
    · intro resource
      rfl
    · intro future content hcontent
      cases hcontent
  exact Machine.guarded_iff_always hinit (fun _ _ _ => Inv.step) (fun _ => Inv.owned)
    (fun _ _ _ => Inv.lost) hrun

/-- A connect that succeeds, whose socket is awaited, moved over an accepted one, and closed. -/
def relaySchedule : List (Action Bool Bool) :=
  [.newListener true 3, .submitAccept true true, .awaitSuspend true, .complete true 4,
    .awaitResume true true, .dropFuture true none, .submitConnect false 5, .awaitSuspend false,
    .complete false 0, .awaitResume false false, .dropFuture false none,
    .assignSocket true false, .endSocket true, .endSocket false, .endListener true]

/-- In that run every descriptor is owned throughout and closed at the end. -/
theorem descriptors_owned_relay :
    ((machine Bool Bool).run relaySchedule).map (fun state =>
      (state.ledger.closed 3, state.ledger.closed 4, state.ledger.closed 5)) = some (1, 1, 1) ∧
      (machine Bool Bool).Always Owned relaySchedule :=
  ⟨rfl, (descriptors_owned_iff rfl).mp (by decide)⟩

/-- A refused connect leaves its descriptor open with no owner; a `Listener` assigned over a live
one leaves the old descriptor open; and a future that is dropped before it is set closes the
listening socket because its raw storage happens to hold that number. -/
theorem descriptors_lost :
    ((machine Bool Bool).run [.submitConnect true 5, .complete true (-111)]).map (fun state =>
      (state.ledger.isOpen 5, state.holds (.connecting true), state.holds (.value true))) =
        some (true, none, none) ∧
      ¬ (machine Bool Bool).Always Owned [.submitConnect true 5, .complete true (-111)] ∧
      ¬ (machine Bool Bool).Always Owned
        [.newListener true 3, .newListener false 4, .assignListener true false] ∧
      ¬ (machine Bool Bool).Always Owned
        [.newListener true 3, .submitAccept true true, .dropFuture true (some ⟨3⟩)] := by
  refine ⟨rfl, ?_, ?_, ?_⟩
  · intro halways
    obtain ⟨holder, hholder, _⟩ := (halways _ _ (List.prefix_refl _) rfl).owned 5 rfl
    cases holder with
    | socket name | listener name | connecting name | value name =>
        cases name <;> cases hholder
  · intro halways
    obtain ⟨holder, hholder, _⟩ := (halways _ _ (List.prefix_refl _) rfl).owned 3 rfl
    cases holder with
    | socket name | listener name | connecting name | value name =>
        cases name <;> cases hholder
  · intro halways
    have hopen := (halways _ _ (List.prefix_refl _) rfl).held_open (.listener true) 3 rfl
    cases hopen

end Descriptors

end Toad
