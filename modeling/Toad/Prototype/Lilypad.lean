import Mathlib.Logic.Function.Basic
import Toad.Execution.Machine

/-!
# The lilypad prototype

`scripts/prototype/lilypad.py`: a node that dispatches datagrams to handlers, from whitelisted
addresses only. Adding a friend, adding an address to a friend, and every pass through the loop of
`run` are the steps, in any order. What the node uses of `msgpack` and of Python's objects is a
parameter, and so is whether a handler raises.

`strangers_powerless` says that the whitelist keeps its promise: an address that is never added
has no influence on anything, not even on whether the node goes on running.
`whitelist_trusts_friends_iff` says when the whitelist is one of friends: `add_friend` replaces
the record of a friend but leaves the old addresses in the list.
-/

namespace Toad

namespace Lilypad

open Execution

/-- What the node uses of `msgpack` and of Python's objects. `unpack` is `none` where it raises;
`get` is `none` for an object without the method, and `some none` for `None`. -/
structure Objects (T : Type) where
  unpack : List UInt8 → Option T
  get : T → String → Option (Option T)
  hashable : T → Bool
  truthy : T → Bool

/-- `FriendRecord`. -/
structure FriendRecord (K : Type) where
  name : String
  expectedPubkey : K
  addresses : List String := []

/-- A call of a handler: who sent the datagram, the handler, and its argument if it got one. -/
structure Call (T H : Type) where
  ip : String
  handler : H
  payload : Option T

/-- `LilypadBase`, as far as `run` needs it, with the calls made so far. -/
structure LilypadBase (K T H : Type) where
  friends : String → Option (FriendRecord K) := fun _ => none
  whitelistedIps : List String := []
  handlers : T → Option H := fun _ => none
  calls : List (Call T H) := []
  running : Bool := true

variable {K T H : Type}

/-- The steps of a node. -/
inductive Action (K : Type) where
  | addFriend (name : String) (pubkey : K)
  | addFriendAddress (name address : String)
  | receive (data : List UInt8) (ip : String)

/-- `add_friend`. -/
def LilypadBase.addFriend (node : LilypadBase K T H) (name : String) (pubkey : K) :
    LilypadBase K T H :=
  { node with
    friends := Function.update node.friends name
      (some { name := name, expectedPubkey := pubkey }) }

/-- `add_friend_address`. The lookup of a name that is no friend raises before anything has
changed. -/
def LilypadBase.addFriendAddress (node : LilypadBase K T H) (name address : String) :
    LilypadBase K T H :=
  match node.friends name with
  | none => node
  | some record =>
      { node with
        friends := Function.update node.friends name
          (some { record with addresses := record.addresses ++ [address] })
        whitelistedIps := node.whitelistedIps ++ [address] }

/-- An exception leaves the loop. -/
def LilypadBase.stop (node : LilypadBase K T H) : LilypadBase K T H :=
  { node with running := false }

/-- `handler(payload)` or `handler()`. -/
def LilypadBase.call (raises : H → Option T → Bool) (node : LilypadBase K T H) (ip : String)
    (handler : H) (payload : Option T) : LilypadBase K T H :=
  let called := { node with calls := node.calls ++ [⟨ip, handler, payload⟩] }
  if raises handler payload then called.stop else called

/-- What the loop does with a message from a whitelisted address. -/
def LilypadBase.dispatch (objects : Objects T) (raises : H → Option T → Bool)
    (node : LilypadBase K T H) (message : T) (ip : String) : LilypadBase K T H :=
  match objects.get message "kind" with
  | none => node.stop
  | some none => node
  | some (some kind) =>
      if objects.hashable kind then
        match node.handlers kind with
        | none => node
        | some handler =>
            match objects.get message "payload" with
            | none => node.stop
            | some payload => node.call raises ip handler (payload.filter objects.truthy)
      else node.stop

/-- One pass through the loop of `run`. -/
def LilypadBase.receive (objects : Objects T) (raises : H → Option T → Bool)
    (node : LilypadBase K T H) (data : List UInt8) (ip : String) : LilypadBase K T H :=
  if node.running ∧ ip ∈ node.whitelistedIps then
    match objects.unpack data with
    | none => node.stop
    | some message => node.dispatch objects raises message ip
  else node

/-- One step of a node. -/
def next (objects : Objects T) (raises : H → Option T → Bool) (node : LilypadBase K T H) :
    Action K → Option (LilypadBase K T H)
  | .addFriend name pubkey => some (node.addFriend name pubkey)
  | .addFriendAddress name address => some (node.addFriendAddress name address)
  | .receive data ip => some (node.receive objects raises data ip)

/-- A node with some handlers, before it has any friends. -/
def machine (K : Type) (objects : Objects T) (raises : H → Option T → Bool)
    (handlers : T → Option H) : Machine (LilypadBase K T H) (Action K) where
  init := { handlers := handlers }
  next := next objects raises

/-! ## Strangers -/

/-- The datagram comes from a stranger. -/
def Action.fromStranger (stranger : String → Bool) : Action K → Bool
  | .receive _ ip => stranger ip
  | .addFriend _ _ | .addFriendAddress _ _ => false

/-- The step makes the address of a stranger known. -/
def Action.admits (stranger : String → Bool) : Action K → Bool
  | .addFriendAddress _ address => stranger address
  | .addFriend _ _ | .receive _ _ => false

section Steps

variable {objects : Objects T} {raises : H → Option T → Bool} {node following : LilypadBase K T H}
  {stranger : String → Bool}

/-- What a node has become leaves friends and whitelist alone, and has called handlers only for
datagrams from `ip`. -/
structure Handled (node after : LilypadBase K T H) (ip : String) : Prop where
  friends : after.friends = node.friends
  whitelistedIps : after.whitelistedIps = node.whitelistedIps
  calls : ∀ call ∈ after.calls, call ∈ node.calls ∨ call.ip = ip

theorem Handled.refl (node : LilypadBase K T H) (ip : String) : Handled node node ip :=
  ⟨rfl, rfl, fun _ => Or.inl⟩

theorem Handled.stop (node : LilypadBase K T H) (ip : String) : Handled node node.stop ip :=
  ⟨rfl, rfl, fun _ => Or.inl⟩

theorem call_handled (raises : H → Option T → Bool) (node : LilypadBase K T H) (ip : String)
    (handler : H) (payload : Option T) :
    Handled node (node.call raises ip handler payload) ip := by
  have hcalls : ∀ call ∈ node.calls ++ [⟨ip, handler, payload⟩],
      call ∈ node.calls ∨ call.ip = ip := by
    intro call hmem
    rcases List.mem_append.mp hmem with hmem | hmem
    · exact Or.inl hmem
    · rw [List.mem_singleton.mp hmem]
      exact Or.inr rfl
  unfold LilypadBase.call
  dsimp only
  split
  · exact ⟨rfl, rfl, hcalls⟩
  · exact ⟨rfl, rfl, hcalls⟩

theorem dispatch_handled (objects : Objects T) (raises : H → Option T → Bool)
    (node : LilypadBase K T H) (message : T) (ip : String) :
    Handled node (node.dispatch objects raises message ip) ip := by
  unfold LilypadBase.dispatch
  split
  · exact .stop node ip
  · exact .refl node ip
  · split
    · split
      · exact .refl node ip
      · split
        · exact .stop node ip
        · exact call_handled raises node ip _ _
    · exact .stop node ip

/-- A pass through the loop, for a sender that is whitelisted or for nothing. -/
theorem receive_cases (objects : Objects T) (raises : H → Option T → Bool)
    (node : LilypadBase K T H) (data : List UInt8) (ip : String) :
    node.receive objects raises data ip = node ∨
      (ip ∈ node.whitelistedIps ∧ Handled node (node.receive objects raises data ip) ip) := by
  unfold LilypadBase.receive
  split
  next hwhitelisted =>
    right
    refine ⟨hwhitelisted.2, ?_⟩
    split
    · exact .stop node ip
    · exact dispatch_handled objects raises node _ ip
  next => exact Or.inl rfl

/-- A step that admits no stranger keeps strangers off the whitelist. -/
theorem next_excludes {action : Action K}
    (hexcluded : ∀ ip ∈ node.whitelistedIps, stranger ip = false)
    (hadmits : action.admits stranger = false)
    (hnext : next objects raises node action = some following) :
    ∀ ip ∈ following.whitelistedIps, stranger ip = false := by
  cases action with
  | addFriend name pubkey =>
      obtain rfl := Option.some.inj hnext
      exact hexcluded
  | addFriendAddress name address =>
      obtain rfl := Option.some.inj hnext
      unfold LilypadBase.addFriendAddress
      split
      · exact hexcluded
      · intro ip hmem
        rcases List.mem_append.mp hmem with hmem | hmem
        · exact hexcluded ip hmem
        · rw [List.mem_singleton.mp hmem]
          exact hadmits
  | receive data ip =>
      obtain rfl := Option.some.inj hnext
      rcases receive_cases objects raises node data ip with hsame | ⟨-, hhandled⟩
      · rw [hsame]
        exact hexcluded
      · rw [hhandled.whitelistedIps]
        exact hexcluded

/-- A datagram from a stranger changes nothing. -/
theorem next_from_stranger {action : Action K}
    (hexcluded : ∀ ip ∈ node.whitelistedIps, stranger ip = false)
    (hstranger : action.fromStranger stranger = true) :
    next objects raises node action = some node := by
  cases action with
  | addFriend name pubkey => cases hstranger
  | addFriendAddress name address => cases hstranger
  | receive data ip =>
      rcases receive_cases objects raises node data ip with hsame | ⟨hmem, -⟩
      · exact congrArg some hsame
      · exact absurd ((hexcluded ip hmem).symm.trans hstranger) (by decide)

/-- From a node whose whitelist has no stranger, what strangers send can be left out. -/
theorem run_from_without_strangers {handlers : T → Option H} {schedule : List (Action K)}
    (hexcluded : ∀ ip ∈ node.whitelistedIps, stranger ip = false)
    (hadmits : ∀ action ∈ schedule, action.admits stranger = false) :
    (machine K objects raises handlers).runFrom node schedule =
      (machine K objects raises handlers).runFrom node
        (schedule.filter fun action => !action.fromStranger stranger) := by
  induction schedule generalizing node with
  | nil => rfl
  | cons action schedule ih =>
      have hrest : ∀ other ∈ schedule, other.admits stranger = false := fun other hmem =>
        hadmits other (List.mem_cons_of_mem _ hmem)
      have hadmit := hadmits action List.mem_cons_self
      cases hstranger : action.fromStranger stranger with
      | true =>
          have hsame : (machine K objects raises handlers).next node action = some node :=
            next_from_stranger hexcluded hstranger
          rw [List.filter_cons_of_neg (by simp [hstranger]), Machine.run_from_cons, hsame,
            Option.bind_some]
          exact ih hexcluded hrest
      | false =>
          rw [List.filter_cons_of_pos (by simp [hstranger]), Machine.run_from_cons,
            Machine.run_from_cons]
          cases hnext : (machine K objects raises handlers).next node action with
          | none => rfl
          | some following => exact ih (next_excludes hexcluded hadmit hnext) hrest

end Steps

/-- In every run, whatever is sent from addresses that nobody adds to the whitelist, in whatever
order and however malformed, leaves the node in the state it would be in without it: its friends,
its whitelist, the handlers it has called, and whether it still runs. -/
theorem strangers_powerless (objects : Objects T) (raises : H → Option T → Bool)
    (handlers : T → Option H) (stranger : String → Bool) (schedule : List (Action K))
    (hadmits : ∀ action ∈ schedule, action.admits stranger = false) :
    (machine K objects raises handlers).run schedule =
      (machine K objects raises handlers).run
        (schedule.filter fun action => !action.fromStranger stranger) :=
  run_from_without_strangers (fun _ hmem => absurd hmem List.not_mem_nil) hadmits

/-- Messages are lists of bytes, and have neither a kind nor a payload unless they begin with a
zero, which is the kind of a greeting. -/
def greetings : Objects (List UInt8) where
  unpack := some
  get := fun message key =>
    match message with
    | 0 :: _ => if key = "kind" then some (some [0]) else some none
    | _ => none
  hashable := fun _ => true
  truthy := fun message => !message.isEmpty

/-- A friend is made, and a stranger and the friend send something. -/
def visits : List (Action Unit) :=
  [.addFriend "boris" (), .addFriendAddress "boris" "10.0.0.2", .receive [1] "10.0.0.9",
    .receive [0] "10.0.0.2"]

/-- The stranger's datagram, which would have stopped the node, leaves no trace. -/
theorem strangers_powerless_visits :
    (machine Unit greetings (fun (_ : Unit) _ => false) fun _ => some ()).run visits =
      (machine Unit greetings (fun (_ : Unit) _ => false) fun _ => some ()).run
        [.addFriend "boris" (), .addFriendAddress "boris" "10.0.0.2",
          .receive [0] "10.0.0.2"] :=
  strangers_powerless greetings _ _ (fun ip => ip == "10.0.0.9") visits (by decide)

/-! ## Friends -/

/-- An address of a friend. -/
def LilypadBase.Listed (node : LilypadBase K T H) (ip : String) : Prop :=
  ∃ name record, node.friends name = some record ∧ ip ∈ record.addresses

/-- Whoever is whitelisted, and whoever has made the node call a handler, is a friend. -/
structure Trusts (node : LilypadBase K T H) : Prop where
  whitelisted : ∀ ip ∈ node.whitelistedIps, node.Listed ip
  called : ∀ call ∈ node.calls, node.Listed call.ip

/-- The friend to be added is not there yet, or every address in its record is also that of
another friend. -/
def KeepsAddresses (node : LilypadBase K T H) : Action K → Prop
  | .addFriend name _ =>
      ∀ record, node.friends name = some record → ∀ ip ∈ record.addresses,
        ∃ other known, other ≠ name ∧ node.friends other = some known ∧ ip ∈ known.addresses
  | .addFriendAddress _ _ | .receive _ _ => True

/-- The whitelist is that of the friends' addresses, and handlers are called for it alone. -/
structure Consistent (node : LilypadBase K T H) : Prop where
  listed : ∀ ip ∈ node.whitelistedIps, node.Listed ip
  whitelisted : ∀ name record, node.friends name = some record →
    ∀ ip ∈ record.addresses, ip ∈ node.whitelistedIps
  called : ∀ call ∈ node.calls, call.ip ∈ node.whitelistedIps

section Friends

variable {objects : Objects T} {raises : H → Option T → Bool} {node following : LilypadBase K T H}

theorem Consistent.trusts (h : Consistent node) : Trusts node where
  whitelisted := h.listed
  called := fun call hmem => h.listed call.ip (h.called call hmem)

theorem friends_add_friend_self (node : LilypadBase K T H) (name : String) (pubkey : K) :
    (node.addFriend name pubkey).friends name =
      some { name := name, expectedPubkey := pubkey } :=
  Function.update_self ..

theorem friends_add_friend_of_ne {name other : String} (pubkey : K) (h : other ≠ name) :
    (node.addFriend name pubkey).friends other = node.friends other :=
  Function.update_of_ne h ..

/-- A friend that is added again is known by the addresses of others. -/
theorem Consistent.addFriend (h : Consistent node) {name : String} {pubkey : K}
    (hkeeps : KeepsAddresses node (.addFriend name pubkey)) :
    Consistent (node.addFriend name pubkey) := by
  refine ⟨?_, ?_, h.called⟩
  · intro ip hmem
    obtain ⟨friend, record, hrecord, haddress⟩ := h.listed ip hmem
    by_cases hname : friend = name
    · subst hname
      obtain ⟨other, known, hne, hknown, hip⟩ := hkeeps record hrecord ip haddress
      exact ⟨other, known, (friends_add_friend_of_ne pubkey hne).trans hknown, hip⟩
    · exact ⟨friend, record, (friends_add_friend_of_ne pubkey hname).trans hrecord, haddress⟩
  · intro friend record hrecord ip hip
    by_cases hname : friend = name
    · subst hname
      rw [friends_add_friend_self, Option.some.injEq] at hrecord
      subst hrecord
      exact absurd hip List.not_mem_nil
    · rw [friends_add_friend_of_ne pubkey hname] at hrecord
      exact h.whitelisted friend record hrecord ip hip

/-- An address goes into the record and into the whitelist. -/
theorem Consistent.addFriendAddress (h : Consistent node) (name address : String) :
    Consistent (node.addFriendAddress name address) := by
  unfold LilypadBase.addFriendAddress
  split
  · exact h
  next record hrecord =>
    refine ⟨?_, ?_, fun call hmem => List.mem_append_left _ (h.called call hmem)⟩
    · intro ip hmem
      rcases List.mem_append.mp hmem with hmem | hmem
      · obtain ⟨friend, known, hknown, hip⟩ := h.listed ip hmem
        by_cases hname : friend = name
        · subst hname
          obtain rfl := Option.some.inj (hknown.symm.trans hrecord)
          exact ⟨friend, _, Function.update_self .., List.mem_append_left _ hip⟩
        · exact ⟨friend, known, (Function.update_of_ne hname ..).trans hknown, hip⟩
      · exact ⟨name, _, Function.update_self .., List.mem_append_right _ hmem⟩
    · intro friend known hknown ip hip
      dsimp only at hknown
      by_cases hname : friend = name
      · subst hname
        rw [Function.update_self, Option.some.injEq] at hknown
        subst hknown
        rcases List.mem_append.mp hip with hip | hip
        · exact List.mem_append_left _ (h.whitelisted friend record hrecord ip hip)
        · exact List.mem_append_right _ hip
      · rw [Function.update_of_ne hname] at hknown
        exact List.mem_append_left _ (h.whitelisted friend known hknown ip hip)

/-- Handling a datagram from a whitelisted address keeps both lists. -/
theorem Consistent.receive (h : Consistent node) (data : List UInt8) (ip : String) :
    Consistent (node.receive objects raises data ip) := by
  rcases receive_cases objects raises node data ip with hsame | ⟨hmem, hhandled⟩
  · rw [hsame]
    exact h
  · refine ⟨?_, ?_, ?_⟩
    · intro other hother
      rw [hhandled.whitelistedIps] at hother
      rw [LilypadBase.Listed, hhandled.friends]
      exact h.listed other hother
    · rw [hhandled.friends, hhandled.whitelistedIps]
      exact h.whitelisted
    · intro call hcall
      rw [hhandled.whitelistedIps]
      rcases hhandled.calls call hcall with hearlier | hip
      · exact h.called call hearlier
      · rw [hip]
        exact hmem

/-- A friend that is added again with an address of its own leaves that address behind. -/
theorem add_friend_breaks (h : Consistent node) {name : String} {pubkey : K}
    (hlost : ¬ KeepsAddresses node (.addFriend name pubkey)) :
    ¬ Trusts (node.addFriend name pubkey) := by
  intro htrusts
  refine hlost fun record hrecord ip hip => ?_
  obtain ⟨friend, known, hknown, haddress⟩ :=
    htrusts.whitelisted ip (h.whitelisted name record hrecord ip hip)
  by_cases hname : friend = name
  · subst hname
    rw [friends_add_friend_self, Option.some.injEq] at hknown
    subst hknown
    exact absurd haddress List.not_mem_nil
  · rw [friends_add_friend_of_ne pubkey hname] at hknown
    exact ⟨friend, known, hname, hknown, haddress⟩

end Friends

/-- In every run, the whitelist holds addresses of friends only, and handlers are called for
friends only, throughout exactly if no friend is added again who alone has one of its addresses. -/
theorem whitelist_trusts_friends_iff (objects : Objects T) (raises : H → Option T → Bool)
    (handlers : T → Option H) {schedule : List (Action K)} {node : LilypadBase K T H}
    (h : (machine K objects raises handlers).run schedule = some node) :
    (machine K objects raises handlers).Guarded KeepsAddresses schedule ↔
      (machine K objects raises handlers).Always Trusts schedule := by
  refine Machine.guarded_iff_always (I := Consistent) ?_ ?_ (fun _ h => h.trusts) ?_ h
  · exact ⟨fun _ hmem => absurd hmem List.not_mem_nil, fun _ _ hnone => (nomatch hnone),
      fun _ hmem => absurd hmem List.not_mem_nil⟩
  · intro node action following hconsistent hkeeps hnext
    cases action with
    | addFriend name pubkey =>
        obtain rfl := Option.some.inj hnext
        exact hconsistent.addFriend hkeeps
    | addFriendAddress name address =>
        obtain rfl := Option.some.inj hnext
        exact hconsistent.addFriendAddress name address
    | receive data ip =>
        obtain rfl := Option.some.inj hnext
        exact hconsistent.receive data ip
  · intro node action following hconsistent hlost hnext
    cases action with
    | addFriend name pubkey =>
        obtain rfl := Option.some.inj hnext
        exact add_friend_breaks hconsistent hlost
    | addFriendAddress name address => exact absurd trivial hlost
    | receive data ip => exact absurd trivial hlost

/-- The friend of the visits is added once, so that whoever is heard is a friend. -/
theorem whitelist_trusts_friends_visits :
    (machine Unit greetings (fun (_ : Unit) _ => false) fun _ => some ()).Always Trusts visits := by
  refine (whitelist_trusts_friends_iff greetings _ _ rfl).mp ?_
  exact ⟨fun _ hrecord => (nomatch hrecord), fun _ _ => ⟨trivial, fun _ _ => ⟨trivial,
    fun _ _ => ⟨trivial, fun _ _ => trivial⟩⟩⟩⟩

end Lilypad

end Toad
