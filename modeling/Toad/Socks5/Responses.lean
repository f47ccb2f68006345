import Toad.Execution.Log
import Toad.Socks5.Isolation

/-!
# What a client is told, and when

The sessions of `Toad.Socks5.Isolation` again: a client is greeted first, told that its connection
is established only behind the connection to its remote, and sent what the remote has sent only
behind that; and nothing is read from the remote or written to it before the client has been told.
All of it is about the order in which the kernel receives the entries, with whole calls of
`submit_*`, and it holds for any number of sessions that share queue and descriptors. What a
handshake submits comes from the `script` of `Toad.Socks5.ControlFlow`, and so its order does.
-/

namespace Toad.Socks5

namespace ControlFlow

/-- What has been written at a `co_await`. -/
def Stage.written : Stage → List (List UInt8)
  | .greeting | .methods => []
  | .request | .address | .port | .dial => [response]

/-- What a handshake can have written when it has got to a place. -/
def Place.Writes : Place → List (List UInt8) → Prop
  | .awaiting stage, spans => spans = stage.written
  | .returned, spans => ∃ stage : Stage, spans = stage.written
  | .relaying, spans => spans = [response, lastResponse]
  | .absent, _ | .spawned, _ | .destroyed, _ => False

/-- The responses come in their order, the last one at the very end. -/
theorem Follows.writes {place : Place} {operations : List Operation}
    (h : Follows place operations) : place.Writes (operations.filterMap Operation.span) := by
  induction h with
  | start => rfl
  | resume h choice hscript ih =>
      rename_i stage place operations more
      rw [List.filterMap_append]
      replace ih : operations.filterMap Operation.span = stage.written := ih
      rw [ih]
      unfold script at hscript
      split at hscript <;> cases hscript
      all_goals first | rfl | exact ⟨_, List.append_nil _⟩

/-- What a session has submitted in its handshake, be it over or not begun. -/
def Place.Begun : Place → List Operation → Prop
  | .absent, operations => operations = []
  | .spawned, operations => operations = []
  | .destroyed, operations => Follows .returned operations
  | place, operations => Follows place operations

/-- Where the script leads. -/
theorem Follows.begun {place : Place} {operations : List Operation} (h : Follows place operations) :
    place.Begun operations := by
  cases place with
  | absent | spawned | destroyed => exact absurd h.writes id
  | awaiting | returned | relaying => exact h

/-- The connection is submitted before it is awaited. -/
theorem script_dials {stage : Stage} {choice : Choice} {operations : List Operation}
    (h : script stage choice = some (.awaiting .dial, operations)) : .connect ∈ operations := by
  unfold script at h
  split at h <;> cases h
  exact List.mem_singleton_self _

/-- Forwarders are spawned right behind the last response. -/
theorem script_relays {stage : Stage} {choice : Choice} {operations : List Operation}
    (h : script stage choice = some (.relaying, operations)) :
    stage = .dial ∧ choice = .connected ∧ operations = [.write lastResponse] := by
  unfold script at h
  split at h <;> cases h
  exact ⟨rfl, rfl, rfl⟩

/-- Until it relays, a handshake has written its first response at most. -/
theorem Place.Begun.silent {place : Place} {operations : List Operation}
    (h : place.Begun operations) (hplace : place ≠ .relaying) :
    operations.filterMap Operation.span <+: [response] := by
  have hstages : ∀ stage : Stage, stage.written <+: [response] := by
    intro stage
    cases stage with
    | greeting | methods => exact List.nil_prefix
    | request | address | port | dial => exact List.prefix_rfl
  cases place with
  | absent | spawned =>
      obtain rfl : operations = [] := h
      exact List.nil_prefix
  | awaiting stage =>
      have hwritten : operations.filterMap Operation.span = stage.written := Follows.writes h
      exact hwritten ▸ hstages stage
  | returned | destroyed =>
      obtain ⟨stage, hwritten⟩ : Place.Writes .returned _ := Follows.writes h
      exact hwritten ▸ hstages stage
  | relaying => exact absurd rfl hplace

end ControlFlow

namespace Isolation

open Execution ControlFlow

/-- The bytes of the writes among some entries. -/
def spans (entries : List Entry) : List (List UInt8) :=
  entries.filterMap fun entry => entry.operation.span

/-- What is meant for a peer among some entries. -/
def meant (peer : Peer) (entries : List Entry) : List Entry :=
  entries.filter fun entry => entry.peer = some peer

/-- The client is told that its connection is established, or sent the same bytes. -/
def Confirms (session : Nat) (entry : Entry) : Prop :=
  entry.peer = some (.client session) ∧ entry.operation = .write lastResponse

/-- Something other than the connection itself is meant for the remote. -/
def Relays (session : Nat) (entry : Entry) : Prop :=
  entry.peer = some (.remote session) ∧ entry.operation ≠ .connect

/-- What a session has submitted so far, in its handshake and behind it. -/
structure Talk (session : Nat) (client : Client) (submitted : List Entry) : Prop where
  told : ∃ operations data, client.place.Begun operations ∧
    (client.place ≠ .relaying → data = []) ∧
    spans (meant (.client session) submitted) =
      if 0 ≤ client.sockfd then operations.filterMap Operation.span ++ data else []
  dialled : client.Dialled → entryFor session client .connect ∈ submitted
  silent : client.place ≠ .relaying → ∀ entry ∈ submitted, ¬ Relays session entry
  confirmed : client.place = .relaying →
    Precedes (· = entryFor session client .connect) (Confirms session) submitted
  relayed : client.place = .relaying →
    Precedes (· = entryFor session client (.write lastResponse)) (Relays session) submitted ∧
      entryFor session client (.write lastResponse) ∈ submitted

section Talk

variable {session : Nat} {client following : Client} {submitted entries : List Entry}

/-- Which peer a descriptor reaches. -/
theorem reaches_iff {sockfd : Int} {owner peer : Peer} :
    reaches sockfd owner = some peer ↔ 0 ≤ sockfd ∧ owner = peer := by
  unfold reaches
  split
  next hvalid => simp [hvalid]
  next hvalid => simp [hvalid]

/-- Entries of several parts. -/
theorem spans_meant_append (peer : Peer) (submitted entries : List Entry) :
    spans (meant peer (submitted ++ entries)) =
      spans (meant peer submitted) ++ spans (meant peer entries) := by
  rw [meant, List.filter_append, spans, List.filterMap_append]
  rfl

/-- Only writes have bytes. -/
theorem spans_meant_of_silent {peer : Peer} {entry : Entry} (h : entry.operation.span = none) :
    spans (meant peer [entry]) = [] := by
  by_cases hpeer : entry.peer = some peer
  · simp [spans, meant, hpeer, h]
  · simp [spans, meant, hpeer]

/-- An entry asks for its operation. -/
theorem entry_for_operation (operation : Operation) :
    (entryFor session client operation).operation = operation := by
  cases operation <;> rfl

/-- The writes of a handshake are meant for its client, unless the client has no descriptor. -/
theorem spans_entries (operations : List Operation) :
    spans (meant (.client session) (operations.map (entryFor session client))) =
      if 0 ≤ client.sockfd then operations.filterMap Operation.span else [] := by
  induction operations with
  | nil => split <;> rfl
  | cons operation operations ih =>
      rw [List.map_cons, ← List.singleton_append, spans_meant_append, ih]
      cases operation with
      | write span =>
          by_cases hvalid : 0 ≤ client.sockfd
          · simp [spans, meant, entryFor, reaches_iff, Operation.span, hvalid]
          · simp [spans, meant, entryFor, reaches_iff, hvalid]
      | accept | read | connect =>
          rw [spans_meant_of_silent rfl]
          rfl

/-- Entries for others change nothing. -/
theorem Talk.others (h : Talk session client submitted)
    (hothers : ∀ entry ∈ entries,
      entry.peer ≠ some (.client session) ∧ entry.peer ≠ some (.remote session)) :
    Talk session client (submitted ++ entries) := by
  obtain ⟨operations, data, hbegun, hdata, htold⟩ := h.told
  have hnone : meant (.client session) entries = [] := by
    refine List.filter_eq_nil_iff.mpr fun entry hentry => ?_
    simpa using (hothers entry hentry).1
  refine ⟨⟨operations, data, hbegun, hdata, ?_⟩, ?_, ?_, ?_, ?_⟩
  · rw [spans_meant_append, hnone, htold]
    exact List.append_nil _
  · exact fun hdialled => List.mem_append_left _ (h.dialled hdialled)
  · intro hplace entry hentry
    rcases List.mem_append.mp hentry with hold | hnew
    · exact h.silent hplace entry hold
    · exact fun hrelays => (hothers entry hnew).2 hrelays.1
  · intro hplace
    refine (h.confirmed hplace).append fun entry hentry hconfirms => ?_
    exact absurd hconfirms.1 (hothers entry hentry).1
  · intro hplace
    obtain ⟨hrelayed, hmem⟩ := h.relayed hplace
    refine ⟨hrelayed.append fun entry hentry hrelays => ?_, List.mem_append_left _ hmem⟩
    exact absurd hrelays.1 (hothers entry hentry).2

/-- A session that begins has submitted nothing. -/
theorem Talk.begins (h : Talk session client submitted) (hbefore : client.place = .absent)
    (hafter : following.place = .spawned) : Talk session following submitted := by
  obtain ⟨operations, data, hbegun, hdata, htold⟩ := h.told
  have hplace : client.place ≠ .relaying := by simp [hbefore]
  have hrelaying : following.place ≠ .relaying := by simp [hafter]
  rw [hbefore] at hbegun
  obtain rfl : operations = [] := hbegun
  obtain rfl := hdata hplace
  refine ⟨⟨[], [], ?_, fun _ => rfl, ?_⟩, ?_, fun _ => h.silent hplace, ?_, ?_⟩
  · rw [hafter]
    rfl
  · rw [htold]
    split <;> split <;> rfl
  · intro hdialled
    exact absurd hdialled (Client.not_dialled (by simp [hafter]) hrelaying)
  · exact fun hplace => absurd hplace hrelaying
  · exact fun hplace => absurd hplace hrelaying

/-- Before it relays, a handshake goes on with what the script submits. -/
theorem Talk.submits (h : Talk session client submitted) {operations : List Operation}
    (hsockfd : following.sockfd = client.sockfd) (hbefore : client.place ≠ .relaying)
    (hafter : following.place ≠ .relaying)
    (hbegun : ∀ earlier, client.place.Begun earlier → following.place.Begun (earlier ++ operations))
    (hdial : following.place = .awaiting .dial → .connect ∈ operations) :
    Talk session following (submitted ++ operations.map (entryFor session following)) := by
  obtain ⟨earlier, data, hearlier, hdata, htold⟩ := h.told
  obtain rfl := hdata hbefore
  refine ⟨⟨earlier ++ operations, [], hbegun earlier hearlier, fun _ => rfl, ?_⟩, ?_, ?_, ?_, ?_⟩
  · rw [spans_meant_append, spans_entries, htold, hsockfd, List.filterMap_append]
    split <;> simp
  · intro hdialled
    have hconnect := hdial (hdialled.resolve_right hafter)
    exact List.mem_append_right _ (List.mem_map_of_mem hconnect)
  · intro _ entry hentry hrelays
    rcases List.mem_append.mp hentry with hold | hnew
    · exact h.silent hbefore entry hold hrelays
    · obtain ⟨operation, -, rfl⟩ := List.mem_map.mp hnew
      have hconnect : operation ≠ .connect := entry_for_operation operation ▸ hrelays.2
      have hpeer : (entryFor session following operation).peer =
          reaches following.sockfd (.client session) := (entry_for_client hconnect).2
      rw [hrelays.1] at hpeer
      cases reaches_eq_some hpeer.symm
  · exact fun hplace => absurd hplace hafter
  · exact fun hplace => absurd hplace hafter

/-- Before it relays, a session has not confirmed anything. -/
theorem Talk.unconfirmed (h : Talk session client submitted) (hplace : client.place ≠ .relaying) :
    ∀ entry ∈ submitted, ¬ Confirms session entry := by
  intro entry hentry hconfirms
  obtain ⟨operations, data, hbegun, hdata, htold⟩ := h.told
  obtain rfl := hdata hplace
  have hmem : lastResponse ∈ spans (meant (.client session) submitted) := by
    refine List.mem_filterMap.mpr ⟨entry, List.mem_filter.mpr ⟨hentry, ?_⟩, ?_⟩
    · simpa using hconfirms.1
    · rw [hconfirms.2]
      rfl
  rw [htold] at hmem
  split at hmem
  · rw [List.append_nil] at hmem
    exact absurd ((hbegun.silent hplace).subset hmem) (by decide)
  · cases hmem

/-- The connection is confirmed when it is there. -/
theorem Talk.connects (h : Talk session client submitted)
    (hplace : client.place = .awaiting .dial) :
    Talk session { client with place := .relaying }
      (submitted ++ [entryFor session client (.write lastResponse)]) := by
  obtain ⟨earlier, data, hearlier, hdata, htold⟩ := h.told
  have hbefore : client.place ≠ .relaying := by simp [hplace]
  obtain rfl := hdata hbefore
  have hfollows : Follows (.awaiting .dial) earlier := by
    rw [hplace] at hearlier
    exact hearlier
  refine ⟨⟨earlier ++ [.write lastResponse], [], hfollows.resume .connected rfl, fun _ => rfl, ?_⟩,
    ?_, fun hrelaying => absurd rfl hrelaying, fun _ => ?_, fun _ => ⟨?_, ?_⟩⟩
  · have hspans : spans (meant (.client session) [entryFor session client (.write lastResponse)]) =
        if 0 ≤ client.sockfd then [lastResponse] else [] := spans_entries [.write lastResponse]
    rw [spans_meant_append, htold, hspans, List.filterMap_append]
    dsimp only
    split <;> simp [Operation.span]
  · exact fun _ => List.mem_append_left _ (h.dialled (Or.inl hplace))
  · refine (precedes_of_not (h.unconfirmed hbefore)).append fun _ _ _ => ?_
    exact ⟨_, h.dialled (Or.inl hplace), rfl⟩
  · refine (precedes_of_not (h.silent hbefore)).append fun entry hentry hrelays => ?_
    obtain rfl := List.mem_singleton.mp hentry
    cases reaches_eq_some hrelays.1
  · exact List.mem_append_right _ (List.mem_singleton_self _)

/-- What is forwarded comes behind the confirmation. -/
theorem Talk.forwards (h : Talk session client submitted) (hplace : client.place = .relaying)
    {fromClient : Bool} {span : List UInt8} {started : Bool → Bool} :
    Talk session { client with started := started }
      (submitted ++ forwards session client fromClient span) := by
  obtain ⟨earlier, data, hearlier, -, htold⟩ := h.told
  obtain ⟨hrelayed, hmem⟩ := h.relayed hplace
  have hdialled := h.dialled (Or.inr hplace)
  refine ⟨⟨earlier, data ++ spans (meant (.client session)
      (Isolation.forwards session client fromClient span)), hearlier,
      fun hrelaying => absurd hplace hrelaying, ?_⟩,
    fun _ => List.mem_append_left _ hdialled, fun hrelaying => absurd hplace hrelaying,
    fun _ => ?_, fun _ => ⟨?_, List.mem_append_left _ hmem⟩⟩
  · rw [spans_meant_append, htold]
    dsimp only
    split
    · rw [List.append_assoc]
    next hinvalid =>
      have hnone : meant (.client session)
          (Isolation.forwards session client fromClient span) = [] := by
        refine List.filter_eq_nil_iff.mpr fun entry hentry hpeer => ?_
        obtain ⟨side, -, hside⟩ := forwards_ends hentry
        rw [hside, decide_eq_true_iff, reaches_iff] at hpeer
        cases side with
        | true => exact hinvalid hpeer.1
        | false => cases hpeer.2
      rw [hnone]
      rfl
  · exact (h.confirmed hplace).append fun _ _ _ => ⟨_, hdialled, rfl⟩
  · exact hrelayed.append fun _ _ _ => ⟨_, hmem, rfl⟩

end Talk

/-- What every session has submitted. -/
def Talks (state : State) : Prop :=
  ∀ session, Talk session (state.sessions session) state.submitted

section Steps

variable {listener : Nat} {state following : State} {session : Nat} {client : Client}

/-- The entry is for no other session. -/
def Own (session : Nat) (entry : Entry) : Prop :=
  ∀ other, entry.peer = some (.client other) ∨ entry.peer = some (.remote other) → other = session

theorem entry_for_own (operation : Operation) :
    Own session (entryFor session client operation) := by
  intro other hpeer
  cases operation with
  | connect =>
      rcases hpeer with hclient | hremote
      · cases reaches_eq_some hclient
      · exact (Peer.remote.inj (reaches_eq_some hremote)).symm
  | accept | read | write =>
      rcases hpeer with hclient | hremote
      · exact (Peer.client.inj (reaches_eq_some hclient)).symm
      · cases reaches_eq_some hremote

theorem forwards_own {fromClient : Bool} {span : List UInt8} {entry : Entry}
    (hentry : entry ∈ forwards session client fromClient span) : Own session entry := by
  intro other hpeer
  obtain ⟨side, -, hside⟩ := forwards_ends hentry
  rw [hside] at hpeer
  rcases hpeer with hclient | hremote
  · have hpeerOf := reaches_eq_some hclient
    cases side with
    | true => exact (Peer.client.inj hpeerOf).symm
    | false => cases hpeerOf
  · have hpeerOf := reaches_eq_some hremote
    cases side with
    | true => cases hpeerOf
    | false => exact (Peer.remote.inj hpeerOf).symm

/-- One session goes on, and all others stay as they are. -/
theorem Talks.act (h : Talks state) {entries : List Entry}
    (hself : Talk session client (state.submitted ++ entries))
    (hown : ∀ entry ∈ entries, Own session entry) : Talks (state.act session client entries) := by
  intro other
  show Talk other (Function.update state.sessions session client other) (state.submitted ++ entries)
  by_cases heq : other = session
  · subst heq
    rwa [Function.update_self]
  · rw [Function.update_of_ne heq]
    refine (h other).others fun entry hentry => ⟨fun hpeer => ?_, fun hpeer => ?_⟩
    · exact heq (hown entry hentry other (Or.inl hpeer))
    · exact heq (hown entry hentry other (Or.inr hpeer))

/-- A handshake is resumed. -/
theorem Talks.resume (h : Talks state) (hinv : Inv listener state) {stage : Stage} {choice : Choice}
    (hplace : (state.sessions session).place = .awaiting stage)
    (hresume : resume state session (state.sessions session) stage choice = some following) :
    Talks following := by
  obtain ⟨⟨place, operations⟩, hscript, hresume⟩ := Option.bind_eq_some_iff.mp hresume
  have hown : ∀ client, ∀ entry ∈ operations.map (entryFor session client), Own session entry := by
    intro client entry hentry
    obtain ⟨operation, -, rfl⟩ := List.mem_map.mp hentry
    exact entry_for_own operation
  by_cases hrelaying : place = .relaying
  · subst hrelaying
    obtain ⟨rfl, rfl, rfl⟩ := script_relays hscript
    obtain rfl := Option.some.inj hresume
    exact h.act ((h session).connects hplace) (hown _)
  · have hsubmits : ∀ client, client.sockfd = (state.sessions session).sockfd →
        client.place = place → Talk session client
          (state.submitted ++ operations.map (entryFor session client)) := by
      intro client hsockfd hclient
      subst hclient
      refine (h session).submits hsockfd (by simp [hplace]) hrelaying ?_ ?_
      · intro earlier hearlier
        rw [hplace] at hearlier
        exact Follows.begun (Follows.resume hearlier choice hscript)
      · intro hdial
        exact script_dials (hdial ▸ hscript)
    dsimp only at hresume
    split at hresume
    next sockfd =>
      obtain ⟨middle, hopens, hmiddle⟩ := Option.bind_eq_some_iff.mp hresume
      obtain rfl := Option.some.inj hmiddle
      obtain ⟨-, -, table, rfl⟩ := hinv.opens hopens
      have htable : Talks { state with table := table } := h
      exact htable.act (hsubmits _ rfl rfl) (hown _)
    next =>
      obtain rfl := Option.some.inj hresume
      exact h.act (hsubmits _ rfl rfl) (hown _)

/-- A session begins, and the server waits for the next client. -/
theorem Talks.serve (h : Talks state) (hinv : Inv listener state) {res : Int} :
    Talks (State.act { state with arrived := none, count := state.count + 1 } state.count
      { place := .spawned, sockfd := res } [acceptOn listener]) := by
  have hcounted : Talks { state with arrived := none, count := state.count + 1 } := h
  have habsent := hinv.absent state.count (Nat.le_refl _)
  have hbegins : Talk state.count { place := .spawned, sockfd := res } state.submitted :=
    (h state.count).begins habsent rfl
  refine hcounted.act (hbegins.others ?_) ?_
  · intro entry hentry
    obtain rfl := List.mem_singleton.mp hentry
    exact ⟨nofun, nofun⟩
  · intro entry hentry other hpeer
    obtain rfl := List.mem_singleton.mp hentry
    rcases hpeer with hclient | hremote
    · cases hclient
    · cases hremote

/-- A handshake runs up to its first read. -/
theorem Talks.start (h : Talks state) (hplace : (state.sessions session).place = .spawned) :
    Talks (state.act session { state.sessions session with place := .awaiting .greeting }
      [entryFor session (state.sessions session) (.read 2)]) := by
  have hgreeting : Talk session { state.sessions session with place := .awaiting .greeting }
      (state.submitted ++ [.read 2].map (entryFor session (state.sessions session))) := by
    refine (h session).submits rfl (by simp [hplace]) (by simp) ?_ (fun hdial => nomatch hdial)
    intro earlier hearlier
    rw [hplace] at hearlier
    obtain rfl : earlier = [] := hearlier
    exact Follows.start
  refine h.act hgreeting fun entry hentry => ?_
  obtain rfl := List.mem_singleton.mp hentry
  exact entry_for_own _

/-- A frame is destroyed. -/
theorem Talks.destroy (h : Talks state) (hplace : (state.sessions session).place = .returned) :
    Talks (state.act session { state.sessions session with place := .destroyed } []) := by
  have hover : Talk session { state.sessions session with place := .destroyed }
      (state.submitted ++ [].map (entryFor session (state.sessions session))) := by
    refine (h session).submits rfl (by simp [hplace]) (by simp) ?_ (fun hdial => nomatch hdial)
    intro earlier hearlier
    rw [hplace] at hearlier
    rw [List.append_nil]
    exact hearlier
  exact h.act hover fun entry hentry => (nomatch hentry)

/-- Every step keeps what the sessions have submitted in order. -/
theorem Talks.step (h : Talks state) (hinv : Inv listener state) {action : Action}
    (hnext : next listener state action = some following) : Talks following := by
  cases action with
  | accepted res =>
      simp only [next] at hnext
      split at hnext
      next =>
        obtain ⟨middle, hopens, hmiddle⟩ := Option.bind_eq_some_iff.mp hnext
        obtain rfl := Option.some.inj hmiddle
        obtain ⟨-, -, table, rfl⟩ := hinv.opens hopens
        exact h
      next => cases hnext
  | serve =>
      simp only [next] at hnext
      split at hnext
      next => cases hnext
      next => exact Option.some.inj hnext ▸ h.serve hinv
  | start session =>
      simp only [next] at hnext
      split at hnext
      next hplace => exact Option.some.inj hnext ▸ h.start hplace
      next => cases hnext
  | resume session choice =>
      simp only [next] at hnext
      split at hnext
      next stage hplace =>
        split at hnext
        next => exact h.resume hinv hplace hnext
        next => cases hnext
      next => cases hnext
  | destroy session =>
      simp only [next] at hnext
      split at hnext
      next hplace =>
        obtain rfl := Option.some.inj hnext
        exact h.destroy hplace
      next => cases hnext
  | forward session fromClient span =>
      simp only [next] at hnext
      split at hnext
      next hrelaying =>
        obtain rfl := Option.some.inj hnext
        exact h.act ((h session).forwards hrelaying.1) fun entry hentry => forwards_own hentry
      next => cases hnext
  | submit =>
      obtain rfl := Option.some.inj hnext
      exact h

end Steps

/-- A client gets through to its remote, which answers with one byte. -/
def relayed : List Action :=
  [.submit, .accepted 4, .serve, .start 0, .submit, .resume 0 (.methods 1), .submit,
    .resume 0 .request, .submit, .resume 0 .address, .submit, .resume 0 .port, .submit,
    .resume 0 (.dial 5), .submit, .resume 0 .connected, .forward 0 false [], .submit,
    .forward 0 false [7], .submit]

end Isolation

end Toad.Socks5
