import ThemeSrv.DescriptorOwnership
import ThemeSrv.SessionRuns

/-!
# Clients among others

The dispatcher interleaves the events of all clients.  What becomes of one of
them is decided by its own events, in their order, as if it was alone; so a
client that keeps to its session is served, whatever the others do.
-/

namespace ThemeSrv

open TransitionSystem

/-! ### Runs with their events -/

/-- A run of the server, with the events it processes. -/
inductive ServerRun (server : Server) : ServerState → List EpollEvent → ServerState → Prop
  | stays (state : ServerState) : ServerRun server state [] state
  | waits (d : Daemon) (batch : List EpollEvent) (ready : d.Ready batch)
      (events : List EpollEvent) (target : ServerState)
      (rest : ServerRun server (.running d batch) events target) :
      ServerRun server (.running d []) events target
  | dispatches (d : Daemon) (event : EpollEvent) (batch : List EpollEvent)
      (unused : UnusedFds d.isOpen event.queue) (events : List EpollEvent) (target : ServerState)
      (rest : ServerRun server (.behind batch (d.dispatchEvent server event)) events target) :
      ServerRun server (.running d (event :: batch)) (event :: events) target

/-- Every run processes some events. -/
theorem exists_serverRun {server : Server} {source target : ServerState} :
    Relation.ReflTransGen (ServerStep server) source target ↔
      ∃ events, ServerRun server source events target := by
  constructor
  · intro steps
    induction steps using Relation.ReflTransGen.head_induction_on with
    | refl => exact ⟨[], .stays target⟩
    | head next _ ih =>
        obtain ⟨events, rest⟩ := ih
        cases next with
        | wait d batch ready => exact ⟨events, .waits d batch ready events target rest⟩
        | dispatch d event batch unused =>
            exact ⟨event :: events, .dispatches d event batch unused events target rest⟩
  · rintro ⟨events, run⟩
    induction run with
    | stays state => exact .refl
    | waits d batch ready events target rest ih => exact .head (.wait d batch ready) ih
    | dispatches d event batch unused events target rest ih =>
        exact .head (.dispatch d event batch unused) ih

/-- The events of one descriptor, as its client gets them. -/
def eventsFor (fd : Nat) (events : List EpollEvent) : List PollEvent :=
  (events.filter fun event => event.fd = fd).map EpollEvent.event

/-- The server has a client as its connection says.  One whose connection has
ended has left, and a connection that stops the program does not leave a
server. -/
def Daemon.Has (d : Daemon) (node : ClientNode) : Connection → Prop
  | .alive client => { node with client := client } ∈ d.clients
  | .destroyed _ => d.Left node.address
  | .stopped _ _ => False

section Runs

variable {server : Server}

theorem eventsFor_own {fd : Nat} {event : EpollEvent} (own : event.fd = fd)
    (events : List EpollEvent) :
    eventsFor fd (event :: events) = event.event :: eventsFor fd events := by
  simp [eventsFor, own]

theorem eventsFor_other {fd : Nat} {event : EpollEvent} (other : event.fd ≠ fd)
    (events : List EpollEvent) : eventsFor fd (event :: events) = eventsFor fd events := by
  simp [eventsFor, other]

theorem ServerRun.of_halted {halt : Halt} {events : List EpollEvent} {target : ServerState}
    (run : ServerRun server (.halted halt) events target) : target = .halted halt := by
  cases run with
  | stays => rfl

theorem handleDispatch_hup {event : PollEvent} (hup : event.hup = true) (client : Client) :
    handleDispatch server event client =
      .destroyed { client with flags := { client.flags with polling := false } } := by
  rw [handleDispatch, if_pos hup]

/-- A client that has left does not come back. -/
theorem ServerRun.left {source target : ServerState} {events : List EpollEvent}
    (run : ServerRun server source events target) {d d' : Daemon} {batch batch' : List EpollEvent}
    (starts : source = .running d batch) (ends : target = .running d' batch')
    (sound : source.Sound) {address : Nat} (left : d.Left address) : d'.Left address := by
  induction run generalizing d batch with
  | stays state =>
      subst starts
      cases ends
      exact left
  | waits d₁ next ready events target rest ih =>
      cases starts
      exact ih rfl ends ⟨sound.1, ready⟩ left
  | dispatches d₁ event next unused events target rest ih =>
      cases starts
      have behind : (ServerState.behind next (d₁.dispatchEvent server event)).Sound :=
        sound_dispatch sound.1 sound.2 unused
      cases done : d₁.dispatchEvent server event with
      | error halt =>
          rw [done] at rest
          have halted := rest.of_halted
          rw [ends] at halted
          cases halted
      | ok d₂ =>
          rw [done] at ih behind
          exact ih rfl ends behind (left.dispatchEvent sound.1 sound.2 unused done)

theorem ServerRun.has {source target : ServerState} {events : List EpollEvent}
    (run : ServerRun server source events target) {d d' : Daemon} {batch batch' : List EpollEvent}
    (starts : source = .running d batch) (ends : target = .running d' batch')
    (sound : source.Sound) {node : ClientNode} (member : node ∈ d.clients) :
    d'.Has node
      (handleEvents (server.forClient node.address) (eventsFor node.fd events) node.client) := by
  induction run generalizing d batch node with
  | stays state =>
      subst starts
      cases ends
      exact member
  | waits d₁ next ready events target rest ih =>
      cases starts
      exact ih rfl ends ⟨sound.1, ready⟩ member
  | dispatches d₁ event next unused events target rest ih =>
      cases starts
      have agrees := sound.1
      have behind : (ServerState.behind next (d₁.dispatchEvent server event)).Sound :=
        sound_dispatch sound.1 sound.2 unused
      have outcome := agrees.eventOutcome server sound.2
      cases done : d₁.dispatchEvent server event with
      | error halt =>
          rw [done] at rest
          have halted := rest.of_halted
          rw [ends] at halted
          cases halted
      | ok d₂ =>
          rw [done] at ih behind rest
          by_cases own : event.fd = node.fd
          · rw [eventsFor_own own, handleEvents]
            rw [done] at outcome
            cases outcome with
            | accepting listens stays =>
                exact absurd (own.symm.trans listens) (agrees.apart node member)
            | served served servedMember fd polling client handled =>
                obtain rfl := agrees.fds.eq_of_key_eq servedMember member (fd.trans own)
                rw [handled]
                have changed : { served with client := client } ∈
                    (d₁.setClient served.address client).clients :=
                  KeyedList.mem_changed.2 ⟨served, member, if_pos rfl⟩
                exact ih rfl ends behind changed
            | hungUp gone goneMember fd polling hup =>
                obtain rfl := agrees.fds.eq_of_key_eq goneMember member (fd.trans own)
                rw [handleDispatch_hup hup]
                exact rest.left rfl ends behind (agrees.left_hungUp member event.ptr)
          · rw [eventsFor_other own]
            have left := agrees.dispatchEvent_leaves sound.2 unused done member (Ne.symm own)
            exact ih rfl ends behind left.member

end Runs

/-! ### The opening of a client -/

theorem reachable_firstArrival (server : Server) :
    ReachableServer server (.running servingOne []) := by
  have arrives : ReachableServer server (.running (Daemon.init 3 fun _ => false) [arrival]) := by
    apply (reachable_start (ServerStart.init 3 fun _ => false)).tail
    exact ServerStep.wait _ _ ⟨List.nodup_singleton _, by decide, by decide⟩
  exact arrives.tail (.dispatch _ _ _ ⟨rfl, trivial⟩)

/-- The opening of a client arrives. -/
def sessionArrives (session : Session) : EpollEvent :=
  ⟨4, 1, pieceArrives session.opening, []⟩

theorem sessionArrives_brings (session : Session) :
    List.Forall₂ PollEvent.Brings (eventsFor 4 [secondArrival, sessionArrives session])
      [[session.opening]] :=
  .cons (pieceArrives_brings session.opening_ne_nil) .nil

theorem opening_cut (session : Session) : EndsAt session.Ends 0 [[session.opening]].flatten := by
  refine ⟨?_, trivial⟩
  rw [Nat.zero_add]
  exact session.ends_opening

theorem opening_stream (session : Session) (keystream : Nat → UInt8) :
    [[session.opening]].flatten.flatten <+: session.stream keystream := by
  rw [List.flatten_singleton, List.flatten_singleton]
  exact List.prefix_append _ _

/-- Behind its opening a client is owed the handshake reply. -/
theorem answers_opening (server : Server) (session : Session) (srvSeed key : Bytes) :
    session.answers server srvSeed key [[session.opening]].flatten.flatten.length =
      handshakeReply srvSeed := by
  have nothing : requestsWithin 0 session.requests = [] := by
    cases requests : session.requests with
    | nil => rfl
    | cons request later =>
        rw [requestsWithin, if_neg (Nat.not_le.2 request.bytes_pos)]
  rw [List.flatten_singleton, List.flatten_singleton, Session.answers, if_neg (lt_irrefl _),
    Nat.sub_self, nothing]
  exact List.append_nil _

theorem Server.ShortAddresses.forClient {server : Server} (short : server.ShortAddresses)
    (address : Nat) : (server.forClient address).ShortAddresses :=
  ⟨short.filesrv, short.authsrv⟩

/-- Another connection arrives in front of the opening of a client. -/
theorem run_opening {server : Server} (short : server.ShortAddresses) {session : Session}
    (fits : session.Fits) {srvSeed key : Bytes}
    (derived : (server.forClient 0).derive 0 session.yData = some (srvSeed, key)) :
    ∃ d, ServerRun server (.running servingOne []) [secondArrival, sessionArrives session]
      (.running d []) := by
  have ready : servingOne.Ready [secondArrival, sessionArrives session] := by
    refine ⟨(by decide : [3, 4].Nodup), ?_, ?_⟩
    · intro event member
      rcases List.mem_pair.1 member with rfl | rfl <;> rfl
    · intro event member hangsUp
      rcases List.mem_pair.1 member with rfl | rfl <;> cases hangsUp
  have second : servingOne.dispatchEvent server secondArrival =
      .ok (servingOne.acceptCb secondArrival) := rfl
  have sound : (ServerState.behind [sessionArrives session]
      (servingOne.dispatchEvent server secondArrival)).Sound :=
    sound_dispatch (sound_reachable (reachable_firstArrival server)).1 ready ⟨rfl, trivial⟩
  rw [second] at sound
  obtain ⟨agrees, rest⟩ := sound
  obtain ⟨served, handled, -, -⟩ := (sessionAt_new ⟨[], .wouldBlock, [], []⟩).handleDispatch derived
    (short.forClient 0) fits ⟨rfl, rfl⟩ (pieceArrives_brings session.opening_ne_nil)
    ⟨opening_cut session, opening_stream session _⟩
  have member : (⟨0, 4, acceptedClient, some 0⟩ : ClientNode) ∈
      (servingOne.acceptCb secondArrival).clients := List.mem_cons_self
  have first : (servingOne.acceptCb secondArrival).dispatchEvent server (sessionArrives session) =
      .ok ((servingOne.acceptCb secondArrival).setClient 0 served) := by
    rw [agrees.dispatchEvent_client server (rest.registered _ List.mem_cons_self) member rfl rfl
      rfl, agrees.clientDispatch_eq server member rfl]
    have own : handleDispatch (server.forClient 0) (sessionArrives session).event
        (acceptedClient.polled (sessionArrives session).event) = .alive served := handled
    dsimp only
    rw [own]
  refine ⟨(servingOne.acceptCb secondArrival).setClient 0 served, .waits _ _ ready _ _
    (.dispatches servingOne secondArrival [sessionArrives session] ⟨rfl, trivial⟩ _ _ ?_)⟩
  rw [second]
  refine .dispatches (servingOne.acceptCb secondArrival) (sessionArrives session) [] trivial _ _ ?_
  rw [first]
  exact .stays _

/-! ### Clients of a server -/

/-- Along every run of the server a client is what its own events make of it,
whatever the events of the others are and however they come in between. -/
theorem client_by_itself (server : Server) {d d' : Daemon} {batch batch' events : List EpollEvent}
    (reached : ReachableServer server (.running d batch)) {node : ClientNode}
    (member : node ∈ d.clients)
    (run : ServerRun server (.running d batch) events (.running d' batch')) :
    d'.Has node
      (handleEvents (server.forClient node.address) (eventsFor node.fd events) node.client) :=
  run.has rfl rfl (sound_reachable reached) member

/-- A connection arrives, and then the opening of the client on descriptor 4, or
its hang-up. -/
theorem client_by_itself_second :
    (∃ d, ServerRun plainServer (.running servingOne [])
        [secondArrival, sessionArrives shortSession] (.running d []) ∧
      d.Has ⟨0, 4, acceptedClient, some 0⟩
        (handleEvents plainServer [pieceArrives shortSession.opening] acceptedClient)) ∧
    ∃ d, ServerRun plainServer (.running servingOne []) [secondArrival, departure]
        (.running d []) ∧ d.Left 0 := by
  constructor
  · obtain ⟨srvSeed, key, derived⟩ : ∃ srvSeed key,
        plainServer.derive 0 shortSession.yData = some (srvSeed, key) := ⟨_, _, rfl⟩
    obtain ⟨d, run⟩ := run_opening plainServer_shortAddresses shortSession_fits derived
    exact ⟨d, run, client_by_itself plainServer reachable_servingOne List.mem_cons_self run⟩
  · have run : ServerRun plainServer (.running servingOne []) [secondArrival, departure]
        (.running ((servingOne.acceptCb secondArrival).hungUp ⟨0, 4, acceptedClient, some 0⟩ 1)
          []) := by
      refine .waits _ [secondArrival, departure]
        ⟨(by decide : [3, 4].Nodup), by decide, by decide⟩ _ _ ?_
      refine .dispatches servingOne secondArrival _ ⟨rfl, trivial⟩ _ _ ?_
      exact .dispatches (servingOne.acceptCb secondArrival) departure [] trivial _ _ (.stays _)
    exact ⟨_, run, client_by_itself plainServer reachable_servingOne List.mem_cons_self run⟩

/-- Where the session of a new client stands, among any others. -/
theorem ServerRun.sessionAt {server : Server} (short : server.ShortAddresses) {session : Session}
    (fits : session.Fits) {node : ClientNode} {srvSeed key : Bytes}
    (derived : (server.forClient node.address).derive 0 session.yData = some (srvSeed, key))
    {d d' : Daemon} {batch batch' events : List EpollEvent}
    (run : ServerRun server (.running d batch) events (.running d' batch'))
    (reached : ReachableServer server (.running d batch)) (member : node ∈ d.clients)
    (new : node.client = acceptedClient)
    {deliveries : List (List Bytes)}
    (brings : List.Forall₂ PollEvent.Brings (eventsFor node.fd events) deliveries)
    (cut : EndsAt session.Ends 0 deliveries.flatten)
    (stream : deliveries.flatten.flatten <+: session.stream (server.rc4 key)) :
    ∃ cli, { node with client := cli } ∈ d'.clients ∧ cli.base.sock.isDown = false ∧
      ReachableConnection (server.forClient node.address) (.alive cli) ∧
      SessionAt (server.forClient node.address) session srvSeed key
        deliveries.flatten.flatten.length cli := by
  have has := run.has rfl rfl (sound_reachable reached) member
  obtain ⟨cli, alone, sessionAt, usable, alive⟩ := Session.handleEvents_new derived
    (short.forClient _) fits (show (⟨[], .wouldBlock, [], []⟩ : Socket).calls = [] from rfl) brings cut
    stream
  rw [new, show acceptedClient = Client.new _ true from rfl, alone] at has
  exact ⟨cli, has, usable.up, alive, sessionAt⟩

/-- A session is served among any others: the new client of a server that runs
on has been sent, or has queued, what it is owed. -/
theorem session_served_among_others (server : Server) (short : server.ShortAddresses)
    (session : Session) (fits : session.Fits) {node : ClientNode} {srvSeed key : Bytes}
    (derived : (server.forClient node.address).derive 0 session.yData = some (srvSeed, key))
    {d d' : Daemon} {batch batch' events : List EpollEvent}
    (reached : ReachableServer server (.running d batch)) (member : node ∈ d.clients)
    (new : node.client = acceptedClient)
    (run : ServerRun server (.running d batch) events (.running d' batch'))
    {deliveries : List (List Bytes)}
    (brings : List.Forall₂ PollEvent.Brings (eventsFor node.fd events) deliveries)
    (cut : EndsAt session.Ends 0 deliveries.flatten)
    (stream : deliveries.flatten.flatten <+: session.stream (server.rc4 key)) :
    ∃ cli, { node with client := cli } ∈ d'.clients ∧ cli.base.sock.isDown = false ∧
      cli.base.sock.sent ++ cli.base.unsent =
        session.answers server srvSeed key deliveries.flatten.flatten.length := by
  obtain ⟨cli, has, up, alive, sessionAt⟩ :=
    run.sessionAt short fits derived reached member new brings cut stream
  exact ⟨cli, has, up, sessionAt.served alive⟩

theorem session_served_among_others_second :
    ∃ srvSeed key d cli, plainServer.derive 0 shortSession.yData = some (srvSeed, key) ∧
      ServerRun plainServer (.running servingOne []) [secondArrival, sessionArrives shortSession]
        (.running d []) ∧
      (⟨0, 4, cli, some 0⟩ : ClientNode) ∈ d.clients ∧
      cli.base.sock.sent ++ cli.base.unsent = handshakeReply srvSeed := by
  obtain ⟨srvSeed, key, derived⟩ : ∃ srvSeed key,
      plainServer.derive 0 shortSession.yData = some (srvSeed, key) := ⟨_, _, rfl⟩
  obtain ⟨d, run⟩ := run_opening plainServer_shortAddresses shortSession_fits derived
  have member : (⟨0, 4, acceptedClient, some 0⟩ : ClientNode) ∈ servingOne.clients :=
    List.mem_cons_self
  obtain ⟨cli, has, -, answers⟩ := session_served_among_others plainServer
    plainServer_shortAddresses shortSession shortSession_fits derived reachable_servingOne member
    rfl run (sessionArrives_brings shortSession) (opening_cut shortSession)
    (opening_stream shortSession _)
  exact ⟨srvSeed, key, d, cli, derived, run, has,
    answers.trans (answers_opening plainServer shortSession srvSeed key)⟩

end ThemeSrv
