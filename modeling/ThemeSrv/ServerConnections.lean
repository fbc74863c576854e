import ThemeSrv.ComponentFamily
import ThemeSrv.EventOutcomes

/-!
# A server is a family of connections

The dispatcher and the registry of a server only decide whose turn it is: its
clients are independent connections, found by the addresses of their nodes, and
a run of the server is a run of that family.
-/

namespace ThemeSrv

open TransitionSystem

/-! ### The connections of a server -/

/-- A family whose live connections are the clients of the server.  The
addresses of the nodes to come have not been used. -/
structure Daemon.Represents (d : Daemon) (family : Nat → Option Connection) : Prop where
  alive : ∀ node ∈ d.clients, family node.address = some (.alive node.client)
  listed : ∀ address cli, family address = some (.alive cli) →
    ∃ node ∈ d.clients, node.address = address
  unused : ∀ address, d.nextAddress ≤ address → family address = none

/-- The connections of a server, or of a program that one of them has
stopped. -/
def ServerState.Represents : ServerState → (Nat → Option Connection) → Prop
  | .running d _, family => d.Represents family
  | .halted halt, family =>
      ∃ stop cli address, halt = .client stop ∧ family address = some (.stopped stop cli)

/-- The event whose turn it is hangs up if the socket of its client has been
shut down. -/
def ServerState.HangsUp : ServerState → Prop
  | .running d (event :: _) => ∀ node ∈ d.clients, node.fd = event.fd →
      node.client.base.sock.isDown = true → event.event.hup = true
  | .running _ [] | .halted _ => True

/-- Connections that start and take their events independently. -/
abbrev ConnectionsStep (server : Server) :
    (Nat → Option Connection) → (Nat → Option Connection) → Prop :=
  ComponentFamily.Step ConnectionStart fun address => ConnectionStep (server.forClient address)

/-- The families that runs of independent connections reach. -/
def ReachableConnections (server : Server) : (Nat → Option Connection) → Prop :=
  Reachable ComponentFamily.Empty (ConnectionsStep server)

namespace Daemon

variable {server : Server} {d : Daemon} {family : Nat → Option Connection}

theorem represents_init (listenSock : Nat) (isOpen : Nat → Bool) :
    (init listenSock isOpen).Represents fun _ => none where
  alive := by simp [init]
  listed := by simp
  unused := fun _ _ => rfl

theorem Represents.accepted (represents : d.Represents family)
    (fresh : ∀ node ∈ d.clients, node.address < d.nextAddress) (fd : Nat) (registers : Bool) :
    (d.accepted fd registers).Represents (Function.update family d.nextAddress
      (some (.alive (Client.new ⟨[], .wouldBlock, [], []⟩ registers)))) where
  alive := by
    intro node member
    rcases List.mem_append.1 member with old | new
    · rw [Function.update_of_ne (fresh node old).ne]
      exact represents.alive node old
    · rw [List.mem_singleton.1 new, Function.update_self]
  listed := by
    intro address cli found
    by_cases same : address = d.nextAddress
    · subst same
      exact ⟨_, List.mem_append_right _ (List.mem_singleton_self _), rfl⟩
    · rw [Function.update_of_ne same] at found
      obtain ⟨node, member, rfl⟩ := represents.listed address cli found
      exact ⟨node, List.mem_append_left _ member, rfl⟩
  unused := by
    intro address unused
    have later : d.nextAddress < address := unused
    rw [Function.update_of_ne later.ne']
    exact represents.unused address later.le

/-- Every connection that is accepted starts in the family. -/
theorem Represents.acceptCb {event : EpollEvent} (represents : d.Represents family)
    (agrees : d.Agrees) (unused : UnusedFds d.isOpen event.queue) :
    ∃ family', Relation.ReflTransGen (ConnectionsStep server) family family' ∧
      (d.acceptCb event).Represents family' := by
  refine (agrees.acceptCb_keeps (fun d' => ∃ family',
    Relation.ReflTransGen (ConnectionsStep server) family family' ∧ d'.Represents family') unused
    ⟨family, .refl, represents⟩ ?_).2
  rintro d' fd registers agrees' - ⟨family', steps, represents'⟩
  have starts : ConnectionsStep server family' _ :=
    .started family' d'.nextAddress _ (represents'.unused _ le_rfl)
      (.accepted ⟨[], .wouldBlock, [], []⟩ registers rfl)
  exact ⟨_, steps.tail starts, represents'.accepted agrees'.fresh fd registers⟩

theorem Represents.setClient (represents : d.Represents family) (agrees : d.Agrees)
    {node : ClientNode} (member : node ∈ d.clients) (client : Client) :
    (d.setClient node.address client).Represents
      (Function.update family node.address (some (.alive client))) where
  alive := by
    intro new newMember
    obtain ⟨old, oldMember, rfl⟩ := KeyedList.mem_changed.1 newMember
    by_cases same : old.address = node.address
    · rw [if_pos same]
      dsimp only
      rw [same, Function.update_self]
    · rw [if_neg same, Function.update_of_ne same]
      exact represents.alive old oldMember
  listed := by
    intro address cli found
    have old : ∃ node ∈ d.clients, node.address = address := by
      by_cases same : address = node.address
      · exact ⟨node, member, same.symm⟩
      · rw [Function.update_of_ne same] at found
        exact represents.listed address cli found
    obtain ⟨other, otherMember, rfl⟩ := old
    refine ⟨_, KeyedList.mem_changed.2 ⟨other, otherMember, rfl⟩, ?_⟩
    split <;> rfl
  unused := by
    intro address unused
    have later : node.address < address := (agrees.fresh node member).trans_le unused
    rw [Function.update_of_ne later.ne']
    exact represents.unused address unused

theorem Represents.hungUp (represents : d.Represents family) (agrees : d.Agrees)
    {node : ClientNode} (member : node ∈ d.clients) (ptr : Nat) (client : Client) :
    (d.hungUp node ptr).Represents
      (Function.update family node.address (some (.destroyed client))) where
  alive := by
    intro other left
    obtain ⟨otherMember, apart⟩ := KeyedList.mem_without.1 left
    rw [Function.update_of_ne apart]
    exact represents.alive other otherMember
  listed := by
    intro address cli found
    have apart : address ≠ node.address := by
      rintro rfl
      rw [Function.update_self] at found
      cases found
    rw [Function.update_of_ne apart] at found
    obtain ⟨other, otherMember, rfl⟩ := represents.listed address cli found
    exact ⟨other, KeyedList.mem_without.2 ⟨otherMember, apart⟩, rfl⟩
  unused := by
    intro address unused
    have later : node.address < address := (agrees.fresh node member).trans_le unused
    rw [Function.update_of_ne later.ne']
    exact represents.unused address unused

/-! ### One event -/

/-- The step of the connection an event is for. -/
theorem Represents.advanced (server : Server) (represents : d.Represents family) {node : ClientNode}
    (member : node ∈ d.clients) (polling : node.client.polling = true) {event : PollEvent}
    (hangsUp : node.client.base.sock.isDown = true → event.hup = true) :
    ConnectionsStep server family (Function.update family node.address
      (some (handleDispatch (server.forClient node.address) event (node.client.polled event)))) :=
  .advanced family node.address _ _ (represents.alive node member)
    (.dispatch node.client event polling hangsUp)

/-- An event of the server is a step of the family, or several at the listen
socket. -/
theorem Represents.dispatchEvent {event : EpollEvent} {batch : List EpollEvent}
    (represents : d.Represents family) (agrees : d.Agrees) (ready : d.Ready (event :: batch))
    (unused : UnusedFds d.isOpen event.queue)
    (hangsUp : ServerState.HangsUp (.running d (event :: batch))) :
    ∃ family', Relation.ReflTransGen (ConnectionsStep server) family family' ∧
      (ServerState.behind batch (d.dispatchEvent server event)).Represents family' := by
  have outcome := agrees.eventOutcome server ready
  generalize d.dispatchEvent server event = result at outcome
  cases outcome with
  | accepting listens stays =>
      exact represents.acceptCb agrees unused
  | stopped node member fd polling stop client ends =>
      have step := represents.advanced server member polling (hangsUp node member fd)
      rw [ends] at step
      exact ⟨_, .single step, stop, client, node.address, rfl, Function.update_self _ _ _⟩
  | served node member fd polling client ends =>
      have step := represents.advanced server member polling (hangsUp node member fd)
      rw [ends] at step
      exact ⟨_, .single step, represents.setClient agrees member client⟩
  | hungUp node member fd polling hup =>
      have step := represents.advanced server member polling (hangsUp node member fd)
      unfold handleDispatch at step
      rw [if_pos hup] at step
      exact ⟨_, .single step, represents.hungUp agrees member _ _⟩

end Daemon

/-! ### Runs -/

/-- Runs of a server whose kernel reports a hang-up for every socket that has
been shut down. -/
def ReachableServing (server : Server) : ServerState → Prop :=
  Reachable ServerStart (Guarded ServerState.HangsUp (ServerStep server))

theorem ServerState.Represents.step {server : Server} {source target : ServerState}
    {family : Nat → Option Connection} (represents : source.Represents family)
    (sound : source.Sound)
    (next : Guarded ServerState.HangsUp (ServerStep server) source target) :
    ∃ family', Relation.ReflTransGen (ConnectionsStep server) family family' ∧
      target.Represents family' := by
  obtain ⟨hangsUp, step⟩ := next
  cases step with
  | wait d events ready => exact ⟨family, .refl, represents⟩
  | dispatch d event batch unused =>
      exact Daemon.Represents.dispatchEvent represents sound.1 sound.2 unused hangsUp

theorem ReachableServing.represented {server : Server} {state : ServerState}
    (reached : ReachableServing server state) :
    ∃ family, ReachableConnections server family ∧ state.Represents family := by
  apply reached.simulated
  · intro first start
    cases start with
    | init listenSock isOpen =>
        exact ⟨fun _ => none, fun _ => rfl, Daemon.represents_init listenSock isOpen⟩
  · intro source target family before represents next
    exact represents.step (sound_reachable before.of_guarded) next

/-- Every client of a server is a connection of its own. -/
theorem ReachableServing.client {server : Server} {d : Daemon} {batch : List EpollEvent}
    (reached : ReachableServing server (.running d batch)) {node : ClientNode}
    (member : node ∈ d.clients) :
    ReachableConnection (server.forClient node.address) (.alive node.client) := by
  obtain ⟨family, connections, represents⟩ := reached.represented
  exact ComponentFamily.component_reachable connections _ _ (represents.alive node member)

/-- A server refines a family of independent connections, each with a run of
its own. -/
theorem server_refines_connections (server : Server) {state : ServerState}
    (reached : ReachableServing server state) :
    ∃ family, ReachableConnections server family ∧ state.Represents family ∧
      ComponentFamily.All (fun address => ReachableConnection (server.forClient address)) family := by
  obtain ⟨family, connections, represents⟩ := reached.represented
  exact ⟨family, connections, represents, ComponentFamily.component_reachable connections⟩

/-- The first client opens its connection. -/
def openingArrives : EpollEvent :=
  ⟨4, 1, opening, []⟩

theorem reachableServing_servingOne : ReachableServing plainServer (.running servingOne []) := by
  have arrives : ReachableServing plainServer
      (.running (Daemon.init 3 fun _ => false) [arrival]) := by
    apply (reachable_start (ServerStart.init 3 fun _ => false)).tail
    refine ⟨trivial, .wait _ _ ⟨List.nodup_singleton _, by decide, by decide⟩⟩
  exact arrives.tail ⟨by simp [ServerState.HangsUp, Daemon.init], .dispatch _ _ _ ⟨rfl, trivial⟩⟩

theorem reachableServing_opened : ReachableServing plainServer
    (.behind [] (servingOne.dispatchEvent plainServer openingArrives)) := by
  have opens : ReachableServing plainServer (.running servingOne [openingArrives]) := by
    apply reachableServing_servingOne.tail
    refine ⟨trivial, .wait _ _ ⟨List.nodup_singleton _, by decide, by decide⟩⟩
  refine opens.tail ⟨?_, .dispatch _ _ _ trivial⟩
  intro node member fd down
  have new : servingOne.clients = [⟨0, 4, acceptedClient, some 0⟩] := rfl
  rw [new, List.mem_singleton] at member
  rw [member] at down
  cases down

theorem dispatchEvent_openingArrives : servingOne.dispatchEvent plainServer openingArrives =
    .ok (servingOne.setClient 0 openedConnection.client) := by
  have agrees := (sound_reachable reachable_servingOne).1
  have member : (⟨0, 4, acceptedClient, some 0⟩ : ClientNode) ∈ servingOne.clients :=
    List.mem_cons_self
  have alive : openedConnection.isAlive = true := by decide +kernel
  rw [agrees.dispatchEvent_client plainServer rfl member rfl rfl rfl,
    agrees.clientDispatch_eq plainServer member rfl]
  have own : handleDispatch (plainServer.forClient 0) openingArrives.event
      (acceptedClient.polled openingArrives.event) = openedConnection := rfl
  dsimp only
  rw [own]
  cases opened : openedConnection with
  | alive cli => rfl
  | destroyed cli | stopped stop cli =>
      rw [opened] at alive
      cases alive

theorem server_refines_connections_opened : ∃ family, ReachableConnections plainServer family ∧
    (ServerState.behind [] (servingOne.dispatchEvent plainServer openingArrives)).Represents
      family ∧
    ComponentFamily.All (fun address => ReachableConnection (plainServer.forClient address))
      family :=
  server_refines_connections plainServer reachableServing_opened

end ThemeSrv
