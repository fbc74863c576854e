import ThemeSrv.ActionFrames
import ThemeSrv.RegistryAgreement

/-!
# Runs of the server

What one event does to the dispatcher and the clients, and from it what holds
between the batches of every run.
-/

namespace ThemeSrv

open TransitionSystem

namespace Daemon

open EpollDispatch

variable {server : Server} {d : Daemon} {event : EpollEvent}

/-- What processing an event does. -/
inductive EventCase (event : EpollEvent) (d : Daemon) : Except Halt Daemon → Prop
  | accepting : EventCase event d (.ok (d.acceptCb event))
  | stopped (stop : Stop) : EventCase event d (.error (.client stop))
  | alive (node : ClientNode) (member : node ∈ d.clients) (client : Client)
      (polling : client.polling = node.client.polling) :
      EventCase event d (.ok (d.setClient node.address client))
  | hungUp (node : ClientNode) (member : node ∈ d.clients) (fd : node.fd = event.fd) :
      EventCase event d (.ok (d.hungUp node event.ptr))

theorem Agrees.node_eq (agrees : d.Agrees) {node : ClientNode} (member : node ∈ d.clients) :
    d.node node.address = some node :=
  (KeyedList.lookup_eq_some agrees.addresses).2 ⟨member, rfl⟩

theorem Agrees.iteratorNode_eq (agrees : d.Agrees) {cb : EpollCb}
    (member : cb ∈ d.poll.callbacks) : d.iteratorNode cb.address = some cb := by
  have found := agrees.poll.node_eq member
  simp [iteratorNode, found, agrees.poll.iterators cb member]

theorem handleDispatch_not_destroyed {cli cli' : Client} {event : PollEvent}
    (stays : event.hup = false) : handleDispatch server event cli ≠ .destroyed cli' := by
  intro ends
  rw [handleDispatch_up stays] at ends
  split at ends
  · cases ends
  split at ends
  · split at ends <;> cases ends
  · cases ends

theorem destroy_eq {node : ClientNode} (quiet : node.client.flags.polling = false)
    (dropped : d.poll.interest node.fd = none) :
    d.destroy node = { d with isOpen := Function.update d.isOpen node.fd false } := by
  simp [destroy, ctlDel, quiet, dropped]

/-- Erasing a client whose flag has been cleared finds its list node. -/
theorem eraseClient_eq (addresses : KeyedList.Distinct ClientNode.address d.clients)
    {node : ClientNode} (member : node ∈ d.clients) (client : Client)
    (quiet : client.flags.polling = false) (dropped : d.poll.interest node.fd = none) :
    (d.setClient node.address client).eraseClient node.address =
      .ok { d with
        clients := KeyedList.without ClientNode.address d.clients node.address
        isOpen := Function.update d.isOpen node.fd false } := by
  have found : (d.setClient node.address client).node node.address =
      some { node with client := client } := by
    have stillDistinct : KeyedList.Distinct ClientNode.address
        (d.setClient node.address client).clients :=
      KeyedList.Distinct.changed addresses fun _ => rfl
    apply (KeyedList.lookup_eq_some stillDistinct).2
    refine ⟨KeyedList.mem_changed.2 ⟨node, member, ?_⟩, rfl⟩
    rw [if_pos rfl]
  have left : KeyedList.without ClientNode.address (d.setClient node.address client).clients
      node.address = KeyedList.without ClientNode.address d.clients node.address :=
    KeyedList.without_changed fun _ => rfl
  unfold eraseClient
  rw [found]
  dsimp only
  rw [left]
  exact congrArg Except.ok (destroy_eq quiet dropped)

theorem Agrees.clientDispatch_eq (agrees : d.Agrees) (server : Server) {node : ClientNode}
    (member : node ∈ d.clients) (stays : event.event.hup = false) :
    clientDispatch server node.address event.event d =
      match handleDispatch (server.forClient node.address) event.event
          (node.client.polled event.event) with
      | .stopped stop _ => .error (.client stop)
      | .alive client | .destroyed client => .ok (d.setClient node.address client) := by
  unfold clientDispatch
  rw [agrees.node_eq member]
  dsimp only
  cases ends : handleDispatch (server.forClient node.address) event.event
      (node.client.polled event.event) with
  | stopped stop client | alive client => rfl
  | destroyed client =>
      exact absurd ends (handleDispatch_not_destroyed stays)

theorem Agrees.clientDispatch_case (agrees : d.Agrees) {node : ClientNode}
    (member : node ∈ d.clients) (stays : event.event.hup = false) :
    EventCase event d (clientDispatch server node.address event.event d) := by
  rw [agrees.clientDispatch_eq server member stays]
  cases ends : handleDispatch (server.forClient node.address) event.event
      (node.client.polled event.event) with
  | stopped stop client => exact .stopped stop
  | destroyed client =>
      exact absurd ends (handleDispatch_not_destroyed stays)
  | alive client =>
      have kept := handleDispatch_polling ends
      exact .alive node member client kept

theorem Agrees.clientDispatch_hup (agrees : d.Agrees) (server : Server) {node : ClientNode}
    (member : node ∈ d.clients) (hangsUp : event.event.hup = true)
    (poll : EpollDispatch) (dropped : poll.interest node.fd = none) :
    clientDispatch server node.address event.event { d with poll := poll } =
      .ok { d with
        poll := poll
        clients := KeyedList.without ClientNode.address d.clients node.address
        isOpen := Function.update d.isOpen node.fd false } := by
  have found : ({ d with poll := poll } : Daemon).node node.address = some node :=
    agrees.node_eq member
  have destroyed : handleDispatch (server.forClient node.address) event.event
      (node.client.polled event.event) =
      .destroyed { node.client.polled event.event with
        flags := { node.client.flags with polling := false } } := by
    unfold handleDispatch
    rw [hangsUp]
    rfl
  unfold clientDispatch
  rw [found]
  dsimp only
  rw [destroyed, agrees.iterators node member]
  exact eraseClient_eq (d := { d with poll := poll }) agrees.addresses member _ rfl dropped

/-- The owner of a registered descriptor. -/
theorem Agrees.owner (agrees : d.Agrees) {fd ptr : Nat}
    (registered : d.poll.interest fd = some ptr) :
    fd = d.listenSock ∨ ∃ node ∈ d.clients, node.fd = fd ∧ node.client.polling = true := by
  obtain ⟨cb, member, rfl, -⟩ := (agrees.poll.watched _ _).1 registered
  exact agrees.owned cb member

theorem Agrees.dispatchEvent_listening (agrees : d.Agrees) (server : Server)
    (registered : d.poll.interest event.fd = some event.ptr) (listens : event.fd = d.listenSock)
    (stays : event.event.hup = false) : d.dispatchEvent server event = .ok (d.acceptCb event) := by
  obtain ⟨cb, member, key, address⟩ := (agrees.poll.watched _ _).1 registered
  have iteratorNode := agrees.iteratorNode_eq member
  have entry := agrees.poll.node_eq member
  rw [address] at iteratorNode entry
  have accepts : cb.cb = .acceptCb := by
    obtain ⟨other, otherMember, otherKey, accepts⟩ := agrees.listening
    rw [← agrees.poll.keys.eq_of_key_eq otherMember member
      (otherKey.trans (listens.symm.trans key.symm))]
    exact accepts
  unfold dispatchEvent
  rw [iteratorNode]
  dsimp only
  rw [stays]
  unfold callback
  simp only [entry, accepts, Bool.false_eq_true, if_false]

section Polling

variable {node : ClientNode}

theorem Agrees.calls (agrees : d.Agrees) (member : node ∈ d.clients)
    (polling : node.client.polling = true) {cb : EpollCb} (cbMember : cb ∈ d.poll.callbacks)
    (key : cb.key = node.fd) : cb.cb = .handleDispatch node.address := by
  obtain ⟨other, otherMember, otherKey, calls⟩ := agrees.called node member polling
  rw [← agrees.poll.keys.eq_of_key_eq otherMember cbMember (otherKey.trans key.symm)]
  exact calls

theorem Agrees.dispatchEvent_client (agrees : d.Agrees) (server : Server)
    (registered : d.poll.interest event.fd = some event.ptr) (member : node ∈ d.clients)
    (fd : node.fd = event.fd) (polling : node.client.polling = true)
    (stays : event.event.hup = false) :
    d.dispatchEvent server event = d.clientDispatch server node.address event.event := by
  obtain ⟨cb, cbMember, key, address⟩ := (agrees.poll.watched _ _).1 registered
  have iteratorNode := agrees.iteratorNode_eq cbMember
  have entry := agrees.poll.node_eq cbMember
  have calls := agrees.calls member polling cbMember (key.trans fd.symm)
  rw [address] at iteratorNode entry
  unfold dispatchEvent
  rw [iteratorNode]
  dsimp only
  rw [stays]
  unfold callback
  simp only [entry, calls, Bool.false_eq_true, if_false]

theorem Agrees.dispatchEvent_hup (agrees : d.Agrees) (server : Server)
    (registered : d.poll.interest event.fd = some event.ptr) (member : node ∈ d.clients)
    (fd : node.fd = event.fd) (polling : node.client.polling = true)
    (hangsUp : event.event.hup = true) :
    d.dispatchEvent server event = .ok (d.hungUp node event.ptr) := by
  obtain ⟨cb, cbMember, key, address⟩ := (agrees.poll.watched _ _).1 registered
  have iteratorNode := agrees.iteratorNode_eq cbMember
  have entry := agrees.poll.node_eq cbMember
  have calls := agrees.calls member polling cbMember (key.trans fd.symm)
  rw [address] at iteratorNode entry
  have dropped : d.poll.ctlDel node.fd =
      (true, { d.poll with interest := Function.update d.poll.interest node.fd none }) := by
    simp [ctlDel, fd, registered]
  have called := agrees.clientDispatch_hup server member hangsUp
    { d.poll with interest := Function.update d.poll.interest node.fd none }
    (Function.update_self _ _ _)
  -- neither the map nor the entry has changed behind the callback
  have entry' : ({ d with
      poll := { d.poll with
        interest := Function.update d.poll.interest node.fd none } } : Daemon).poll.node
        event.ptr = some cb := entry
  have again : ({ d with
      poll := { d.poll with interest := Function.update d.poll.interest node.fd none }
      clients := KeyedList.without ClientNode.address d.clients node.address
      isOpen := Function.update d.isOpen node.fd false } : Daemon).iteratorNode event.ptr =
        some cb := iteratorNode
  unfold dispatchEvent
  rw [iteratorNode]
  dsimp only
  rw [hangsUp, key, ← fd, dropped]
  unfold callback
  simp only [entry', calls, called, again, if_true]
  rw [address]
  rfl

end Polling

/-- Processing an event whose entry is in the map. -/
theorem Agrees.dispatchEvent_case (agrees : d.Agrees) (server : Server)
    (registered : d.poll.interest event.fd = some event.ptr)
    (listening : event.event.hup = true → event.fd ≠ d.listenSock) :
    EventCase event d (d.dispatchEvent server event) := by
  cases hup : event.event.hup with
  | false =>
      rcases agrees.owner registered with listens | ⟨node, member, fd, polling⟩
      · rw [agrees.dispatchEvent_listening server registered listens hup]
        exact .accepting
      · rw [agrees.dispatchEvent_client server registered member fd polling hup]
        exact agrees.clientDispatch_case member hup
  | true =>
      rcases agrees.owner registered with listens | ⟨node, member, fd, polling⟩
      · exact absurd listens (listening hup)
      · rw [agrees.dispatchEvent_hup server registered member fd polling hup]
        exact .hungUp node member fd

/-! ### One event -/

/-- What every accept keeps, the accept loop keeps. -/
theorem Agrees.acceptLoop_keeps (holds : Daemon → Prop) {queue : List Pending} (agrees : d.Agrees)
    (unused : UnusedFds d.isOpen queue) (before : holds d)
    (accept : ∀ (d : Daemon) (fd : Nat) (registers : Bool), d.Agrees → d.isOpen fd = false →
      holds d → holds (d.accepted fd registers)) :
    (acceptLoop d queue).daemon.Agrees ∧ holds (acceptLoop d queue).daemon := by
  induction queue generalizing d with
  | nil => exact ⟨agrees, before⟩
  | cons pending queue ih =>
      cases pending with
      | failed => exact ⟨agrees, before⟩
      | connection fd registers =>
          obtain ⟨closed, rest⟩ := unused
          rw [acceptLoop, agrees.emplaceBack_eq closed]
          exact ih (agrees.accepted closed registers) rest (accept d fd registers agrees closed before)

theorem Agrees.acceptCb_keeps (holds : Daemon → Prop) (agrees : d.Agrees)
    (unused : UnusedFds d.isOpen event.queue) (before : holds d)
    (accept : ∀ (d : Daemon) (fd : Nat) (registers : Bool), d.Agrees → d.isOpen fd = false →
      holds d → holds (d.accepted fd registers)) :
    (d.acceptCb event).Agrees ∧ holds (d.acceptCb event) := by
  rw [acceptCb]
  split
  · exact agrees.acceptLoop_keeps holds unused before accept
  · exact ⟨agrees, before⟩

theorem Agrees.acceptCb (agrees : d.Agrees) (unused : UnusedFds d.isOpen event.queue) :
    (d.acceptCb event).Agrees :=
  (agrees.acceptCb_keeps (fun _ => True) unused trivial fun _ _ _ _ _ _ => trivial).1

/-- A new registration leaves the others as they are. -/
theorem Agrees.accepted_interest (agrees : d.Agrees) {fd : Nat} (closed : d.isOpen fd = false)
    (registers : Bool) {other ptr : Nat} (watched : d.poll.interest other = some ptr) :
    (d.accepted fd registers).poll.interest other = some ptr := by
  cases registers with
  | false => exact watched
  | true =>
      change Function.update d.poll.interest fd _ other = some ptr
      rw [Function.update_of_ne, watched]
      rintro rfl
      rw [agrees.poll.interest_none (agrees.unused closed)] at watched
      cases watched

theorem Agrees.acceptCb_interest (agrees : d.Agrees) (unused : UnusedFds d.isOpen event.queue) :
    (d.acceptCb event).listenSock = d.listenSock ∧
      ∀ fd ptr, d.poll.interest fd = some ptr → (d.acceptCb event).poll.interest fd = some ptr := by
  refine (agrees.acceptCb_keeps (fun d' => d'.listenSock = d.listenSock ∧
    ∀ fd ptr, d.poll.interest fd = some ptr → d'.poll.interest fd = some ptr) unused
    ⟨rfl, fun fd ptr watched => watched⟩ ?_).2
  intro d' fd registers agrees' closed before
  exact ⟨before.1, fun other ptr watched =>
    agrees'.accepted_interest closed registers (before.2 other ptr watched)⟩

/-- What is left of a batch is still ready when the registrations of its
descriptors are. -/
theorem Ready.rest {batch : List EpollEvent} {d' : Daemon} (ready : d.Ready (event :: batch))
    (listenSock : d'.listenSock = d.listenSock)
    (kept : ∀ fd ptr, fd ≠ event.fd → d.poll.interest fd = some ptr →
      d'.poll.interest fd = some ptr) : d'.Ready batch := by
  have once := List.nodup_cons.1 ready.once
  constructor
  case once => exact once.2
  case registered =>
    intro other member
    apply kept
    · intro same
      exact once.1 (same ▸ List.mem_map_of_mem member)
    · exact ready.registered other (List.mem_cons_of_mem _ member)
  case listening =>
    intro other member hangsUp
    rw [listenSock]
    exact ready.listening other (List.mem_cons_of_mem _ member) hangsUp

end Daemon

/-! ### Runs -/

/-- The server agrees, the rest of its batch is ready, and only a client ends
the program. -/
def ServerState.Sound : ServerState → Prop
  | .running d batch => d.Agrees ∧ d.Ready batch
  | .halted halt => ∃ stop, halt = .client stop

theorem sound_dispatch {server : Server} {d : Daemon} {event : EpollEvent}
    {batch : List EpollEvent} (agrees : d.Agrees) (ready : d.Ready (event :: batch))
    (unused : UnusedFds d.isOpen event.queue) :
    (ServerState.behind batch (d.dispatchEvent server event)).Sound := by
  have outcome := agrees.dispatchEvent_case server (ready.registered event List.mem_cons_self)
    (ready.listening event List.mem_cons_self)
  generalize d.dispatchEvent server event = result at outcome
  cases outcome with
  | stopped stop => exact ⟨stop, rfl⟩
  | accepting =>
      obtain ⟨listenSock, kept⟩ := agrees.acceptCb_interest unused
      exact ⟨agrees.acceptCb unused,
        ready.rest listenSock fun fd ptr _ watched => kept fd ptr watched⟩
  | alive node member client polling =>
      exact ⟨agrees.setClient member polling, ready.rest rfl fun fd ptr _ watched => watched⟩
  | hungUp node member fd =>
      obtain ⟨cb, cbMember, key, address⟩ := (agrees.poll.watched _ _).1
        (ready.registered event List.mem_cons_self)
      have agrees' := agrees.hungUp member cbMember (key.trans fd.symm)
      rw [address] at agrees'
      refine ⟨agrees', ready.rest rfl ?_⟩
      intro other ptr apart watched
      change Function.update d.poll.interest node.fd none other = some ptr
      rw [fd, Function.update_of_ne apart]
      exact watched

theorem sound_reachable {server : Server} {state : ServerState}
    (reached : ReachableServer server state) : state.Sound := by
  apply Reachable.invariant _ _ reached
  · intro first start
    cases start with
    | init listenSock isOpen =>
        refine ⟨Daemon.agrees_init listenSock isOpen, ?_, ?_, ?_⟩
        · exact List.nodup_nil
        · simp
        · simp
  · intro source target sound step
    cases step with
    | wait d events ready => exact ⟨sound.1, ready⟩
    | dispatch d event batch unused => exact sound_dispatch sound.1 sound.2 unused

/-- The dispatcher and the client registry agree: the entries of all events to
come are in the map, no descriptor has been added twice, the map, the interest
set and the polling clients with the listen socket are the same descriptors,
and every client's iterator denotes its own node.  A program that has ended did
not go through a pointer to an erased node. -/
def ServerState.Agreement : ServerState → Prop
  | .halted halt => halt ≠ .noCallback ∧ halt ≠ .noClient
  | .running d batch =>
      (∀ event ∈ batch, ∃ cb ∈ d.poll.callbacks, cb.address = event.ptr ∧ cb.key = event.fd) ∧
      d.poll.doubleAdds = 0 ∧
      {fd | ∃ cb ∈ d.poll.callbacks, cb.key = fd} = {fd | (d.poll.interest fd).isSome} ∧
      {fd | (d.poll.interest fd).isSome} =
        insert d.listenSock
          {fd | ∃ node ∈ d.clients, node.fd = fd ∧ node.client.flags.polling = true} ∧
      ∀ node ∈ d.clients, ∃ iterator, node.iterator = some iterator ∧ d.node iterator = some node

theorem Daemon.Agrees.keys_eq_interest {d : Daemon} (agrees : d.Agrees) :
    {fd | ∃ cb ∈ d.poll.callbacks, cb.key = fd} = {fd | (d.poll.interest fd).isSome} := by
  ext fd
  constructor
  · rintro ⟨cb, member, key⟩
    have watched := (agrees.poll.watched fd cb.address).2 ⟨cb, member, key, rfl⟩
    exact Option.isSome_iff_exists.2 ⟨cb.address, watched⟩
  · intro some
    obtain ⟨ptr, watched⟩ := Option.isSome_iff_exists.1 some
    obtain ⟨cb, member, key, -⟩ := (agrees.poll.watched fd ptr).1 watched
    exact ⟨cb, member, key⟩

theorem Daemon.Agrees.keys_eq_polling {d : Daemon} (agrees : d.Agrees) :
    {fd | ∃ cb ∈ d.poll.callbacks, cb.key = fd} =
      insert d.listenSock
        {fd | ∃ node ∈ d.clients, node.fd = fd ∧ node.client.flags.polling = true} := by
  ext fd
  constructor
  · rintro ⟨cb, member, rfl⟩
    rcases agrees.owned cb member with listens | owner
    · exact Or.inl listens
    · exact Or.inr owner
  · rintro (rfl | ⟨node, member, rfl, polling⟩)
    · obtain ⟨cb, cbMember, key, -⟩ := agrees.listening
      exact ⟨cb, cbMember, key⟩
    · obtain ⟨cb, cbMember, key, -⟩ := agrees.called node member polling
      exact ⟨cb, cbMember, key⟩

/-- Dispatcher and client registry agree in every state of every run. -/
theorem registry_agreement (server : Server) {state : ServerState}
    (reached : ReachableServer server state) : state.Agreement := by
  have sound := sound_reachable reached
  cases state with
  | halted halt =>
      obtain ⟨stop, rfl⟩ := sound
      constructor <;> intro same <;> cases same
  | running d batch =>
      obtain ⟨agrees, ready⟩ := sound
      refine ⟨?_, agrees.poll.noDoubleAdd, agrees.keys_eq_interest, ?_, ?_⟩
      · intro event member
        obtain ⟨cb, cbMember, key, address⟩ := (agrees.poll.watched _ _).1
          (ready.registered event member)
        exact ⟨cb, cbMember, address, key⟩
      · rw [← agrees.keys_eq_interest]
        exact agrees.keys_eq_polling
      · intro node member
        exact ⟨node.address, agrees.iterators node member, agrees.node_eq member⟩

/-! ### A descriptor that is used again -/

/-- Nothing happens on a client's socket. -/
def quietEvent (read hup : Bool) : PollEvent :=
  ⟨false, read, hup, [], .wouldBlock, [], 0⟩

/-- A connection is waiting that will be descriptor 4. -/
def arrival : EpollEvent :=
  ⟨3, 0, quietEvent true false, [.connection 4 true]⟩

/-- The client on descriptor 4 hangs up. -/
def departure : EpollEvent :=
  ⟨4, 1, quietEvent false true, []⟩

/-- A server with one client. -/
def servingOne : Daemon :=
  (Daemon.init 3 fun _ => false).acceptCb arrival

theorem reachable_servingOne : ReachableServer plainServer (.running servingOne []) := by
  have arrives : ReachableServer plainServer
      (.running (Daemon.init 3 fun _ => false) [arrival]) := by
    apply (reachable_start (ServerStart.init 3 fun _ => false)).tail
    apply ServerStep.wait
    constructor
    · exact List.nodup_singleton _
    · decide
    · decide
  exact arrives.tail (.dispatch _ _ _ ⟨rfl, trivial⟩)

/-- The hang-up and the next connection arrive in one batch. -/
theorem registry_agreement_reused : ∃ d,
    servingOne.dispatchEvent plainServer departure = .ok d ∧
      d.isOpen 4 = false ∧
      (ServerState.behind [] (d.dispatchEvent plainServer arrival)).Agreement := by
  have waits : ReachableServer plainServer (.running servingOne [departure, arrival]) := by
    apply reachable_servingOne.tail
    apply ServerStep.wait
    constructor
    · exact (by decide : [4, 3].Nodup)
    · decide
    · decide
  have leaves := waits.tail (.dispatch _ _ _ trivial)
  refine ⟨_, rfl, rfl, ?_⟩
  apply registry_agreement plainServer
  exact leaves.tail (.dispatch _ _ _ ⟨rfl, trivial⟩)

end ThemeSrv
