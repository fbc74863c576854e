import ThemeSrv.ServerRuns

/-!
# What an event leaves alone

An event of a client is processed by that client, and every other client keeps
its state, its descriptor and its registration.  A client that has hung up does
not come back.
-/

namespace ThemeSrv

namespace Daemon

variable {server : Server} {event : EpollEvent} {d d' : Daemon}

/-- What processing an event comes to, and for which client. -/
inductive EventOutcome (server : Server) (event : EpollEvent) (d : Daemon) :
    Except Halt Daemon → Prop
  | accepting (listens : event.fd = d.listenSock) (stays : event.event.hup = false) :
      EventOutcome server event d (.ok (d.acceptCb event))
  | stopped (node : ClientNode) (member : node ∈ d.clients) (fd : node.fd = event.fd)
      (polling : node.client.polling = true) (stop : Stop) (client : Client)
      (ends : handleDispatch (server.forClient node.address) event.event
        (node.client.polled event.event) = .stopped stop client) :
      EventOutcome server event d (.error (.client stop))
  | served (node : ClientNode) (member : node ∈ d.clients) (fd : node.fd = event.fd)
      (polling : node.client.polling = true) (client : Client)
      (ends : handleDispatch (server.forClient node.address) event.event
        (node.client.polled event.event) = .alive client) :
      EventOutcome server event d (.ok (d.setClient node.address client))
  | hungUp (node : ClientNode) (member : node ∈ d.clients) (fd : node.fd = event.fd)
      (polling : node.client.polling = true) (hup : event.event.hup = true) :
      EventOutcome server event d (.ok (d.hungUp node event.ptr))

theorem Agrees.eventOutcome (agrees : d.Agrees) (server : Server) {batch : List EpollEvent}
    (ready : d.Ready (event :: batch)) :
    EventOutcome server event d (d.dispatchEvent server event) := by
  have registered := ready.registered event List.mem_cons_self
  rcases agrees.owner registered with listens | ⟨node, member, fd, polling⟩
  · have stays : event.event.hup = false := by
      cases hup : event.event.hup with
      | false => rfl
      | true => exact absurd listens (ready.listening event List.mem_cons_self hup)
    rw [agrees.dispatchEvent_listening server registered listens stays]
    exact .accepting listens stays
  · cases hup : event.event.hup with
    | true =>
        rw [agrees.dispatchEvent_hup server registered member fd polling hup]
        exact .hungUp node member fd polling hup
    | false =>
        rw [agrees.dispatchEvent_client server registered member fd polling hup,
          agrees.clientDispatch_eq server member hup]
        cases ends : handleDispatch (server.forClient node.address) event.event
            (node.client.polled event.event) with
        | stopped stop client => exact .stopped node member fd polling stop client ends
        | alive client => exact .served node member fd polling client ends
        | destroyed client =>
            exact absurd ends (handleDispatch_not_destroyed hup)

/-! ### Other clients -/

/-- A client of both servers, in the same state, with the same registration in
the interest set and the same entry in the map. -/
structure Leaves (d d' : Daemon) (node : ClientNode) : Prop where
  member : node ∈ d'.clients
  opened : d'.isOpen node.fd = true
  registered : d'.poll.interest node.fd = d.poll.interest node.fd
  callbacks : ∀ cb, cb.key = node.fd → (cb ∈ d'.poll.callbacks ↔ cb ∈ d.poll.callbacks)

theorem Leaves.refl (agrees : d.Agrees) {node : ClientNode} (member : node ∈ d.clients) :
    d.Leaves d node :=
  ⟨member, agrees.opened node member, rfl, fun _ _ => Iff.rfl⟩

theorem Leaves.trans {first second third : Daemon} {node : ClientNode}
    (before : first.Leaves second node) (behind : second.Leaves third node) :
    first.Leaves third node :=
  ⟨behind.member, behind.opened, behind.registered.trans before.registered,
    fun cb key => (behind.callbacks cb key).trans (before.callbacks cb key)⟩

theorem Agrees.accepted_leaves (agrees : d.Agrees) {fd : Nat} (closed : d.isOpen fd = false)
    (registers : Bool) {node : ClientNode} (member : node ∈ d.clients) :
    d.Leaves (d.accepted fd registers) node := by
  have apart : node.fd ≠ fd := by
    rintro rfl
    rw [agrees.opened node member] at closed
    cases closed
  constructor
  case member => exact List.mem_append_left _ member
  case opened => exact (agrees.accepted closed registers).opened node (List.mem_append_left _ member)
  case registered =>
    cases registers with
    | false => rfl
    | true => exact Function.update_of_ne apart _ _
  case callbacks =>
    intro cb key
    cases registers with
    | false => exact Iff.rfl
    | true =>
        change cb ∈ d.poll.callbacks ++ [_] ↔ _
        rw [List.mem_append, List.mem_singleton]
        refine or_iff_left ?_
        rintro rfl
        exact apart key.symm

theorem Agrees.address_ne (agrees : d.Agrees) {node other : ClientNode} (member : node ∈ d.clients)
    (otherMember : other ∈ d.clients) (apart : node.fd ≠ other.fd) :
    node.address ≠ other.address := by
  intro same
  exact apart (congrArg ClientNode.fd
    (agrees.addresses.eq_of_key_eq member otherMember same))

theorem Agrees.setClient_leaves (agrees : d.Agrees) {other : ClientNode}
    (otherMember : other ∈ d.clients) (client : Client) {node : ClientNode}
    (member : node ∈ d.clients) (apart : node.fd ≠ other.fd) :
    d.Leaves (d.setClient other.address client) node :=
  ⟨KeyedList.mem_changed.2 ⟨node, member, if_neg (agrees.address_ne member otherMember apart)⟩,
    agrees.opened node member, rfl, fun _ _ => Iff.rfl⟩

theorem Agrees.hungUp_leaves (agrees : d.Agrees) {other : ClientNode}
    (otherMember : other ∈ d.clients) {ptr : Nat}
    (watched : d.poll.interest other.fd = some ptr) {node : ClientNode} (member : node ∈ d.clients)
    (apart : node.fd ≠ other.fd) : d.Leaves (d.hungUp other ptr) node where
  member := KeyedList.mem_without.2 ⟨member, agrees.address_ne member otherMember apart⟩
  opened := by
    change Function.update d.isOpen other.fd false node.fd = true
    rw [Function.update_of_ne apart]
    exact agrees.opened node member
  registered := Function.update_of_ne apart _ _
  callbacks := by
    intro cb key
    change cb ∈ KeyedList.without EpollCb.address d.poll.callbacks ptr ↔ _
    rw [KeyedList.mem_without]
    refine and_iff_left_of_imp ?_
    -- the entry at the pointer is the one of the other descriptor
    rintro here rfl
    obtain ⟨found, foundMember, foundKey, address⟩ := (agrees.poll.watched _ _).1 watched
    rw [agrees.poll.addresses.eq_of_key_eq foundMember here address, key] at foundKey
    exact apart foundKey

theorem Agrees.acceptCb_leaves (agrees : d.Agrees) (unused : UnusedFds d.isOpen event.queue)
    {node : ClientNode} (member : node ∈ d.clients) : d.Leaves (d.acceptCb event) node := by
  refine (agrees.acceptCb_keeps (d.Leaves · node) unused (.refl agrees member) ?_).2
  intro d' fd registers agrees' closed before
  exact before.trans (agrees'.accepted_leaves closed registers before.member)

/-- An event leaves alone all clients but the one it is for. -/
theorem Agrees.dispatchEvent_leaves (agrees : d.Agrees) {batch : List EpollEvent}
    (ready : d.Ready (event :: batch)) (unused : UnusedFds d.isOpen event.queue)
    (done : d.dispatchEvent server event = .ok d') {node : ClientNode} (member : node ∈ d.clients)
    (other : node.fd ≠ event.fd) : d.Leaves d' node := by
  have outcome := agrees.eventOutcome server ready
  rw [done] at outcome
  cases outcome with
  | accepting listens stays =>
      exact agrees.acceptCb_leaves unused member
  | served served servedMember fd polling client ends =>
      exact agrees.setClient_leaves servedMember client member (fd ▸ other)
  | hungUp gone goneMember fd polling hup =>
      have watched := ready.registered event List.mem_cons_self
      rw [← fd] at watched
      exact agrees.hungUp_leaves goneMember watched member (fd ▸ other)

/-! ### Clients that have left -/

/-- An address that has been used by a client that is no longer there. -/
structure Left (d : Daemon) (address : Nat) : Prop where
  used : address < d.nextAddress
  gone : ∀ node ∈ d.clients, node.address ≠ address

theorem Left.accepted {address : Nat} (left : d.Left address) (fd : Nat) (registers : Bool) :
    (d.accepted fd registers).Left address where
  used := left.used.trans (Nat.lt_succ_self _)
  gone := by
    intro node member
    rcases List.mem_append.1 member with old | new
    · exact left.gone node old
    · rw [List.mem_singleton.1 new]
      exact left.used.ne'

/-- The hang-up of a client. -/
theorem Agrees.left_hungUp (agrees : d.Agrees) {node : ClientNode} (member : node ∈ d.clients)
    (ptr : Nat) : (d.hungUp node ptr).Left node.address where
  used := agrees.fresh node member
  gone := fun _ otherMember => (KeyedList.mem_without.1 otherMember).2

/-- No client comes back. -/
theorem Left.dispatchEvent {address : Nat} (left : d.Left address) (agrees : d.Agrees)
    {batch : List EpollEvent} (ready : d.Ready (event :: batch))
    (unused : UnusedFds d.isOpen event.queue) (done : d.dispatchEvent server event = .ok d') :
    d'.Left address := by
  have outcome := agrees.eventOutcome server ready
  rw [done] at outcome
  cases outcome with
  | accepting listens stays =>
      exact (agrees.acceptCb_keeps (·.Left address) unused left fun _ fd registers _ _ before =>
        before.accepted fd registers).2
  | served node member fd polling client ends =>
      refine ⟨left.used, ?_⟩
      intro other otherMember
      obtain ⟨old, oldMember, rfl⟩ := KeyedList.mem_changed.1 otherMember
      have kept := left.gone old oldMember
      split <;> exact kept
  | hungUp node member fd polling hup =>
      exact ⟨left.used, fun other otherMember =>
        left.gone other (KeyedList.mem_without.1 otherMember).1⟩

end Daemon

end ThemeSrv
