import ThemeSrv.EventOutcomes

/-!
# The order of a batch

`epoll_wait` reports events in an order of its own.  Each of them is for another
descriptor, and what it does to its client, to the map and to the interest set
can be exchanged with what the others do.
-/

namespace ThemeSrv

open TransitionSystem

namespace Daemon

/-- The loop of `dispatch` over the events of one `epoll_wait`. -/
def dispatchBatch (server : Server) : List EpollEvent → Daemon → Except Halt Daemon
  | [], d => .ok d
  | event :: batch, d =>
      match d.dispatchEvent server event with
      | .error halt => .error halt
      | .ok d => dispatchBatch server batch d

variable {server : Server} {d d' : Daemon}

/-- What becomes of a client: another state, or its removal. -/
def react (d : Daemon) (node : ClientNode) (ptr : Nat) : Option Client → Daemon
  | none => d.hungUp node ptr
  | some client => d.setClient node.address client

/-- What the event of a client decides, without a look at the server. -/
def reaction (server : Server) (event : PollEvent) (client : Client) :
    Except Halt (Option Client) :=
  match handleDispatch server event (client.polled event) with
  | .stopped stop _ => .error (.client stop)
  | .alive client => .ok (some client)
  | .destroyed _ => .ok none

theorem Agrees.dispatchEvent_reaction (agrees : d.Agrees) (server : Server) {event : EpollEvent}
    (registered : d.poll.interest event.fd = some event.ptr) {node : ClientNode}
    (member : node ∈ d.clients) (fd : node.fd = event.fd) (polling : node.client.polling = true) :
    d.dispatchEvent server event =
      (reaction (server.forClient node.address) event.event node.client).map
        (d.react node event.ptr) := by
  cases hup : event.event.hup with
  | true =>
      rw [agrees.dispatchEvent_hup server registered member fd polling hup, reaction,
        handleDispatch, if_pos hup]
      rfl
  | false =>
      rw [agrees.dispatchEvent_client server registered member fd polling hup,
        agrees.clientDispatch_eq server member hup, reaction]
      cases ends : handleDispatch (server.forClient node.address) event.event
          (node.client.polled event.event) with
      | stopped stop client | alive client => rfl
      | destroyed client =>
          exact absurd ends (handleDispatch_not_destroyed hup)

/-! ### Exchanging two events -/

/-- The reactions of two clients. -/
theorem react_comm (d : Daemon) {node other : ClientNode} (apart : node.address ≠ other.address)
    (apartFd : node.fd ≠ other.fd) (ptr ptr' : Nat) (first second : Option Client) :
    (d.react node ptr first).react other ptr' second =
      (d.react other ptr' second).react node ptr first := by
  cases first with
  | none =>
      cases second with
      | none =>
          simp only [react, hungUp, EpollDispatch.removed]
          congr 1
          · congr 1
            · exact KeyedList.without_comm _ _
            · exact Function.update_comm apartFd _ _ _
          · exact KeyedList.without_comm _ _
          · exact Function.update_comm apartFd _ _ _
      | some client =>
          simp only [react, hungUp, setClient]
          congr 1
          symm
          exact KeyedList.without_changed_comm fun _ => rfl
  | some client =>
      cases second with
      | none =>
          simp only [react, hungUp, setClient]
          congr 1
          exact KeyedList.without_changed_comm fun _ => rfl
      | some client' =>
          simp only [react, setClient]
          congr 1
          exact KeyedList.changed_comm (fun _ => rfl) (fun _ => rfl) apart

/-- A client reacts and a connection is accepted. -/
theorem accepted_react (d : Daemon) {node : ClientNode} {fd ptr : Nat}
    (address : node.address ≠ d.nextAddress) (apart : node.fd ≠ fd) (old : ptr ≠ d.poll.nextAddress)
    (registers : Bool) (result : Option Client) :
    (d.accepted fd registers).react node ptr result =
      (d.react node ptr result).accepted fd registers := by
  cases result with
  | none =>
      simp only [react, hungUp, accepted]
      congr 1
      · cases registers with
        | false => rfl
        | true =>
            simp only [EpollDispatch.removed, EpollDispatch.registered, EpollDispatch.emplace,
              if_true]
            congr 1
            · exact KeyedList.without_append_other old.symm
            · exact (Function.update_comm apart _ _ _).symm
      · exact KeyedList.without_append_other address.symm
      · exact (Function.update_comm apart _ _ _).symm
  | some client =>
      simp only [react, setClient, accepted]
      congr 1
      exact KeyedList.changed_append_other address.symm

/-! ### Reactions keep the server in order -/

section Reactions

variable {node : ClientNode} {ptr : Nat} {result : Option Client}

theorem polling_of_reaction {event : PollEvent}
    (decided : reaction server event node.client = .ok result) :
    ∀ client ∈ result, client.polling = node.client.polling := by
  intro client member
  rw [reaction] at decided
  cases ends : handleDispatch server event (node.client.polled event) with
  | stopped stop cli =>
      rw [ends] at decided
      cases decided
  | alive cli =>
      rw [ends] at decided
      cases decided
      cases member
      have kept := handleDispatch_polling ends
      exact kept
  | destroyed cli =>
      rw [ends] at decided
      cases decided
      cases member

theorem Agrees.react (agrees : d.Agrees) (member : node ∈ d.clients)
    (registered : d.poll.interest node.fd = some ptr)
    (kept : ∀ client ∈ result, client.polling = node.client.polling) :
    (d.react node ptr result).Agrees := by
  cases result with
  | none =>
      obtain ⟨cb, cbMember, key, address⟩ := (agrees.poll.watched _ _).1 registered
      have removed := agrees.hungUp member cbMember key
      rw [address] at removed
      exact removed
  | some client => exact agrees.setClient member (kept client rfl)

theorem Agrees.react_leaves (agrees : d.Agrees) (member : node ∈ d.clients)
    (registered : d.poll.interest node.fd = some ptr) (result : Option Client)
    {other : ClientNode} (otherMember : other ∈ d.clients) (apart : other.fd ≠ node.fd) :
    d.Leaves (d.react node ptr result) other := by
  cases result with
  | none => exact agrees.hungUp_leaves member registered otherMember apart
  | some client => exact agrees.setClient_leaves member client otherMember apart

theorem unusedFds_of_closed {isOpen isOpen' : Nat → Bool} {queue : List Pending}
    (closed : ∀ fd, isOpen fd = false → isOpen' fd = false) (unused : UnusedFds isOpen queue) :
    UnusedFds isOpen' queue := by
  induction queue generalizing isOpen isOpen' with
  | nil => exact trivial
  | cons pending queue ih =>
      cases pending with
      | failed => exact trivial
      | connection fd registers =>
          obtain ⟨first, rest⟩ := unused
          refine ⟨closed fd first, ih ?_ rest⟩
          intro other
          by_cases same : other = fd
          · simp [same]
          · simpa [Function.update_of_ne same] using closed other

theorem closed_react {fd : Nat} (closed : d.isOpen fd = false) :
    (d.react node ptr result).isOpen fd = false := by
  cases result with
  | none =>
      change Function.update d.isOpen node.fd false fd = false
      by_cases same : fd = node.fd
      · rw [same, Function.update_self]
      · rw [Function.update_of_ne same, closed]
  | some client => exact closed

theorem acceptLoop_react {queue : List Pending} (agrees : d.Agrees) (member : node ∈ d.clients)
    (registered : d.poll.interest node.fd = some ptr)
    (kept : ∀ client ∈ result, client.polling = node.client.polling)
    (unused : UnusedFds d.isOpen queue) :
    (acceptLoop d queue).daemon.react node ptr result =
      (acceptLoop (d.react node ptr result) queue).daemon := by
  induction queue generalizing d with
  | nil => rfl
  | cons pending queue ih =>
      cases pending with
      | failed => rfl
      | connection fd registers =>
          obtain ⟨closed, rest⟩ := unused
          have reacted := agrees.react member registered kept
          have stays := agrees.accepted_leaves closed registers member
          obtain ⟨cb, cbMember, key, address⟩ := (agrees.poll.watched _ _).1 registered
          have apart : node.fd ≠ fd := by
            rintro rfl
            rw [agrees.opened node member] at closed
            cases closed
          have exchanged := accepted_react d (agrees.fresh node member).ne apart
            (address ▸ agrees.poll.fresh cb cbMember).ne registers result
          rw [acceptLoop, acceptLoop, agrees.emplaceBack_eq closed,
            reacted.emplaceBack_eq (closed_react closed), ← exchanged]
          exact ih (agrees.accepted closed registers) stays.member
            (stays.registered.trans registered) rest

theorem acceptCb_react {event : EpollEvent} (agrees : d.Agrees) (member : node ∈ d.clients)
    (registered : d.poll.interest node.fd = some ptr)
    (kept : ∀ client ∈ result, client.polling = node.client.polling)
    (unused : UnusedFds d.isOpen event.queue) :
    (d.acceptCb event).react node ptr result = (d.react node ptr result).acceptCb event := by
  rw [acceptCb, acceptCb]
  split
  · exact acceptLoop_react agrees member registered kept unused
  · rfl

end Reactions

/-! ### Two events of a batch -/

/-- The accept loop gets descriptors that nothing has open. -/
def Unused (d : Daemon) (event : EpollEvent) : Prop :=
  event.fd = d.listenSock → UnusedFds d.isOpen event.queue

section Exchanges

variable {node other : ClientNode} {event event' : EpollEvent} {ptr : Nat}
  {result : Option Client}

theorem react_interest {fd : Nat} (apart : fd ≠ node.fd) :
    (d.react node ptr result).poll.interest fd = d.poll.interest fd := by
  cases result with
  | none => exact Function.update_of_ne apart _ _
  | some client => rfl

theorem react_listenSock : (d.react node ptr result).listenSock = d.listenSock := by
  cases result <;> rfl

/-- The event of one client behind that of another one. -/
theorem Agrees.react_dispatchEvent (agrees : d.Agrees) (server : Server) (member : node ∈ d.clients)
    (registered : d.poll.interest node.fd = some ptr)
    (kept : ∀ client ∈ result, client.polling = node.client.polling)
    (otherMember : other ∈ d.clients) (fd : other.fd = event.fd)
    (polling : other.client.polling = true) (apart : event.fd ≠ node.fd)
    (watched : d.poll.interest event.fd = some event.ptr) :
    (d.react node ptr result).dispatchEvent server event =
      (reaction (server.forClient other.address) event.event other.client).map
        ((d.react node ptr result).react other event.ptr) := by
  have reacted := agrees.react member registered kept
  have left := agrees.react_leaves member registered result otherMember (fd ▸ apart)
  exact reacted.dispatchEvent_reaction server ((react_interest apart).trans watched) left.member fd
    polling

/-- The event of the listen socket behind that of a client. -/
theorem Agrees.react_listening (agrees : d.Agrees) (server : Server) (member : node ∈ d.clients)
    (registered : d.poll.interest node.fd = some ptr)
    (kept : ∀ client ∈ result, client.polling = node.client.polling)
    (listens : event.fd = d.listenSock) (stays : event.event.hup = false)
    (watched : d.poll.interest event.fd = some event.ptr)
    (unused : UnusedFds d.isOpen event.queue) :
    (d.react node ptr result).dispatchEvent server event =
      .ok ((d.acceptCb event).react node ptr result) := by
  have reacted := agrees.react member registered kept
  have apart : event.fd ≠ node.fd := by
    rw [listens]
    exact (agrees.apart node member).symm
  rw [acceptCb_react agrees member registered kept unused]
  exact reacted.dispatchEvent_listening server ((react_interest apart).trans watched)
    (listens.trans react_listenSock.symm) stays

/-- The event of a client behind that of the listen socket. -/
theorem Agrees.acceptCb_dispatchEvent (agrees : d.Agrees) (server : Server)
    (unused : UnusedFds d.isOpen event'.queue) (member : node ∈ d.clients)
    (fd : node.fd = event.fd) (polling : node.client.polling = true)
    (watched : d.poll.interest event.fd = some event.ptr) :
    (d.acceptCb event').dispatchEvent server event =
      (reaction (server.forClient node.address) event.event node.client).map
        ((d.acceptCb event').react node event.ptr) := by
  have left := agrees.acceptCb_leaves unused member
  have registered := left.registered
  rw [fd] at registered
  exact (agrees.acceptCb unused).dispatchEvent_reaction server (registered.trans watched)
    left.member fd polling

end Exchanges

theorem map_eq_ok {result : Except Halt (Option Client)} {change : Option Client → Daemon} :
    result.map change = .ok d ↔ ∃ value, result = .ok value ∧ change value = d := by
  cases result with
  | error halt => simp [Except.map]
  | ok value => simp [Except.map]

/-- Two events of a batch in either order. -/
theorem Agrees.swap (agrees : d.Agrees) {first second : EpollEvent} {batch : List EpollEvent}
    (ready : d.Ready (first :: second :: batch)) (unused : d.Unused first)
    (unused' : d.Unused second) {between : Daemon}
    (before : d.dispatchEvent server first = .ok between)
    (behind : between.dispatchEvent server second = .ok d') :
    ∃ between', d.dispatchEvent server second = .ok between' ∧
      between'.dispatchEvent server first = .ok d' := by
  have watched := ready.registered first List.mem_cons_self
  have watched' := ready.registered second (List.mem_cons_of_mem _ List.mem_cons_self)
  have apart : first.fd ≠ second.fd := by
    have once := (List.nodup_cons.1 ready.once).1
    intro same
    apply once
    rw [same]
    exact List.mem_cons_self
  have stays : ∀ event ∈ first :: second :: batch, event.fd = d.listenSock →
      event.event.hup = false := by
    intro event member listens
    cases hup : event.event.hup with
    | false => rfl
    | true => exact absurd listens (ready.listening event member hup)
  have up := stays first List.mem_cons_self
  have up' := stays second (List.mem_cons_of_mem _ List.mem_cons_self)
  rcases agrees.owner watched with listens | ⟨node, member, fd, polling⟩
  · rcases agrees.owner watched' with listens' | ⟨node, member, fd, polling⟩
    · exact absurd (listens.trans listens'.symm) apart
    · rw [agrees.dispatchEvent_listening server watched listens (up listens)] at before
      cases before
      rw [agrees.acceptCb_dispatchEvent server (unused listens) member fd polling watched'] at behind
      obtain ⟨result, decided, rfl⟩ := map_eq_ok.1 behind
      refine ⟨d.react node second.ptr result, ?_, ?_⟩
      · rw [agrees.dispatchEvent_reaction server watched' member fd polling, decided]
        rfl
      · exact agrees.react_listening server member (fd ▸ watched') (polling_of_reaction decided)
          listens (up listens) watched (unused listens)
  · rw [agrees.dispatchEvent_reaction server watched member fd polling] at before
    obtain ⟨result, decided, rfl⟩ := map_eq_ok.1 before
    have kept := polling_of_reaction decided
    rcases agrees.owner watched' with listens' | ⟨other, otherMember, otherFd, otherPolling⟩
    · rw [agrees.react_listening server member (fd ▸ watched) kept listens' (up' listens')
        watched' (unused' listens')] at behind
      cases behind
      refine ⟨d.acceptCb second,
        agrees.dispatchEvent_listening server watched' listens' (up' listens'), ?_⟩
      rw [agrees.acceptCb_dispatchEvent server (unused' listens') member fd polling watched, decided]
      rfl
    · have apartFds : node.fd ≠ other.fd := by
        rw [fd, otherFd]
        exact apart
      rw [agrees.react_dispatchEvent server member (fd ▸ watched) kept otherMember otherFd
        otherPolling (fd ▸ apart.symm) watched'] at behind
      obtain ⟨result', decided', rfl⟩ := map_eq_ok.1 behind
      refine ⟨d.react other second.ptr result', ?_, ?_⟩
      · rw [agrees.dispatchEvent_reaction server watched' otherMember otherFd otherPolling, decided']
        rfl
      · rw [agrees.react_dispatchEvent server otherMember (otherFd ▸ watched')
          (polling_of_reaction decided') member fd polling (otherFd ▸ apart) watched, decided]
        have apartAddress := agrees.address_ne member otherMember apartFds
        exact congrArg Except.ok (react_comm d apartAddress apartFds _ _ _ _).symm

theorem Ready.perm {events events' : List EpollEvent} (ready : d.Ready events)
    (perm : events.Perm events') : d.Ready events' where
  once := (perm.map EpollEvent.fd).nodup_iff.1 ready.once
  registered := fun event member => ready.registered event (perm.symm.subset member)
  listening := fun event member => ready.listening event (perm.symm.subset member)

/-- Behind an event the rest of its batch can go on. -/
theorem Agrees.behind (agrees : d.Agrees) {event : EpollEvent} {batch : List EpollEvent}
    (ready : d.Ready (event :: batch)) (unused : ∀ other ∈ event :: batch, d.Unused other)
    (done : d.dispatchEvent server event = .ok d') :
    d'.Agrees ∧ d'.Ready batch ∧ ∀ other ∈ batch, d'.Unused other := by
  have watched := ready.registered event List.mem_cons_self
  rcases agrees.owner watched with listens | ⟨node, member, fd, polling⟩
  · have up : event.event.hup = false := by
      cases hup : event.event.hup with
      | false => rfl
      | true => exact absurd listens (ready.listening event List.mem_cons_self hup)
    have free := unused event List.mem_cons_self listens
    rw [agrees.dispatchEvent_listening server watched listens up] at done
    cases done
    have kept := agrees.acceptCb_interest free
    refine ⟨agrees.acceptCb free,
      ready.rest kept.1 fun fd ptr _ registered => kept.2 fd ptr registered, ?_⟩
    intro other member listens'
    rw [kept.1, ← listens] at listens'
    have once := (List.nodup_cons.1 ready.once).1
    exact absurd (List.mem_map_of_mem member) (listens' ▸ once)
  · rw [agrees.dispatchEvent_reaction server watched member fd polling] at done
    obtain ⟨result, decided, rfl⟩ := map_eq_ok.1 done
    have reacted := agrees.react member (fd ▸ watched) (polling_of_reaction decided)
    refine ⟨reacted, ready.rest react_listenSock ?_, ?_⟩
    · intro other ptr apart registered
      rw [react_interest (fd ▸ apart), registered]
    · intro other otherMember listens
      rw [react_listenSock] at listens
      exact unusedFds_of_closed (fun fd closed => closed_react closed)
        (unused other (List.mem_cons_of_mem _ otherMember) listens)

theorem dispatchBatch_cons {event : EpollEvent} {batch : List EpollEvent} :
    d.dispatchBatch server (event :: batch) = .ok d' ↔
      ∃ between, d.dispatchEvent server event = .ok between ∧
        between.dispatchBatch server batch = .ok d' := by
  rw [dispatchBatch]
  cases d.dispatchEvent server event with
  | error halt => simp
  | ok between => simp

theorem Agrees.dispatchBatch_perm {events events' : List EpollEvent} (perm : events.Perm events')
    (agrees : d.Agrees) (ready : d.Ready events) (unused : ∀ event ∈ events, d.Unused event)
    (done : d.dispatchBatch server events = .ok d') :
    d.dispatchBatch server events' = .ok d' := by
  induction perm generalizing d with
  | nil => exact done
  | cons event perm ih =>
      obtain ⟨between, first, rest⟩ := dispatchBatch_cons.1 done
      obtain ⟨agrees', ready', unused'⟩ := agrees.behind ready unused first
      exact dispatchBatch_cons.2 ⟨between, first, ih agrees' ready' unused' rest⟩
  | swap second first batch =>
      obtain ⟨between, before, rest⟩ := dispatchBatch_cons.1 done
      obtain ⟨between', behind, rest⟩ := dispatchBatch_cons.1 rest
      obtain ⟨exchanged, before, behind⟩ := agrees.swap ready (unused first List.mem_cons_self)
        (unused second (List.mem_cons_of_mem _ List.mem_cons_self)) before behind
      exact dispatchBatch_cons.2 ⟨exchanged, before, dispatchBatch_cons.2 ⟨between', behind, rest⟩⟩
  | trans first second ih ih' =>
      apply ih' agrees (ready.perm first)
      · intro event member
        exact unused event (first.symm.subset member)
      · exact ih agrees ready unused done

end Daemon

/-- The outcome of a batch does not depend on the order in which `epoll_wait`
reports its events: either every order ends with the same server, or the
program ends in every order. -/
theorem batch_order (server : Server) {d : Daemon} {batch events events' : List EpollEvent}
    (reached : ReachableServer server (.running d batch)) (ready : d.Ready events)
    (unused : ∀ event ∈ events, d.Unused event) (perm : events.Perm events') (d' : Daemon) :
    d.dispatchBatch server events = .ok d' ↔ d.dispatchBatch server events' = .ok d' := by
  have agrees := (sound_reachable reached).1
  constructor
  · exact agrees.dispatchBatch_perm perm ready unused
  · apply agrees.dispatchBatch_perm perm.symm (ready.perm perm)
    intro event member
    exact unused event (perm.symm.subset member)

/-- The client on descriptor 4 hangs up while another connection is waiting. -/
theorem batch_order_arrival : ∃ d,
    servingOne.dispatchBatch plainServer [departure, ⟨3, 0, quietEvent true false,
        [.connection 5 true]⟩] = .ok d ∧
      servingOne.dispatchBatch plainServer [⟨3, 0, quietEvent true false,
        [.connection 5 true]⟩, departure] = .ok d := by
  obtain ⟨d, done⟩ : ∃ d, servingOne.dispatchBatch plainServer [departure,
      ⟨3, 0, quietEvent true false, [.connection 5 true]⟩] = .ok d := ⟨_, rfl⟩
  refine ⟨d, done, (batch_order plainServer reachable_servingOne ?_ ?_ (.swap _ _ _) d).1 done⟩
  · exact ⟨(by decide : [4, 3].Nodup), by decide, by decide⟩
  · intro event member listens
    rcases List.mem_cons.1 member with rfl | member
    · cases listens
    · rw [List.mem_singleton.1 member]
      exact ⟨rfl, trivial⟩

end ThemeSrv
