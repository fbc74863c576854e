import ThemeSrv.EventOutcomes

/-!
# Descriptors and their owners

The descriptors a server has opened are, at any time, its listen socket and the
sockets of its clients.  A client leaves the list when its own hang-up is
processed and only then, which for a client that could not be registered is
never.
-/

namespace ThemeSrv

open TransitionSystem Daemon

namespace Daemon

variable {server : Server} {event : EpollEvent} {d d' : Daemon} {before : Nat → Bool}

/-- Open are the descriptors that were open before, the listen socket, and one
descriptor for each client, which was not. -/
structure Owns (before : Nat → Bool) (d : Daemon) : Prop where
  opened : ∀ fd, d.isOpen fd = true ↔
    before fd = true ∨ fd = d.listenSock ∨ ∃ node ∈ d.clients, node.fd = fd
  own : ∀ node ∈ d.clients, before node.fd = false
  distinct : (d.listenSock :: d.clients.map ClientNode.fd).Nodup

theorem Agrees.distinct (agrees : d.Agrees) :
    (d.listenSock :: d.clients.map ClientNode.fd).Nodup := by
  apply List.nodup_cons.2
  refine ⟨?_, agrees.fds⟩
  intro member
  obtain ⟨node, nodeMember, same⟩ := List.mem_map.1 member
  exact agrees.apart node nodeMember same

theorem owns_init (listenSock : Nat) (before : Nat → Bool) :
    (init listenSock before).Owns before where
  opened := by
    intro fd
    change Function.update before listenSock true fd = true ↔ _
    by_cases same : fd = listenSock
    · simp [same, init]
    · simp [same, init]
  own := by simp [init]
  distinct := (agrees_init listenSock before).distinct

theorem Owns.accepted (owns : d.Owns before) (agrees : d.Agrees) {fd : Nat}
    (closed : d.isOpen fd = false) (registers : Bool) : (d.accepted fd registers).Owns before where
  opened := by
    intro other
    change Function.update d.isOpen fd true other = true ↔
      before other = true ∨ other = d.listenSock ∨ ∃ node ∈ d.clients ++ [_], node.fd = other
    by_cases same : other = fd
    · subst same
      rw [Function.update_self]
      simp
    · have apart : fd ≠ other := fun equal => same equal.symm
      rw [Function.update_of_ne same, owns.opened]
      simp [List.mem_append, or_and_right, exists_or, apart]
  own := by
    intro node member
    rcases List.mem_append.1 member with old | new
    · exact owns.own node old
    · rw [List.mem_singleton.1 new]
      cases first : before fd with
      | false => rfl
      | true =>
          rw [(owns.opened fd).2 (Or.inl first)] at closed
          cases closed
  distinct := (agrees.accepted closed registers).distinct

theorem setClient_fds (d : Daemon) (address : Nat) (client : Client) :
    (d.setClient address client).clients.map ClientNode.fd = d.clients.map ClientNode.fd := by
  rw [setClient, KeyedList.changed, List.map_map]
  apply List.map_congr_left
  intro node member
  dsimp only [Function.comp]
  split <;> rfl

theorem exists_fd {clients : List ClientNode} {fd : Nat} :
    (∃ node ∈ clients, node.fd = fd) ↔ fd ∈ clients.map ClientNode.fd :=
  List.mem_map.symm

theorem Owns.setClient (owns : d.Owns before) (address : Nat) (client : Client) :
    (d.setClient address client).Owns before where
  opened := by
    intro fd
    rw [exists_fd, setClient_fds, ← exists_fd]
    exact owns.opened fd
  own := by
    intro node member
    have kept : node.fd ∈ d.clients.map ClientNode.fd := by
      rw [← setClient_fds d address client]
      exact List.mem_map_of_mem member
    obtain ⟨old, oldMember, same⟩ := List.mem_map.1 kept
    rw [← same]
    exact owns.own old oldMember
  distinct := by
    rw [setClient_fds]
    exact owns.distinct

theorem Owns.hungUp (owns : d.Owns before) (agrees : d.Agrees) {node : ClientNode}
    (member : node ∈ d.clients) (ptr : Nat) : (d.hungUp node ptr).Owns before where
  opened := by
    intro fd
    change Function.update d.isOpen node.fd false fd = true ↔ before fd = true ∨
      fd = d.listenSock ∨
        ∃ other ∈ KeyedList.without ClientNode.address d.clients node.address, other.fd = fd
    have left : (∃ other ∈ KeyedList.without ClientNode.address d.clients node.address,
        other.fd = fd) ↔ fd ≠ node.fd ∧ ∃ other ∈ d.clients, other.fd = fd := by
      constructor
      · rintro ⟨other, otherLeft, rfl⟩
        obtain ⟨otherMember, address⟩ := KeyedList.mem_without.1 otherLeft
        refine ⟨?_, other, otherMember, rfl⟩
        intro same
        rw [agrees.fds.eq_of_key_eq otherMember member same] at address
        exact address rfl
      · rintro ⟨apart, other, otherMember, rfl⟩
        refine ⟨other, KeyedList.mem_without.2 ⟨otherMember, ?_⟩, rfl⟩
        exact agrees.address_ne otherMember member apart
    rw [left]
    by_cases same : fd = node.fd
    · subst same
      simp [owns.own node member, agrees.apart node member]
    · rw [Function.update_of_ne same, owns.opened]
      simp [same]
  own := fun other otherLeft => owns.own other (KeyedList.mem_without.1 otherLeft).1
  distinct := by
    have parts := List.nodup_cons.1 owns.distinct
    have sublist := (List.filter_sublist (p := fun other : ClientNode =>
      decide (other.address ≠ node.address)) (l := d.clients)).map ClientNode.fd
    apply List.nodup_cons.2
    exact ⟨fun listens => parts.1 (sublist.mem listens), parts.2.sublist sublist⟩

theorem Owns.dispatchEvent (owns : d.Owns before) (agrees : d.Agrees) {batch : List EpollEvent}
    (ready : d.Ready (event :: batch)) (unused : UnusedFds d.isOpen event.queue)
    (done : d.dispatchEvent server event = .ok d') : d'.Owns before := by
  have outcome := agrees.eventOutcome server ready
  rw [done] at outcome
  cases outcome with
  | accepting listens stays =>
      exact (agrees.acceptCb_keeps (·.Owns before) unused owns
        fun _ _ registers agrees' closed owns' => owns'.accepted agrees' closed registers).2
  | served node member fd polling client ends => exact owns.setClient node.address client
  | hungUp node member fd polling hup => exact owns.hungUp agrees member event.ptr

end Daemon

/-! ### Runs -/

/-- A property of the server while it runs. -/
def ServerState.Running (property : Daemon → Prop) : ServerState → Prop
  | .running d _ => property d
  | .halted _ => True

/-- What every processed event keeps is kept along runs. -/
theorem running_kept {server : Server} {property : Daemon → Prop}
    {guard : ServerState → Prop} {source target : ServerState}
    (sound : source.Sound) (holds : source.Running property)
    (run : Relation.ReflTransGen (Guarded guard (ServerStep server)) source target)
    (kept : ∀ d d' event batch, d.Agrees → d.Ready (event :: batch) →
      UnusedFds d.isOpen event.queue → guard (.running d (event :: batch)) → property d →
      d.dispatchEvent server event = .ok d' → property d') :
    target.Running property := by
  have both : target.Sound ∧ target.Running property := by
    induction run with
    | refl => exact ⟨sound, holds⟩
    | tail before next ih =>
        obtain ⟨sound, holds⟩ := ih
        obtain ⟨guarded, step⟩ := next
        cases step with
        | wait d events ready => exact ⟨⟨sound.1, ready⟩, holds⟩
        | dispatch d event batch unused =>
            refine ⟨sound_dispatch sound.1 sound.2 unused, ?_⟩
            cases done : d.dispatchEvent server event with
            | error halt => exact trivial
            | ok d' => exact kept d d' event batch sound.1 sound.2 unused guarded holds done
  exact both.2

/-- No descriptor leaks and none is closed twice: what is open at any time is
what was open before the server, its listen socket, and the sockets of its
clients. -/
theorem descriptors_owned (server : Server) {listenSock : Nat} {before : Nat → Bool} {d : Daemon}
    {batch : List EpollEvent}
    (run : Relation.ReflTransGen (ServerStep server) (.running (Daemon.init listenSock before) [])
      (.running d batch)) : d.Owns before := by
  have first : ReachableServer server (.running (Daemon.init listenSock before) []) :=
    reachable_start (.init listenSock before)
  refine running_kept (sound_reachable first) (owns_init listenSock before) (unguarded run) ?_
  intro d d' event batch agrees ready unused guarded owns done
  exact owns.dispatchEvent agrees ready unused done

theorem run_servingOne : Relation.ReflTransGen (ServerStep plainServer)
    (.running (Daemon.init 3 fun _ => false) []) (.running servingOne []) := by
  have arrives : ServerStep plainServer (.running (Daemon.init 3 fun _ => false) [])
      (.running (Daemon.init 3 fun _ => false) [arrival]) :=
    .wait _ _ ⟨List.nodup_singleton _, by decide, by decide⟩
  have accepts : ServerStep plainServer (.running (Daemon.init 3 fun _ => false) [arrival])
      (.running servingOne []) := .dispatch _ _ _ ⟨rfl, trivial⟩
  exact (Relation.ReflTransGen.single arrives).tail accepts

/-- Another connection is waiting that will be descriptor 5. -/
def secondArrival : EpollEvent :=
  ⟨3, 0, quietEvent true false, [.connection 5 true]⟩

/-- The second client comes, and the first one leaves. -/
theorem descriptors_owned_departure :
    ((servingOne.acceptCb secondArrival).hungUp ⟨0, 4, acceptedClient, some 0⟩ 1).Owns
      fun _ => false := by
  have waits : ServerStep plainServer (.running servingOne [])
      (.running servingOne [secondArrival, departure]) :=
    .wait _ _ ⟨(by decide : [3, 4].Nodup), by decide, by decide⟩
  have arrives : ServerStep plainServer (.running servingOne [secondArrival, departure])
      (.running (servingOne.acceptCb secondArrival) [departure]) := .dispatch _ _ _ ⟨rfl, trivial⟩
  have leaves : ServerStep plainServer (.running (servingOne.acceptCb secondArrival) [departure])
      (.running ((servingOne.acceptCb secondArrival).hungUp ⟨0, 4, acceptedClient, some 0⟩ 1) []) :=
    .dispatch _ _ _ trivial
  exact descriptors_owned plainServer (((run_servingOne.tail waits).tail arrives).tail leaves)

/-- The event whose turn it is is for another descriptor. -/
def ServerState.Elsewhere (fd : Nat) : ServerState → Prop
  | .running _ (event :: _) => event.fd ≠ fd
  | .running _ [] | .halted _ => True

/-- Whatever happens to the other clients, and whoever comes or goes, a client
changes by its own events only. -/
theorem client_left_alone (server : Server) {d d' : Daemon} {batch batch' : List EpollEvent}
    (reached : ReachableServer server (.running d batch)) {node : ClientNode}
    (member : node ∈ d.clients)
    (run : Relation.ReflTransGen (Guarded (ServerState.Elsewhere node.fd) (ServerStep server))
      (.running d batch) (.running d' batch')) : d.Leaves d' node := by
  have sound := sound_reachable reached
  have start : (ServerState.running d batch).Running fun d' => d.Leaves d' node :=
    Leaves.refl sound.1 member
  refine running_kept sound start run ?_
  intro before behind event batch agrees ready unused elsewhere left done
  have next := agrees.dispatchEvent_leaves ready unused done left.member elsewhere.symm
  exact left.trans next

theorem client_left_alone_second :
    servingOne.Leaves (servingOne.acceptCb secondArrival) ⟨0, 4, acceptedClient, some 0⟩ := by
  have arrives : ServerStep plainServer (.running servingOne [])
      (.running servingOne [secondArrival]) :=
    .wait _ _ ⟨List.nodup_singleton _, by decide, by decide⟩
  have accepts : ServerStep plainServer (.running servingOne [secondArrival])
      (.running (servingOne.acceptCb secondArrival) []) := .dispatch _ _ _ ⟨rfl, trivial⟩
  have elsewhere : ServerState.Elsewhere 4 (.running servingOne [secondArrival]) := by
    intro same
    cases same
  exact client_left_alone plainServer reachable_servingOne List.mem_cons_self
    ((Relation.ReflTransGen.single ⟨trivial, arrives⟩).tail ⟨elsewhere, accepts⟩)

namespace Daemon

variable {d : Daemon}

/-- Events are for clients that are registered. -/
theorem Agrees.not_for_refused (agrees : d.Agrees) {node : ClientNode} (member : node ∈ d.clients)
    (refused : node.client.polling = false) : d.poll.interest node.fd = none := by
  cases watched : d.poll.interest node.fd with
  | none => rfl
  | some ptr =>
      rcases agrees.owner watched with listens | ⟨other, otherMember, same, polling⟩
      · exact absurd listens (agrees.apart node member)
      · rw [agrees.fds.eq_of_key_eq otherMember member same, refused] at polling
        cases polling

end Daemon

/-- A client that could not be registered is never served, never removed and
never closed, however long the server runs. -/
theorem refused_client_stays (server : Server) {d d' : Daemon} {batch batch' : List EpollEvent}
    (reached : ReachableServer server (.running d batch)) {node : ClientNode}
    (member : node ∈ d.clients) (refused : node.client.polling = false)
    (run : Relation.ReflTransGen (ServerStep server) (.running d batch) (.running d' batch')) :
    d.Leaves d' node ∧ d'.poll.interest node.fd = none := by
  have sound := sound_reachable reached
  have start : (ServerState.running d batch).Running fun d' => d.Leaves d' node :=
    Leaves.refl sound.1 member
  have kept : (ServerState.running d' batch').Running fun d' => d.Leaves d' node := by
    refine running_kept sound start (unguarded run) ?_
    intro before behind event batch agrees ready unused guarded left done
    have other : node.fd ≠ event.fd := by
      intro same
      have watched := ready.registered event List.mem_cons_self
      rw [← same, agrees.not_for_refused left.member refused] at watched
      cases watched
    exact left.trans (agrees.dispatchEvent_leaves ready unused done left.member other)
  exact ⟨kept, (sound_reachable (reached.append run)).1.not_for_refused kept.member refused⟩

/-- A connection is waiting that `epoll_ctl` will not take. -/
def refusedArrival : EpollEvent :=
  ⟨3, 0, quietEvent true false, [.connection 4 false]⟩

theorem refused_client_stays_second :
    let d := (Daemon.init 3 fun _ => false).acceptCb refusedArrival
    let node : ClientNode := ⟨0, 4, Client.new ⟨[], .wouldBlock, [], []⟩ false, some 0⟩
    d.Leaves (d.acceptCb secondArrival) node ∧
      (d.acceptCb secondArrival).poll.interest node.fd = none := by
  intro d node
  have start : ReachableServer plainServer (.running (Daemon.init 3 fun _ => false) []) :=
    reachable_start (ServerStart.init 3 fun _ => false)
  have arrives : ReachableServer plainServer
      (.running (Daemon.init 3 fun _ => false) [refusedArrival]) := by
    apply start.tail
    exact .wait _ _ ⟨List.nodup_singleton _, by decide, by decide⟩
  have reached : ReachableServer plainServer (.running d []) :=
    arrives.tail (.dispatch _ _ _ ⟨rfl, trivial⟩)
  have second : ServerStep plainServer (.running d []) (.running d [secondArrival]) :=
    .wait _ _ ⟨List.nodup_singleton _, by decide, by decide⟩
  have accepts : ServerStep plainServer (.running d [secondArrival])
      (.running (d.acceptCb secondArrival) []) := .dispatch _ _ _ ⟨rfl, trivial⟩
  exact refused_client_stays plainServer reached List.mem_cons_self rfl
    ((Relation.ReflTransGen.single second).tail accepts)

end ThemeSrv
