import ThemeSrv.Dispatcher

/-!
# Agreement of the dispatcher and the client registry

Removing a client that hung up is spread over the dispatcher, the client and
its socket, while other events of the batch still hold pointers into the map.
One event leaves the entries of all other descriptors alone, so each of them is
still there when its turn comes, and the map, the interest set and the polling
clients stay the same set of descriptors.
-/

namespace ThemeSrv

/-! ### The map and the interest set -/

namespace EpollDispatch

/-- The map is the interest set: distinct keys, registered with the addresses
of their nodes. -/
structure Consistent (poll : EpollDispatch) : Prop where
  keys : KeyedList.Distinct EpollCb.key poll.callbacks
  addresses : KeyedList.Distinct EpollCb.address poll.callbacks
  fresh : ∀ cb ∈ poll.callbacks, cb.address < poll.nextAddress
  iterators : ∀ cb ∈ poll.callbacks, cb.iterator = some cb.address
  watched : ∀ fd ptr, poll.interest fd = some ptr ↔
    ∃ cb ∈ poll.callbacks, cb.key = fd ∧ cb.address = ptr
  noDoubleAdd : poll.doubleAdds = 0

/-- The dispatcher behind an `add_fd` that succeeded. -/
def registered (poll : EpollDispatch) (fd : Nat) (cb : PollCallback) : EpollDispatch :=
  { poll.emplace fd cb with
    interest := Function.update poll.interest fd (some poll.nextAddress) }

/-- The dispatcher behind one that the kernel refused. -/
def refused (poll : EpollDispatch) : EpollDispatch :=
  { poll with nextAddress := poll.nextAddress + 1 }

/-- The dispatcher without the entry of a descriptor. -/
def removed (poll : EpollDispatch) (fd address : Nat) : EpollDispatch :=
  { poll with
    callbacks := KeyedList.without EpollCb.address poll.callbacks address
    interest := Function.update poll.interest fd none }

variable {poll : EpollDispatch}

theorem consistent_empty : Consistent empty where
  keys := List.nodup_nil
  addresses := List.nodup_nil
  fresh := by simp [empty]
  iterators := by simp [empty]
  watched := by simp [empty]
  noDoubleAdd := rfl

theorem Consistent.node_eq (consistent : poll.Consistent) {cb : EpollCb} (member : cb ∈ poll.callbacks) :
    poll.node cb.address = some cb :=
  (KeyedList.lookup_eq_some consistent.addresses).2 ⟨member, rfl⟩

theorem Consistent.interest_none (consistent : poll.Consistent) {fd : Nat}
    (unused : ∀ cb ∈ poll.callbacks, cb.key ≠ fd) : poll.interest fd = none := by
  cases watched : poll.interest fd with
  | none => rfl
  | some ptr =>
      obtain ⟨cb, member, key, -⟩ := (consistent.watched fd ptr).1 watched
      exact absurd key (unused cb member)

theorem Consistent.addFd_eq (consistent : poll.Consistent) {fd : Nat} (cb : PollCallback)
    (registers : Bool) (unused : ∀ other ∈ poll.callbacks, other.key ≠ fd) :
    poll.addFd fd cb registers =
      if registers then (true, poll.registered fd cb) else (false, poll.refused) := by
  have missing : KeyedList.lookup EpollCb.key poll.callbacks fd = none :=
    KeyedList.lookup_eq_none.2 unused
  have unwatched := consistent.interest_none unused
  unfold addFd
  rw [missing]
  cases registers with
  | true => simp [ctlAdd, emplace, registered, unwatched]
  | false =>
      let added : EpollCb := ⟨poll.nextAddress, fd, cb, some poll.nextAddress⟩
      have erased : KeyedList.without EpollCb.address (poll.callbacks ++ [added]) added.address =
          poll.callbacks :=
        KeyedList.without_append_new fun other member => (consistent.fresh other member).ne
      dsimp only [added] at erased
      simp [ctlAdd, emplace, erase, refused, erased]

theorem Consistent.registered (consistent : poll.Consistent) {fd : Nat} (cb : PollCallback)
    (unused : ∀ other ∈ poll.callbacks, other.key ≠ fd) : (poll.registered fd cb).Consistent where
  keys := KeyedList.Distinct.append_new consistent.keys unused
  addresses := KeyedList.Distinct.append_new consistent.addresses
    fun other member => (consistent.fresh other member).ne
  fresh := by
    intro other member
    rcases List.mem_append.1 member with old | new
    · exact (consistent.fresh other old).trans (Nat.lt_succ_self _)
    · rw [List.mem_singleton.1 new]
      exact Nat.lt_succ_self _
  iterators := by
    intro other member
    rcases List.mem_append.1 member with old | new
    · exact consistent.iterators other old
    · rw [List.mem_singleton.1 new]
  watched := by
    intro key ptr
    change Function.update poll.interest fd (some poll.nextAddress) key = some ptr ↔
      ∃ other ∈ poll.callbacks ++ [_], other.key = key ∧ other.address = ptr
    by_cases same : key = fd
    · subst same
      rw [Function.update_self]
      constructor
      · intro found
        refine ⟨_, List.mem_append_right _ (List.mem_singleton_self _), rfl, ?_⟩
        simpa using found
      · rintro ⟨other, member, otherKey, rfl⟩
        rcases List.mem_append.1 member with old | new
        · exact absurd otherKey (unused other old)
        · rw [List.mem_singleton.1 new]
    · rw [Function.update_of_ne same, consistent.watched]
      constructor
      · rintro ⟨other, member, found⟩
        exact ⟨other, List.mem_append_left _ member, found⟩
      · rintro ⟨other, member, otherKey, found⟩
        rcases List.mem_append.1 member with old | new
        · exact ⟨other, old, otherKey, found⟩
        · rw [List.mem_singleton.1 new] at otherKey
          exact absurd otherKey.symm same
  noDoubleAdd := consistent.noDoubleAdd

theorem Consistent.refused (consistent : poll.Consistent) : poll.refused.Consistent where
  keys := consistent.keys
  addresses := consistent.addresses
  fresh := fun cb member => (consistent.fresh cb member).trans (Nat.lt_succ_self _)
  iterators := consistent.iterators
  watched := consistent.watched
  noDoubleAdd := consistent.noDoubleAdd

theorem Consistent.removed (consistent : poll.Consistent) {cb : EpollCb}
    (member : cb ∈ poll.callbacks) : (poll.removed cb.key cb.address).Consistent where
  keys := consistent.keys.filter _
  addresses := consistent.addresses.filter _
  fresh := fun other left => consistent.fresh other (KeyedList.mem_without.1 left).1
  iterators := fun other left => consistent.iterators other (KeyedList.mem_without.1 left).1
  watched := by
    intro fd ptr
    change Function.update poll.interest cb.key none fd = some ptr ↔
      ∃ other ∈ KeyedList.without EpollCb.address poll.callbacks cb.address,
        other.key = fd ∧ other.address = ptr
    by_cases same : fd = cb.key
    · subst same
      rw [Function.update_self]
      constructor
      · intro found
        cases found
      · rintro ⟨other, left, key, -⟩
        obtain ⟨otherMember, apart⟩ := KeyedList.mem_without.1 left
        rw [consistent.keys.eq_of_key_eq otherMember member key] at apart
        exact absurd rfl apart
    · rw [Function.update_of_ne same, consistent.watched]
      constructor
      · rintro ⟨other, otherMember, rfl, rfl⟩
        refine ⟨other, KeyedList.mem_without.2 ⟨otherMember, ?_⟩, rfl, rfl⟩
        intro address
        exact same (by rw [consistent.addresses.eq_of_key_eq otherMember member address])
      · rintro ⟨other, left, found⟩
        exact ⟨other, (KeyedList.mem_without.1 left).1, found⟩
  noDoubleAdd := consistent.noDoubleAdd

end EpollDispatch

/-! ### The clients -/

def Client.polling (cli : Client) : Bool :=
  cli.flags.polling

namespace Daemon

open EpollDispatch

/-- The map holds the listen socket and the polling clients, and nothing
else. -/
structure Agrees (d : Daemon) : Prop where
  poll : d.poll.Consistent
  listening : ∃ cb ∈ d.poll.callbacks, cb.key = d.listenSock ∧ cb.cb = .acceptCb
  called : ∀ node ∈ d.clients, node.client.polling = true →
    ∃ cb ∈ d.poll.callbacks, cb.key = node.fd ∧ cb.cb = .handleDispatch node.address
  owned : ∀ cb ∈ d.poll.callbacks,
    cb.key = d.listenSock ∨ ∃ node ∈ d.clients, node.fd = cb.key ∧ node.client.polling = true
  addresses : KeyedList.Distinct ClientNode.address d.clients
  fds : KeyedList.Distinct ClientNode.fd d.clients
  fresh : ∀ node ∈ d.clients, node.address < d.nextAddress
  iterators : ∀ node ∈ d.clients, node.iterator = some node.address
  listenOpen : d.isOpen d.listenSock = true
  opened : ∀ node ∈ d.clients, d.isOpen node.fd = true
  apart : ∀ node ∈ d.clients, node.fd ≠ d.listenSock

/-- The server behind the registration of a new client. -/
def accepted (d : Daemon) (fd : Nat) (registers : Bool) : Daemon :=
  { d with
    poll := if registers then d.poll.registered fd (.handleDispatch d.nextAddress)
      else d.poll.refused
    clients := d.clients ++ [⟨d.nextAddress, fd,
      Client.new ⟨[], .wouldBlock, [], []⟩ registers, some d.nextAddress⟩]
    nextAddress := d.nextAddress + 1
    isOpen := Function.update d.isOpen fd true }

/-- The server behind the hang-up of a client. -/
def hungUp (d : Daemon) (node : ClientNode) (ptr : Nat) : Daemon :=
  { d with
    poll := d.poll.removed node.fd ptr
    clients := KeyedList.without ClientNode.address d.clients node.address
    isOpen := Function.update d.isOpen node.fd false }

variable {d : Daemon}

theorem Agrees.key_open (agrees : d.Agrees) {cb : EpollCb} (member : cb ∈ d.poll.callbacks) :
    d.isOpen cb.key = true := by
  rcases agrees.owned cb member with key | ⟨node, nodeMember, fd, -⟩
  · rw [key]
    exact agrees.listenOpen
  · rw [← fd]
    exact agrees.opened node nodeMember

theorem Agrees.unused (agrees : d.Agrees) {fd : Nat} (closed : d.isOpen fd = false) :
    ∀ cb ∈ d.poll.callbacks, cb.key ≠ fd := by
  rintro cb member rfl
  rw [agrees.key_open member] at closed
  cases closed

theorem Agrees.emplaceBack_eq (agrees : d.Agrees) {fd : Nat} (closed : d.isOpen fd = false)
    (registers : Bool) : d.emplaceBack fd registers = d.accepted fd registers := by
  have added := agrees.poll.addFd_eq (.handleDispatch d.nextAddress) registers
    (agrees.unused closed)
  unfold emplaceBack accepted
  rw [added]
  cases registers <;> simp

theorem agrees_init (listenSock : Nat) (isOpen : Nat → Bool) : (init listenSock isOpen).Agrees := by
  have unused : ∀ other ∈ empty.callbacks, other.key ≠ listenSock := by simp [empty]
  have added := consistent_empty.addFd_eq .acceptCb true unused
  have poll : (init listenSock isOpen).poll = empty.registered listenSock .acceptCb := by
    change (empty.addFd listenSock .acceptCb true).2 = _
    rw [added]
    rfl
  exact {
    poll := by
      rw [poll]
      exact consistent_empty.registered .acceptCb (by simp [empty])
    listening := by
      rw [poll]
      exact ⟨_, List.mem_singleton_self _, rfl, rfl⟩
    called := by simp [init]
    owned := by
      rw [poll]
      intro cb member
      rw [List.mem_singleton.1 member]
      exact Or.inl rfl
    addresses := List.nodup_nil
    fds := List.nodup_nil
    fresh := by simp [init]
    iterators := by simp [init]
    listenOpen := by simp [init]
    opened := by simp [init]
    apart := by simp [init] }

theorem Agrees.accepted (agrees : d.Agrees) {fd : Nat} (closed : d.isOpen fd = false)
    (registers : Bool) : (d.accepted fd registers).Agrees := by
  have unused := agrees.unused closed
  have apart : ∀ node ∈ d.clients, node.fd ≠ fd := by
    rintro node member rfl
    rw [agrees.opened node member] at closed
    cases closed
  have notListening : fd ≠ d.listenSock := by
    rintro rfl
    rw [agrees.listenOpen] at closed
    cases closed
  have kept : ∀ cb ∈ d.poll.callbacks, cb ∈ (d.accepted fd registers).poll.callbacks := by
    intro cb member
    cases registers with
    | true => exact List.mem_append_left _ member
    | false => exact member
  constructor
  case poll =>
    cases registers with
    | true => exact agrees.poll.registered _ unused
    | false => exact agrees.poll.refused
  case listening =>
    obtain ⟨cb, member, listens⟩ := agrees.listening
    exact ⟨cb, kept cb member, listens⟩
  case called =>
    intro node member polling
    rcases List.mem_append.1 member with old | new
    · obtain ⟨cb, cbMember, calls⟩ := agrees.called node old polling
      exact ⟨cb, kept cb cbMember, calls⟩
    · rw [List.mem_singleton.1 new] at polling ⊢
      cases registers with
      | true => exact ⟨_, List.mem_append_right _ (List.mem_singleton_self _), rfl, rfl⟩
      | false => cases polling
  case owned =>
    have old : ∀ cb ∈ d.poll.callbacks, cb.key = d.listenSock ∨
        ∃ node ∈ (d.accepted fd registers).clients,
          node.fd = cb.key ∧ node.client.polling = true := by
      intro cb member
      rcases agrees.owned cb member with listens | ⟨node, nodeMember, owns⟩
      · exact Or.inl listens
      · exact Or.inr ⟨node, List.mem_append_left _ nodeMember, owns⟩
    intro cb member
    cases registers with
    | true =>
        rcases List.mem_append.1 member with before | new
        · exact old cb before
        · rw [List.mem_singleton.1 new]
          exact Or.inr ⟨_, List.mem_append_right _ (List.mem_singleton_self _), rfl, rfl⟩
    | false => exact old cb member
  case addresses =>
    exact agrees.addresses.append_new fun node member => (agrees.fresh node member).ne
  case fds => exact agrees.fds.append_new apart
  case fresh =>
    intro node member
    rcases List.mem_append.1 member with old | new
    · exact (agrees.fresh node old).trans (Nat.lt_succ_self _)
    · rw [List.mem_singleton.1 new]
      exact Nat.lt_succ_self _
  case iterators =>
    intro node member
    rcases List.mem_append.1 member with old | new
    · exact agrees.iterators node old
    · rw [List.mem_singleton.1 new]
  case listenOpen =>
    change Function.update d.isOpen fd true d.listenSock = true
    rw [Function.update_of_ne notListening.symm]
    exact agrees.listenOpen
  case opened =>
    intro node member
    change Function.update d.isOpen fd true node.fd = true
    rcases List.mem_append.1 member with old | new
    · rw [Function.update_of_ne (apart node old)]
      exact agrees.opened node old
    · rw [List.mem_singleton.1 new, Function.update_self]
  case apart =>
    intro node member
    rcases List.mem_append.1 member with old | new
    · exact agrees.apart node old
    · rw [List.mem_singleton.1 new]
      exact notListening

theorem Agrees.setClient (agrees : d.Agrees) {node : ClientNode} (member : node ∈ d.clients)
    {client : Client} (polling : client.polling = node.client.polling) :
    (d.setClient node.address client).Agrees := by
  have changed : ∀ new ∈ (d.setClient node.address client).clients, ∃ old ∈ d.clients,
      new.address = old.address ∧ new.fd = old.fd ∧ new.iterator = old.iterator ∧
        new.client.polling = old.client.polling := by
    intro new newMember
    obtain ⟨old, oldMember, rfl⟩ := KeyedList.mem_changed.1 newMember
    refine ⟨old, oldMember, ?_⟩
    split
    · rename_i same
      rw [agrees.addresses.eq_of_key_eq oldMember member same]
      exact ⟨rfl, rfl, rfl, polling⟩
    · exact ⟨rfl, rfl, rfl, rfl⟩
  have found : ∀ old ∈ d.clients, ∃ new ∈ (d.setClient node.address client).clients,
      new.fd = old.fd ∧ new.client.polling = old.client.polling := by
    intro old oldMember
    refine ⟨_, KeyedList.mem_changed.2 ⟨old, oldMember, rfl⟩, ?_⟩
    split
    · rename_i same
      rw [agrees.addresses.eq_of_key_eq oldMember member same]
      exact ⟨rfl, polling⟩
    · exact ⟨rfl, rfl⟩
  constructor
  case poll => exact agrees.poll
  case listening => exact agrees.listening
  case called =>
    intro new newMember isPolling
    obtain ⟨old, oldMember, address, fd, -, same⟩ := changed new newMember
    rw [address, fd]
    exact agrees.called old oldMember (same ▸ isPolling)
  case owned =>
    intro cb cbMember
    rcases agrees.owned cb cbMember with listens | ⟨old, oldMember, fd, isPolling⟩
    · exact Or.inl listens
    · obtain ⟨new, newMember, newFd, same⟩ := found old oldMember
      exact Or.inr ⟨new, newMember, newFd.trans fd, same.trans isPolling⟩
  case addresses =>
    exact agrees.addresses.changed fun _ => rfl
  case fds =>
    exact agrees.fds.changed fun _ => rfl
  case fresh =>
    intro new newMember
    obtain ⟨old, oldMember, address, -⟩ := changed new newMember
    rw [address]
    exact agrees.fresh old oldMember
  case iterators =>
    intro new newMember
    obtain ⟨old, oldMember, address, -, iterator, -⟩ := changed new newMember
    rw [iterator, address]
    exact agrees.iterators old oldMember
  case listenOpen => exact agrees.listenOpen
  case opened =>
    intro new newMember
    obtain ⟨old, oldMember, -, fd, -⟩ := changed new newMember
    rw [fd]
    exact agrees.opened old oldMember
  case apart =>
    intro new newMember
    obtain ⟨old, oldMember, -, fd, -⟩ := changed new newMember
    rw [fd]
    exact agrees.apart old oldMember

/-- A hang-up takes the client out of the list, and its descriptor out of the
map, the interest set and the table of open descriptors. -/
theorem Agrees.hungUp (agrees : d.Agrees) {node : ClientNode} (member : node ∈ d.clients)
    {cb : EpollCb} (cbMember : cb ∈ d.poll.callbacks) (key : cb.key = node.fd) :
    (d.hungUp node cb.address).Agrees := by
  have left : ∀ {other : ClientNode}, other ∈ (d.hungUp node cb.address).clients →
      other ∈ d.clients ∧ other.fd ≠ node.fd := by
    intro other otherLeft
    obtain ⟨otherMember, address⟩ := KeyedList.mem_without.1 otherLeft
    refine ⟨otherMember, ?_⟩
    intro same
    rw [agrees.fds.eq_of_key_eq otherMember member same] at address
    exact address rfl
  have stays : ∀ {other : EpollCb}, other ∈ d.poll.callbacks → other.key ≠ node.fd →
      other ∈ (d.hungUp node cb.address).poll.callbacks := by
    intro other otherMember apart
    refine KeyedList.mem_without.2 ⟨otherMember, ?_⟩
    intro same
    rw [agrees.poll.addresses.eq_of_key_eq otherMember cbMember same] at apart
    exact apart key
  constructor
  case poll =>
    have removed := agrees.poll.removed cbMember
    rw [key] at removed
    exact removed
  case listening =>
    obtain ⟨other, otherMember, listens⟩ := agrees.listening
    refine ⟨other, stays otherMember ?_, listens⟩
    rw [listens.1]
    exact (agrees.apart node member).symm
  case called =>
    intro other otherLeft polling
    obtain ⟨otherMember, apart⟩ := left otherLeft
    obtain ⟨entry, entryMember, calls⟩ := agrees.called other otherMember polling
    refine ⟨entry, stays entryMember ?_, calls⟩
    rw [calls.1]
    exact apart
  case owned =>
    intro other otherLeft
    obtain ⟨otherMember, address⟩ := KeyedList.mem_without.1 otherLeft
    rcases agrees.owned other otherMember with listens | ⟨owner, ownerMember, fd, polling⟩
    · exact Or.inl listens
    · refine Or.inr ⟨owner, KeyedList.mem_without.2 ⟨ownerMember, ?_⟩, fd, polling⟩
      intro same
      rw [agrees.addresses.eq_of_key_eq ownerMember member same] at fd
      rw [agrees.poll.keys.eq_of_key_eq otherMember cbMember (fd.symm.trans key.symm)] at address
      exact address rfl
  case addresses => exact agrees.addresses.filter _
  case fds => exact agrees.fds.filter _
  case fresh => exact fun other otherLeft => agrees.fresh other (left otherLeft).1
  case iterators => exact fun other otherLeft => agrees.iterators other (left otherLeft).1
  case listenOpen =>
    change Function.update d.isOpen node.fd false d.listenSock = true
    rw [Function.update_of_ne (agrees.apart node member).symm]
    exact agrees.listenOpen
  case opened =>
    intro other otherLeft
    obtain ⟨otherMember, apart⟩ := left otherLeft
    change Function.update d.isOpen node.fd false other.fd = true
    rw [Function.update_of_ne apart]
    exact agrees.opened other otherMember
  case apart => exact fun other otherLeft => agrees.apart other (left otherLeft).1

end Daemon

end ThemeSrv
