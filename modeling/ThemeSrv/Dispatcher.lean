import Mathlib.Data.Nat.Pairing
import Mathlib.Logic.Function.Basic
import ThemeSrv.Connection
import ThemeSrv.KeyedList

/-!
# The dispatcher and the clients of a server

`epoll_dispatch`, the accept loop and the life of the clients in `m_clients`,
over the kernel's interest set and table of open descriptors.  Nodes of
containers have addresses, which are never used twice, so that a pointer to a
node that has been erased finds nothing.
-/

namespace ThemeSrv

/-! ### The dispatcher -/

/-- `pollcb_t`: `accept_cb`, or `handle_dispatch` of the client at an
address. -/
inductive PollCallback
  | acceptCb
  | handleDispatch (address : Nat)
  deriving DecidableEq, Repr

/-- A node of `m_callbacks`: its key and the `epoll_cb` stored there. -/
structure EpollCb where
  address : Nat
  key : Nat
  cb : PollCallback
  /-- The node `m_iterator` denotes, once it has been set. -/
  iterator : Option Nat
  deriving DecidableEq, Repr

/-- `epoll_dispatch`, with the interest set of its epoll instance:
`event.data.ptr` for every registered descriptor. -/
structure EpollDispatch where
  callbacks : List EpollCb
  interest : Nat → Option Nat
  nextAddress : Nat
  /-- How often `add_fd` warned about a double-add. -/
  doubleAdds : Nat

namespace EpollDispatch

def empty : EpollDispatch :=
  ⟨[], fun _ => none, 0, 0⟩

/-- The node a pointer or an iterator denotes. -/
def node (poll : EpollDispatch) (address : Nat) : Option EpollCb :=
  KeyedList.lookup EpollCb.address poll.callbacks address

/-- `m_callbacks.erase` with an iterator. -/
def erase (poll : EpollDispatch) (address : Nat) : EpollDispatch :=
  { poll with callbacks := KeyedList.without EpollCb.address poll.callbacks address }

/-- `EPOLL_CTL_ADD`, which fails for a descriptor that is registered, and may
fail for others. -/
def ctlAdd (poll : EpollDispatch) (fd ptr : Nat) (registers : Bool) : Bool × EpollDispatch :=
  if registers = true ∧ poll.interest fd = none then
    (true, { poll with interest := Function.update poll.interest fd (some ptr) })
  else
    (false, poll)

/-- `EPOLL_CTL_DEL`. -/
def ctlDel (poll : EpollDispatch) (fd : Nat) : Bool × EpollDispatch :=
  match poll.interest fd with
  | none => (false, poll)
  | some _ => (true, { poll with interest := Function.update poll.interest fd none })

/-- `try_emplace` of a key that is not there, with the iterator set. -/
def emplace (poll : EpollDispatch) (fd : Nat) (cb : PollCallback) : EpollDispatch :=
  { poll with
    callbacks := poll.callbacks ++ [⟨poll.nextAddress, fd, cb, some poll.nextAddress⟩]
    nextAddress := poll.nextAddress + 1 }

def addFd (poll : EpollDispatch) (fd : Nat) (cb : PollCallback) (registers : Bool) :
    Bool × EpollDispatch :=
  if (KeyedList.lookup EpollCb.key poll.callbacks fd).isSome then
    (false, { poll with doubleAdds := poll.doubleAdds + 1 })
  else
    match (poll.emplace fd cb).ctlAdd fd poll.nextAddress registers with
    | (true, poll') => (true, poll')
    | (false, poll') => (false, poll'.erase poll.nextAddress)

def removeFd (poll : EpollDispatch) (fd : Nat) : Bool × EpollDispatch :=
  match poll.ctlDel fd with
  | (false, poll) => (false, poll)
  | (true, poll) =>
      (true, { poll with callbacks := KeyedList.without EpollCb.key poll.callbacks fd })

end EpollDispatch

/-! ### The clients -/

/-- A node of `m_clients`. -/
structure ClientNode where
  address : Nat
  fd : Nat
  client : Client
  /-- The node `m_iterator` denotes, once it has been set. -/
  iterator : Option Nat

/-- The state of a `server`, with the process's table of open descriptors. -/
structure Daemon where
  listenSock : Nat
  poll : EpollDispatch
  clients : List ClientNode
  nextAddress : Nat
  isOpen : Nat → Bool

/-- What ends the program: a client stops it, or it goes through a pointer or
an iterator to a node that is not there. -/
inductive Halt
  | client (stop : Stop)
  | noCallback
  | noClient
  deriving DecidableEq, Repr

namespace Daemon

def node (d : Daemon) (address : Nat) : Option ClientNode :=
  KeyedList.lookup ClientNode.address d.clients address

/-- `m_clients.emplace_back` with the constructor of `client`, and the iterator
that is set behind it: the last node of the list. -/
def emplaceBack (d : Daemon) (fd : Nat) (registers : Bool) : Daemon :=
  let (polling, poll) := d.poll.addFd fd (.handleDispatch d.nextAddress) registers
  let client := Client.new ⟨[], .wouldBlock, [], []⟩ polling
  let clients := d.clients ++ [⟨d.nextAddress, fd, client, none⟩]
  let last := clients.getLast?.map ClientNode.address
  { d with
    poll := poll
    clients := d.clients ++ [⟨d.nextAddress, fd, client, last⟩]
    nextAddress := d.nextAddress + 1
    isOpen := Function.update d.isOpen fd true }

/-- `~client` and then `~socket`; the kernel drops a descriptor that is closed
from the interest set. -/
def destroy (d : Daemon) (node : ClientNode) : Daemon :=
  let poll := if node.client.flags.polling then (d.poll.removeFd node.fd).2 else d.poll
  { d with
    poll := (poll.ctlDel node.fd).2
    isOpen := Function.update d.isOpen node.fd false }

/-- `m_clients.erase`. -/
def eraseClient (d : Daemon) (address : Nat) : Except Halt Daemon :=
  match d.node address with
  | none => .error .noClient
  | some node =>
      .ok ({ d with
        clients := KeyedList.without ClientNode.address d.clients address }.destroy node)

/-- A client with another state. -/
def setClient (d : Daemon) (address : Nat) (client : Client) : Daemon :=
  { d with
    clients := KeyedList.changed ClientNode.address d.clients address
      fun node => { node with client := client } }

end Daemon

/-- The server as the client of a node finds it, with draws of its own. -/
def Server.forClient (server : Server) (address : Nat) : Server :=
  { server with
    random := fun posted => server.random (Nat.pair address posted)
    residue := fun posted => server.residue (Nat.pair address posted) }

namespace Daemon

/-- `client::handle_dispatch` as the dispatcher calls it. -/
def clientDispatch (server : Server) (address : Nat) (event : PollEvent) (d : Daemon) :
    Except Halt Daemon :=
  match d.node address with
  | none => .error .noClient
  | some node =>
      match handleDispatch (server.forClient address) event (node.client.polled event) with
      | .stopped stop _ => .error (.client stop)
      | .alive client => .ok (d.setClient address client)
      | .destroyed client =>
          match node.iterator with
          | none => .error .noClient
          | some iterator => (d.setClient address client).eraseClient iterator

end Daemon

/-! ### Accepting connections -/

/-- A connection in the queue of the listen socket: `accept4` gives it a
descriptor, which `epoll_ctl` then takes or not, or reports a failure. -/
inductive Pending
  | connection (fd : Nat) (registers : Bool)
  | failed
  deriving DecidableEq, Repr

/-- The two kinds of `errno` that `socket::accept` tells apart in its log. -/
inductive AcceptError
  | wouldBlock
  | other
  deriving DecidableEq, Repr

/-- The end of the loop in `accept_cb`: what is still in the queue, and the
error `accept4` reported last. -/
structure Accepted where
  daemon : Daemon
  waiting : List Pending
  error : AcceptError

/-- `while (m_listenSock.accept(sock))`: `accept` returns false for either kind
of error. -/
def acceptLoop (d : Daemon) : List Pending → Accepted
  | [] => ⟨d, [], .wouldBlock⟩
  | .failed :: waiting => ⟨d, waiting, .other⟩
  | .connection fd registers :: waiting => acceptLoop (d.emplaceBack fd registers) waiting

/-! ### Batches of events -/

/-- One of the events of `epoll_wait`: the descriptor it is about, the pointer
registered for it, what it reports with what the socket of a client does until
the next one, and the queue of the listen socket. -/
structure EpollEvent where
  fd : Nat
  ptr : Nat
  event : PollEvent
  queue : List Pending

namespace Daemon

def acceptCb (event : EpollEvent) (d : Daemon) : Daemon :=
  if event.event.read then (acceptLoop d event.queue).daemon else d

/-- The node of `cb->m_iterator`, for the `epoll_cb` at a pointer. -/
def iteratorNode (d : Daemon) (ptr : Nat) : Option EpollCb := do
  let cb ← d.poll.node ptr
  let iterator ← cb.iterator
  d.poll.node iterator

/-- The call of `cb->m_cb`. -/
def callback (server : Server) (event : EpollEvent) (d : Daemon) : Except Halt Daemon :=
  match d.poll.node event.ptr with
  | none => .error .noCallback
  | some cb =>
      match cb.cb with
      | .acceptCb => .ok (d.acceptCb event)
      | .handleDispatch address => d.clientDispatch server address event.event

/-- The loop body of `dispatch`.  A hung-up descriptor leaves the interest set
before the callback and the map behind it. -/
def dispatchEvent (server : Server) (event : EpollEvent) (d : Daemon) : Except Halt Daemon :=
  match d.iteratorNode event.ptr with
  | none => .error .noCallback
  | some cb =>
      if event.event.hup then
        match callback server event { d with poll := (d.poll.ctlDel cb.key).2 } with
        | .error halt => .error halt
        | .ok d =>
            match d.iteratorNode event.ptr with
            | none => .error .noCallback
            | some cb => .ok { d with poll := d.poll.erase cb.address }
      else
        callback server event d

/-- The server behind `init_fds`. -/
def init (listenSock : Nat) (isOpen : Nat → Bool) : Daemon where
  listenSock := listenSock
  poll := (EpollDispatch.empty.addFd listenSock .acceptCb true).2
  clients := []
  nextAddress := 0
  isOpen := Function.update isOpen listenSock true

end Daemon

/-! ### Runs of the server -/

/-- The kernel gives a new connection a descriptor that is not open. -/
def UnusedFds (isOpen : Nat → Bool) : List Pending → Prop
  | [] => True
  | .failed :: _ => True
  | .connection fd _ :: queue =>
      isOpen fd = false ∧ UnusedFds (Function.update isOpen fd true) queue

/-- What `epoll_wait` may return: at most one event for each registered
descriptor, with the pointer it was registered with.  The listen socket does
not hang up. -/
structure Daemon.Ready (d : Daemon) (events : List EpollEvent) : Prop where
  once : KeyedList.Distinct EpollEvent.fd events
  registered : ∀ event ∈ events, d.poll.interest event.fd = some event.ptr
  listening : ∀ event ∈ events, event.event.hup = true → event.fd ≠ d.listenSock

/-- A server with the events of its batch that are still to be processed, or a
program that has ended. -/
inductive ServerState
  | running (d : Daemon) (batch : List EpollEvent)
  | halted (halt : Halt)

/-- The server with the rest of the batch, or the end of the program. -/
def ServerState.behind (batch : List EpollEvent) : Except Halt Daemon → ServerState
  | .ok d => .running d batch
  | .error halt => .halted halt

/-- A server that has bound its listen socket. -/
inductive ServerStart : ServerState → Prop
  | init (listenSock : Nat) (isOpen : Nat → Bool) :
      ServerStart (.running (Daemon.init listenSock isOpen) [])

/-- A batch arrives when the one before it has been processed; its events are
processed in order. -/
inductive ServerStep (server : Server) : ServerState → ServerState → Prop
  | wait (d : Daemon) (events : List EpollEvent) (ready : d.Ready events) :
      ServerStep server (.running d []) (.running d events)
  | dispatch (d : Daemon) (event : EpollEvent) (batch : List EpollEvent)
      (unused : UnusedFds d.isOpen event.queue) :
      ServerStep server (.running d (event :: batch))
        (.behind batch (d.dispatchEvent server event))

/-- The states that runs of the server reach. -/
def ReachableServer (server : Server) : ServerState → Prop :=
  TransitionSystem.Reachable ServerStart (ServerStep server)

end ThemeSrv
