import ThemeSrv.Gatekeeper
import ThemeSrv.TransitionSystem

/-!
# Connections and their events

`client::handle_dispatch` and the two pump loops, and the runs of a
connection: events in any order, each with whatever the socket is going to
answer, but nothing except a hang-up once the socket has been shut down.
`SIGPIPE` is left at its default: a write that raises it ends the program, here
as soon as the pump or the handler that made it is done.
-/

namespace ThemeSrv

open TransitionSystem

/-- An event of the dispatcher for one client, with what its socket does until
the next one.  `fuel` bounds the turns of the loops that need not end. -/
structure PollEvent where
  write : Bool
  read : Bool
  hup : Bool
  inbound : List ReadAnswer
  idle : Idle
  outbound : List WriteAnswer
  fuel : Nat

/-- Loop of `pump_write`, which ends after as many turns as there are queued
messages. -/
def pumpWriteLoop : Nat → ClientBase → ClientBase
  | 0, c => c
  | turns + 1, c =>
      match handleWrite c with
      | (true, c) => pumpWriteLoop turns c
      | (false, c) => c

def pumpWrite (c : ClientBase) : ClientBase :=
  pumpWriteLoop (c.writes.length + 1) c

/-- `pump_read`; both its own turns and those of `resume_read` are bounded. -/
def pumpRead (server : Server) (fuel : Nat) : Nat → Client → Outcome Client Unit
  | 0, cli => .stopped .fuel cli
  | turns + 1, cli =>
      let cli := cli.visited .resumeRead []
      match handleRead fuel cli.base with
      | .stopped stop base => .stopped stop { cli with base := base }
      | .done none base => .done () { cli with base := base }
      | .done (some buf) base =>
          match handlerRead server buf
              { cli with base := base, completed := cli.base.read.struct } with
          | .stopped stop cli => .stopped stop cli
          | .done goesOn cli =>
              -- the reply of the handler may have been its last call
              if cli.base.sock.brokenPipe then
                .stopped .brokenPipe cli
              else if goesOn then
                if cli.base.hasPendingRead then
                  pumpRead server fuel turns cli
                else
                  .done () cli.shutdown
              else
                .done () cli.shutdown

/-- A client during its run, after its destruction, and in a program that
has stopped. -/
inductive Connection
  | alive (cli : Client)
  | destroyed (cli : Client)
  | stopped (stop : Stop) (cli : Client)

def Connection.client : Connection → Client
  | .alive cli => cli
  | .destroyed cli => cli
  | .stopped _ cli => cli

/-- Whether the client can take further events. -/
def Connection.isAlive : Connection → Bool
  | .alive _ => true
  | .destroyed _ | .stopped _ _ => false

/-- The socket as an event finds it. -/
def Client.polled (cli : Client) (event : PollEvent) : Client :=
  { cli with
    base := { cli.base with
      sock := { cli.base.sock with
        inbound := event.inbound
        idle := event.idle
        outbound := event.outbound } } }

def handleDispatch (server : Server) (event : PollEvent) (cli : Client) : Connection :=
  if event.hup then
    .destroyed { cli with flags := { cli.flags with polling := false } }
  else
    let cli := if event.write then { cli with base := pumpWrite cli.base } else cli
    if cli.base.sock.brokenPipe then
      .stopped .brokenPipe cli
    else if event.read then
      match pumpRead server event.fuel event.fuel cli with
      | .stopped stop cli => .stopped stop cli
      | .done () cli => .alive cli
    else
      .alive cli

/-- What the dispatcher makes of a client with one event after the other, as
long as the client lives. -/
def handleEvents (server : Server) : List PollEvent → Client → Connection
  | [], cli => .alive cli
  | event :: events, cli =>
      match handleDispatch server event (cli.polled event) with
      | .alive cli => handleEvents server events cli
      | ended => ended

/-- A new connection on a socket that has not been used. -/
inductive ConnectionStart : Connection → Prop
  | accepted (sock : Socket) (polling : Bool) (unused : sock.calls = []) :
      ConnectionStart (.alive (Client.new sock polling))

/-- Dispatched events.  After `shutdown` every one of them is a hang-up. -/
inductive ConnectionStep (server : Server) : Connection → Connection → Prop
  | dispatch (cli : Client) (event : PollEvent) (polling : cli.flags.polling = true)
      (hangUp : cli.base.sock.isDown = true → event.hup = true) :
      ConnectionStep server (.alive cli) (handleDispatch server event (cli.polled event))

/-- The connections that runs reach. -/
def ReachableConnection (server : Server) : Connection → Prop :=
  Reachable ConnectionStart (ConnectionStep server)

/-! ### Opening a connection -/

/-- A server with short keys that draws zeroes. -/
def plainServer : Server where
  allowDecrypted := false
  cryptK := ⟨65537, by norm_num [kKeySize]⟩
  cryptN := ⟨2147483647, by norm_num [kKeySize]⟩
  filesrvAddress := [0x31, 0x30, 0x2e, 0x30]
  authsrvAddress := [0x31, 0x39, 0x32, 0x2e]
  rc4 := KeystreamCipher.rc4
  random := fun _ _ => 0
  residue := fun _ _ => 0xcdcd

/-- The connection header, the handshake and the seed of a client. -/
def openingBytes : Bytes :=
  ([0x16, 0x1f, 0x00] ++ List.replicate 12 0 ++ List.replicate 16 0 ++ [0x14, 0, 0, 0] ++
      List.replicate 16 0) ++
    [0, 66] ++ (2 :: List.replicate 63 0)

/-- The client opens the connection, and the socket takes the reply in two
pieces. -/
def opening : PollEvent where
  write := false
  read := true
  hup := false
  inbound := [.data openingBytes]
  idle := .wouldBlock
  outbound := [.accepted 4]
  fuel := 40

/-- A client whose descriptor the dispatcher has accepted. -/
def acceptedClient : Client :=
  Client.new ⟨[], .wouldBlock, [], []⟩ true

/-- The connection behind the opening. -/
def openedConnection : Connection :=
  handleDispatch plainServer opening (acceptedClient.polled opening)

theorem reachable_opened : ReachableConnection plainServer openedConnection := by
  apply (reachable_start (ConnectionStart.accepted ⟨[], .wouldBlock, [], []⟩ true rfl)).tail
  apply ConnectionStep.dispatch acceptedClient opening rfl
  intro down
  cases down

/-- One event more for a client that is up. -/
theorem reachable_dispatched {server : Server} {connection : Connection}
    (reached : ReachableConnection server connection) (alive : connection.isAlive = true)
    (up : connection.client.base.sock.isDown = false)
    (polling : connection.client.flags.polling = true) (event : PollEvent) :
    ReachableConnection server (handleDispatch server event (connection.client.polled event)) := by
  cases connection with
  | alive cli =>
      apply reached.tail
      apply ConnectionStep.dispatch cli event polling
      intro down
      rw [show cli.base.sock.isDown = false from up] at down
      cases down
  | destroyed cli | stopped stop cli => cases alive

/-- The client of the opened connection sends on. -/
def requesting (plain : Bytes) : PollEvent :=
  { opening with
    inbound := [.data (openedConnection.client.base.decrypt.output plain)]
    outbound := [] }

def servedConnection (plain : Bytes) : Connection :=
  handleDispatch plainServer (requesting plain) (openedConnection.client.polled (requesting plain))

theorem reachable_served (plain : Bytes) :
    ReachableConnection plainServer (servedConnection plain) :=
  reachable_dispatched reachable_opened (by decide +kernel) (by decide +kernel) (by decide +kernel) _

/-- The socket is writable again, and takes the rest of the handshake reply and
a part of what is behind it. -/
def draining : PollEvent :=
  { opening with write := true, read := false, inbound := [], outbound := [.accepted 5, .accepted 10] }

end ThemeSrv
