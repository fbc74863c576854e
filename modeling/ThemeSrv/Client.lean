import ThemeSrv.ProtocolMessages
import ThemeSrv.UruCrypt

/-!
# Clients

A `client` adds to the codec its flags and the handler that is given the
messages.  Handlers are programs over the client; they record the program
points they pass, with the buffer they were given and the state at that point.
-/

namespace ThemeSrv

open AllocatedBlock ByteString

/-- `client::flags`. -/
structure ClientFlags where
  polling : Bool
  encrypted : Bool
  wantClientSeed : Bool
  wantMsgHeader : Bool
  deriving DecidableEq, Repr

/-- The `client_handler` of a client: the one of new connections, or a
`gatekeeper_server` with the element count of its `m_encryptBuf`. -/
inductive ClientHandler
  | incoming
  | gate (encryptCount : Nat)
  deriving DecidableEq, Repr

/-- A client without the record of its run.  The last two fields are part of
that record: the descriptor whose read completed last, and the descriptor that
`read_msg` chose last with the buffer it looked at. -/
structure ClientState where
  base : ClientBase
  flags : ClientFlags
  handler : ClientHandler
  completed : Option NetStruct
  chosen : Option (NetStruct × Bytes)

/-- Program points that are recorded. -/
inductive Point
  | resumeRead
  | incomingRead
  | handleHandshake
  | handleYdata
  | setEncrypted
  | readMsg
  | dispatchMsg
  | handlePing
  | handleFileSrvReq
  | handleAuthSrvReq
  | noDispatcher
  deriving DecidableEq, Repr

/-- A recorded point, with the buffer in hand. -/
structure Visit where
  point : Point
  buf : Bytes
  state : ClientState

structure Client extends ClientState where
  trace : List Visit

/-- What the clients of a server share: the build option, the keys and
addresses of its gatekeeper, the cipher, and the bytes no program text
determines.  Those are indexed by the number of messages the connection has
posted, which is larger at every draw; connections of one server have different
ones. -/
structure Server where
  /-- `THEME_ALLOW_DECRYPTED_CONNECTIONS`. -/
  allowDecrypted : Bool
  cryptK : Key
  cryptN : Key
  filesrvAddress : List UInt16
  authsrvAddress : List UInt16
  rc4 : Bytes → Nat → UInt8
  random : Nat → Nat → UInt8
  residue : Nat → Nat → UInt16

/-! ### Programs -/

/-- Stateful code over a client. -/
def Action (Value : Type) : Type :=
  Client → Outcome Client Value

namespace Action

def pure {Value : Type} (value : Value) : Action Value :=
  fun cli => .done value cli

def bind {First Second : Type} (first : Action First) (next : First → Action Second) :
    Action Second :=
  fun cli =>
    match first cli with
    | .stopped stop cli => .stopped stop cli
    | .done value cli => next value cli

end Action

instance : Monad Action where
  pure := Action.pure
  bind := Action.bind

namespace Client

/-- The client with a recorded point. -/
def visited (cli : Client) (point : Point) (buf : Bytes) : Client :=
  { cli with trace := cli.trace ++ [⟨point, buf, cli.toClientState⟩] }

/-- Record a point. -/
def visit (point : Point) (buf : Bytes) : Action Unit :=
  fun cli => .done () (cli.visited point buf)

/-- Read the state. -/
def peek {Value : Type} (part : Client → Value) : Action Value :=
  fun cli => .done (part cli) cli

def modifyFlags (change : ClientFlags → ClientFlags) : Action Unit :=
  fun cli => .done () { cli with flags := change cli.flags }

def setHandler (handler : ClientHandler) : Action Unit :=
  fun cli => .done () { cli with handler := handler }

/-- `THEME_ASSERTD`. -/
def assertD (condition : Bool) : Action Unit :=
  fun cli => if condition then .done () cli else .stopped .assertion cli

/-- An integer of a packed struct, through its getter on a little-endian
host. -/
def getInteger (buf : Bytes) (offset width : Nat) : Action Nat :=
  fun cli =>
    match load buf offset width with
    | none => .stopped .load cli
    | some bytes => .done (leValue bytes) cli

/-- `read<T>`. -/
def readStruct (ns : NetStruct) : Action Unit :=
  fun cli => .done () { cli with base := cli.base.readStruct ns }

/-- `read(ns, field, buf)`, with the choice recorded. -/
def readFrom (ns : NetStruct) (field : Nat) (buf : Bytes) : Action Unit :=
  fun cli => .done ()
    { cli with base := cli.base.readFrom ns field buf, chosen := some (ns, buf) }

def write (ns : NetStruct) (image : Bytes) : Action Unit :=
  fun cli =>
    match enqueueWrite ns image cli.base with
    | .stopped stop base => .stopped stop { cli with base := base }
    | .done () base => .done () { cli with base := base }

def setCryptKey (rc4 : Bytes → Nat → UInt8) (key : Bytes) : Action Unit :=
  fun cli => .done () { cli with base := cli.base.setCryptKey rc4 key }

/-- The constructor.  `polling` tells whether `add_fd` has accepted the
socket. -/
def new (sock : Socket) (polling : Bool) : Client where
  base := (ClientBase.new sock).readStruct connectionHeader
  flags := ⟨polling, false, false, false⟩
  handler := .incoming
  completed := none
  chosen := none
  trace := []

def shutdown (cli : Client) : Client :=
  { cli with base := cli.base.shutdown }

end Client

end ThemeSrv
