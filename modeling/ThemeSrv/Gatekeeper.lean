import ThemeSrv.Client

/-!
# The gatekeeper

The handlers of a connection: `incoming_client`, the handshake of
`encrypted_handler`, and the requests and replies of `gatekeeper_server`.
-/

namespace ThemeSrv

open ByteString Client

/-! ### Messages that are built in place -/

/-- Message numbers of the handshake. -/
def c2sConnect : Nat := 0

def s2cEncrypt : Nat := 1

/-- `m_encryptMsg`, whose one field is `m_encryptBuf`. -/
def encryptMsg (count : Nat) : NetStruct :=
  ⟨"m_encryptMsg", [⟨.blob, "buffer", 1, count⟩]⟩

/-- `m_encryptBuf.m_count`. -/
def ClientHandler.encryptCount : ClientHandler → Nat
  | .incoming => 0
  | .gate encryptCount => encryptCount

/-- `common_encrypt_s2c` in memory. -/
structure EncryptS2c where
  msgId : Nat
  bufsz : Nat
  srvSeed : Bytes

def EncryptS2c.image (reply : EncryptS2c) : Bytes :=
  leBytes 1 reply.msgId ++ leBytes 1 reply.bufsz ++ reply.srvSeed

/-- The replies that carry an address, `gatekeeper_fileSrvReply` and
`gatekeeper_authSrvReply`, in memory. -/
structure AddressReply where
  type : Nat
  transId : Nat
  addresssz : Nat
  address : List UInt16

namespace AddressReply

/-- Capacity of the address field. -/
def capacity : Nat := 24

/-- A reply on the stack, before its setters run. -/
def uninitialised (residue : Nat → UInt16) : AddressReply where
  type := (residue 0).toNat
  transId := (residue 1).toNat
  addresssz := (residue 2).toNat
  address := (List.range capacity).map fun index => residue (index + 3)

def setAddress (reply : AddressReply) (value : List UInt16) : AddressReply :=
  let size := min capacity value.length
  { reply with
    address := (value.take size ++ reply.address.drop size).set (min (capacity - 1) value.length) 0
    addresssz := size }

def image (reply : AddressReply) : Bytes :=
  leBytes 2 reply.type ++ leBytes 4 reply.transId ++ leBytes 2 reply.addresssz ++
    reply.address.flatMap fun unit => leBytes 2 unit.toNat

end AddressReply

namespace Gatekeeper

/-- The request a message number stands for. -/
def RequestId.ofCode : Nat → Option RequestId
  | 0 => some .pingRequest
  | 1 => some .fileSrvRequest
  | 2 => some .authSrvRequest
  | _ => none

/-- The request structs `read_msg` chooses from. -/
def RequestId.struct : RequestId → NetStruct
  | .pingRequest => ThemeSrv.pingRequest
  | .fileSrvRequest => ThemeSrv.fileSrvRequest
  | .authSrvRequest => ThemeSrv.authSrvRequest

end Gatekeeper

open Gatekeeper

/-! ### The handshake -/

def createGate : Action ClientHandler := do
  readStruct encryptHeader
  return .gate 0

/-- `incoming_client::read`. -/
def incomingRead (buf : Bytes) : Action Bool := do
  visit .incomingRead buf
  let connType ← getInteger buf 0 1
  if connType = protocolCli2Gate then
    let handler ← createGate
    setHandler handler
    return true
  else
    return false

def handleHandshake (server : Server) (buf : Bytes) : Action Bool := do
  visit .handleHandshake buf
  let msgId ← getInteger buf 0 1
  if msgId ≠ c2sConnect then
    return false
  let bufsz ← getInteger buf 1 1
  if bufsz ≠ 2 ∧ bufsz ≠ 66 then
    return false
  if bufsz = 2 then
    if server.allowDecrypted then
      modifyFlags fun flags => { flags with encrypted := true }
      visit .setEncrypted buf
      return true
    else
      return false
  else
    setHandler (.gate (bufsz - 2))
    readStruct (encryptMsg (bufsz - 2))
    modifyFlags fun flags => { flags with wantClientSeed := true }
    return true

def handleEncryption : Action Bool := do
  modifyFlags fun flags => { flags with wantMsgHeader := true }
  readStruct msgStdHeader
  return true

def handleYdata (server : Server) (buf : Bytes) : Action Bool := do
  visit .handleYdata buf
  let count ← peek fun cli => cli.handler.encryptCount
  let posted ← peek fun cli => cli.base.posted.length
  match makeServerKey server.cryptK server.cryptN count buf 7 (server.random posted) with
  | none => return false
  | some (srvSeed, key) =>
      -- the reply goes out in the clear
      write encryptS2c (EncryptS2c.image ⟨s2cEncrypt, 9, srvSeed⟩)
      setCryptKey server.rc4 key
      modifyFlags fun flags => { flags with encrypted := true }
      visit .setEncrypted buf
      handleEncryption

/-- `encrypted_handler::read`. -/
def encryptedRead (server : Server) (buf : Bytes) : Action Bool := do
  let flags ← peek fun cli => cli.flags
  Client.assertD (!flags.encrypted)
  if !flags.wantClientSeed then
    handleHandshake server buf
  else
    modifyFlags fun flags => { flags with wantClientSeed := false }
    handleYdata server buf

/-! ### Requests -/

/-- `handle_ping`: the request is sent back as it is. -/
def handlePing (req : Bytes) : Action Bool := do
  visit .handlePing req
  write pingReply req
  return true

def handleFileSrvReq (server : Server) (req : Bytes) : Action Bool := do
  visit .handleFileSrvReq req
  let posted ← peek fun cli => cli.base.posted.length
  let transId ← getInteger req 2 4
  let reply := { AddressReply.uninitialised (server.residue posted) with
    type := ReplyId.fileSrvReply.code
    transId := transId }
  write fileSrvReply (reply.setAddress server.filesrvAddress).image
  return true

/-- `handle_authSrvReq`, which builds a `gatekeeper_fileSrvReply`. -/
def handleAuthSrvReq (server : Server) (req : Bytes) : Action Bool := do
  visit .handleAuthSrvReq req
  let posted ← peek fun cli => cli.base.posted.length
  let transId ← getInteger req 2 4
  let reply := { AddressReply.uninitialised (server.residue posted) with
    type := ReplyId.fileSrvReply.code
    transId := transId }
  write fileSrvReply (reply.setAddress server.authsrvAddress).image
  return true

def dispatchMsg (server : Server) (buf : Bytes) : Action Bool := do
  visit .dispatchMsg buf
  let type ← getInteger buf 0 2
  match RequestId.ofCode type with
  | some .pingRequest => handlePing buf
  | some .fileSrvRequest => handleFileSrvReq server buf
  | some .authSrvRequest => handleAuthSrvReq server buf
  | none =>
      visit .noDispatcher buf
      return false

def readMsg (buf : Bytes) : Action Bool := do
  visit .readMsg buf
  let type ← getInteger buf 0 2
  match RequestId.ofCode type with
  | none => return false
  | some request =>
      -- the same buffer, but behind the type field
      readFrom request.struct 1 buf
      return true

/-- `gatekeeper_server::read`. -/
def gatekeeperRead (server : Server) (buf : Bytes) : Action Bool := do
  let flags ← peek fun cli => cli.flags
  if !flags.encrypted then
    encryptedRead server buf
  else if flags.wantMsgHeader then
    modifyFlags fun flags => { flags with wantMsgHeader := false }
    readMsg buf
  else
    modifyFlags fun flags => { flags with wantMsgHeader := true }
    readStruct msgStdHeader
    dispatchMsg server buf

/-- `m_handler->read`. -/
def handlerRead (server : Server) (buf : Bytes) : Action Bool := do
  let handler ← peek fun cli => cli.handler
  match handler with
  | .incoming => incomingRead buf
  | .gate _ => gatekeeperRead server buf

end ThemeSrv
