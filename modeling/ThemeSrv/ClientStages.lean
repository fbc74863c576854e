import ThemeSrv.Connection
import ThemeSrv.ReaderCalls

/-!
# Stages of a connection

What a client is waiting for is spread over its flags, its handler and the
pending descriptor.  `Waiting` ties them together for each of the five things
a client can wait for, and `HandlerCase` lists what the handler makes of the
message that was waited for.
-/

namespace ThemeSrv

open AllocatedBlock ByteString Client Gatekeeper KeystreamCipher

/-- What a client is waiting for: its connection header, the handshake, the
seed behind it, a message header, or the rest of the request that `read_msg`
chose from the header `head`. -/
inductive Stage
  | hello
  | handshake
  | seed
  | header
  | body (request : RequestId) (head : Bytes)

namespace Stage

def struct : Stage → NetStruct
  | .hello => connectionHeader
  | .handshake => encryptHeader
  | .seed => encryptMsg 64
  | .header => msgStdHeader
  | .body request _ => request.struct

def handler : Stage → ClientHandler → Prop
  | .hello, handler => handler = .incoming
  | .handshake, handler => handler = .gate 0
  | .seed, handler | .header, handler | .body _ _, handler => ∃ count, handler = .gate count

/-- The handshake is over. -/
def encrypted : Stage → Bool
  | .hello | .handshake | .seed => false
  | .header | .body _ _ => true

def wantClientSeed : Stage → Bool
  | .seed => true
  | .hello | .handshake | .header | .body _ _ => false

def wantMsgHeader : Stage → Bool
  | .header => true
  | .hello | .handshake | .seed | .body _ _ => false

end Stage

/-- Flags, handler and choice of a client at a stage. -/
structure AtStage (stage : Stage) (cli : ClientState) : Prop where
  handler : stage.handler cli.handler
  seedCount : stage = .seed → cli.handler.encryptCount = 64
  encrypted : cli.flags.encrypted = stage.encrypted
  wantClientSeed : cli.flags.wantClientSeed = stage.wantClientSeed
  wantMsgHeader : cli.flags.wantMsgHeader = stage.wantMsgHeader
  chosen : ∀ request head, stage = .body request head →
    cli.chosen = some (request.struct, head) ∧
      RequestId.ofCode (leValue (head.take 2)) = some request

/-- The client is in the middle of the message of its stage. -/
structure Waiting (stage : Stage) (cli : ClientState) : Prop extends AtStage stage cli where
  standing : cli.base.read.Standing stage.struct
  head : ∀ request head, stage = .body request head →
    1 ≤ cli.base.read.field ∧ cli.base.read.memory.take 2 = head.take 2

/-- The handler is given the message of the stage, and nothing is pending. -/
structure Received (stage : Stage) (buf : Bytes) (cli : ClientState) : Prop
    extends AtStage stage cli where
  completed : cli.completed = some stage.struct
  struct : cli.base.read.struct = none
  field : cli.base.read.field = 0
  offset : cli.base.read.offset = 0
  released : cli.base.read.buf = none
  bufsz : cli.base.read.bufsz = buf.length
  size : buf.length = stage.struct.allocation
  head : ∀ request head, stage = .body request head → buf.take 2 = head.take 2

/-! ### Registering a read -/

theorem requestStruct_wellFormed (request : RequestId) : request.struct.WellFormed := by
  cases request <;> decide

theorem Stage.struct_wellFormed (stage : Stage) : stage.struct.WellFormed := by
  cases stage with
  | hello | handshake | seed | header => decide
  | body request head => exact requestStruct_wellFormed request

theorem standing_readStruct {c : ClientBase} {ns : NetStruct} (wellFormed : ns.WellFormed)
    (field : c.read.field = 0) (released : c.read.buf = none) :
    (c.readStruct ns).read.Standing ns where
  struct := rfl
  field_lt := by
    change c.read.field < ns.size
    rw [field]
    exact wellFormed.nonempty
  owned := by
    intro block owned
    change c.read.buf = some block at owned
    rw [released] at owned
    cases owned
  fresh := fun _ => field
  reached := by
    change ns.memOffset c.read.field ≤ _
    simp [field]
  capacity := by
    change (c.read.buf.getD []).length ≤ _
    simp [released]

theorem standing_readFrom {c : ClientBase} {buf : Bytes} (request : RequestId)
    (bufsz : c.read.bufsz = buf.length) (size : buf.length = msgStdHeader.allocation) :
    (c.readFrom request.struct 1 buf).read.Standing request.struct where
  struct := rfl
  field_lt := by
    change 1 < request.struct.size
    cases request <;> decide
  owned := by
    intro block owned
    cases owned
    exact bufsz.symm
  fresh := by
    intro impossible
    cases impossible
  reached := by
    change request.struct.memOffset 1 ≤ buf.length
    rw [size]
    cases request <;> decide
  capacity := by
    change buf.length ≤ request.struct.allocation
    rw [size]
    cases request <;> decide

/-! ### Receiving the message of a stage -/

/-- Behind the type field of a request its two bytes stay. -/
theorem ReadFrame.type_kept {request : RequestId} {c c' : ClientBase}
    (frame : ReadFrame request.struct c c') (behind : 1 ≤ c.read.field) :
    c'.read.memory.take 2 = c.read.memory.take 2 := by
  have typeEnd : 2 ≤ request.struct.memOffset c.read.field := by
    have mono := request.struct.memOffset_mono behind
    have width : request.struct.memOffset 1 = 2 := by cases request <;> decide
    omega
  have front := congrArg (List.take 2) frame.front
  rwa [List.take_take, List.take_take, min_eq_left typeEnd] at front

theorem Waiting.received {stage : Stage} {cli : ClientState} (waiting : Waiting stage cli)
    {c' : ClientBase} (frame : ReadFrame stage.struct cli.base c')
    (completed : Completed stage.struct c'.read) :
    Received stage c'.read.memory
      { cli with base := c'.released, completed := cli.base.read.struct } where
  handler := waiting.handler
  seedCount := waiting.seedCount
  encrypted := waiting.encrypted
  wantClientSeed := waiting.wantClientSeed
  wantMsgHeader := waiting.wantMsgHeader
  chosen := waiting.chosen
  completed := waiting.standing.struct
  struct := rfl
  field := rfl
  offset := rfl
  released := rfl
  bufsz := completed.bufsz
  size := completed.allocated
  head := by
    intro request head isBody
    obtain ⟨behind, kept⟩ := waiting.head request head isBody
    subst isBody
    exact (frame.type_kept behind).trans kept

/-- A `handle_read` call that returns without a buffer leaves the client
waiting. -/
theorem Waiting.still {stage : Stage} {cli : ClientState} (waiting : Waiting stage cli)
    {c' : ClientBase} (frame : ReadFrame stage.struct cli.base c')
    (standing : c'.read.Standing stage.struct) : Waiting stage { cli with base := c' } where
  handler := waiting.handler
  seedCount := waiting.seedCount
  encrypted := waiting.encrypted
  wantClientSeed := waiting.wantClientSeed
  wantMsgHeader := waiting.wantMsgHeader
  chosen := waiting.chosen
  standing := standing
  head := by
    intro request head isBody
    obtain ⟨behind, kept⟩ := waiting.head request head isBody
    subst isBody
    exact ⟨behind.trans frame.field, (frame.type_kept behind).trans kept⟩

/-! ### What the handlers do -/

namespace Gatekeeper

/-- The handler `dispatch_msg` calls. -/
def RequestId.point : RequestId → Point
  | .pingRequest => .handlePing
  | .fileSrvRequest => .handleFileSrvReq
  | .authSrvRequest => .handleAuthSrvReq

end Gatekeeper

/-- The reply both address handlers build. -/
def Server.addressReply (server : Server) (address : List UInt16) (posted transId : Nat) :
    AddressReply :=
  { AddressReply.uninitialised (server.residue posted) with
    type := ReplyId.fileSrvReply.code
    transId := transId : AddressReply }.setAddress address

/-- The struct and the image that the handler of a request writes. -/
def Server.answer (server : Server) (posted : Nat) (buf : Bytes) :
    RequestId → NetStruct × Bytes
  | .pingRequest => (pingReply, buf)
  | .fileSrvRequest => (fileSrvReply,
      (server.addressReply server.filesrvAddress posted (leValue ((buf.drop 2).take 4))).image)
  | .authSrvRequest => (fileSrvReply,
      (server.addressReply server.authsrvAddress posted (leValue ((buf.drop 2).take 4))).image)

/-- The seed and the key `handle_ydata` derives. -/
def Server.derive (server : Server) (posted : Nat) (yData : Bytes) : Option (Bytes × Bytes) :=
  makeServerKey server.cryptK server.cryptN 64 yData 7 (server.random posted)

namespace Client

/-- In `handle_ydata`. -/
def seeded (cli : Client) (buf : Bytes) : Client :=
  { cli with flags := { cli.flags with wantClientSeed := false } }.visited .handleYdata buf

/-- Once the reply is written, the key is installed. -/
def keyed (cli : Client) (buf : Bytes) (base : ClientBase) (rc4 : Bytes → Nat → UInt8)
    (key : Bytes) : Client :=
  { cli.seeded buf with
    base := base.setCryptKey rc4 key
    flags := { cli.flags with wantClientSeed := false, encrypted := true } }

/-- In `read_msg`. -/
def choosing (cli : Client) (buf : Bytes) : Client :=
  { cli with flags := { cli.flags with wantMsgHeader := false } }.visited .readMsg buf

/-- In the handler of a request, which `dispatch_msg` has called. -/
def answering (cli : Client) (buf : Bytes) (request : RequestId) : Client :=
  ({ cli with
      flags := { cli.flags with wantMsgHeader := true }
      base := cli.base.readStruct msgStdHeader }.visited .dispatchMsg buf).visited request.point buf

end Client

/-- What the handler makes of the message of a stage. -/
inductive HandlerCase (server : Server) (cli : Client) (buf : Bytes) :
    Stage → Outcome Client Bool → Prop
  | unknownConnection : HandlerCase server cli buf .hello (.done false (cli.visited .incomingRead buf))
  | gate : HandlerCase server cli buf .hello (.done true
      { cli.visited .incomingRead buf with
        base := cli.base.readStruct encryptHeader
        handler := .gate 0 })
  | badHandshake :
      HandlerCase server cli buf .handshake (.done false (cli.visited .handleHandshake buf))
  | decrypted (allowed : server.allowDecrypted = true) :
      HandlerCase server cli buf .handshake (.done true
        ({ cli.visited .handleHandshake buf with
            flags := { cli.flags with encrypted := true } }.visited .setEncrypted buf))
  | seedWanted (size : leValue ((buf.drop 1).take 1) = 66) :
      HandlerCase server cli buf .handshake (.done true
        { cli.visited .handleHandshake buf with
          handler := .gate 64
          base := cli.base.readStruct (encryptMsg 64)
          flags := { cli.flags with wantClientSeed := true } })
  | seedStopped (srvSeed key : Bytes)
      (derived : server.derive cli.base.posted.length buf = some (srvSeed, key))
      (stop : Stop) (base : ClientBase)
      (stopped : enqueueWrite encryptS2c (EncryptS2c.image ⟨s2cEncrypt, 9, srvSeed⟩) cli.base =
        .stopped stop base) :
      HandlerCase server cli buf .seed (.stopped stop { cli.seeded buf with base := base })
  | keyed (srvSeed key : Bytes)
      (derived : server.derive cli.base.posted.length buf = some (srvSeed, key)) (base : ClientBase)
      (written : enqueueWrite encryptS2c (EncryptS2c.image ⟨s2cEncrypt, 9, srvSeed⟩) cli.base =
        .done () base) :
      HandlerCase server cli buf .seed (.done true
        { (cli.keyed buf base server.rc4 key).visited .setEncrypted buf with
          flags := ⟨cli.flags.polling, true, false, true⟩
          base := (base.setCryptKey server.rc4 key).readStruct msgStdHeader })
  | unknownMessage : HandlerCase server cli buf .header (.done false (cli.choosing buf))
  | bodyWanted (request : RequestId)
      (type : RequestId.ofCode (leValue (buf.take 2)) = some request) :
      HandlerCase server cli buf .header (.done true
        { cli.choosing buf with
          base := cli.base.readFrom request.struct 1 buf
          chosen := some (request.struct, buf) })
  | answerStopped (request : RequestId) (head : Bytes) (stop : Stop) (base : ClientBase)
      (stopped : enqueueWrite (server.answer cli.base.posted.length buf request).1
        (server.answer cli.base.posted.length buf request).2
        (cli.base.readStruct msgStdHeader) = .stopped stop base) :
      HandlerCase server cli buf (.body request head)
        (.stopped stop { cli.answering buf request with base := base })
  | answered (request : RequestId) (head : Bytes) (base : ClientBase)
      (written : enqueueWrite (server.answer cli.base.posted.length buf request).1
        (server.answer cli.base.posted.length buf request).2
        (cli.base.readStruct msgStdHeader) = .done () base) :
      HandlerCase server cli buf (.body request head)
        (.done true { cli.answering buf request with base := base })

section HandlerCases

variable {server : Server} {cli : Client} {buf : Bytes}

theorem bind_apply {First Second : Type} (first : Action First) (next : First → Action Second)
    (cli : Client) :
    (first >>= next) cli =
      match first cli with
      | .stopped stop cli => .stopped stop cli
      | .done value cli => next value cli :=
  rfl

@[simp]
theorem visited_base (cli : Client) (point : Point) (buf : Bytes) :
    (cli.visited point buf).base = cli.base :=
  rfl

@[simp]
theorem visited_handler (cli : Client) (point : Point) (buf : Bytes) :
    (cli.visited point buf).handler = cli.handler :=
  rfl

theorem getInteger_apply {offset width : Nat} (inside : offset + width ≤ buf.length)
    (cli : Client) :
    getInteger buf offset width cli = .done (leValue ((buf.drop offset).take width)) cli := by
  rw [getInteger, load_eq_some inside]

theorem write_apply (ns : NetStruct) (image : Bytes) (cli : Client) :
    write ns image cli =
      match enqueueWrite ns image cli.base with
      | .stopped stop base => .stopped stop { cli with base := base }
      | .done () base => .done () { cli with base := base } :=
  rfl

/-- The connection header is judged by its type alone. -/
theorem handlerRead_incoming (received : Received .hello buf cli.toClientState) :
    handlerRead server buf cli =
      if leValue ((buf.drop 0).take 1) = protocolCli2Gate then
        .done true
          { cli.visited .incomingRead buf with
            base := cli.base.readStruct encryptHeader
            handler := .gate 0 }
      else
        .done false (cli.visited .incomingRead buf) := by
  have handler : cli.handler = .incoming := received.handler
  have size : buf.length = connectionHeader.allocation := received.size
  have inside : 0 + 1 ≤ buf.length := by
    rw [size]
    decide
  simp only [handlerRead, bind_apply, peek, handler, incomingRead, visit, getInteger_apply inside]
  split <;> rfl

theorem handlerCase_hello (received : Received .hello buf cli.toClientState) :
    HandlerCase server cli buf .hello (handlerRead server buf cli) := by
  rw [handlerRead_incoming received]
  split
  · exact .gate
  · exact .unknownConnection

theorem handlerRead_gate (gate : ∃ count, cli.handler = .gate count) :
    handlerRead server buf cli = gatekeeperRead server buf cli := by
  obtain ⟨count, handler⟩ := gate
  simp only [handlerRead, bind_apply, peek, handler]

/-- In front of the end of the handshake the gatekeeper leaves the message to
its base class. -/
theorem gatekeeperRead_clear (clear : cli.flags.encrypted = false) :
    gatekeeperRead server buf cli = encryptedRead server buf cli := by
  simp only [gatekeeperRead, bind_apply, peek, clear, Bool.not_false, if_true]

theorem handlerCase_handshake (received : Received .handshake buf cli.toClientState) :
    HandlerCase server cli buf .handshake (handlerRead server buf cli) := by
  have gate : ∃ count, cli.handler = .gate count := ⟨0, received.handler⟩
  have clear : cli.flags.encrypted = false := received.encrypted
  have noSeed : cli.flags.wantClientSeed = false := received.wantClientSeed
  have size : buf.length = encryptHeader.allocation := received.size
  have allocated : 2 ≤ encryptHeader.allocation := by decide
  rw [handlerRead_gate gate, gatekeeperRead_clear clear]
  simp only [encryptedRead, bind_apply, peek, Client.assertD, clear, noSeed, Bool.not_false, if_true,
    handleHandshake, visit, getInteger_apply (show 0 + 1 ≤ buf.length by omega)]
  split
  · exact .badHandshake
  simp only [bind_apply, getInteger_apply (show 1 + 1 ≤ buf.length by omega)]
  generalize sizeEq : leValue ((buf.drop 1).take 1) = bufsz
  split
  · exact .badHandshake
  next neither =>
    split
    · cases allowed : server.allowDecrypted with
      | true => exact .decrypted allowed
      | false => exact .badHandshake
    next notTwo =>
      obtain rfl : bufsz = 66 := by
        by_contra other
        exact neither ⟨notTwo, other⟩
      exact .seedWanted sizeEq

theorem encryptedRead_seed (clear : cli.flags.encrypted = false)
    (wanted : cli.flags.wantClientSeed = true) :
    encryptedRead server buf cli =
      handleYdata server buf { cli with flags := { cli.flags with wantClientSeed := false } } := by
  simp only [encryptedRead, bind_apply, peek, Client.assertD, modifyFlags, clear, wanted,
    Bool.not_false, Bool.not_true, Bool.false_eq_true, if_true, if_false]

/-- `handle_ydata` with 64 bytes of seed. -/
theorem handleYdata_eq (count : cli.handler.encryptCount = 64) :
    handleYdata server buf cli =
      match server.derive cli.base.posted.length buf with
      | none => .done false (cli.visited .handleYdata buf)
      | some (srvSeed, key) =>
          match enqueueWrite encryptS2c (EncryptS2c.image ⟨s2cEncrypt, 9, srvSeed⟩) cli.base with
          | .stopped stop base => .stopped stop { cli.visited .handleYdata buf with base := base }
          | .done () base =>
              .done true
                { { cli.visited .handleYdata buf with
                    base := base.setCryptKey server.rc4 key
                    flags := { cli.flags with encrypted := true } }.visited .setEncrypted buf with
                  flags := { cli.flags with encrypted := true, wantMsgHeader := true }
                  base := (base.setCryptKey server.rc4 key).readStruct msgStdHeader } := by
  simp only [handleYdata, bind_apply, visit, peek, visited_base, visited_handler, count]
  have derivation : makeServerKey server.cryptK server.cryptN 64 buf 7
      (server.random cli.base.posted.length) = server.derive cli.base.posted.length buf := rfl
  rw [derivation]
  cases server.derive cli.base.posted.length buf with
  | none => rfl
  | some result =>
      obtain ⟨srvSeed, key⟩ := result
      simp only [bind_apply, write_apply, visited_base]
      cases enqueueWrite encryptS2c (EncryptS2c.image ⟨s2cEncrypt, 9, srvSeed⟩) cli.base with
      | stopped stop base => rfl
      | done value base => rfl

theorem handlerCase_seed (received : Received .seed buf cli.toClientState) :
    HandlerCase server cli buf .seed (handlerRead server buf cli) := by
  have clear : cli.flags.encrypted = false := received.encrypted
  have wanted : cli.flags.wantClientSeed = true := received.wantClientSeed
  have count : ({ cli with flags := { cli.flags with wantClientSeed := false } } :
      Client).handler.encryptCount = 64 := received.seedCount rfl
  rw [handlerRead_gate received.handler, gatekeeperRead_clear clear,
    encryptedRead_seed clear wanted, handleYdata_eq count]
  cases derived : server.derive cli.base.posted.length buf with
  | none => simp [Server.derive, makeServerKey] at derived
  | some result =>
      obtain ⟨srvSeed, key⟩ := result
      simp only
      cases written : enqueueWrite encryptS2c (EncryptS2c.image ⟨s2cEncrypt, 9, srvSeed⟩)
          cli.base with
      | stopped stop base => exact .seedStopped srvSeed key derived stop base written
      | done value base => exact .keyed srvSeed key derived base written

theorem gatekeeperRead_header (encrypted : cli.flags.encrypted = true)
    (wanted : cli.flags.wantMsgHeader = true) :
    gatekeeperRead server buf cli =
      readMsg buf { cli with flags := { cli.flags with wantMsgHeader := false } } := by
  simp only [gatekeeperRead, bind_apply, peek, modifyFlags, encrypted, wanted, Bool.not_true,
    Bool.false_eq_true, if_true, if_false]

theorem gatekeeperRead_body (encrypted : cli.flags.encrypted = true)
    (notWanted : cli.flags.wantMsgHeader = false) :
    gatekeeperRead server buf cli =
      dispatchMsg server buf { cli with
        flags := { cli.flags with wantMsgHeader := true }
        base := cli.base.readStruct msgStdHeader } := by
  simp only [gatekeeperRead, bind_apply, peek, modifyFlags, readStruct, encrypted, notWanted,
    Bool.not_true, Bool.false_eq_true, if_false]

theorem handlerCase_header (received : Received .header buf cli.toClientState) :
    HandlerCase server cli buf .header (handlerRead server buf cli) := by
  have size : buf.length = msgStdHeader.allocation := received.size
  have allocated : 2 ≤ msgStdHeader.allocation := by decide
  rw [handlerRead_gate received.handler,
    gatekeeperRead_header received.encrypted received.wantMsgHeader]
  simp only [readMsg, bind_apply, visit, getInteger_apply (show 0 + 2 ≤ buf.length by omega),
    List.drop_zero]
  cases type : RequestId.ofCode (leValue (buf.take 2)) with
  | none => exact .unknownMessage
  | some request => exact .bodyWanted request type

theorem Received.type {request : RequestId} {head : Bytes} {cli : ClientState}
    (received : Received (.body request head) buf cli) :
    RequestId.ofCode (leValue (buf.take 2)) = some request := by
  rw [received.head request head rfl]
  exact (received.chosen request head rfl).2

/-- The handler of a request writes its answer. -/
theorem dispatchMsg_eq {request : RequestId}
    (type : RequestId.ofCode (leValue (buf.take 2)) = some request) (size : 6 ≤ buf.length) :
    dispatchMsg server buf cli =
      match enqueueWrite (server.answer cli.base.posted.length buf request).1
          (server.answer cli.base.posted.length buf request).2 cli.base with
      | .stopped stop base =>
          .stopped stop
            { (cli.visited .dispatchMsg buf).visited request.point buf with base := base }
      | .done () base =>
          .done true
            { (cli.visited .dispatchMsg buf).visited request.point buf with base := base } := by
  have transId : 2 + 4 ≤ buf.length := size
  simp only [dispatchMsg, bind_apply, visit, getInteger_apply (show 0 + 2 ≤ buf.length by omega),
    List.drop_zero, type]
  cases request with
  | pingRequest =>
      simp only [handlePing, bind_apply, visit, write_apply, visited_base, Server.answer]
      cases enqueueWrite pingReply buf cli.base <;> rfl
  | fileSrvRequest =>
      simp only [handleFileSrvReq, bind_apply, visit, peek, getInteger_apply transId, write_apply,
        visited_base, Server.answer, Server.addressReply]
      generalize enqueueWrite fileSrvReply _ cli.base = outcome
      cases outcome <;> rfl
  | authSrvRequest =>
      simp only [handleAuthSrvReq, bind_apply, visit, peek, getInteger_apply transId, write_apply,
        visited_base, Server.answer, Server.addressReply]
      generalize enqueueWrite fileSrvReply _ cli.base = outcome
      cases outcome <;> rfl

theorem handlerCase_body {request : RequestId} {head : Bytes}
    (received : Received (.body request head) buf cli.toClientState) :
    HandlerCase server cli buf (.body request head) (handlerRead server buf cli) := by
  have size : buf.length = request.struct.allocation := received.size
  have allocated : 6 ≤ request.struct.allocation := by cases request <;> decide
  rw [handlerRead_gate received.handler,
    gatekeeperRead_body received.encrypted received.wantMsgHeader,
    dispatchMsg_eq received.type (by omega)]
  change HandlerCase server cli buf (.body request head)
    (match enqueueWrite (server.answer cli.base.posted.length buf request).1
      (server.answer cli.base.posted.length buf request).2 (cli.base.readStruct msgStdHeader) with
    | .stopped stop base => .stopped stop { cli.answering buf request with base := base }
    | .done () base => .done true { cli.answering buf request with base := base })
  cases written : enqueueWrite (server.answer cli.base.posted.length buf request).1
      (server.answer cli.base.posted.length buf request).2 (cli.base.readStruct msgStdHeader) with
  | stopped stop base => exact .answerStopped request head stop base written
  | done value base => exact .answered request head base written

/-- The handler of every stage. -/
theorem handlerCase {stage : Stage} (received : Received stage buf cli.toClientState) :
    HandlerCase server cli buf stage (handlerRead server buf cli) := by
  cases stage with
  | hello => exact handlerCase_hello received
  | handshake => exact handlerCase_handshake received
  | seed => exact handlerCase_seed received
  | header => exact handlerCase_header received
  | body request head => exact handlerCase_body received

end HandlerCases

end ThemeSrv
