import ThemeSrv.NetStruct

/-!
# Message tables

The descriptor tables of `common.inl` and `gatekeeper.inl`, built with the
field macros of `protocol_fields_begin.inl`, and the message and connection
numbers the daemon switches on.
-/

namespace ThemeSrv

/-! ### Field macros -/

def netFieldBlob (name : String) (size : Nat) : List NetField :=
  [⟨.blob, name, 1, size⟩]

def netFieldBuffer (name : String) : List NetField :=
  [⟨.bufferSize, name ++ "sz", 4, 1⟩, ⟨.buffer, name, 1, 0⟩]

def netFieldBufferRedundant (name : String) : List NetField :=
  [⟨.bufferSize, name ++ "sz", 4, 1⟩, ⟨.bufferRedundant, name, 1, 0⟩]

def netFieldUint8 (name : String) : List NetField :=
  [⟨.integer, name, 1, 1⟩]

def netFieldUint16 (name : String) : List NetField :=
  [⟨.integer, name, 2, 1⟩]

def netFieldUint32 (name : String) : List NetField :=
  [⟨.integer, name, 4, 1⟩]

def netFieldStringUtf16 (name : String) (size : Nat) : List NetField :=
  [⟨.bufferSize, name ++ "sz", 2, 1⟩, ⟨.stringUtf16, name, 2, size⟩]

def netFieldUuid (name : String) : List NetField :=
  [⟨.uuid, name, 16, 1⟩]

/-! ### Messages common to all protocols -/

def connectionHeader : NetStruct :=
  ⟨"common_connection_header",
    netFieldUint8 "connType" ++ netFieldUint16 "msgsz" ++ netFieldUint32 "buildId" ++
      netFieldUint32 "buildType" ++ netFieldUint32 "branchId" ++ netFieldUuid "product" ++
      netFieldBufferRedundant "buf"⟩

def msgStdHeader : NetStruct :=
  ⟨"common_msg_std_header", netFieldUint16 "type"⟩

def encryptHeader : NetStruct :=
  ⟨"common_encrypt_header", netFieldUint8 "msgId" ++ netFieldUint8 "bufsz"⟩

def encryptS2c : NetStruct :=
  ⟨"common_encrypt_s2c",
    netFieldUint8 "msgId" ++ netFieldUint8 "bufsz" ++ netFieldBlob "srvSeed" 7⟩

def protocolCli2Gate : Nat := 0x16

/-! ### Gatekeeper messages -/

def pingRequest : NetStruct :=
  ⟨"gatekeeper_pingRequest",
    netFieldUint16 "type" ++ netFieldUint32 "pingTime" ++ netFieldUint32 "transId" ++
      netFieldBuffer "payload"⟩

def fileSrvRequest : NetStruct :=
  ⟨"gatekeeper_fileSrvRequest",
    netFieldUint16 "type" ++ netFieldUint32 "transId" ++ netFieldUint8 "isPatcher"⟩

def authSrvRequest : NetStruct :=
  ⟨"gatekeeper_authSrvRequest", netFieldUint16 "type" ++ netFieldUint32 "transId"⟩

def pingReply : NetStruct :=
  ⟨"gatekeeper_pingReply",
    netFieldUint16 "type" ++ netFieldUint32 "pingTime" ++ netFieldUint32 "transId" ++
      netFieldBuffer "payload"⟩

def fileSrvReply : NetStruct :=
  ⟨"gatekeeper_fileSrvReply",
    netFieldUint16 "type" ++ netFieldUint32 "transId" ++ netFieldStringUtf16 "address" 24⟩

def authSrvReply : NetStruct :=
  ⟨"gatekeeper_authSrvReply",
    netFieldUint16 "type" ++ netFieldUint32 "transId" ++ netFieldStringUtf16 "address" 24⟩

namespace Gatekeeper

/-- Message numbers of the requests, `e_pingRequest` onward. -/
inductive RequestId
  | pingRequest
  | fileSrvRequest
  | authSrvRequest
  deriving DecidableEq, Repr

/-- Message numbers of the replies, counted separately from the requests. -/
inductive ReplyId
  | pingReply
  | fileSrvReply
  | authSrvReply
  deriving DecidableEq, Repr

def RequestId.code : RequestId → Nat
  | .pingRequest => 0
  | .fileSrvRequest => 1
  | .authSrvRequest => 2

def ReplyId.code : ReplyId → Nat
  | .pingReply => 0
  | .fileSrvReply => 1
  | .authSrvReply => 2

end Gatekeeper

/-- The connection types are all the daemon reads in the clear, the requests
all it reads afterwards; each has the shape the codec asserts. -/
theorem declaredMessages_wellFormed :
    ∀ ns ∈ [connectionHeader, msgStdHeader, encryptHeader, encryptS2c, pingRequest,
      fileSrvRequest, authSrvRequest, pingReply, fileSrvReply, authSrvReply],
      ns.WellFormed := by
  decide

end ThemeSrv
