import ThemeSrv.ConnectionRuns
import ThemeSrv.MessageEncoding

/-!
# Requests and their replies

What the gatekeeper protocol asks for, and what the handlers do: each request
that is dispatched puts one reply into the outgoing stream, in the order of
the requests.
-/

namespace ThemeSrv

open ByteString Client Gatekeeper KeystreamCipher

/-! ### The protocol -/

/-- A well-formed gatekeeper request. -/
inductive Request
  | ping (pingTime transId : UInt32) (payload : Bytes) (bounded : payload.length ≤ kMaxBufCount)
  | fileSrv (transId : UInt32) (isPatcher : UInt8)
  | authSrv (transId : UInt32)

/-- The plain bytes of a ping or of its answer. -/
def pingBytes (type : Nat) (pingTime transId : UInt32) (payload : Bytes) : List Bytes :=
  [leBytes 2 type, leBytes 4 pingTime.toNat, leBytes 4 transId.toNat, leBytes 4 payload.length,
    payload]

/-- The plain bytes of a reply with an address. -/
def addressBytes (type : Nat) (transId : UInt32) (address : List UInt16) : List Bytes :=
  [leBytes 2 type, leBytes 4 transId.toNat, leBytes 2 address.length,
    address.flatMap fun unit => leBytes 2 unit.toNat]

namespace Request

def id : Request → RequestId
  | .ping _ _ _ _ => .pingRequest
  | .fileSrv _ _ => .fileSrvRequest
  | .authSrv _ => .authSrvRequest

/-- The plain bytes of a request. -/
def bytes : Request → Bytes
  | .ping pingTime transId payload _ =>
      (pingBytes RequestId.pingRequest.code pingTime transId payload).flatten
  | .fileSrv transId isPatcher =>
      leBytes 2 RequestId.fileSrvRequest.code ++ leBytes 4 transId.toNat ++ [isPatcher]
  | .authSrv transId => leBytes 2 RequestId.authSrvRequest.code ++ leBytes 4 transId.toNat

/-- The reply that a request asks for. -/
def reply (server : Server) : Request → Bytes
  | .ping pingTime transId payload _ =>
      (pingBytes ReplyId.pingReply.code pingTime transId payload).flatten
  | .fileSrv transId _ =>
      (addressBytes ReplyId.fileSrvReply.code transId server.filesrvAddress).flatten
  | .authSrv transId =>
      (addressBytes ReplyId.authSrvReply.code transId server.authsrvAddress).flatten

/-- The reply that its handler builds. -/
def built (server : Server) : Request → Bytes
  | .ping pingTime transId payload _ =>
      (pingBytes ReplyId.pingReply.code pingTime transId payload).flatten
  | .fileSrv transId _ =>
      (addressBytes ReplyId.fileSrvReply.code transId server.filesrvAddress).flatten
  | .authSrv transId =>
      (addressBytes ReplyId.fileSrvReply.code transId server.authsrvAddress).flatten

/-- A buffer starts with the request. -/
def In (buf : Bytes) (request : Request) : Prop :=
  request.bytes <+: buf

end Request

/-- The buffers that were dispatched as requests. -/
def deliveredRequests (visits : List Visit) : List Bytes :=
  (visits.filter fun visit => visit.point = .dispatchMsg).map Visit.buf

/-- The plaintexts enqueued behind the handshake. -/
def ClientBase.replies (c : ClientBase) : List Bytes :=
  (c.posted.filter fun posted => posted.struct ≠ encryptS2c).map Posted.plain

/-- Addresses leave room for a terminator. -/
structure Server.ShortAddresses (server : Server) : Prop where
  filesrv : server.filesrvAddress.length < AddressReply.capacity
  authsrv : server.authsrvAddress.length < AddressReply.capacity

/-! ### Messages of the replies -/

theorem kMaxBufCount_lt : kMaxBufCount < 256 ^ 4 := by decide

/-- The answer to a ping. -/
def pingMessage (type : Nat) (pingTime transId : UInt32) (payload : Bytes)
    (bounded : payload.length ≤ kMaxBufCount) : Message pingReply where
  contents := pingBytes type pingTime transId payload
  covers := rfl
  fixed := by
    intro index field content found foundContent fixedSize
    match index with
    | 0 | 1 | 2 | 3 =>
        cases found
        cases foundContent
        rfl
    | 4 =>
        cases found
        cases fixedSize
  counted := by
    intro index field sizeField content sizeContent found foundContent isVariable foundSize
      foundSizeContent
    match index with
    | 0 | 1 | 2 =>
        cases found
        cases isVariable
    | 3 =>
        cases found
        cases foundContent
        cases foundSize
        cases foundSizeContent
        have count : leValue (leBytes 4 payload.length) = payload.length :=
          leValue_leBytes_of_lt (by have := kMaxBufCount_lt; omega)
        refine ⟨payload.length, ?_, (Nat.one_mul _).symm, ?_⟩
        · rw [count]
          simp [announcedCount, ownCount, bounded]
        · intro notBuffer
          cases notBuffer

/-- A reply with an address. -/
def addressMessage (type : Nat) (transId : UInt32) (address : List UInt16)
    (short : address.length < AddressReply.capacity) : Message fileSrvReply where
  contents := addressBytes type transId address
  covers := rfl
  fixed := by
    intro index field content found foundContent fixedSize
    match index with
    | 0 | 1 | 2 =>
        cases found
        cases foundContent
        rfl
    | 3 =>
        cases found
        cases fixedSize
  counted := by
    intro index field sizeField content sizeContent found foundContent isVariable foundSize
      foundSizeContent
    match index with
    | 0 | 1 =>
        cases found
        cases isVariable
    | 2 =>
        cases found
        cases foundContent
        cases foundSize
        cases foundSizeContent
        have room : address.length < 24 := short
        have count : leValue (leBytes 2 address.length) = address.length :=
          leValue_leBytes_of_lt (by omega)
        refine ⟨address.length, ?_, leUnits_length address, ?_⟩
        · rw [count]
          have bounded : address.length ≤ kMaxBufCount := by
            unfold kMaxBufCount
            omega
          simp [announcedCount, ownCount, bounded]
        · intro _
          exact room.le

/-- `set_address` puts a short address in front and counts its units. -/
theorem AddressReply.setAddress_short (reply : AddressReply) {value : List UInt16}
    (short : value.length < capacity) :
    (reply.setAddress value).addresssz = value.length ∧
      value <+: (reply.setAddress value).address := by
  have size : min capacity value.length = value.length := min_eq_right short.le
  have terminator : min (capacity - 1) value.length = value.length := by omega
  refine ⟨size, ?_⟩
  simp only [setAddress, size, terminator, List.take_length]
  rw [List.set_append_right _ _ (le_refl _)]
  exact List.prefix_append _ _

/-- The image that an address handler writes starts with its message. -/
theorem Server.addressReply_front (server : Server) {address : List UInt16} (posted : Nat)
    (transId : UInt32) (short : address.length < AddressReply.capacity) :
    (addressMessage ReplyId.fileSrvReply.code transId address short).wire <+:
      (server.addressReply address posted transId.toNat).image := by
  obtain ⟨count, units, behind⟩ := AddressReply.setAddress_short
    { AddressReply.uninitialised (server.residue posted) with
      type := ReplyId.fileSrvReply.code
      transId := transId.toNat : AddressReply } short
  rw [Server.addressReply, AddressReply.image, count, ← behind, List.flatMap_append]
  simp only [Message.wire, addressMessage, addressBytes, List.flatten_cons, List.flatten_nil,
    List.append_nil, List.append_assoc]
  exact ⟨_, rfl⟩

/-! ### One request -/

namespace Request

theorem In.type {request : Request} {buf : Bytes} (inBuf : request.In buf) :
    RequestId.ofCode (leValue (buf.take 2)) = some request.id := by
  obtain ⟨behind, rfl⟩ := inBuf
  cases request <;> rfl

theorem In.transId {request : Request} {transId : UInt32} {buf behind : Bytes}
    (inBuf : request.In buf)
    (layout : request.bytes = leBytes 2 request.id.code ++ leBytes 4 transId.toNat ++ behind) :
    leValue ((buf.drop 2).take 4) = transId.toNat := by
  obtain ⟨rest, rfl⟩ := inBuf
  rw [layout]
  have field : (((leBytes 2 request.id.code ++ leBytes 4 transId.toNat ++ behind) ++ rest).drop
      2).take 4 = leBytes 4 transId.toNat := rfl
  rw [field]
  exact leValue_leBytes_of_lt transId.toNat_lt

theorem In.encodeMessage_answer {request : Request} {buf : Bytes} (inBuf : request.In buf)
    {server : Server} (short : server.ShortAddresses) (posted : Nat) (encrypt : Context) :
    encodeMessage (server.answer posted buf request.id).1 (server.answer posted buf request.id).2
        encrypt =
      .ok (encrypt.output (request.built server), encrypt.feed (request.built server)) := by
  have addressed {address : List UInt16} (room : address.length < AddressReply.capacity)
      (transId : UInt32) :
      encodeMessage fileSrvReply (server.addressReply address posted transId.toNat).image encrypt =
        .ok (encrypt.output (addressMessage ReplyId.fileSrvReply.code transId address room).wire,
          encrypt.feed (addressMessage ReplyId.fileSrvReply.code transId address room).wire) := by
    apply NetStruct.VariableLast.encodeMessage_eq (by decide) (by decide)
      (server.addressReply_front posted transId room)
    have units : (address.flatMap fun unit => leBytes 2 unit.toNat).length =
        2 * address.length := leUnits_length address
    have below : address.length < 24 := room
    simp only [Message.wire, addressMessage, addressBytes, List.flatten_cons, List.flatten_nil,
      List.length_append, leBytes_length, List.length_nil, units, intMax]
    omega
  cases request with
  | ping pingTime transId payload bounded =>
      have variableLast : pingReply.VariableLast := by decide
      have front : (pingMessage ReplyId.pingReply.code pingTime transId payload bounded).wire <+:
          buf := inBuf
      apply variableLast.encodeMessage_eq (by decide) front
      have limit : payload.length ≤ 1024 := bounded
      simp only [Message.wire, pingMessage, pingBytes, List.flatten_cons, List.flatten_nil,
        List.length_append, leBytes_length, List.length_nil, intMax]
      omega
  | fileSrv transId isPatcher =>
      have sameId : leValue ((buf.drop 2).take 4) = transId.toNat := inBuf.transId rfl
      simp only [Request.id, Server.answer, sameId]
      exact addressed short.filesrv transId
  | authSrv transId =>
      have sameId : leValue ((buf.drop 2).take 4) = transId.toNat :=
        inBuf.transId (List.append_nil _).symm
      simp only [Request.id, Server.answer, sameId]
      exact addressed short.authsrv transId

end Request

/-! ### Runs -/

/-- The dispatched requests have been answered one by one, the way the
handlers do it. -/
def AnsweredInOrder (server : Server) (cli : Client) : Prop :=
  ∀ requests, List.Forall₂ Request.In (deliveredRequests cli.trace) requests →
    cli.base.replies = requests.map (Request.built server)

section Runs

variable {server : Server} {cli : Client}

theorem deliveredRequests_append (visits : List Visit) {visit : Visit}
    (other : visit.point ≠ .dispatchMsg) :
    deliveredRequests (visits ++ [visit]) = deliveredRequests visits := by
  simp [deliveredRequests, other]

theorem AnsweredInOrder.congr (answered : AnsweredInOrder server cli) {cli' : Client}
    (delivered : deliveredRequests cli'.trace = deliveredRequests cli.trace)
    (replies : cli'.base.replies = cli.base.replies) : AnsweredInOrder server cli' := by
  intro requests inBuffers
  rw [replies]
  rw [delivered] at inBuffers
  exact answered requests inBuffers

theorem AnsweredInOrder.visited (answered : AnsweredInOrder server cli) (point : Point) (buf : Bytes)
    (other : point ≠ .dispatchMsg) : AnsweredInOrder server (cli.visited point buf) :=
  answered.congr (deliveredRequests_append cli.trace other) rfl

theorem replies_of_posted {c c' : ClientBase} (posted : c'.posted = c.posted) :
    c'.replies = c.replies := by
  rw [ClientBase.replies, ClientBase.replies, posted]

theorem deliveredRequests_answering (cli : Client) (buf : Bytes) (request : RequestId) :
    deliveredRequests (cli.answering buf request).trace = deliveredRequests cli.trace ++ [buf] := by
  have outside : request.point ≠ .dispatchMsg := by cases request <;> simp [RequestId.point]
  change deliveredRequests (cli.trace ++ [_] ++ [_]) = _
  rw [deliveredRequests_append _ outside]
  simp [deliveredRequests]

theorem Server.answer_struct (posted : Nat) (buf : Bytes) (request : RequestId) :
    (server.answer posted buf request).1 ≠ encryptS2c := by
  cases request with
  | pingRequest =>
      change pingReply ≠ encryptS2c
      decide
  | fileSrvRequest | authSrvRequest =>
      change fileSrvReply ≠ encryptS2c
      decide

/-- The last of the requests is the one in hand. -/
theorem Received.request {request : RequestId} {head buf : Bytes}
    (received : Received (.body request head) buf cli.toClientState) {last : Request}
    (inBuf : last.In buf) : last.id = request := by
  obtain ⟨-, type⟩ := received.chosen request head rfl
  rw [← received.head request head rfl, inBuf.type] at type
  exact Option.some.inj type

theorem forall₂_append_singleton {First Second : Type*} {related : First → Second → Prop}
    {front : List First} {last : First} {seconds : List Second}
    (paired : List.Forall₂ related (front ++ [last]) seconds) :
    ∃ earlier final, List.Forall₂ related front earlier ∧ related last final ∧
      seconds = earlier ++ [final] := by
  induction front generalizing seconds with
  | nil =>
      rcases paired with _ | ⟨pair, rest⟩
      cases rest
      exact ⟨[], _, .nil, pair, rfl⟩
  | cons first front ih =>
      rcases paired with _ | ⟨pair, rest⟩
      obtain ⟨earlier, final, before, last, rfl⟩ := ih rest
      exact ⟨_ :: earlier, final, .cons pair before, last, rfl⟩

/-- The request in hand is the last one delivered, and its answer encodes to the
reply that it asks for. -/
theorem Received.answer_encoded {request : RequestId} {head buf : Bytes}
    (received : Received (.body request head) buf cli.toClientState)
    (short : server.ShortAddresses) {requests : List Request}
    (inBuffers : List.Forall₂ Request.In
      (deliveredRequests (cli.answering buf request).trace) requests) :
    ∃ earlier last, requests = earlier ++ [last] ∧
      List.Forall₂ Request.In (deliveredRequests cli.trace) earlier ∧
      encodeMessage (server.answer cli.base.posted.length buf request).1
          (server.answer cli.base.posted.length buf request).2 cli.base.encrypt =
        .ok (cli.base.encrypt.output (last.built server),
          cli.base.encrypt.feed (last.built server)) := by
  rw [deliveredRequests_answering] at inBuffers
  obtain ⟨earlier, last, before, inBuf, rfl⟩ := forall₂_append_singleton inBuffers
  have encoded := inBuf.encodeMessage_answer short cli.base.posted.length cli.base.encrypt
  rw [received.request inBuf] at encoded
  exact ⟨earlier, last, rfl, before, encoded⟩

theorem HandlerCase.answeredInOrder {buf : Bytes} {stage : Stage} {outcome : Outcome Client Bool}
    (case : HandlerCase server cli buf stage outcome)
    (received : Received stage buf cli.toClientState) (short : server.ShortAddresses)
    (answered : AnsweredInOrder server cli) : AnsweredInOrder server outcome.state := by
  cases case with
  | unknownConnection => exact answered.visited .incomingRead buf (by decide)
  | gate => exact answered.visited .incomingRead buf (by decide)
  | badHandshake | seedWanted => exact answered.visited .handleHandshake buf (by decide)
  | decrypted =>
      have flagged : AnsweredInOrder server { cli.visited .handleHandshake buf with
          flags := { cli.flags with encrypted := true } } :=
        answered.visited .handleHandshake buf (by decide)
      exact flagged.visited .setEncrypted buf (by decide)
  | seedStopped srvSeed key derived stop base stopped =>
      have case := enqueueCase encryptS2c (EncryptS2c.image ⟨s2cEncrypt, 9, srvSeed⟩) cli.base
      rw [stopped] at case
      cases case
      exact answered.congr (deliveredRequests_append cli.trace (by simp)) rfl
  | keyed srvSeed key derived base written =>
      have case := enqueueCase encryptS2c (EncryptS2c.image ⟨s2cEncrypt, 9, srvSeed⟩) cli.base
      rw [written] at case
      obtain ⟨wire, encrypt, encoded, -, -, -, posted⟩ := case.recorded
      apply answered.congr
      · calc deliveredRequests (cli.trace ++ [_] ++ [_])
            = deliveredRequests (cli.trace ++ [_]) := deliveredRequests_append _ (by simp)
          _ = deliveredRequests cli.trace := deliveredRequests_append _ (by simp)
      · change base.replies = cli.base.replies
        simp [ClientBase.replies, posted]
  | unknownMessage | bodyWanted =>
      exact answered.congr (deliveredRequests_append cli.trace (by simp)) rfl
  | answerStopped request head stop base stopped =>
      intro requests inBuffers
      obtain ⟨earlier, last, rfl, before, encoded⟩ := received.answer_encoded short inBuffers
      have case := enqueueCase (server.answer cli.base.posted.length buf request).1
        (server.answer cli.base.posted.length buf request).2 (cli.base.readStruct msgStdHeader)
      rw [stopped] at case
      cases case with
      | stopped stop failed => cases encoded.symm.trans failed
  | answered request head base written =>
      intro requests inBuffers
      obtain ⟨earlier, last, rfl, before, encoded⟩ := received.answer_encoded short inBuffers
      have case := enqueueCase (server.answer cli.base.posted.length buf request).1
        (server.answer cli.base.posted.length buf request).2 (cli.base.readStruct msgStdHeader)
      rw [written] at case
      obtain ⟨wire, encrypt, encoded', -, -, -, posted⟩ := case.recorded
      have same := encoded.symm.trans encoded'
      cases same
      have other := server.answer_struct cli.base.posted.length buf request
      change base.replies = _
      rw [ClientBase.replies, posted, List.filter_append, List.map_append, List.map_append,
        ← answered earlier before]
      simp [ClientBase.replies, ClientBase.readStruct, other]

theorem answeredInOrder_rule (server : Server) (short : server.ShortAddresses) :
    ConnectionInvariant server (AnsweredInOrder server) (AnsweredInOrder server) where
  start := by
    intro sock polling unused requests inBuffers
    cases inBuffers
    rfl
  polled := fun _ _ answered => answered
  write := fun cli answered => answered.congr rfl (replies_of_posted (pumpWriteFrame cli.base).posted)
  visit := fun _ _ _ answered => answered.visited .resumeRead [] (by decide)
  read := fun _ _ _ frame answered => answered.congr rfl (replies_of_posted frame.posted)
  handle := by
    intro stage buf cli outcome received answered case
    have next := case.answeredInOrder received short answered
    refine ⟨next, ?_⟩
    rintro cli' rfl -
    exact next
  recorded := fun _ answered => answered
  shutdown := fun _ answered => answered
  recordedPolled := fun _ _ answered => answered
  hangUp := fun _ answered => answered

end Runs

/-! ### Which replies are the ones asked for -/

/-- A request is answered as the protocol asks unless it is for the
authentication server. -/
theorem Request.built_eq_reply_iff (server : Server) (request : Request) :
    request.built server = request.reply server ↔ request.id ≠ .authSrvRequest := by
  cases request with
  | ping | fileSrv => simp [Request.built, Request.reply, Request.id]
  | authSrv transId =>
      simp only [Request.id, ne_eq, not_true_eq_false, iff_false]
      intro same
      have type : ([1, 0] : Bytes) = [2, 0] := congrArg (List.take 2) same
      exact absurd type (by decide)

/-- A run answers its requests as the protocol asks exactly if none of them is
for the authentication server. -/
theorem replies_iff (server : Server) (short : server.ShortAddresses) {connection : Connection}
    (reached : ReachableConnection server connection) {requests : List Request}
    (delivered : List.Forall₂ Request.In (deliveredRequests connection.client.trace) requests) :
    connection.client.base.replies = requests.map (Request.reply server) ↔
      ∀ request ∈ requests, request.id ≠ .authSrvRequest := by
  have answered := (answeredInOrder_rule server short).history_client reached requests delivered
  rw [answered, List.map_inj_left]
  constructor
  · intro same request member
    exact (request.built_eq_reply_iff server).mp (same request member)
  · intro others request member
    exact (request.built_eq_reply_iff server).mpr (others request member)

theorem plainServer_shortAddresses : plainServer.ShortAddresses :=
  ⟨by decide, by decide⟩

/-- A request for the file server and a ping. -/
theorem replies_iff_file_and_ping :
    ∃ requests : List Request, requests.length = 2 ∧
      (servedConnection (requests.flatMap Request.bytes)).client.base.replies =
        requests.map (Request.reply plainServer) := by
  let requests : List Request := [.fileSrv 5 1, .ping 7 9 [1, 2, 3] (by decide)]
  refine ⟨requests, rfl, ?_⟩
  have delivered : List.Forall₂ Request.In (deliveredRequests
      (servedConnection (requests.flatMap Request.bytes)).client.trace) requests := by
    have buffers : deliveredRequests
        (servedConnection (requests.flatMap Request.bytes)).client.trace =
          [[1, 0, 5, 0, 0, 0, 1] ++ List.replicate 25 0,
            [0, 0, 7, 0, 0, 0, 9, 0, 0, 0, 3, 0, 0, 0, 1, 2, 3] ++ List.replicate 23 0] := by
      decide +kernel
    rw [buffers]
    exact .cons ⟨_, rfl⟩ (.cons ⟨_, rfl⟩ .nil)
  apply (replies_iff plainServer plainServer_shortAddresses (reachable_served _) delivered).mpr
  decide

/-- A request for the authentication server is answered by the reply to a
request for the file server. -/
theorem not_replies_every_run :
    ¬ ∀ (server : Server) (_ : server.ShortAddresses) (connection : Connection)
      (_ : ReachableConnection server connection) (requests : List Request)
      (_ : List.Forall₂ Request.In (deliveredRequests connection.client.trace) requests),
      connection.client.base.replies = requests.map (Request.reply server) := by
  intro claimed
  have buffers : deliveredRequests (servedConnection (Request.bytes (.authSrv 5))).client.trace =
      [[2, 0, 5, 0, 0, 0] ++ List.replicate 26 0] := by
    decide +kernel
  have replies := claimed plainServer plainServer_shortAddresses _
    (reachable_served (Request.bytes (.authSrv 5))) [.authSrv 5] (by
      rw [buffers]
      exact .cons ⟨_, rfl⟩ .nil)
  have built : (servedConnection (Request.bytes (.authSrv 5))).client.base.replies =
      [[1, 0, 5, 0, 0, 0, 4, 0, 0x31, 0, 0x39, 0, 0x32, 0, 0x2e, 0]] := by
    decide +kernel
  rw [built] at replies
  exact absurd replies (by decide)

end ThemeSrv
