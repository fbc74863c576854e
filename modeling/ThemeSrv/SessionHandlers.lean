import ThemeSrv.Session
import ThemeSrv.WriterDrain

/-!
# Handling a session

Each message of a session is handled as its peer expects, and leaves the
daemon at the start of the next one.  Answers are posted for the seed and for
the requests, and a socket that does not fail stays as it is.
-/

namespace ThemeSrv

open AllocatedBlock ByteString Client ConcatenatedParts Gatekeeper KeystreamCipher TransitionSystem

/-! ### Writing on a healthy socket -/

namespace Socket

theorem Delivers.write {sock sock' : Socket} {pieces : List Bytes} (delivers : sock.Delivers pieces)
    {offered : Bytes} {answer : WriteAnswer} (answered : sock.write offered = (answer, sock')) :
    sock'.Delivers pieces ∧ answer.isError = false := by
  simp only [Socket.write, Prod.mk.injEq] at answered
  obtain ⟨rfl, rfl⟩ := answered
  have healthy : ((sock.outbound.headD .wouldBlock).limit offered.length).isError = false := by
    cases script : sock.outbound with
    | nil => rfl
    | cons answer rest =>
        have first := delivers.healthy answer (by rw [script]; exact List.mem_cons_self)
        cases answer with
        | accepted | wouldBlock => rfl
        | failure | brokenPipe => cases first
  refine ⟨⟨⟨?_, ?_⟩, delivers.inbound, delivers.idle, delivers.nonempty, ?_⟩, healthy⟩
  · simpa [isDown] using delivers.up
  · have intact := delivers.intact
    rw [brokenPipe] at intact ⊢
    rw [List.any_append, intact]
    generalize (sock.outbound.headD .wouldBlock).limit offered.length = answer at healthy
    cases answer with
    | accepted | wouldBlock => rfl
    | failure | brokenPipe => cases healthy
  · exact fun answer member => delivers.healthy answer (List.mem_of_mem_tail member)

end Socket

theorem resumeWrite_delivers (state : WriteState) {c : ClientBase} {pieces : List Bytes}
    (delivers : c.sock.Delivers pieces) : (resumeWrite state c).2.2.sock.Delivers pieces := by
  rcases answered : c.sock.write (state.buf.drop state.bufoffs) with ⟨answer, sock⟩
  obtain ⟨next, healthy⟩ := delivers.write answered
  rw [resumeWrite, answered]
  cases answer with
  | accepted | wouldBlock => exact next
  | failure | brokenPipe => cases healthy

theorem handleWrite_delivers {c : ClientBase} {pieces : List Bytes}
    (delivers : c.sock.Delivers pieces) : (handleWrite c).2.sock.Delivers pieces := by
  rw [handleWrite]
  split
  · exact delivers
  · next front rest queue =>
      have resumed := resumeWrite_delivers front delivers
      rcases outcome : resumeWrite front c with ⟨done, state, c'⟩
      rw [outcome] at resumed
      cases done <;> exact resumed

theorem enqueueWrite_delivers {ns : NetStruct} {image : Bytes} {c c' : ClientBase}
    {pieces : List Bytes} (delivers : c.sock.Delivers pieces)
    (done : enqueueWrite ns image c = .done () c') : c'.sock.Delivers pieces := by
  rw [enqueueWrite] at done
  cases encoded : encodeMessage ns image c.encrypt with
  | error stop =>
      rw [encoded] at done
      cases done
  | ok result =>
      obtain ⟨wire, encrypt⟩ := result
      simp only [encoded] at done
      split at done
      · cases done
        exact delivers
      · generalize posted : ({ c with encrypt := encrypt, posted := _ } : ClientBase) = next at done
        have resumed : (resumeWrite ⟨0, wire⟩ next).2.2.sock.Delivers pieces := by
          apply resumeWrite_delivers
          rw [← posted]
          exact delivers
        rcases outcome : resumeWrite ⟨0, wire⟩ next with ⟨sent, state, c₁⟩
        rw [outcome] at done resumed
        cases sent <;> cases done <;> exact resumed

/-! ### Where a client is in its session -/

/-- What the writer side of a client holds, once it has served some requests:
nothing before the session key, and all the answers afterwards. -/
structure Answered (server : Server) (srvSeed key : Bytes) (encrypted : Bool)
    (served : List Request) (cli : Client) : Prop where
  quiet : encrypted = false → cli.base.posted = [] ∧ cli.base.encrypt = .keyed fun _ => 0
  keyed : encrypted = true →
    cli.base.encrypt =
      (Context.keyed (server.rc4 key)).feed (served.flatMap (Request.built server)) ∧
    cli.base.encoded = handshakeReply srvSeed ++
      (Context.keyed (server.rc4 key)).output (served.flatMap (Request.built server))

/-- The client has taken in a number of bytes of the session.  It is inside
one of its messages, or behind the last one. -/
inductive SessionAt (server : Server) (session : Session) (srvSeed key : Bytes) (position : Nat)
    (cli : Client) : Prop
  | within (stage : Stage) (message : Message stage.struct) (encrypt : Context) (origin : Nat)
      (served : List Request)
      (leg : session.Leg (server.rc4 key) stage message encrypt origin served)
      (waiting : Waiting stage cli.toClientState) (atField : AtField message encrypt cli.base)
      (place : position = origin + message.wireOffset cli.base.read.field)
      (answered : Answered server srvSeed key stage.encrypted served cli)
  | behind (message : Message msgStdHeader) (fits : message.Fits)
      (waiting : Waiting .header cli.toClientState)
      (atField : AtField message
        ((Context.keyed (server.rc4 key)).feed (requestBytes session.requests)) cli.base)
      (place : position = (session.stream (server.rc4 key)).length)
      (answered : Answered server srvSeed key true session.requests cli)

section Handlers

variable {server : Server} {session : Session} {srvSeed key : Bytes} {cli : Client} {buf : Bytes}
  {served : List Request}

theorem Answered.congr {encrypted : Bool} (answered : Answered server srvSeed key encrypted served cli)
    {cli' : Client} (posted : cli'.base.posted = cli.base.posted)
    (encrypt : cli'.base.encrypt = cli.base.encrypt) :
    Answered server srvSeed key encrypted served cli' where
  quiet := by
    rw [posted, encrypt]
    exact answered.quiet
  keyed := by
    rw [encrypt, ClientBase.encoded, posted]
    exact answered.keyed

theorem requestStruct_injective : Function.Injective RequestId.struct := by
  intro first second same
  cases first <;> cases second <;> first | rfl | exact absurd same (by decide)

theorem requestStruct_ne (request : RequestId) :
    request.struct ∉ [connectionHeader, encryptHeader, encryptMsg 64, msgStdHeader] := by
  cases request <;> decide

/-- The pending descriptor tells the stage, except for the header that
`read_msg` looked at. -/
theorem Waiting.stage_eq {stage next : Stage} {state : ClientState} (waiting : Waiting next state)
    (pending : state.base.read.struct = some stage.struct) :
    next = stage ∨ ∃ request head head', next = .body request head ∧ stage = .body request head' := by
  have same : next.struct = stage.struct := by
    have struct := waiting.standing.struct
    rw [pending] at struct
    exact (Option.some.inj struct).symm
  cases next with
  | hello | handshake | seed | header =>
      cases stage with
      | hello | handshake | seed | header =>
          exact Or.inl (by first | rfl | exact absurd same (by decide))
      | body request head =>
          have other := requestStruct_ne request
          rw [show request.struct = _ from same.symm] at other
          exact absurd (by decide) other
  | body request head =>
      cases stage with
      | hello | handshake | seed | header =>
          have other := requestStruct_ne request
          rw [show request.struct = _ from same] at other
          exact absurd (by decide) other
      | body second head' =>
          obtain rfl : request = second := requestStruct_injective same
          exact Or.inr ⟨request, head, head', rfl, rfl⟩

/-! ### What the buffers hold -/

theorem Message.HeldUpTo.field_eq {ns : NetStruct} {message : Message ns} {count : Nat}
    (held : message.HeldUpTo count buf) (index : Nat) {content : Bytes} (inside : index < count)
    (found : message.contents[index]? = some content) :
    (buf.drop (ns.memOffset index)).take content.length = content := by
  have loaded := held index content inside found
  rw [load_eq_some (load_inside loaded)] at loaded
  exact Option.some.inj loaded

/-- A buffer that holds a packed message starts with it. -/
theorem NetStruct.VariableLast.front_of_held {ns : NetStruct} (variableLast : ns.VariableLast)
    {message : Message ns} (held : message.HeldUpTo ns.size buf) : message.wire <+: buf := by
  have front (count : Nat) (inside : count ≤ ns.size) :
      (message.contents.take count).flatten <+: buf := by
    induction count with
    | zero => exact List.nil_prefix
    | succ count ih =>
        obtain ⟨content, found⟩ := message.exists_content inside
        have offset := variableLast.wireOffset_eq message inside
        have part := held.field_eq count inside found
        have earlier := ih (Nat.le_of_succ_le inside)
        rw [List.take_add_one, found, Option.toList_some, List.flatten_append,
          List.flatten_singleton]
        obtain ⟨behind, rfl⟩ := earlier
        rw [← offset, Message.wireOffset, boundary, List.drop_left] at part
        rw [List.prefix_append_right_inj, ← part]
        exact List.take_prefix _ _
  have whole := front ns.size (le_refl _)
  rwa [List.take_of_length_le message.covers.le] at whole

/-! ### The handlers -/

/-- Nothing of the next message has arrived. -/
theorem Waiting.awaits {stage : Stage} (waiting : Waiting stage cli.toClientState)
    (field : cli.base.read.field = 0) (offset : cli.base.read.offset = 0)
    (released : cli.base.read.buf = none) {encrypt : Context}
    (synchronized : Context.Synchronized encrypt cli.base.decrypt) :
    cli.base.Awaits stage.struct encrypt :=
  ⟨waiting.standing.struct, field, offset, released, synchronized⟩

/-- A client at the start of a message of the session. -/
theorem sessionAt_start {stage : Stage} {message : Message stage.struct} {encrypt : Context}
    {origin : Nat} (leg : session.Leg (server.rc4 key) stage message encrypt origin served)
    (waiting : Waiting stage cli.toClientState)
    (awaits : cli.base.Awaits stage.struct encrypt)
    (answered : Answered server srvSeed key stage.encrypted served cli) :
    SessionAt server session srvSeed key origin cli := by
  refine .within stage message encrypt origin served leg waiting
    (awaits.atField stage.struct_wellFormed) ?_ answered
  rw [awaits.field, Message.wireOffset, boundary_zero, Nat.add_zero]

/-- A client that has served some requests waits for the next one, or for
nothing more. -/
theorem sessionAt_header {later : List Request} (split : session.requests = served ++ later)
    (waiting : Waiting .header cli.toClientState)
    (awaits : cli.base.Awaits msgStdHeader
      ((Context.keyed (server.rc4 key)).feed (requestBytes served)))
    (answered : Answered server srvSeed key true served cli) :
    SessionAt server session srvSeed key (session.opening ++ requestBytes served).length cli := by
  cases later with
  | nil =>
      rw [List.append_nil] at split
      subst split
      refine .behind (.ofContents [leBytes 2 0] rfl (by decide)) (by decide) waiting
        (awaits.atField (by decide)) ?_ answered
      simp [Session.stream, requestBytes]
  | cons request later => exact sessionAt_start (.header served request later split) waiting awaits answered

theorem handlerRead_hello (server : Server) (received : Received .hello buf cli.toClientState)
    (gate : (buf.drop 0).take 1 = leBytes 1 protocolCli2Gate) :
    handlerRead server buf cli = .done true
      { cli.visited .incomingRead buf with
        base := cli.base.readStruct encryptHeader
        handler := .gate 0 } := by
  have type : leValue ((buf.drop 0).take 1) = protocolCli2Gate := by
    rw [gate]
    decide
  rw [handlerRead_incoming received, if_pos type]

theorem handlerRead_handshake (server : Server) (received : Received .handshake buf cli.toClientState)
    (connect : (buf.drop 0).take 1 = leBytes 1 c2sConnect)
    (size : (buf.drop 1).take 1 = leBytes 1 66) :
    handlerRead server buf cli = .done true
      { cli.visited .handleHandshake buf with
        handler := .gate 64
        base := cli.base.readStruct (encryptMsg 64)
        flags := { cli.flags with wantClientSeed := true } } := by
  have gate : ∃ count, cli.handler = .gate count := ⟨0, received.handler⟩
  have clear : cli.flags.encrypted = false := received.encrypted
  have noSeed : cli.flags.wantClientSeed = false := received.wantClientSeed
  have allocated : buf.length = encryptHeader.allocation := received.size
  have room : 2 ≤ encryptHeader.allocation := by decide
  have msgId : leValue ((buf.drop 0).take 1) = c2sConnect := by
    rw [connect]
    decide
  have bufsz : leValue ((buf.drop 1).take 1) = 66 := by
    rw [size]
    decide
  rw [handlerRead_gate gate, gatekeeperRead_clear clear]
  simp only [encryptedRead, bind_apply, peek, Client.assertD, clear, noSeed, Bool.not_false, if_true,
    handleHandshake, visit, getInteger_apply (show 0 + 1 ≤ buf.length by omega), msgId, ne_eq,
    not_true_eq_false, if_false, getInteger_apply (show 1 + 1 ≤ buf.length by omega), bufsz]
  rw [if_neg (fun neither => neither.2), if_neg (by decide), ← clear]
  rfl

theorem handlerRead_header (server : Server) (received : Received .header buf cli.toClientState) {request : RequestId}
    (type : RequestId.ofCode (leValue (buf.take 2)) = some request) :
    handlerRead server buf cli = .done true
      { cli.choosing buf with
        base := cli.base.readFrom request.struct 1 buf
        chosen := some (request.struct, buf) } := by
  have size : buf.length = msgStdHeader.allocation := received.size
  have allocated : 2 ≤ msgStdHeader.allocation := by decide
  rw [handlerRead_gate received.handler,
    gatekeeperRead_header received.encrypted received.wantMsgHeader]
  simp only [readMsg, bind_apply, visit, getInteger_apply (show 0 + 2 ≤ buf.length by omega),
    List.drop_zero, type]
  rfl

/-- The stage behind a handler that has registered a read. -/
theorem waiting_of_handled (next : Stage) {stage : Stage} {cli' : Client}
    (received : Received stage buf cli.toClientState)
    (handled : handlerRead server buf cli = .done true cli')
    (pending : cli'.base.read.struct = some next.struct) :
    Waiting next cli'.toClientState ∨ ∃ request head head', next = .body request head' ∧
      Waiting (.body request head) cli'.toClientState := by
  have case : HandlerCase server cli buf stage (handlerRead server buf cli) := handlerCase received
  rw [handled] at case
  rcases case.next received with ⟨reached, waiting⟩ | none
  · rcases waiting.stage_eq pending with rfl | ⟨request, head, head', rfl, same⟩
    · exact Or.inl waiting
    · exact Or.inr ⟨request, head, head', same, waiting⟩
  · rw [pending] at none
    cases none

variable {pieces : List Bytes}

/-- The handler of a message goes on to the next one. -/
def GoesOn (server : Server) (session : Session) (srvSeed key buf : Bytes) (pieces : List Bytes)
    (position : Nat) (cli : Client) : Prop :=
  ∃ cli', handlerRead server buf cli = .done true cli' ∧
    SessionAt server session srvSeed key position cli' ∧ cli'.base.sock.Delivers pieces

theorem goesOn_hello (received : Received .hello buf cli.toClientState)
    (held : session.hello.HeldUpTo connectionHeader.size buf)
    (synchronized : Context.Synchronized ((Context.keyed fun _ => 0).feed session.hello.wire)
      cli.base.decrypt)
    (answered : Answered server srvSeed key false [] cli) (delivers : cli.base.sock.Delivers pieces) :
    GoesOn server session srvSeed key buf pieces session.hello.wire.length cli := by
  have gate := held.field_eq 0 (by decide) session.gate
  have handled := handlerRead_hello server received gate
  refine ⟨_, handled, ?_, delivers⟩
  rcases waiting_of_handled .handshake received handled rfl with waiting | ⟨_, _, _, other, _⟩
  · refine sessionAt_start .handshake waiting
      (waiting.awaits received.field received.offset received.released synchronized) ?_
    exact answered.congr rfl rfl
  · cases other

theorem goesOn_handshake (received : Received .handshake buf cli.toClientState)
    (held : handshakeMessage.HeldUpTo encryptHeader.size buf)
    (synchronized : Context.Synchronized ((Context.keyed fun _ => 0).feed
      (session.hello.wire ++ handshakeMessage.wire)) cli.base.decrypt)
    (answered : Answered server srvSeed key false [] cli) (delivers : cli.base.sock.Delivers pieces) :
    GoesOn server session srvSeed key buf pieces
      (session.hello.wire ++ handshakeMessage.wire).length cli := by
  have connect := held.field_eq 0 (by decide) rfl
  have size := held.field_eq 1 (by decide) rfl
  have handled := handlerRead_handshake server received connect size
  refine ⟨_, handled, ?_, delivers⟩
  rcases waiting_of_handled .seed received handled rfl with waiting | ⟨_, _, _, other, _⟩
  · refine sessionAt_start .seed waiting
      (waiting.awaits received.field received.offset received.released synchronized) ?_
    exact answered.congr rfl rfl
  · cases other

/-- `common_encrypt_s2c` on the wire. -/
def seedReplyMessage (srvSeed : Bytes) (whole : srvSeed.length = 7) : Message encryptS2c :=
  .ofContents [leBytes 1 s2cEncrypt, leBytes 1 9, srvSeed] rfl (by
    intro index inside
    match index with
    | 0 | 1 => rfl
    | 2 =>
        change (srvSeed.length == 7) = true
        rw [whole]
        rfl)

theorem encodeMessage_handshakeReply {seed : Bytes} (whole : seed.length = 7) :
    encodeMessage encryptS2c (handshakeReply seed) (.keyed fun _ => 0) =
      .ok (handshakeReply seed, (Context.keyed fun _ => 0).feed (handshakeReply seed)) := by
  have wire : (seedReplyMessage seed whole).wire = handshakeReply seed := by
    simp [Message.wire, seedReplyMessage, Message.ofContents, handshakeReply, EncryptS2c.image]
  have variableLast : encryptS2c.VariableLast := by decide
  have front : (seedReplyMessage seed whole).wire <+: handshakeReply seed := by rw [wire]
  have short : (seedReplyMessage seed whole).wire.length ≤ intMax := by
    rw [wire]
    simp [handshakeReply, EncryptS2c.image, whole, intMax]
  have inClear : (Context.keyed fun _ => 0).output (handshakeReply seed) = handshakeReply seed :=
    combine_zero _ _
  rw [variableLast.encodeMessage_eq (by decide) front short, wire, inClear]

/-- Only the 64 bytes of the seed count. -/
theorem Server.derive_take (posted : Nat) (yData : Bytes) :
    server.derive posted (yData.take 64) = server.derive posted yData := by
  rw [Server.derive, Server.derive, makeServerKey, makeServerKey, serverSeed, serverSeed,
    List.take_take, min_self]

theorem goesOn_seed (derived : server.derive 0 session.yData = some (srvSeed, key))
    (received : Received .seed buf cli.toClientState)
    (held : (seedMessage session.yData session.whole).HeldUpTo (encryptMsg 64).size buf)
    (answered : Answered server srvSeed key false [] cli) (delivers : cli.base.sock.Delivers pieces) :
    GoesOn server session srvSeed key buf pieces session.opening.length cli := by
  obtain ⟨posted, encrypt⟩ := answered.quiet rfl
  have yData : buf.take 64 = session.yData := by
    have front := held.field_eq 0 (by decide) rfl
    rw [session.whole] at front
    exact front
  have sameKey : server.derive cli.base.posted.length buf = some (srvSeed, key) := by
    rw [posted, List.length_nil, ← Server.derive_take, yData, derived]
  have encoded := encodeMessage_handshakeReply (server.derive_length derived)
  rw [← encrypt] at encoded
  have case : HandlerCase server cli buf .seed (handlerRead server buf cli) :=
    handlerCase_seed received
  generalize outcomeEq : handlerRead server buf cli = outcome at case
  cases case with
  | seedStopped srvSeed' key' derived' stop base stopped =>
      cases sameKey.symm.trans derived'
      obtain ⟨c', done⟩ := enqueueWrite_of_encoded encoded
      cases done.symm.trans stopped
  | keyed srvSeed' key' derived' base written =>
      cases sameKey.symm.trans derived'
      have enqueued := enqueueCase encryptS2c (handshakeReply srvSeed) cli.base
      rw [handshakeReply, written, ← handshakeReply] at enqueued
      obtain ⟨wire, context, encodedTo, -, -, sameRead, samePosted⟩ := enqueued.recorded
      obtain ⟨rfl, rfl⟩ := Prod.mk.inj (Except.ok.inj (encoded.symm.trans encodedTo))
      have healthy : base.sock.Delivers pieces := enqueueWrite_delivers delivers written
      refine ⟨_, outcomeEq, ?_, healthy⟩
      rcases waiting_of_handled .header received outcomeEq rfl with
        waiting | ⟨_, _, _, other, _⟩
      · have position : (session.opening ++ requestBytes []).length = session.opening.length := by
          simp [requestBytes]
        rw [← position]
        refine sessionAt_header (List.nil_append _).symm waiting (waiting.awaits ?_ ?_ ?_ ⟨rfl, rfl⟩) ?_
        · change base.read.field = 0
          rw [sameRead]
          exact received.field
        · change base.read.offset = 0
          rw [sameRead]
          exact received.offset
        · change base.read.buf = none
          rw [sameRead]
          exact received.released
        · refine ⟨fun clear => (by cases clear), ?_⟩
          intro _
          refine ⟨rfl, ?_⟩
          change base.posted.flatMap Posted.wire = _
          rw [samePosted, posted]
          simp [handshakeReply]
      · cases other

theorem requestId_of_type (id : RequestId) :
    RequestId.ofCode (leValue (leBytes 2 id.code)) = some id := by
  cases id <;> decide

theorem requestStruct_variableLast (id : RequestId) : id.struct.VariableLast := by
  cases id <;> decide

theorem goesOn_header {request : Request} {later : List Request}
    (split : session.requests = served ++ request :: later)
    (received : Received .header buf cli.toClientState)
    (held : request.header.HeldUpTo msgStdHeader.size buf)
    (synchronized : Context.Synchronized
      (((Context.keyed (server.rc4 key)).feed (requestBytes served)).feed request.type)
      cli.base.decrypt)
    (answered : Answered server srvSeed key true served cli) (delivers : cli.base.sock.Delivers pieces) :
    GoesOn server session srvSeed key buf pieces
      ((session.opening ++ requestBytes served).length + request.type.length) cli := by
  have type : (buf.drop 0).take 2 = request.type := held.field_eq 0 (by decide) rfl
  have known : RequestId.ofCode (leValue (buf.take 2)) = some request.id := by
    rw [List.drop_zero] at type
    rw [type]
    exact requestId_of_type request.id
  have handled := handlerRead_header server received known
  refine ⟨_, handled, ?_, delivers⟩
  obtain ⟨head, waiting⟩ : ∃ head, Waiting (.body request.id head) { cli.choosing buf with
      base := cli.base.readFrom request.id.struct 1 buf
      chosen := some (request.id.struct, buf) : Client }.toClientState := by
    rcases waiting_of_handled (.body request.id []) received handled rfl with
      waiting | ⟨_, head, _, same, waiting⟩
    · exact ⟨[], waiting⟩
    · cases same
      exact ⟨head, waiting⟩
  have first : request.message.contents[0]? = some request.type := by
    obtain ⟨rest, contents⟩ := request.contents_eq
    rw [request.message_contents, contents]
    rfl
  have typeEnd : request.message.wireOffset 1 = request.type.length := by
    rw [request.message.wireOffset_succ first, Message.wireOffset, boundary_zero, Nat.zero_add]
  refine .within (.body request.id head) request.message _ _ served
    (.body served request later split head) waiting ?_ ?_ ?_
  · refine ⟨waiting.standing, received.offset, ?_, ?_, synchronized.1.symm, ?_⟩
    · intro index content before found
      obtain rfl : index = 0 := Nat.lt_one_iff.mp before
      cases first.symm.trans found
      change load buf (request.id.struct.memOffset 0) request.type.length = some request.type
      have room : 0 + request.type.length ≤ buf.length := by
        have typeLength := congrArg List.length type
        rw [List.length_take, List.length_drop] at typeLength
        omega
      have width : request.type.length = 2 := leBytes_length _ _
      rw [NetStruct.memOffset, List.take_zero, List.map_nil, List.sum_nil, load_eq_some room, width,
        type]
    · intro content found
      change request.message.contents[1]? = some content at found
      rw [request.message_contents] at found
      cases request <;> cases found <;> exact List.cons_ne_nil _ _
    · change cli.base.decrypt.fed.length = _ + request.message.wireOffset 1
      rw [typeEnd, ← synchronized.2, Context.feed_fed, List.length_append]
  · change _ = _ + request.message.wireOffset 1
    rw [typeEnd]
  · exact answered.congr rfl rfl

theorem goesOn_body (short : server.ShortAddresses) {request : Request} {later : List Request}
    (split : session.requests = served ++ request :: later) {head : Bytes}
    (received : Received (.body request.id head) buf cli.toClientState)
    (held : request.message.HeldUpTo request.id.struct.size buf)
    (synchronized : Context.Synchronized
      (((Context.keyed (server.rc4 key)).feed (requestBytes served)).feed request.bytes)
      cli.base.decrypt)
    (answered : Answered server srvSeed key true served cli) (delivers : cli.base.sock.Delivers pieces) :
    GoesOn server session srvSeed key buf pieces
      ((session.opening ++ requestBytes served).length + request.bytes.length) cli := by
  have inBuf : request.In buf := by
    have front := (requestStruct_variableLast request.id).front_of_held held
    rwa [request.message_wire] at front
  obtain ⟨encrypt, encoded⟩ := answered.keyed rfl
  have answer := inBuf.encodeMessage_answer short cli.base.posted.length cli.base.encrypt
  have case : HandlerCase server cli buf (.body request.id head) (handlerRead server buf cli) :=
    handlerCase_body received
  generalize outcomeEq : handlerRead server buf cli = outcome at case
  cases case with
  | answerStopped request' head' stop base stopped =>
      obtain ⟨c', done⟩ := enqueueWrite_of_encoded (c := cli.base.readStruct msgStdHeader) answer
      cases done.symm.trans stopped
  | answered request' head' base written =>
      have enqueued := enqueueCase (server.answer cli.base.posted.length buf request.id).1
        (server.answer cli.base.posted.length buf request.id).2 (cli.base.readStruct msgStdHeader)
      rw [written] at enqueued
      obtain ⟨wire, context, encodedTo, sameEncrypt, sameDecrypt, sameRead, samePosted⟩ :=
        enqueued.recorded
      obtain ⟨rfl, rfl⟩ := Prod.mk.inj (Except.ok.inj (answer.symm.trans encodedTo))
      have healthy : base.sock.Delivers pieces :=
        enqueueWrite_delivers (c := cli.base.readStruct msgStdHeader) delivers written
      refine ⟨_, outcomeEq, ?_, healthy⟩
      have pending : base.read.struct = some Stage.header.struct := by
        rw [sameRead]
        rfl
      rcases waiting_of_handled .header received outcomeEq pending with
        waiting | ⟨_, _, _, other, _⟩
      · have further : requestBytes (served ++ [request]) = requestBytes served ++ request.bytes := by
          simp [requestBytes]
        have position : (session.opening ++ requestBytes served).length + request.bytes.length =
            (session.opening ++ requestBytes (served ++ [request])).length := by
          rw [further, ← List.append_assoc]
          exact List.length_append.symm
        have built : (served ++ [request]).flatMap (Request.built server) =
            served.flatMap (Request.built server) ++ request.built server := by
          simp
        rw [position]
        refine sessionAt_header
          (show session.requests = (served ++ [request]) ++ later by rw [split]; simp) waiting
          (waiting.awaits ?_ ?_ ?_ ?_) ?_
        · change base.read.field = 0
          rw [sameRead]
          exact received.field
        · change base.read.offset = 0
          rw [sameRead]
          exact received.offset
        · change base.read.buf = none
          rw [sameRead]
          exact received.released
        · change Context.Synchronized _ base.decrypt
          rw [sameDecrypt, further, Context.feed_append]
          exact synchronized
        · refine ⟨fun clear => (by cases clear), ?_⟩
          intro _
          change base.encrypt = _ ∧ base.encoded = _
          rw [built, Context.feed_append, Context.output_append, ← encrypt, ← List.append_assoc,
            ← encoded]
          refine ⟨sameEncrypt, ?_⟩
          rw [ClientBase.encoded, samePosted]
          simp [ClientBase.encoded, ClientBase.readStruct]
      · cases other

/-- Every message of the session is handled, and the client is behind it
afterwards. -/
theorem Session.Leg.goesOn (derived : server.derive 0 session.yData = some (srvSeed, key))
    (short : server.ShortAddresses) {stage : Stage} {message : Message stage.struct}
    {encrypt : Context} {origin : Nat}
    (leg : session.Leg (server.rc4 key) stage message encrypt origin served)
    (received : Received stage buf cli.toClientState)
    (held : message.HeldUpTo stage.struct.size buf)
    (synchronized : Context.Synchronized (encrypt.feed message.wire) cli.base.decrypt)
    (answered : Answered server srvSeed key stage.encrypted served cli)
    (delivers : cli.base.sock.Delivers pieces) :
    GoesOn server session srvSeed key buf pieces (origin + message.wire.length) cli := by
  cases leg with
  | hello =>
      rw [Nat.zero_add]
      exact goesOn_hello received held synchronized answered delivers
  | handshake =>
      change GoesOn _ _ _ _ _ _ (_ + handshakeMessage.wire.length) _
      rw [← List.length_append]
      refine goesOn_handshake received held ?_ answered delivers
      rw [Context.feed_append]
      exact synchronized
  | seed =>
      have seed : (seedMessage session.yData session.whole).wire = session.yData := List.append_nil _
      change GoesOn _ _ _ _ _ _ (_ + (seedMessage session.yData session.whole).wire.length) _
      rw [seed, ← List.length_append]
      exact goesOn_seed derived received held answered delivers
  | header served request later split =>
      change Context.Synchronized (Context.feed _ request.header.wire) _ at synchronized
      change GoesOn _ _ _ _ _ _ (_ + request.header.wire.length) _
      rw [request.header_wire] at synchronized ⊢
      exact goesOn_header split received held synchronized answered delivers
  | body served request later split head =>
      change Context.Synchronized (Context.feed _ request.message.wire) _ at synchronized
      change GoesOn _ _ _ _ _ _ (_ + request.message.wire.length) _
      rw [request.message_wire] at synchronized ⊢
      exact goesOn_body short split received held synchronized answered delivers

end Handlers

end ThemeSrv
