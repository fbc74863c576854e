import ThemeSrv.EncryptionBoundary
import ThemeSrv.MessageDelivery
import ThemeSrv.RequestReplies

/-!
# Sessions

What a peer that keeps to the protocol sends on one connection: the connection
header, the handshake with its seed, and then requests under the session key.
`Session.answers` says what the daemon owes such a peer, for each number of
bytes that have arrived.
-/

namespace ThemeSrv

open AllocatedBlock ByteString ConcatenatedParts Gatekeeper KeystreamCipher

/-! ### Messages of a client -/

/-- A message under another descriptor with the same fields. -/
def Message.renamed {ns ns' : NetStruct} (message : Message ns) (same : ns'.fields = ns.fields) :
    Message ns' where
  contents := message.contents
  covers := by
    rw [message.covers, NetStruct.size, NetStruct.size, same]
  fixed := by
    rw [same]
    exact message.fixed
  counted := by
    rw [same]
    exact message.counted

/-- `common_encrypt_header` in front of a seed of 64 bytes. -/
def handshakeMessage : Message encryptHeader :=
  .ofContents [leBytes 1 c2sConnect, leBytes 1 66] rfl (by decide)

/-- The seed of a client. -/
def seedMessage (yData : Bytes) (whole : yData.length = 64) : Message (encryptMsg 64) where
  contents := [yData]
  covers := rfl
  fixed := by
    intro index field content found foundContent fixedSize
    match index with
    | 0 =>
        cases found
        cases foundContent
        exact whole
  counted := by
    intro index field sizeField content sizeContent found
    cases found

namespace Request

def contents : Request → List Bytes
  | .ping pingTime transId payload _ =>
      pingBytes RequestId.pingRequest.code pingTime transId payload
  | .fileSrv transId isPatcher =>
      [leBytes 2 RequestId.fileSrvRequest.code, leBytes 4 transId.toNat, [isPatcher]]
  | .authSrv transId => [leBytes 2 RequestId.authSrvRequest.code, leBytes 4 transId.toNat]

/-- A request as a message of its struct. -/
def message : (request : Request) → Message request.id.struct
  | .ping pingTime transId payload bounded =>
      (pingMessage RequestId.pingRequest.code pingTime transId payload bounded).renamed rfl
  | .fileSrv transId isPatcher =>
      .ofContents (Request.fileSrv transId isPatcher).contents rfl (by
        intro index inside
        match index with
        | 0 | 1 | 2 => rfl)
  | .authSrv transId =>
      .ofContents (Request.authSrv transId).contents rfl (by
        intro index inside
        match index with
        | 0 | 1 => rfl)

theorem message_contents (request : Request) : request.message.contents = request.contents := by
  cases request <;> rfl

theorem message_wire (request : Request) : request.message.wire = request.bytes := by
  rw [Message.wire, message_contents]
  cases request <;> simp [contents, bytes]

/-- The type in front of a request. -/
def type (request : Request) : Bytes :=
  leBytes 2 request.id.code

/-- The message `read_msg` looks at. -/
def header (request : Request) : Message msgStdHeader :=
  .ofContents [request.type] rfl (by
    intro index inside
    match index with
    | 0 => rfl)

theorem contents_eq (request : Request) : ∃ rest, request.contents = request.type :: rest := by
  cases request <;> exact ⟨_, rfl⟩

theorem header_wire (request : Request) : request.header.wire = request.type :=
  List.append_nil _

theorem bytes_pos (request : Request) : 0 < request.bytes.length := by
  obtain ⟨rest, contents⟩ := request.contents_eq
  rw [← message_wire, Message.wire, message_contents, contents, List.flatten_cons,
    List.length_append, type, leBytes_length]
  omega

end Request

/-! ### Sessions -/

/-- The side of a client: a header that asks for the gatekeeper, a seed and
requests. -/
structure Session where
  hello : Message connectionHeader
  gate : hello.contents[0]? = some (leBytes 1 protocolCli2Gate)
  yData : Bytes
  whole : yData.length = 64
  requests : List Request

/-- Whatever has no fixed length leaves room in the buffer the reader allocates
for it. -/
structure Session.Fits (session : Session) : Prop where
  hello : session.hello.Fits
  requests : ∀ request ∈ session.requests, request.message.Fits

/-- The requests of which nothing is missing in a number of bytes. -/
def requestsWithin : Nat → List Request → List Request
  | _, [] => []
  | count, request :: later =>
      if request.bytes.length ≤ count then
        request :: requestsWithin (count - request.bytes.length) later
      else
        []

namespace Session

variable (session : Session)

/-- Everything in front of the requests. -/
def opening : Bytes :=
  session.hello.wire ++ handshakeMessage.wire ++ session.yData

/-- The bytes of the session, the requests under the session key. -/
def stream (keystream : Nat → UInt8) : Bytes :=
  session.opening ++
    (Context.keyed keystream).output (session.requests.flatMap Request.bytes)

/-- The fields of the session, in the order of the stream. -/
def fields : List Bytes :=
  session.hello.contents ++ handshakeMessage.contents ++ [session.yData] ++
    session.requests.flatMap Request.contents

/-- Positions in the stream at which no field is cut. -/
def Ends (position : Nat) : Prop :=
  ∃ index, position = boundary session.fields index

theorem ends_opening : session.Ends session.opening.length := by
  refine ⟨(session.hello.contents ++ handshakeMessage.contents ++ [session.yData]).length, ?_⟩
  rw [fields, boundary, List.take_left, opening, List.flatten_append, List.flatten_append,
    List.flatten_singleton]
  rfl

theorem opening_ne_nil : session.opening ≠ [] := by
  intro empty
  have length := congrArg List.length empty
  rw [opening, List.length_append, session.whole] at length
  cases length

/-- What the daemon owes the client for a number of bytes: the handshake reply
for the seed, and a reply for every request, under the session key. -/
def answers (server : Server) (srvSeed key : Bytes) (position : Nat) : Bytes :=
  if position < session.opening.length then
    []
  else
    handshakeReply srvSeed ++ (Context.keyed (server.rc4 key)).output
      ((requestsWithin (position - session.opening.length) session.requests).flatMap
        (Request.built server))

end Session

/-! ### The messages in order -/

/-- The bytes of some requests. -/
def requestBytes (requests : List Request) : Bytes :=
  requests.flatMap Request.bytes

/-- The messages of a session: the stage at which the daemon expects each, the
context of its sender, where it starts, and the requests in front of it. -/
inductive Session.Leg (session : Session) (keystream : Nat → UInt8) :
    (stage : Stage) → Message stage.struct → Context → Nat → List Request → Prop
  | hello : session.Leg keystream .hello session.hello (.keyed fun _ => 0) 0 []
  | handshake : session.Leg keystream .handshake handshakeMessage
      ((Context.keyed fun _ => 0).feed session.hello.wire) session.hello.wire.length []
  | seed : session.Leg keystream .seed (seedMessage session.yData session.whole)
      ((Context.keyed fun _ => 0).feed (session.hello.wire ++ handshakeMessage.wire))
      (session.hello.wire ++ handshakeMessage.wire).length []
  | header (served : List Request) (request : Request) (later : List Request)
      (split : session.requests = served ++ request :: later) :
      session.Leg keystream .header request.header
        ((Context.keyed keystream).feed (requestBytes served))
        (session.opening ++ requestBytes served).length served
  | body (served : List Request) (request : Request) (later : List Request)
      (split : session.requests = served ++ request :: later) (head : Bytes) :
      session.Leg keystream (.body request.id head) request.message
        ((Context.keyed keystream).feed (requestBytes served))
        (session.opening ++ requestBytes served).length served

theorem requestsWithin_served {served : List Request} {request : Request} {later : List Request}
    {place : Nat} (short : place < request.bytes.length) :
    requestsWithin ((requestBytes served).length + place) (served ++ request :: later) = served := by
  induction served with
  | nil =>
      have cut : ¬ request.bytes.length ≤ place := Nat.not_le.mpr short
      simp [requestsWithin, requestBytes, cut]
  | cons first served ih =>
      have size : (requestBytes (first :: served)).length =
          first.bytes.length + (requestBytes served).length := by simp [requestBytes]
      have rest : first.bytes.length + (requestBytes served).length + place - first.bytes.length =
          (requestBytes served).length + place := by omega
      rw [List.cons_append, requestsWithin, size, if_pos (by omega), rest, ih]

theorem requestsWithin_all (requests : List Request) :
    requestsWithin (requestBytes requests).length requests = requests := by
  induction requests with
  | nil => rfl
  | cons first later ih =>
      have size : (requestBytes (first :: later)).length =
          first.bytes.length + (requestBytes later).length := by simp [requestBytes]
      rw [requestsWithin, size, if_pos (Nat.le_add_right _ _), Nat.add_sub_cancel_left, ih]

namespace Session.Leg

variable {session : Session} {keystream : Nat → UInt8} {stage : Stage}
  {message : Message stage.struct} {encrypt : Context} {origin : Nat} {served : List Request}

theorem fits (leg : session.Leg keystream stage message encrypt origin served)
    (fits : session.Fits) : message.Fits := by
  cases leg with
  | hello => exact fits.hello
  | handshake =>
      change handshakeMessage.Fits
      decide
  | seed =>
      intro index content found
      match index with
      | 0 =>
          cases found
          rw [session.whole]
          decide
  | header served request later split =>
      intro index content found
      match index with
      | 0 =>
          cases found
          rw [Request.type, leBytes_length]
          decide
  | body served request later split head =>
      apply fits.requests
      rw [split]
      simp

/-- A message is a run of fields of the session. -/
theorem run (leg : session.Leg keystream stage message encrypt origin served) :
    ∃ before after, session.fields = before ++ message.contents ++ after ∧
      before.flatten.length = origin := by
  have requestFields {served later : List Request} {request : Request}
      (split : session.requests = served ++ request :: later) :
      session.fields = (session.hello.contents ++ handshakeMessage.contents ++ [session.yData] ++
        served.flatMap Request.contents) ++ request.contents ++
          later.flatMap Request.contents := by
    simp [fields, split]
  have requestOrigin (served : List Request) :
      (session.hello.contents ++ handshakeMessage.contents ++ [session.yData] ++
        served.flatMap Request.contents).flatten.length =
        (session.opening ++ requestBytes served).length := by
    have plain : (served.flatMap Request.contents).flatten = requestBytes served := by
      rw [requestBytes, List.flatMap_def, List.flatMap_def, List.flatten_flatten, List.map_map]
      congr 2
      funext request
      rw [Function.comp_apply, ← request.message_wire, Message.wire, request.message_contents]
    simp [opening, Message.wire, plain]
  cases leg with
  | hello => exact ⟨[], _, by simp only [fields, List.nil_append, List.append_assoc]; rfl, rfl⟩
  | handshake =>
      exact ⟨session.hello.contents, _, by simp only [fields, List.append_assoc]; rfl, rfl⟩
  | seed =>
      refine ⟨session.hello.contents ++ handshakeMessage.contents, _, rfl, ?_⟩
      rw [List.flatten_append]
      rfl
  | header served request later split =>
      obtain ⟨rest, contents⟩ := request.contents_eq
      refine ⟨_, rest ++ later.flatMap Request.contents, ?_, requestOrigin served⟩
      rw [requestFields split, contents]
      simp [Request.header, Message.ofContents]
  | body served request later split head =>
      refine ⟨_, later.flatMap Request.contents, ?_, requestOrigin served⟩
      rw [requestFields split, request.message_contents]

/-- Where no field of the session is cut, none of the message is. -/
theorem inner (leg : session.Leg keystream stage message encrypt origin served) {position : Nat}
    (ends : session.Ends position) (behind : origin ≤ position)
    (within : position ≤ origin + message.wire.length) :
    ∃ index, position = origin + message.wireOffset index := by
  obtain ⟨before, after, fields, rfl⟩ := leg.run
  obtain ⟨index, rfl⟩ := ends
  rw [fields] at behind within ⊢
  exact boundary_inside behind within

/-- The message starts at its place in the stream. -/
theorem here (leg : session.Leg keystream stage message encrypt origin served) :
    encrypt.output message.wire <+: (session.stream keystream).drop origin := by
  have inClear (context : Bytes) (plain : Bytes) :
      ((Context.keyed fun _ => 0).feed context).output plain = plain := combine_zero _ _
  have requestStream {served later : List Request} {request : Request}
      (split : session.requests = served ++ request :: later) :
      ((Context.keyed keystream).feed (requestBytes served)).output request.bytes <+:
        (session.stream keystream).drop (session.opening ++ requestBytes served).length := by
    have front : session.stream keystream =
        (session.opening ++ (Context.keyed keystream).output (requestBytes served)) ++
          ((Context.keyed keystream).feed (requestBytes served)).output
            (request.bytes ++ requestBytes later) := by
      rw [stream, split, List.flatMap_append, Context.output_append, List.flatMap_cons,
        List.append_assoc]
      rfl
    have length : (session.opening ++ requestBytes served).length =
        (session.opening ++ (Context.keyed keystream).output (requestBytes served)).length := by
      simp
    rw [front, length, List.drop_left, Context.output_append]
    exact List.prefix_append _ _
  cases leg with
  | hello =>
      rw [← Context.feed_nil (.keyed fun _ => 0), inClear, List.drop_zero, stream, opening,
        List.append_assoc, List.append_assoc]
      exact List.prefix_append _ _
  | handshake =>
      rw [inClear, stream, opening, List.append_assoc, List.append_assoc, List.drop_left]
      exact List.prefix_append _ _
  | seed =>
      have seed : (seedMessage session.yData session.whole).wire = session.yData := List.append_nil _
      change (Context.feed _ _).output (seedMessage session.yData session.whole).wire <+: _
      rw [inClear, stream, opening, List.append_assoc, List.drop_left, seed]
      exact List.prefix_append _ _
  | header served request later split =>
      refine List.IsPrefix.trans ?_ (requestStream split)
      obtain ⟨rest, contents⟩ := request.contents_eq
      change (Context.feed _ _).output request.header.wire <+: _
      rw [request.header_wire, ← request.message_wire, Message.wire, request.message_contents,
        contents, List.flatten_cons, Context.output_append]
      exact List.prefix_append _ _
  | body served request later split head =>
      change (Context.feed _ _).output request.message.wire <+: _
      rw [request.message_wire]
      exact requestStream split

end Session.Leg

end ThemeSrv
