import ThemeSrv.ClientRuns
import ThemeSrv.EncodeDecode

/-!
# Sessions that break off

A client may stop keeping to the protocol: ask for another server, begin the
handshake with something else, or send a request of an unknown type.  The
daemon shuts the connection down at that message, whatever follows it, and
what it has answered until then are the requests in front of it.
-/

namespace ThemeSrv

open AllocatedBlock ByteString Client ConcatenatedParts Gatekeeper KeystreamCipher TransitionSystem

/-! ### Messages that are refused -/

/-- The handler of a stage does not go on behind such a message. -/
def Refuses : (stage : Stage) → Message stage.struct → Prop
  | .hello, message => message.contents[0]? ≠ some (leBytes 1 protocolCli2Gate)
  | .handshake, message => message.contents ≠ [leBytes 1 c2sConnect, leBytes 1 66]
  | .header, message =>
      ∀ type, message.contents[0]? = some type → RequestId.ofCode (leValue type) = none
  | .seed, _ => False
  | .body _ _, _ => False

section Handlers

variable {server : Server} {cli : Client} {buf : Bytes}

/-- The handler stops reading: it refuses, or it registers no further read. -/
def StopsReading (server : Server) (buf : Bytes) (cli : Client) : Prop :=
  ∃ goesOn cli', handlerRead server buf cli = .done goesOn cli' ∧
    (goesOn = true → cli'.base.hasPendingRead = false) ∧
    cli'.base.posted = cli.base.posted ∧ cli'.base.sock = cli.base.sock

theorem leBytes_one_of_leValue {content : Bytes} {number : Nat} (width : content.length = 1)
    (value : leValue content = number) : content = leBytes 1 number := by
  rw [← value, ← width]
  exact (leBytes_leValue content).symm

/-- A fixed field of a message in a buffer. -/
theorem Message.HeldUpTo.exists_fixed {ns : NetStruct} {message : Message ns} {count : Nat}
    (held : message.HeldUpTo count buf) (index : Nat) {field : NetField} (inside : index < count)
    (found : ns.fields[index]? = some field) (fixedSize : field.type.isVariable = false) :
    ∃ content, message.contents[index]? = some content ∧ content.length = field.memSize ∧
      (buf.drop (ns.memOffset index)).take field.memSize = content := by
  obtain ⟨content, foundContent⟩ := message.exists_content (ns.lt_size_of_found found)
  have width := message.fixed index field content found foundContent fixedSize
  refine ⟨content, foundContent, width, ?_⟩
  rw [← width]
  exact held.field_eq index inside foundContent

theorem stopsReading_hello {message : Message connectionHeader}
    (received : Received .hello buf cli.toClientState)
    (held : message.HeldUpTo connectionHeader.size buf) (refuses : Refuses .hello message) :
    StopsReading server buf cli := by
  obtain ⟨content, found, width, front⟩ : ∃ content, message.contents[0]? = some content ∧
      content.length = 1 ∧ (buf.drop 0).take 1 = content :=
    held.exists_fixed 0 (by decide) rfl rfl
  have other : leValue ((buf.drop 0).take 1) ≠ protocolCli2Gate := by
    intro same
    rw [front] at same
    exact refuses (found.trans (congrArg some (leBytes_one_of_leValue width same)))
  refine ⟨false, cli.visited .incomingRead buf, ?_, nofun, rfl, rfl⟩
  rw [handlerRead_incoming received, if_neg other]

theorem stopsReading_handshake {message : Message encryptHeader}
    (received : Received .handshake buf cli.toClientState)
    (held : message.HeldUpTo encryptHeader.size buf) (refuses : Refuses .handshake message) :
    StopsReading server buf cli := by
  obtain ⟨msgId, foundId, idWidth, idFront⟩ : ∃ content, message.contents[0]? = some content ∧
      content.length = 1 ∧ (buf.drop 0).take 1 = content :=
    held.exists_fixed 0 (by decide) rfl rfl
  obtain ⟨bufsz, foundSize, sizeWidth, sizeFront⟩ : ∃ content,
      message.contents[1]? = some content ∧ content.length = 1 ∧ (buf.drop 1).take 1 = content :=
    held.exists_fixed 1 (by decide) rfl rfl
  by_cases connect : leValue msgId = c2sConnect
  · have case : HandlerCase server cli buf .handshake (handlerRead server buf cli) :=
      handlerCase received
    generalize outcomeEq : handlerRead server buf cli = outcome at case
    cases case with
    | badHandshake => exact ⟨false, _, outcomeEq, nofun, rfl, rfl⟩
    | decrypted allowed =>
        refine ⟨true, _, outcomeEq, fun _ => ?_, rfl, rfl⟩
        have none : cli.base.read.struct = none := received.struct
        simp [ClientBase.hasPendingRead, none]
    | seedWanted size =>
        rw [sizeFront] at size
        have other : message.contents ≠ [leBytes 1 c2sConnect, leBytes 1 66] := refuses
        obtain ⟨first, second, whole⟩ := List.length_eq_two.mp (show message.contents.length = 2 from
          message.covers)
        rw [whole] at foundId foundSize other
        cases foundId
        cases foundSize
        rw [leBytes_one_of_leValue idWidth connect, leBytes_one_of_leValue sizeWidth size] at other
        exact absurd rfl other
  · have gate : ∃ count, cli.handler = .gate count := ⟨0, received.handler⟩
    have clear : cli.flags.encrypted = false := received.encrypted
    have noSeed : cli.flags.wantClientSeed = false := received.wantClientSeed
    have allocated : buf.length = encryptHeader.allocation := received.size
    have room : 2 ≤ encryptHeader.allocation := by decide
    refine ⟨false, cli.visited .handleHandshake buf, ?_, nofun, rfl, rfl⟩
    rw [handlerRead_gate gate, gatekeeperRead_clear clear]
    simp only [encryptedRead, bind_apply, peek, Client.assertD, clear, noSeed, Bool.not_false,
      if_true, handleHandshake, visit, getInteger_apply (show 0 + 1 ≤ buf.length by omega), idFront,
      ne_eq, connect, not_false_eq_true]
    rfl

theorem stopsReading_header {message : Message msgStdHeader}
    (received : Received .header buf cli.toClientState)
    (held : message.HeldUpTo msgStdHeader.size buf) (refuses : Refuses .header message) :
    StopsReading server buf cli := by
  obtain ⟨type, found, -, front⟩ : ∃ content, message.contents[0]? = some content ∧
      content.length = 2 ∧ (buf.drop 0).take 2 = content :=
    held.exists_fixed 0 (by decide) rfl rfl
  have case : HandlerCase server cli buf .header (handlerRead server buf cli) :=
    handlerCase received
  generalize outcomeEq : handlerRead server buf cli = outcome at case
  cases case with
  | unknownMessage => exact ⟨false, _, outcomeEq, nofun, rfl, rfl⟩
  | bodyWanted request known =>
      rw [List.drop_zero] at front
      rw [front, refuses type found] at known
      cases known

/-- A refused message is the last one that is read. -/
theorem stopsReading {stage : Stage} {message : Message stage.struct}
    (received : Received stage buf cli.toClientState)
    (held : message.HeldUpTo stage.struct.size buf) (refuses : Refuses stage message) :
    StopsReading server buf cli := by
  cases stage with
  | hello => exact stopsReading_hello received held refuses
  | handshake => exact stopsReading_handshake received held refuses
  | header => exact stopsReading_header received held refuses
  | seed | body => exact refuses.elim

end Handlers

/-! ### Breaches of a session -/

section Messages

variable {ns : NetStruct} {message : Message ns}

theorem Message.index_eq_zero (wellFormed : ns.WellFormed) {index : Nat}
    (start : message.wireOffset index = 0) : index = 0 := by
  by_contra later
  obtain ⟨content, found⟩ := message.exists_content wellFormed.nonempty
  have first := message.wireOffset_succ found
  have next : message.wireOffset (0 + 1) ≤ message.wireOffset index :=
    boundary_mono _ (Nat.one_le_iff_ne_zero.mpr later)
  have present := List.length_pos_iff.mpr (Message.first_ne_nil wellFormed found)
  omega

/-- No byte of the message has been taken in. -/
theorem Message.field_eq_zero (wellFormed : ns.WellFormed) {position origin index : Nat}
    (place : position = origin + message.wireOffset index) (le : position ≤ origin) : index = 0 := by
  have start : message.wireOffset index = 0 := by omega
  exact Message.index_eq_zero wellFormed start

/-- Fixed fields fit. -/
theorem Message.fits_of_fixed (wellFormed : ns.WellFormed)
    (fixedSize : ∀ field ∈ ns.fields, field.type.isVariable = false) : message.Fits := by
  intro index content found
  obtain ⟨field, foundField⟩ := message.exists_field found
  have length := message.fixed index field content foundField found
    (fixedSize field (List.mem_of_getElem? foundField))
  have next := NetStruct.memOffset_succ foundField
  have below := ns.memOffset_le_memTotal (index + 1)
  have room := ns.memTotal_le_allocation
  rw [wellFormed.netStructCalcsz_eq, length]
  unfold NetStruct.allocation at room
  omega

/-- In front of its first byte a reader may be about to read any message. -/
theorem AtField.swap {encrypt : Context} {c : ClientBase} (atField : AtField message encrypt c)
    (wellFormed : ns.WellFormed) (start : c.read.field = 0) (other : Message ns) :
    AtField other encrypt c where
  standing := atField.standing
  offset := atField.offset
  held := by
    rw [start]
    exact fun index content impossible => absurd impossible (Nat.not_lt_zero _)
  pending := by
    rw [start]
    exact fun content found => Message.first_ne_nil wellFormed found
  keystream := atField.keystream
  position := by
    have position := atField.position
    rw [start, Message.wireOffset, boundary_zero] at position ⊢
    exact position

end Messages

/-- A message that is not taken, where the session would have gone on: its
stage, the context of its sender, and the bytes in front of it. -/
inductive Session.Breach (session : Session) (keystream : Nat → UInt8) :
    (stage : Stage) → Message stage.struct → Context → Bytes → Prop
  | hello (message : Message connectionHeader) (fits : message.Fits)
      (refuses : Refuses .hello message) :
      session.Breach keystream .hello message (.keyed fun _ => 0) []
  | handshake (message : Message encryptHeader) (refuses : Refuses .handshake message) :
      session.Breach keystream .handshake message
        ((Context.keyed fun _ => 0).feed session.hello.wire) session.hello.wire
  | request (message : Message msgStdHeader) (refuses : Refuses .header message) :
      session.Breach keystream .header message
        ((Context.keyed keystream).feed (requestBytes session.requests))
        (session.stream keystream)

section Breaches

variable {server : Server} {session : Session} {srvSeed key : Bytes} {stage : Stage}
  {message : Message stage.struct} {encrypt : Context} {front : Bytes} {cli : Client}
  {position : Nat} {pieces : List Bytes}

theorem Session.hello_wire_pos (session : Session) : 0 < session.hello.wire.length :=
  List.length_pos_iff.mpr (session.hello.wire_ne_nil (by decide))

theorem Session.opening_length (session : Session) :
    session.opening.length = session.hello.wire.length + 2 + 64 := by
  rw [Session.opening, List.length_append, List.length_append, session.whole]
  rfl

theorem Session.opening_le_stream (session : Session) (keystream : Nat → UInt8) :
    session.opening.length ≤ (session.stream keystream).length := by
  rw [Session.stream, List.length_append]
  exact Nat.le_add_right _ _

namespace Session.Breach

variable {keystream : Nat → UInt8}

theorem refuses (breach : session.Breach keystream stage message encrypt front) :
    Refuses stage message := by
  cases breach with
  | hello message fits refuses => exact refuses
  | handshake message refuses => exact refuses
  | request message refuses => exact refuses

theorem fits (breach : session.Breach keystream stage message encrypt front) : message.Fits := by
  cases breach with
  | hello message fits refuses => exact fits
  | handshake message refuses => exact Message.fits_of_fixed (by decide) (by decide)
  | request message refuses => exact Message.fits_of_fixed (by decide) (by decide)

/-- What is in front of a breach is the session. -/
theorem front_of_stream (breach : session.Breach keystream stage message encrypt front) :
    front <+: session.stream keystream := by
  cases breach with
  | hello message fits refuses => exact List.nil_prefix
  | handshake message refuses =>
      rw [Session.stream, Session.opening, List.append_assoc, List.append_assoc]
      exact List.prefix_append _ _
  | request message refuses => exact List.prefix_refl _

end Session.Breach

/-- Places at which no field is cut: not of the session in front of a message,
and not of the message. -/
def BreachEnds (session : Session) (front : Bytes) {ns : NetStruct} (message : Message ns)
    (position : Nat) : Prop :=
  (position ≤ front.length → session.Ends position) ∧
    (front.length ≤ position → position ≤ front.length + message.wire.length →
      ∃ index, position = front.length + message.wireOffset index)

/-- The bytes of a client that breaks off, and whatever it sends after that. -/
def breachStream (front : Bytes) {ns : NetStruct} (message : Message ns) (encrypt : Context)
    (later : Bytes) : Bytes :=
  front ++ (encrypt.output message.wire ++ later)

/-- The client has been served, and has sent the fields in front of some field
of a message that will be refused. -/
structure InsideBreach (server : Server) (session : Session) (srvSeed key : Bytes) {stage : Stage}
    (message : Message stage.struct) (encrypt : Context) (front : Bytes) (position : Nat)
    (cli : Client) : Prop where
  waiting : Waiting stage cli.toClientState
  atField : AtField message encrypt cli.base
  place : position = front.length + message.wireOffset cli.base.read.field
  answered : cli.base.encoded = session.answers server srvSeed key front.length

/-- Where a client is until its breach is complete. -/
inductive BreachAt (server : Server) (session : Session) (srvSeed key : Bytes) {stage : Stage}
    (message : Message stage.struct) (encrypt : Context) (front : Bytes) (position : Nat)
    (cli : Client) : Prop
  | before (sessionAt : SessionAt server session srvSeed key position cli)
      (le : position ≤ front.length)
  | inside (inside : InsideBreach server session srvSeed key message encrypt front position cli)

/-- What the next read of such a client is about: a message of the session in
front of the breach, or the breach. -/
inductive Approach (server : Server) (session : Session) (srvSeed key : Bytes) {stage : Stage}
    (message : Message stage.struct) (encrypt : Context) (front : Bytes) (position : Nat)
    (cli : Client) : Prop
  | before (stage' : Stage) (message' : Message stage'.struct) (encrypt' : Context) (origin : Nat)
      (served : List Request)
      (leg : session.Leg (server.rc4 key) stage' message' encrypt' origin served)
      (waiting : Waiting stage' cli.toClientState) (atField : AtField message' encrypt' cli.base)
      (place : position = origin + message'.wireOffset cli.base.read.field)
      (answered : Answered server srvSeed key stage'.encrypted served cli)
      (ends : origin + message'.wire.length ≤ front.length)
  | inside (inside : InsideBreach server session srvSeed key message encrypt front position cli)

/-- At the start of the breach. -/
theorem SessionAt.insideBreach (sessionAt : SessionAt server session srvSeed key position cli)
    {stage : Stage} (waiting : Waiting stage cli.toClientState) {other message : Message stage.struct}
    (atField : AtField other encrypt cli.base) (start : cli.base.read.field = 0)
    (place : position = front.length) :
    InsideBreach server session srvSeed key message encrypt front position cli where
  waiting := waiting
  atField := atField.swap stage.struct_wellFormed start message
  place := by
    rw [place, start, Message.wireOffset, boundary_zero, Nat.add_zero]
  answered := by
    rw [← place]
    exact sessionAt.answers_eq

theorem SessionAt.approach (sessionAt : SessionAt server session srvSeed key position cli)
    (breach : session.Breach (server.rc4 key) stage message encrypt front)
    (le : position ≤ front.length) :
    Approach server session srvSeed key message encrypt front position cli := by
  have positive := session.hello_wire_pos
  have opening := session.opening_length
  have stream := session.opening_le_stream (server.rc4 key)
  have here := sessionAt
  cases breach with
  | hello message fits refuses =>
      rw [List.length_nil] at le
      cases sessionAt with
      | within stage' message' encrypt' origin served leg waiting atField place answered =>
          cases leg with
          | hello =>
              have start := Message.field_eq_zero (by decide) place le
              exact .inside (here.insideBreach waiting atField start (Nat.le_zero.mp le))
          | handshake => omega
          | seed | header | body =>
              simp only [List.length_append] at place
              omega
      | behind => omega
  | handshake message refuses =>
      cases sessionAt with
      | within stage' message' encrypt' origin served leg waiting atField place answered =>
          cases leg with
          | hello =>
              exact .before .hello session.hello _ 0 [] .hello waiting atField place answered
                (Nat.zero_add _).le
          | handshake =>
              have start := Message.field_eq_zero (by decide) place le
              have reached : position = session.hello.wire.length :=
                le_antisymm le (place ▸ Nat.le_add_right _ _)
              exact .inside (here.insideBreach waiting atField start reached)
          | seed =>
              have two : handshakeMessage.wire.length = 2 := rfl
              rw [List.length_append] at place
              omega
          | header | body =>
              rw [List.length_append] at place
              omega
      | behind => omega
  | request message refuses =>
      cases sessionAt with
      | within stage' message' encrypt' origin served leg waiting atField place answered =>
          refine .before stage' message' encrypt' origin served leg waiting atField place answered ?_
          have fits := leg.here.length_le
          have below := atField.wireOffset_lt
          rw [Context.output_length, List.length_drop] at fits
          omega
      | behind message' fits waiting atField place answered =>
          have start : cli.base.read.field = 0 := Nat.lt_one_iff.mp atField.standing.field_lt
          exact .inside (here.insideBreach waiting atField start place)

theorem BreachAt.approach
    (breachAt : BreachAt server session srvSeed key message encrypt front position cli)
    (breach : session.Breach (server.rc4 key) stage message encrypt front) :
    Approach server session srvSeed key message encrypt front position cli := by
  cases breachAt with
  | before sessionAt le => exact sessionAt.approach breach le
  | inside inside => exact .inside inside

theorem breachAt_readerSide (position : Nat) :
    ReaderSide (BreachAt server session srvSeed key message encrypt front position) := by
  intro cli base read decrypt posted encrypted breachAt
  cases breachAt with
  | before sessionAt le =>
      exact .before (sessionAt_readerSide position read decrypt posted encrypted sessionAt) le
  | inside inside =>
      refine .inside ⟨waiting_readerSide stage read decrypt posted encrypted inside.waiting,
        inside.atField.congr read decrypt, ?_, ?_⟩
      · change position = front.length + message.wireOffset base.read.field
        rw [read]
        exact inside.place
      · change base.posted.flatMap _ = _
        rw [posted]
        exact inside.answered

/-! ### Reading a breach -/

/-- What reading makes of a client: it waits for the rest of its breach, or it
has been shut down at it. -/
inductive BreachRead (server : Server) (session : Session) (srvSeed key : Bytes) {stage : Stage}
    (message : Message stage.struct) (encrypt : Context) (front : Bytes) (position : Nat)
    (cli : Client) : Prop
  | waiting (breachAt : BreachAt server session srvSeed key message encrypt front position cli)
      (usable : cli.base.sock.Usable)
      (missing : position < front.length + message.wire.length)
  | closed (down : cli.base.sock.isDown = true)
      (answered : cli.base.encoded = session.answers server srvSeed key front.length)
      (complete : front.length + message.wire.length ≤ position)

theorem InsideBreach.pumpRead
    (inside : InsideBreach server session srvSeed key message encrypt front position cli)
    (breach : session.Breach (server.rc4 key) stage message encrypt front) (fuel turns : Nat)
    (delivers : cli.base.sock.Delivers pieces)
    (cut : EndsAt (BreachEnds session front message) position pieces) {later : Bytes}
    (stream : pieces.flatten <+: cli.base.awaited message encrypt ++ later)
    (enough : pieces.flatten.length < fuel) :
    ∃ cli', pumpRead server fuel (turns + 1) cli = .done () cli' ∧
      BreachRead server session srvSeed key message encrypt front
        (position + pieces.flatten.length) cli' := by
  have delivery := inside.atField.delivery stage.struct_wellFormed breach.fits
    (fun place ends => ends.2) fuel delivers (inside.place ▸ cut) stream enough
  have case := handleReadCase stage.struct_wellFormed fuel inside.waiting.standing
  have place := inside.place
  have missing := inside.atField.awaited_length
  rw [ThemeSrv.pumpRead]
  simp only [visited_base]
  generalize handleRead fuel cli.base = outcome at delivery case
  cases delivery with
  | waiting c' atField' delivers' position' =>
      cases case with
      | waiting _ frame standing blocked =>
          have below := atField'.wireOffset_lt
          have answered : c'.encoded = session.answers server srvSeed key front.length := by
            rw [ClientBase.encoded, frame.posted]
            exact inside.answered
          refine ⟨_, rfl, .waiting (.inside ⟨inside.waiting.still frame standing, atField', ?_,
            answered⟩) delivers'.toUsable (by omega)⟩
          rw [place, Nat.add_assoc, position']
  | complete image c' rest held delivers' split cut' synchronized =>
      cases case with
      | complete c₁ frame completed =>
          have received : Received stage c₁.read.memory { cli.visited .resumeRead [] with
              base := c₁.released, completed := cli.base.read.struct : Client }.toClientState :=
            inside.waiting.received frame completed
          obtain ⟨goesOn, cli', handled, nothing, posted, sock⟩ : StopsReading server _ _ :=
            stopsReading received held breach.refuses
          have intact : cli'.base.sock.brokenPipe = false := by
            rw [sock]
            exact delivers'.intact
          have answered : cli'.base.encoded = session.answers server srvSeed key front.length := by
            rw [ClientBase.encoded, posted.trans frame.released.posted]
            exact inside.answered
          have lengths := congrArg List.length split
          rw [List.length_append] at lengths
          refine ⟨cli'.shutdown, ?_, .closed cli'.shutdown_isDown answered (by omega)⟩
          cases goesOn with
          | false => simp only [handled, intact, Bool.false_eq_true, if_false]
          | true => simp only [handled, intact, nothing rfl, if_true, Bool.false_eq_true, if_false]

theorem InsideBreach.drop_breachStream
    (inside : InsideBreach server session srvSeed key message encrypt front position cli)
    (later : Bytes) :
    (breachStream front message encrypt later).drop position =
      cli.base.awaited message encrypt ++ later := by
  have below := inside.atField.wireOffset_lt
  rw [breachStream, inside.place, List.drop_length_add_append,
    List.drop_append_of_le_length (by rw [Context.output_length]; exact below.le)]
  rfl

/-- In front of a breach its stream is the one of the session. -/
theorem Session.Leg.drop_breachStream {stage' : Stage} {message' : Message stage'.struct}
    {encrypt' : Context} {origin : Nat} {served : List Request}
    (leg : session.Leg (server.rc4 key) stage' message' encrypt' origin served)
    (breach : session.Breach (server.rc4 key) stage message encrypt front)
    (atField : AtField message' encrypt' cli.base)
    (place : position = origin + message'.wireOffset cli.base.read.field)
    (ends : origin + message'.wire.length ≤ front.length) (later : Bytes) :
    (breachStream front message encrypt later).drop position =
      cli.base.awaited message' encrypt' ++
        (breachStream front message encrypt later).drop (origin + message'.wire.length) := by
  obtain ⟨behind, whole⟩ := breach.front_of_stream
  have below := atField.wireOffset_lt
  have awaited := leg.drop_stream atField place
  rw [← whole, List.drop_append_of_le_length (by omega), List.drop_append_of_le_length ends,
    ← List.append_assoc] at awaited
  have inFront := List.append_cancel_right awaited
  rw [breachStream, List.drop_append_of_le_length (by omega), List.drop_append_of_le_length ends,
    inFront, List.append_assoc]

theorem BreachAt.missing
    (breachAt : BreachAt server session srvSeed key message encrypt front position cli) :
    position < front.length + message.wire.length := by
  cases breachAt with
  | before sessionAt le =>
      have positive := List.length_pos_iff.mpr (message.wire_ne_nil stage.struct_wellFormed)
      omega
  | inside inside =>
      have below := inside.atField.wireOffset_lt
      rw [inside.place]
      omega

/-- `pump_read` goes through the session up to the breach, and no further. -/
theorem BreachAt.pumpRead (derived : server.derive 0 session.yData = some (srvSeed, key))
    (short : server.ShortAddresses) (fitting : session.Fits)
    (breach : session.Breach (server.rc4 key) stage message encrypt front) (fuel turns : Nat)
    (breachAt : BreachAt server session srvSeed key message encrypt front position cli)
    (delivers : cli.base.sock.Delivers pieces) {later : Bytes}
    (next : NextPieces (BreachEnds session front message) (breachStream front message encrypt later)
      position pieces)
    (enough : pieces.flatten.length < fuel) (turnsEnough : pieces.flatten.length < turns) :
    ∃ cli', pumpRead server fuel turns cli = .done () cli' ∧
      BreachRead server session srvSeed key message encrypt front
        (position + pieces.flatten.length) cli' := by
  induction turns generalizing cli pieces position with
  | zero => exact absurd turnsEnough (Nat.not_lt_zero _)
  | succ turns ih =>
      obtain ⟨cut, stream⟩ := next
      cases breachAt.approach breach with
      | inside inside =>
          rw [inside.drop_breachStream] at stream
          exact inside.pumpRead breach fuel turns delivers cut stream enough
      | before stage' message' encrypt' origin served leg waiting atField place answered ends =>
          have awaited := leg.drop_breachStream breach atField place ends later
          rw [awaited] at stream
          have inner (place : Nat) (cutHere : BreachEnds session front message place)
              (starts : origin ≤ place) (upTo : place ≤ origin + message'.wire.length) :
              ∃ index, place = origin + message'.wireOffset index :=
            leg.inner (cutHere.1 (upTo.trans ends)) starts upTo
          rcases leg.pumpRead derived short fitting fuel turns waiting atField place answered delivers
            inner cut stream enough with
            ⟨cli', pumped, sessionAt, usable, inFront⟩ |
              ⟨cli', rest, pumped, sessionAt, healthy, cut', split⟩
          · have breachAt' : BreachAt server session srvSeed key message encrypt front
                (position + pieces.flatten.length) cli' :=
              .before sessionAt (inFront.le.trans ends)
            exact ⟨cli', pumped, .waiting breachAt' usable breachAt'.missing⟩
          · have below := atField.wireOffset_lt
            have length := atField.awaited_length
            have lengths := congrArg List.length split
            rw [List.length_append] at lengths
            rw [split, List.prefix_append_right_inj] at stream
            obtain ⟨last, pumped', read⟩ := ih (.before sessionAt ends) healthy ⟨cut', stream⟩
              (by omega) (by omega)
            refine ⟨last, pumped.trans pumped', ?_⟩
            have reached : origin + message'.wire.length + rest.flatten.length =
                position + pieces.flatten.length := by omega
            rwa [reached] at read

theorem BreachAt.handleDispatch (derived : server.derive 0 session.yData = some (srvSeed, key))
    (short : server.ShortAddresses) (fitting : session.Fits)
    (breach : session.Breach (server.rc4 key) stage message encrypt front)
    (breachAt : BreachAt server session srvSeed key message encrypt front position cli)
    (usable : cli.base.sock.Usable) {event : PollEvent} (brings : event.Brings pieces)
    {later : Bytes}
    (next : NextPieces (BreachEnds session front message) (breachStream front message encrypt later)
      position pieces) :
    ∃ cli', handleDispatch server event (cli.polled event) = .alive cli' ∧
      BreachRead server session srvSeed key message encrypt front
        (position + pieces.flatten.length) cli' := by
  refine (breachAt_readerSide position).handleDispatch breachAt usable brings ?_ ?_
  · intro cli breachAt delivers
    exact breachAt.pumpRead derived short fitting breach event.fuel event.fuel delivers next
      brings.enough
      brings.enough
  · rintro rfl cli breachAt usable
    exact .waiting breachAt usable breachAt.missing

theorem BreachAt.handleEvents (derived : server.derive 0 session.yData = some (srvSeed, key))
    (short : server.ShortAddresses) (fitting : session.Fits)
    (breach : session.Breach (server.rc4 key) stage message encrypt front)
    (breachAt : BreachAt server session srvSeed key message encrypt front position cli)
    (usable : cli.base.sock.Usable) (polling : cli.flags.polling = true)
    (reached : ReachableConnection server (.alive cli)) {events : List PollEvent}
    {deliveries : List (List Bytes)} (brings : List.Forall₂ PollEvent.Brings events deliveries)
    {later : Bytes}
    (next : NextPieces (BreachEnds session front message) (breachStream front message encrypt later)
      position deliveries.flatten)
    (missing : position + deliveries.flatten.flatten.length <
      front.length + message.wire.length) :
    ∃ cli', handleEvents server events cli = .alive cli' ∧
      BreachAt server session srvSeed key message encrypt front
        (position + deliveries.flatten.flatten.length) cli' ∧
      cli'.base.sock.Usable ∧ cli'.flags.polling = true ∧
      ReachableConnection server (.alive cli') := by
  refine handleEvents_brings ?_ breachAt usable polling reached brings next missing
  intro position cli event pieces breachAt usable brings next within
  obtain ⟨cli', alive, read⟩ :=
    breachAt.handleDispatch derived short fitting breach usable brings next
  cases read with
  | waiting breachAt' usable' => exact ⟨cli', alive, breachAt', usable'⟩
  | closed down answered complete => exact absurd complete (Nat.not_le.mpr within)

end Breaches

/-- However a client breaks off: the daemon keeps the connection until the
message that it refuses is complete, and shuts it down at that message.  It has
answered what is in front of the message, and answers nothing that comes
behind it. -/
theorem session_refused (server : Server) (short : server.ShortAddresses) (session : Session)
    (fitting : session.Fits) {srvSeed key : Bytes}
    (derived : server.derive 0 session.yData = some (srvSeed, key))
    {stage : Stage} {message : Message stage.struct} {encrypt : Context} {front later : Bytes}
    (breach : session.Breach (server.rc4 key) stage message encrypt front)
    {sock : Socket} (unused : sock.calls = []) {events : List PollEvent}
    {deliveries : List (List Bytes)} (brings : List.Forall₂ PollEvent.Brings events deliveries)
    {last : PollEvent} {pieces : List Bytes} (bringsLast : last.Brings pieces)
    (cut : EndsAt (BreachEnds session front message) 0 (deliveries.flatten ++ pieces))
    (stream : (deliveries.flatten ++ pieces).flatten <+: breachStream front message encrypt later)
    (missing : deliveries.flatten.flatten.length < front.length + message.wire.length)
    (complete : front.length + message.wire.length ≤
      (deliveries.flatten ++ pieces).flatten.length) :
    ∃ cli cli', handleEvents server events (Client.new sock true) = .alive cli ∧
      cli.base.sock.isDown = false ∧
      handleDispatch server last (cli.polled last) = .alive cli' ∧
      ReachableConnection server (.alive cli') ∧ cli'.base.sock.isDown = true ∧
      cli'.base.sock.sent ++ cli'.base.unsent = session.answers server srvSeed key front.length ∧
      ∀ next, ConnectionStep server (.alive cli') next →
        ∃ gone, next = .destroyed gone ∧ gone.base.posted = cli'.base.posted := by
  have start : BreachAt server session srvSeed key message encrypt front 0 (Client.new sock true) :=
    .before (sessionAt_new sock) (Nat.zero_le _)
  have all : NextPieces (BreachEnds session front message)
      (breachStream front message encrypt later) 0 (deliveries.flatten ++ pieces) := ⟨cut, stream⟩
  obtain ⟨nextEvents, nextLast⟩ := all.split
  rw [List.flatten_append, List.length_append] at complete
  obtain ⟨cli, run, breachAt, usable, polling, reached⟩ := start.handleEvents derived short fitting
    breach (Socket.usable_of_unused unused) rfl
    (reachable_start (ConnectionStart.accepted sock true unused))
    brings nextEvents (by omega)
  obtain ⟨cli', alive, read⟩ :=
    breachAt.handleDispatch derived short fitting breach usable bringsLast nextLast
  have reached' := reached.tail (.of_up usable.up polling alive)
  cases read with
  | waiting breachAt' usable' missing' => omega
  | closed down answered complete' =>
      have sending : Sending cli'.base := (sending_rule server).history_client reached'
      refine ⟨cli, cli', run, usable.up, alive, reached', down,
        sending.represented.conserved.trans answered, ?_⟩
      intro next after
      cases after with
      | dispatch _ event polling hangUp =>
          rw [handleDispatch_hup (hangUp down)]
          exact ⟨_, rfl, rfl⟩

/-- A header of a type that no request has. -/
def unknownHeader : Message Stage.header.struct :=
  .ofContents [leBytes 2 99] rfl (by decide)

theorem unknownHeader_refused : Refuses .header unknownHeader := by
  intro type found
  cases found
  rfl

theorem unknownHeader_wire : unknownHeader.wire.length = 2 := rfl

/-- Two requests, and then a header of an unknown type with more behind it. -/
theorem session_refused_unknown :
    ∃ srvSeed key last cli cli', plainServer.derive 0 shortSession.yData = some (srvSeed, key) ∧
      handleEvents plainServer [pieceArrives (shortSession.stream (plainServer.rc4 key))]
        acceptedClient = .alive cli ∧ cli.base.sock.isDown = false ∧
      handleDispatch plainServer last (cli.polled last) = .alive cli' ∧
      cli'.base.sock.isDown = true ∧
      cli'.base.sock.sent ++ cli'.base.unsent = handshakeReply srvSeed ++
        (Context.keyed (plainServer.rc4 key)).output
          (shortSession.requests.flatMap (Request.built plainServer)) := by
  obtain ⟨srvSeed, key, derived⟩ : ∃ srvSeed key,
      plainServer.derive 0 shortSession.yData = some (srvSeed, key) := ⟨_, _, rfl⟩
  generalize frontEq : shortSession.stream (plainServer.rc4 key) = front
  generalize wireEq : ((Context.keyed (plainServer.rc4 key)).feed
    (requestBytes shortSession.requests)).output unknownHeader.wire = wire
  have opening : shortSession.opening.length = 117 := by decide
  have requests : (requestBytes shortSession.requests).length = 24 := by decide
  have length : front.length = 141 := by
    rw [← frontEq, Session.stream, List.length_append, Context.output_length, opening]
    exact congrArg _ requests
  have two : wire.length = 2 := by
    rw [← wireEq, Context.output_length]
    rfl
  have present : front ≠ [] := by
    rw [← List.length_pos_iff]
    omega
  have more : wire ++ [1, 2, 3] ≠ [] := by simp
  have breach : shortSession.Breach (plainServer.rc4 key) .header unknownHeader
      ((Context.keyed (plainServer.rc4 key)).feed (requestBytes shortSession.requests)) front := by
    rw [← frontEq]
    exact .request unknownHeader unknownHeader_refused
  have total : (wire ++ [1, 2, 3]).length = 5 := by
    rw [List.length_append, two]
    rfl
  have cut : EndsAt (BreachEnds shortSession front unknownHeader) 0
      [front, wire ++ [1, 2, 3]] := by
    refine ⟨⟨fun _ => ⟨19, ?_⟩, fun _ _ => ⟨0, Nat.zero_add _⟩⟩,
      ⟨fun behind => ?_, fun _ inside => ?_⟩, trivial⟩
    · rw [length]
      decide +kernel
    · omega
    · rw [unknownHeader_wire] at inside
      omega
  have stream : [front, wire ++ [1, 2, 3]].flatten <+: breachStream front unknownHeader
      ((Context.keyed (plainServer.rc4 key)).feed (requestBytes shortSession.requests)) [1, 2, 3] := by
    simp only [breachStream, wireEq, List.flatten_cons, List.flatten_nil, List.append_nil,
      List.prefix_refl]
  have missing : [front].flatten.length < front.length + unknownHeader.wire.length := by
    rw [List.flatten_singleton, unknownHeader_wire]
    omega
  have complete : front.length + unknownHeader.wire.length ≤
      [front, wire ++ [1, 2, 3]].flatten.length := by
    rw [List.flatten_cons, List.flatten_singleton, List.length_append, unknownHeader_wire]
    omega
  obtain ⟨cli, cli', run, up, alive, -, down, answers, -⟩ := session_refused plainServer
    plainServer_shortAddresses shortSession shortSession_fits derived breach
    (show (⟨[], .wouldBlock, [], []⟩ : Socket).calls = [] from rfl)
    (.cons (pieceArrives_brings present) .nil) (pieceArrives_brings more) cut stream missing complete
  subst frontEq
  refine ⟨srvSeed, key, _, cli, cli', derived, run, up, alive, down, answers.trans ?_⟩
  rw [length, Session.answers, opening, if_neg (by decide),
    show 141 - 117 = (requestBytes shortSession.requests).length from requests.symm,
    requestsWithin_all]

end ThemeSrv
