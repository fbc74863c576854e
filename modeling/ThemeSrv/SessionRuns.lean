import ThemeSrv.SessionHandlers

/-!
# Runs of a session

A peer that keeps to the protocol is served: wherever the pieces of its stream
end, as long as no field is cut, the daemon is left waiting for exactly what
has not arrived, and has answered all that has.
-/

namespace ThemeSrv

open AllocatedBlock ByteString Client ConcatenatedParts Gatekeeper KeystreamCipher TransitionSystem

/-! ### Events -/

section Events

variable {server : Server} {session : Session} {srvSeed key : Bytes} {cli : Client} {position : Nat}
  {pieces : List Bytes}

/-- A client of a session always waits for something. -/
theorem SessionAt.hasPendingRead (sessionAt : SessionAt server session srvSeed key position cli) :
    cli.base.hasPendingRead = true := by
  cases sessionAt with
  | within stage message encrypt origin served leg waiting =>
      simp [ClientBase.hasPendingRead, waiting.standing.struct]
  | behind message fits waiting =>
      simp [ClientBase.hasPendingRead, waiting.standing.struct]

theorem AtField.congr {ns : NetStruct} {message : Message ns} {encrypt : Context} {c c' : ClientBase}
    (atField : AtField message encrypt c) (read : c'.read = c.read) (decrypt : c'.decrypt = c.decrypt) :
    AtField message encrypt c' := by
  constructor
  · rw [read]
    exact atField.standing
  · rw [read]
    exact atField.offset
  · rw [read]
    exact atField.held
  · rw [read]
    exact atField.pending
  · rw [decrypt]
    exact atField.keystream
  · rw [read, decrypt]
    exact atField.position

/-- Without a piece `handle_read` waits on. -/
theorem AtField.handleRead_nothing {ns : NetStruct} {message : Message ns} {encrypt : Context}
    {c : ClientBase} (atField : AtField message encrypt c) (wellFormed : ns.WellFormed)
    (fits : message.Fits) (fuel : Nat) (enough : 0 < fuel) (delivers : c.sock.Delivers []) :
    ∃ c', handleRead fuel c = .done none c' ∧ AtField message encrypt c' ∧
      c'.sock.Usable ∧ ReadFrame ns c c' ∧ c'.read.Standing ns := by
  have nowhere (place : Nat) : False → 0 ≤ place → place ≤ 0 + message.wire.length →
      ∃ index, place = 0 + message.wireOffset index := False.elim
  have empty : [].flatten <+: c.awaited message encrypt ++ [] := List.nil_prefix
  have delivery := atField.delivery wellFormed fits nowhere fuel delivers trivial empty enough
  have case := handleReadCase wellFormed fuel atField.standing
  generalize handleRead fuel c = outcome at delivery case
  cases delivery with
  | waiting c' atField' delivers' position =>
      cases case with
      | waiting _ frame standing blocked =>
          exact ⟨c', rfl, atField', delivers'.toUsable, frame, standing⟩
  | complete image c' rest held delivers' split cut synchronized =>
      have missing := atField.awaited_length
      have below := atField.wireOffset_lt
      have none := congrArg List.length split
      rw [List.length_append, List.flatten_nil, List.length_nil] at none
      omega

/-- Inside a message of its session, `pump_read` waits for the rest of it, or
handles it and goes on behind it. -/
theorem Session.Leg.pumpRead (derived : server.derive 0 session.yData = some (srvSeed, key))
    (short : server.ShortAddresses) (fits : session.Fits) (fuel turns : Nat) {stage : Stage}
    {message : Message stage.struct} {encrypt : Context} {origin : Nat} {served : List Request}
    (leg : session.Leg (server.rc4 key) stage message encrypt origin served)
    (waiting : Waiting stage cli.toClientState) (atField : AtField message encrypt cli.base)
    (place : position = origin + message.wireOffset cli.base.read.field)
    (answered : Answered server srvSeed key stage.encrypted served cli)
    (delivers : cli.base.sock.Delivers pieces) {ends : Nat → Prop}
    (inner : ∀ position, ends position → origin ≤ position →
      position ≤ origin + message.wire.length →
      ∃ index, position = origin + message.wireOffset index)
    (cut : EndsAt ends position pieces) {later : Bytes}
    (stream : pieces.flatten <+: cli.base.awaited message encrypt ++ later)
    (enough : pieces.flatten.length < fuel) :
    (∃ cli', ThemeSrv.pumpRead server fuel (turns + 1) cli = .done () cli' ∧
      SessionAt server session srvSeed key (position + pieces.flatten.length) cli' ∧
      cli'.base.sock.Usable ∧
      position + pieces.flatten.length < origin + message.wire.length) ∨
    ∃ cli' rest, ThemeSrv.pumpRead server fuel (turns + 1) cli =
        ThemeSrv.pumpRead server fuel turns cli' ∧
      SessionAt server session srvSeed key (origin + message.wire.length) cli' ∧
      cli'.base.sock.Delivers rest ∧ EndsAt ends (origin + message.wire.length) rest ∧
      pieces.flatten = cli.base.awaited message encrypt ++ rest.flatten := by
  have delivery := atField.delivery stage.struct_wellFormed (leg.fits fits) inner fuel delivers
    (place ▸ cut) stream enough
  have case := handleReadCase stage.struct_wellFormed fuel waiting.standing
  rw [ThemeSrv.pumpRead]
  simp only [visited_base]
  generalize handleRead fuel cli.base = outcome at delivery case
  cases delivery with
  | waiting c' atField' delivers' position' =>
      cases case with
      | waiting _ frame standing blocked =>
          have below := atField'.wireOffset_lt
          refine Or.inl ⟨_, rfl, .within stage message encrypt origin served leg
            (waiting.still frame standing) atField' ?_ ?_, delivers'.toUsable, by omega⟩
          · rw [place, Nat.add_assoc, position']
          · exact answered.congr frame.posted frame.encrypt
  | complete image c' rest held delivers' split cut' synchronized =>
      cases case with
      | complete c₁ frame completed =>
          have handed : Answered server srvSeed key stage.encrypted served
              { cli.visited .resumeRead [] with
                base := c₁.released, completed := cli.base.read.struct } :=
            answered.congr frame.released.posted frame.released.encrypt
          obtain ⟨cli', handled, sessionAt, healthy⟩ := leg.goesOn derived short
            (waiting.received frame completed) held synchronized handed delivers'
          refine Or.inr ⟨cli', rest, ?_, sessionAt, healthy, cut', split⟩
          simp only [handled, healthy.intact, sessionAt.hasPendingRead, if_true,
            Bool.false_eq_true, if_false]

/-- What a client awaits of a message is what its session goes on with. -/
theorem Session.Leg.drop_stream {stage : Stage} {message : Message stage.struct} {encrypt : Context}
    {origin : Nat} {served : List Request}
    (leg : session.Leg (server.rc4 key) stage message encrypt origin served)
    (atField : AtField message encrypt cli.base)
    (place : position = origin + message.wireOffset cli.base.read.field) :
    (session.stream (server.rc4 key)).drop position = cli.base.awaited message encrypt ++
      (session.stream (server.rc4 key)).drop (origin + message.wire.length) := by
  obtain ⟨later, here⟩ := leg.here
  have below := atField.wireOffset_lt
  rw [place, ← List.drop_drop, ← here, ClientBase.awaited,
    List.drop_append_of_le_length (by rw [Context.output_length]; exact below.le), ← List.drop_drop,
    ← here, List.drop_left' (Context.output_length _ _)]

/-- The pieces are the next bytes of a stream, cut at the given positions. -/
structure NextPieces (ends : Nat → Prop) (stream : Bytes) (position : Nat) (pieces : List Bytes) :
    Prop where
  cut : EndsAt ends position pieces
  here : pieces.flatten <+: stream.drop position

/-- `pump_read` takes in all that has arrived. -/
theorem SessionAt.pumpRead (derived : server.derive 0 session.yData = some (srvSeed, key))
    (short : server.ShortAddresses) (fits : session.Fits) (fuel turns : Nat)
    (sessionAt : SessionAt server session srvSeed key position cli)
    (delivers : cli.base.sock.Delivers pieces)
    (next : NextPieces session.Ends (session.stream (server.rc4 key)) position pieces)
    (enough : pieces.flatten.length < fuel) (turnsEnough : pieces.flatten.length < turns) :
    ∃ cli', pumpRead server fuel turns cli = .done () cli' ∧
      SessionAt server session srvSeed key (position + pieces.flatten.length) cli' ∧
      cli'.base.sock.Usable := by
  induction turns generalizing cli pieces position with
  | zero => exact absurd turnsEnough (Nat.not_lt_zero _)
  | succ turns ih =>
      obtain ⟨cut, stream⟩ := next
      cases sessionAt with
      | within stage message encrypt origin served leg waiting atField place answered =>
          have awaited := leg.drop_stream atField place
          rw [awaited] at stream
          rcases leg.pumpRead derived short fits fuel turns waiting atField place answered delivers
            (fun place ends => leg.inner ends) cut stream enough with
            ⟨cli', pumped, sessionAt, usable, -⟩ |
              ⟨cli', rest, pumped, sessionAt, healthy, cut', split⟩
          · exact ⟨cli', pumped, sessionAt, usable⟩
          · have below := atField.wireOffset_lt
            have length := atField.awaited_length
            have lengths := congrArg List.length split
            rw [List.length_append] at lengths
            rw [split, List.prefix_append_right_inj] at stream
            obtain ⟨last, pumped', sessionAt', usable⟩ :=
              ih sessionAt healthy ⟨cut', stream⟩ (by omega) (by omega)
            refine ⟨last, pumped.trans pumped', ?_, usable⟩
            have reached : origin + message.wire.length + rest.flatten.length =
                position + pieces.flatten.length := by omega
            rwa [reached] at sessionAt'
      | behind message fitsHeader waiting atField place answered =>
          have nothing : pieces = [] := by
            rw [place, List.drop_length, List.prefix_nil] at stream
            cases pieces with
            | nil => rfl
            | cons piece pieces =>
                rw [List.flatten_cons, List.append_eq_nil_iff] at stream
                exact absurd stream.1 (delivers.nonempty piece List.mem_cons_self)
          subst nothing
          obtain ⟨c', handled, atField', usable, frame, standing⟩ :=
            atField.handleRead_nothing (by decide) fitsHeader fuel enough delivers
          rw [ThemeSrv.pumpRead]
          simp only [visited_base, handled]
          exact ⟨_, rfl, .behind message fitsHeader (waiting.still frame standing) atField' place
            (answered.congr frame.posted frame.encrypt), usable⟩

/-- What does not depend on the socket of a client or on its queue. -/
def ReaderSide (place : Client → Prop) : Prop :=
  ∀ ⦃cli : Client⦄ ⦃base : ClientBase⦄, base.read = cli.base.read →
    base.decrypt = cli.base.decrypt → base.posted = cli.base.posted →
    base.encrypt = cli.base.encrypt → place cli → place { cli with base := base }

theorem waiting_readerSide (stage : Stage) :
    ReaderSide fun cli => Waiting stage cli.toClientState := by
  intro cli base read decrypt posted encrypt waiting
  refine ⟨waiting.toAtStage.withBase base, ?_, ?_⟩
  · change base.read.Standing stage.struct
    rw [read]
    exact waiting.standing
  · change ∀ request head, stage = .body request head →
      1 ≤ base.read.field ∧ base.read.memory.take 2 = head.take 2
    rw [read]
    exact waiting.head

theorem sessionAt_readerSide (position : Nat) :
    ReaderSide (SessionAt server session srvSeed key position) := by
  intro cli base read decrypt posted encrypt sessionAt
  cases sessionAt with
  | within stage message encrypt' origin served leg waiting atField place answered =>
      refine .within stage message encrypt' origin served leg
        (waiting_readerSide stage read decrypt posted encrypt waiting)
        (atField.congr read decrypt) ?_ (answered.congr posted encrypt)
      change position = origin + message.wireOffset base.read.field
      rw [read]
      exact place
  | behind message fits waiting atField place answered =>
      exact .behind message fits (waiting_readerSide .header read decrypt posted encrypt waiting)
        (atField.congr read decrypt) place (answered.congr posted encrypt)

/-- An event that tells of pieces that have arrived, on a socket that does not
fail.  `fuel` covers the loops. -/
structure PollEvent.Brings (event : PollEvent) (pieces : List Bytes) : Prop where
  inbound : event.inbound = pieces.map .data
  idle : event.idle = .wouldBlock
  nonempty : ∀ piece ∈ pieces, piece ≠ []
  healthy : ∀ answer ∈ event.outbound, answer.isError = false
  noHangUp : event.hup = false
  readable : event.read = true ∨ pieces = []
  enough : pieces.flatten.length < event.fuel

/-- An event leaves the reader of a client where it is until it runs. -/
theorem ReaderSide.pumped {place : Client → Prop} (readerSide : ReaderSide place)
    (here : place cli) (usable : cli.base.sock.Usable) {event : PollEvent}
    (brings : event.Brings pieces) :
    place ((cli.polled event).pumped event) ∧
      ((cli.polled event).pumped event).base.sock.Delivers pieces := by
  have polled : place (cli.polled event) := readerSide rfl rfl rfl rfl here
  have delivers : (cli.polled event).base.sock.Delivers pieces :=
    ⟨⟨usable.up, usable.intact⟩, brings.inbound, brings.idle, brings.nonempty, brings.healthy⟩
  rw [Client.pumped]
  split
  · have frame := pumpWriteFrame (cli.polled event).base
    refine ⟨readerSide frame.read frame.decrypt frame.posted frame.encrypt polled, ?_⟩
    exact pumpWrite_keeps (fun c => c.sock.Delivers pieces)
      (fun _ delivers => handleWrite_delivers delivers) delivers
  · exact ⟨polled, delivers⟩

/-- An event does to a client what `pump_read` does with its pieces. -/
theorem ReaderSide.handleDispatch {place after : Client → Prop} (readerSide : ReaderSide place)
    (here : place cli) (usable : cli.base.sock.Usable) {event : PollEvent}
    (brings : event.Brings pieces)
    (reads : ∀ cli, place cli → cli.base.sock.Delivers pieces →
      ∃ cli', ThemeSrv.pumpRead server event.fuel event.fuel cli = .done () cli' ∧ after cli')
    (nothing : pieces = [] → ∀ cli, place cli → cli.base.sock.Usable → after cli) :
    ∃ cli', ThemeSrv.handleDispatch server event (cli.polled event) = .alive cli' ∧ after cli' := by
  obtain ⟨here', delivers⟩ := readerSide.pumped here usable brings
  simp only [handleDispatch_up brings.noHangUp, delivers.intact, Bool.false_eq_true, if_false]
  cases read : event.read with
  | true =>
      obtain ⟨cli', done, reached⟩ := reads _ here' delivers
      simp only [if_true, done]
      exact ⟨cli', rfl, reached⟩
  | false =>
      have none : pieces = [] := brings.readable.resolve_left (by simp [read])
      exact ⟨_, rfl, nothing none _ here' delivers.toUsable⟩

theorem SessionAt.handleDispatch (derived : server.derive 0 session.yData = some (srvSeed, key))
    (short : server.ShortAddresses) (fits : session.Fits)
    (sessionAt : SessionAt server session srvSeed key position cli)
    (usable : cli.base.sock.Usable) {event : PollEvent} (brings : event.Brings pieces)
    (next : NextPieces session.Ends (session.stream (server.rc4 key)) position pieces) :
    ∃ cli', handleDispatch server event (cli.polled event) = .alive cli' ∧
      SessionAt server session srvSeed key (position + pieces.flatten.length) cli' ∧
      cli'.base.sock.Usable := by
  refine (sessionAt_readerSide position).handleDispatch sessionAt usable brings ?_ ?_
  · intro cli sessionAt delivers
    exact sessionAt.pumpRead derived short fits event.fuel event.fuel delivers next brings.enough
      brings.enough
  · rintro rfl cli sessionAt usable
    exact ⟨sessionAt, usable⟩

theorem EndsAt.append {ends : Nat → Prop} {start : Nat} {first second : List Bytes}
    (cut : EndsAt ends start (first ++ second)) :
    EndsAt ends start first ∧ EndsAt ends (start + first.flatten.length) second := by
  induction first generalizing start with
  | nil => exact ⟨trivial, cut⟩
  | cons piece first ih =>
      obtain ⟨front, behind⟩ := ih cut.2
      refine ⟨⟨cut.1, front⟩, ?_⟩
      rwa [List.flatten_cons, List.length_append, ← Nat.add_assoc]

theorem NextPieces.split {ends : Nat → Prop} {stream : Bytes} {first second : List Bytes}
    (next : NextPieces ends stream position (first ++ second)) :
    NextPieces ends stream position first ∧
      NextPieces ends stream (position + first.flatten.length) second := by
  obtain ⟨front, behind⟩ := next.cut.append
  have here := next.here
  rw [List.flatten_append] at here
  refine ⟨⟨front, (List.prefix_append _ _).trans here⟩, behind, ?_⟩
  obtain ⟨later, whole⟩ := here
  rw [← List.drop_drop, ← whole, List.append_assoc, List.drop_left]
  exact List.prefix_append _ _

/-- An event of a client that is up is a step of its connection. -/
theorem ConnectionStep.of_up (up : cli.base.sock.isDown = false) (polling : cli.flags.polling = true)
    {event : PollEvent} {cli' : Client}
    (alive : handleDispatch server event (cli.polled event) = .alive cli') :
    ConnectionStep server (.alive cli) (.alive cli') := by
  rw [← alive]
  refine .dispatch cli event polling fun down => ?_
  rw [up] at down
  cases down

/-- A run of events takes in all that they bring, if each of them does. -/
theorem handleEvents_brings {At : Nat → Client → Prop} {ends : Nat → Prop} {stream : Bytes}
    {bound : Nat}
    (step : ∀ ⦃position : Nat⦄ ⦃cli : Client⦄ ⦃event : PollEvent⦄ ⦃pieces : List Bytes⦄,
      At position cli → cli.base.sock.Usable → event.Brings pieces →
      NextPieces ends stream position pieces → position + pieces.flatten.length < bound →
      ∃ cli', handleDispatch server event (cli.polled event) = .alive cli' ∧
        At (position + pieces.flatten.length) cli' ∧ cli'.base.sock.Usable)
    (here : At position cli) (usable : cli.base.sock.Usable)
    (polling : cli.flags.polling = true) (reached : ReachableConnection server (.alive cli))
    {events : List PollEvent} {deliveries : List (List Bytes)}
    (brings : List.Forall₂ PollEvent.Brings events deliveries)
    (next : NextPieces ends stream position deliveries.flatten)
    (within : position + deliveries.flatten.flatten.length < bound) :
    ∃ cli', handleEvents server events cli = .alive cli' ∧
      At (position + deliveries.flatten.flatten.length) cli' ∧
      cli'.base.sock.Usable ∧ cli'.flags.polling = true ∧
      ReachableConnection server (.alive cli') := by
  induction brings generalizing cli position with
  | nil => exact ⟨cli, rfl, here, usable, polling, reached⟩
  | @cons event pieces events deliveries bringsOne bringsRest ih =>
      rw [List.flatten_cons] at next
      rw [List.flatten_cons, List.flatten_append, List.length_append] at within
      obtain ⟨first, later⟩ := next.split
      obtain ⟨cli', alive, here', usable'⟩ := step here usable bringsOne first (by omega)
      have polling' : cli'.flags.polling = true := (handleDispatch_polling alive).trans polling
      obtain ⟨last, run, lastAt, lastUsable, lastPolling, lastReached⟩ :=
        ih here' usable' polling' (reached.tail (.of_up usable.up polling alive)) later (by omega)
      refine ⟨last, ?_, ?_, lastUsable, lastPolling, lastReached⟩
      · rw [ThemeSrv.handleEvents, alive]
        exact run
      · rw [List.flatten_cons, List.flatten_append, List.length_append, ← Nat.add_assoc]
        exact lastAt

theorem Socket.usable_of_unused {sock : Socket} (unused : sock.calls = []) : sock.Usable := by
  constructor
  · rw [Socket.isDown, unused]
    rfl
  · rw [Socket.brokenPipe, unused]
    rfl

theorem sessionAt_new (sock : Socket) :
    SessionAt server session srvSeed key 0 (Client.new sock true) := by
  refine sessionAt_start .hello (waiting_new sock true) ⟨rfl, rfl, rfl, rfl, rfl, rfl⟩ ⟨?_, ?_⟩
  · exact fun _ => ⟨rfl, rfl⟩
  · intro encrypted
    cases encrypted

/-- A new client takes in its session as it arrives. -/
theorem Session.handleEvents_new (derived : server.derive 0 session.yData = some (srvSeed, key))
    (short : server.ShortAddresses) (fits : session.Fits) {sock : Socket} (unused : sock.calls = [])
    {events : List PollEvent} {deliveries : List (List Bytes)}
    (brings : List.Forall₂ PollEvent.Brings events deliveries)
    (cut : EndsAt session.Ends 0 deliveries.flatten)
    (stream : deliveries.flatten.flatten <+: session.stream (server.rc4 key)) :
    ∃ cli, handleEvents server events (Client.new sock true) = .alive cli ∧
      SessionAt server session srvSeed key deliveries.flatten.flatten.length cli ∧
      cli.base.sock.Usable ∧ ReachableConnection server (.alive cli) := by
  obtain ⟨cli, run, sessionAt, usable, -, reached⟩ := handleEvents_brings
    (fun _ _ _ _ sessionAt usable brings next _ =>
      sessionAt.handleDispatch derived short fits usable brings next)
    (sessionAt_new sock) (Socket.usable_of_unused unused) rfl
    (reachable_start (ConnectionStart.accepted sock true unused)) brings ⟨cut, stream⟩
    (Nat.lt_succ_self _)
  rw [Nat.zero_add] at sessionAt
  exact ⟨cli, run, sessionAt, usable, reached⟩

/-- What a client has been sent and what is queued for it answers just the
part of its session that has arrived. -/
theorem SessionAt.answers_eq (sessionAt : SessionAt server session srvSeed key position cli) :
    cli.base.encoded = session.answers server srvSeed key position := by
  have answeredWith {served : List Request}
      (answered : Answered server srvSeed key true served cli)
      (behind : session.opening.length ≤ position)
      (within : requestsWithin (position - session.opening.length) session.requests = served) :
      cli.base.encoded = session.answers server srvSeed key position := by
    rw [Session.answers, if_neg (Nat.not_lt.mpr behind), within]
    exact (answered.keyed rfl).2
  have quiet (answered : Answered server srvSeed key false [] cli)
      (front : position < session.opening.length) :
      cli.base.encoded = session.answers server srvSeed key position := by
    rw [Session.answers, if_pos front, ClientBase.encoded, (answered.quiet rfl).1, List.flatMap_nil]
  have requestAt {served later : List Request} {request : Request}
      (split : session.requests = served ++ request :: later) {place : Nat}
      (short : place < request.bytes.length)
      (reached : position = (session.opening ++ requestBytes served).length + place)
      (answered : Answered server srvSeed key true served cli) :
      cli.base.encoded = session.answers server srvSeed key position := by
    rw [List.length_append] at reached
    refine answeredWith answered (by omega) ?_
    have left : position - session.opening.length = (requestBytes served).length + place := by omega
    rw [left, split, requestsWithin_served short]
  cases sessionAt with
  | within stage message encrypt origin served leg waiting atField place answered =>
      have below := atField.wireOffset_lt
      cases leg with
      | hello =>
          change _ < session.hello.wire.length at below
          refine quiet answered ?_
          rw [Session.opening, List.length_append, List.length_append]
          omega
      | handshake =>
          change _ < handshakeMessage.wire.length at below
          refine quiet answered ?_
          rw [Session.opening, List.length_append, List.length_append]
          omega
      | seed =>
          have seed : (seedMessage session.yData session.whole).wire = session.yData :=
            List.append_nil _
          change _ < (seedMessage session.yData session.whole).wire.length at below
          rw [seed] at below
          refine quiet answered ?_
          rw [Session.opening, List.length_append]
          omega
      | header served request later split =>
          change _ < request.header.wire.length at below
          rw [request.header_wire] at below
          obtain ⟨rest, contents⟩ := request.contents_eq
          have longer : request.type.length ≤ request.bytes.length := by
            rw [← request.message_wire, Message.wire, request.message_contents, contents,
              List.flatten_cons, List.length_append]
            exact Nat.le_add_right _ _
          exact requestAt split (below.trans_le longer) place answered
      | body served request later split head =>
          change _ < request.message.wire.length at below
          rw [request.message_wire] at below
          exact requestAt split below place answered
  | behind message fits waiting atField place answered =>
      have length : (session.stream (server.rc4 key)).length =
          session.opening.length + (requestBytes session.requests).length := by
        rw [Session.stream, List.length_append, Context.output_length]
        rfl
      refine answeredWith answered (by omega) ?_
      rw [place, length, Nat.add_sub_cancel_left]
      exact requestsWithin_all session.requests

theorem SessionAt.served (sessionAt : SessionAt server session srvSeed key position cli)
    (reached : ReachableConnection server (.alive cli)) :
    cli.base.sock.sent ++ cli.base.unsent = session.answers server srvSeed key position := by
  have sending : Sending cli.base := (sending_rule server).history_client reached
  exact sending.represented.conserved.trans sessionAt.answers_eq

end Events

/-- However a session is cut between its fields and spread over events: the
daemon keeps the connection, and what it has sent and queued is what it owes
the client for the bytes that have arrived. -/
theorem session_served (server : Server) (short : server.ShortAddresses) (session : Session)
    (fits : session.Fits) {srvSeed key : Bytes}
    (derived : server.derive 0 session.yData = some (srvSeed, key))
    {sock : Socket} (unused : sock.calls = []) {events : List PollEvent}
    {deliveries : List (List Bytes)} (brings : List.Forall₂ PollEvent.Brings events deliveries)
    (cut : EndsAt session.Ends 0 deliveries.flatten)
    (stream : deliveries.flatten.flatten <+: session.stream (server.rc4 key)) :
    ∃ cli, handleEvents server events (Client.new sock true) = .alive cli ∧
      ReachableConnection server (.alive cli) ∧ cli.base.sock.isDown = false ∧
      cli.base.sock.sent ++ cli.base.unsent =
        session.answers server srvSeed key deliveries.flatten.flatten.length := by
  obtain ⟨cli, run, sessionAt, usable, reached⟩ :=
    Session.handleEvents_new derived short fits unused brings cut stream
  exact ⟨cli, run, reached, usable.up, sessionAt.served reached⟩

/-- A client that asks for the file server and then pings. -/
def shortSession : Session where
  hello := .ofContents [leBytes 1 protocolCli2Gate, leBytes 2 31, leBytes 4 0, leBytes 4 0, leBytes 4 0,
    List.replicate 16 0, leBytes 4 20, List.replicate 16 0] rfl (by decide)
  gate := rfl
  yData := 2 :: List.replicate 63 0
  whole := rfl
  requests := [.fileSrv 5 1, .ping 7 9 [1, 2, 3] (by decide)]

theorem shortSession_fits : shortSession.Fits where
  hello := by decide
  requests := by
    intro request member
    rcases List.mem_pair.mp member with rfl | rfl
    · decide
    · decide

/-- The event that brings one piece. -/
def pieceArrives (piece : Bytes) : PollEvent :=
  { opening with write := true, inbound := [.data piece], fuel := piece.length + 1 }

theorem pieceArrives_brings {piece : Bytes} (nonempty : piece ≠ []) : (pieceArrives piece).Brings [piece] := by
  refine ⟨rfl, rfl, ?_, by simp [pieceArrives, opening, WriteAnswer.isError], rfl, Or.inl rfl, ?_⟩
  · exact fun other member => List.mem_singleton.mp member ▸ nonempty
  · rw [List.flatten_singleton]
    exact Nat.lt_succ_self _

/-- The opening arrives in one piece, and the requests in another. -/
theorem session_served_short :
    ∃ srvSeed key cli, plainServer.derive 0 shortSession.yData = some (srvSeed, key) ∧
      handleEvents plainServer [pieceArrives shortSession.opening, pieceArrives
        ((Context.keyed (plainServer.rc4 key)).output (requestBytes shortSession.requests))]
          acceptedClient = .alive cli ∧
      cli.base.sock.sent ++ cli.base.unsent = handshakeReply srvSeed ++
        (Context.keyed (plainServer.rc4 key)).output
          (shortSession.requests.flatMap (Request.built plainServer)) := by
  obtain ⟨srvSeed, key, derived⟩ : ∃ srvSeed key,
      plainServer.derive 0 shortSession.yData = some (srvSeed, key) := ⟨_, _, rfl⟩
  have front : shortSession.opening.length = 117 := by decide
  have behind : (requestBytes shortSession.requests).length = 24 := by decide
  have nonempty (plain : Bytes) (positive : 0 < plain.length) :
      (Context.keyed (plainServer.rc4 key)).output plain ≠ [] := by
    rw [← List.length_pos_iff, Context.output_length]
    exact positive
  obtain ⟨cli, run, -, -, answers⟩ := session_served plainServer plainServer_shortAddresses
    shortSession shortSession_fits derived
    (show (⟨[], .wouldBlock, [], []⟩ : Socket).calls = [] from rfl)
    (.cons (pieceArrives_brings (show shortSession.opening ≠ [] by decide))
      (.cons (pieceArrives_brings (nonempty (requestBytes shortSession.requests) (by decide))) .nil))
    (by
      refine ⟨⟨11, ?_⟩, ⟨19, ?_⟩, trivial⟩
      · decide +kernel
      · rw [Context.output_length]
        decide +kernel)
    (by
      rw [List.flatten_cons, List.flatten_singleton, List.singleton_append, List.flatten_cons,
        List.flatten_singleton]
      exact List.prefix_refl _)
  refine ⟨srvSeed, key, cli, derived, run, answers.trans ?_⟩
  have all : ([[shortSession.opening], [(Context.keyed (plainServer.rc4 key)).output
      (requestBytes shortSession.requests)]].flatten.flatten).length = 117 + 24 := by
    simp [front, behind]
  rw [all, Session.answers, front, if_neg (by decide), Nat.add_sub_cancel_left, ← behind,
    requestsWithin_all]

end ThemeSrv
