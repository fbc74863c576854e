import ThemeSrv.ReaderStops
import ThemeSrv.ServerConnections

/-!
# What can stop the server

No assertion of the daemon fails on anything its peers send, no pointer is
null, and nothing that it allocates or copies is out of bounds.  What is left
to a client are the two defects of the reader, and to hang up in front of a
reply: `SIGPIPE` ends the program.  Only the connection header and the ping have
a payload that can be announced too long.
-/

namespace ThemeSrv

open AllocatedBlock ByteString Client Gatekeeper KeystreamCipher TransitionSystem

/-! ### The incoming side of a socket -/

/-- Writing leaves what is received and what is to be received as they are. -/
structure Socket.SameInput (sock sock' : Socket) : Prop where
  inbound : sock'.inbound = sock.inbound
  received : sock'.received = sock.received

theorem Socket.SameInput.toRead {sock sock' : Socket} (same : sock.SameInput sock') :
    sock'.toRead = sock.toRead := by
  rw [Socket.toRead, Socket.toRead, Socket.pending, Socket.pending, same.inbound]

theorem resumeWrite_sameInput (state : WriteState) (c : ClientBase) :
    c.sock.SameInput (resumeWrite state c).2.2.sock := by
  rcases answered : c.sock.write (state.buf.drop state.bufoffs) with ⟨answer, sock⟩
  have same : c.sock.SameInput sock := by
    rw [Socket.write, Prod.mk.injEq] at answered
    obtain ⟨-, rfl⟩ := answered
    exact ⟨rfl, by simp [Socket.received, SocketCall.received]⟩
  rw [resumeWrite, answered]
  cases answer with
  | accepted | wouldBlock => exact same
  | failure | brokenPipe =>
      exact ⟨same.inbound, (Socket.shutdown_received sock).trans same.received⟩

theorem enqueueWrite_sameInput {ns : NetStruct} {image : Bytes} {c c' : ClientBase}
    (done : enqueueWrite ns image c = .done () c') : c.sock.SameInput c'.sock := by
  rw [enqueueWrite] at done
  cases encoded : encodeMessage ns image c.encrypt with
  | error stop =>
      rw [encoded] at done
      cases done
  | ok result =>
      obtain ⟨wire, encrypt⟩ := result
      simp only [encoded] at done
      split at done
      · cases done
        exact ⟨rfl, rfl⟩
      · generalize posted : ({ c with encrypt := encrypt, posted := _ } : ClientBase) = next at done
        have resumed := resumeWrite_sameInput ⟨0, wire⟩ next
        have same : next.sock = c.sock := by rw [← posted]
        rw [same] at resumed
        rcases outcome : resumeWrite ⟨0, wire⟩ next with ⟨sent, state, c₁⟩
        rw [outcome] at done resumed
        cases sent <;> cases done <;> exact resumed

theorem handleWrite_sameInput (c : ClientBase) : c.sock.SameInput (handleWrite c).2.sock := by
  rw [handleWrite]
  split
  · exact ⟨rfl, rfl⟩
  · next front rest queue =>
      have resumed := resumeWrite_sameInput front c
      rcases outcome : resumeWrite front c with ⟨done, state, c'⟩
      rw [outcome] at resumed
      cases done <;> exact resumed

theorem pumpWrite_sameInput (c : ClientBase) : c.sock.SameInput (pumpWrite c).sock := by
  apply pumpWrite_keeps (fun c' => c.sock.SameInput c'.sock)
  · intro c' same
    have next := handleWrite_sameInput c'
    exact ⟨next.inbound.trans same.inbound, next.received.trans same.received⟩
  · exact ⟨rfl, rfl⟩

/-! ### The handlers -/

theorem encryptS2c_filled {srvSeed : Bytes} (whole : srvSeed.length = 7) :
    encryptS2c.Filled (EncryptS2c.image ⟨s2cEncrypt, 9, srvSeed⟩) where
  covers := by
    simp only [EncryptS2c.image, List.length_append, leBytes_length, whole]
    decide
  counted := by
    intro index field found variableSize
    have fixedSize : ∀ field ∈ encryptS2c.fields, field.type.isVariable = false := by decide
    rw [fixedSize field (List.mem_of_getElem? found)] at variableSize
    cases variableSize

theorem AddressReply.setAddress_length (reply : AddressReply) (value : List UInt16)
    (whole : reply.address.length = capacity) :
    (reply.setAddress value).address.length = capacity := by
  simp only [setAddress, List.length_set, List.length_append, List.length_take, List.length_drop,
    whole]
  omega

theorem Server.addressReply_length (server : Server) (address : List UInt16)
    (posted transId : Nat) : (server.addressReply address posted transId).image.length = 56 := by
  have units : (server.addressReply address posted transId).address.length =
      AddressReply.capacity :=
    AddressReply.setAddress_length _ _ (by simp [AddressReply.uninitialised])
  have bytes : ((server.addressReply address posted transId).address.flatMap
      fun unit => leBytes 2 unit.toNat).length = 2 * AddressReply.capacity :=
    (leUnits_length _).trans (congrArg (2 * ·) units)
  rw [AddressReply.image, List.length_append, List.length_append, List.length_append,
    leBytes_length, leBytes_length, leBytes_length, bytes]
  rfl

/-- Whatever the address is, the reply announces no more of it than it
holds. -/
theorem Server.addressReply_filled (server : Server) (address : List UInt16)
    (posted transId : Nat) :
    fileSrvReply.Filled (server.addressReply address posted transId).image := by
  have count : (server.addressReply address posted transId).addresssz =
      min AddressReply.capacity address.length := rfl
  have capacity : AddressReply.capacity = 24 := rfl
  have length := server.addressReply_length address posted transId
  constructor
  · rw [length]
    decide
  · intro index field found variableSize
    match index with
    | 0 | 1 | 2 =>
        cases found
        cases variableSize
    | 3 =>
        cases found
        have own : leValue (leBytes 2 (server.addressReply address posted transId).addresssz) =
            min AddressReply.capacity address.length := by
          rw [count]
          exact leValue_leBytes_of_lt (by omega)
        refine ⟨min AddressReply.capacity address.length, ?_, ?_, ?_⟩
        · change announcedCount _ _ (leValue (leBytes 2
            (server.addressReply address posted transId).addresssz)) = _
          have bounded : min AddressReply.capacity address.length ≤ kMaxBufCount := by
            unfold kMaxBufCount
            omega
          rw [own]
          simp [announcedCount, ownCount, bounded]
        · rw [length]
          change 8 + 2 * _ ≤ 56
          omega
        · intro _
          exact min_le_left _ _

section Handlers

variable {server : Server} {stage : Stage} {buf : Bytes} {cli : Client}

/-- A handler does not stop at a message whose payload is in the buffer. -/
theorem handlerRead_done (server : Server) (received : Received stage buf cli.toClientState)
    (filled : stage.struct.Filled buf) :
    ∃ result cli', handlerRead server buf cli = .done result cli' := by
  have case : HandlerCase server cli buf stage (handlerRead server buf cli) := handlerCase received
  have written {ns : NetStruct} {image : Bytes} (whole : ns.Filled image)
      (wellFormed : ns.WellFormed) (variableLast : ns.VariableLast) (short : ns.extent ≤ intMax)
      {c base : ClientBase} {stop : Stop} (stopped : enqueueWrite ns image c = .stopped stop base) :
      False := by
    obtain ⟨⟨wire, encrypt⟩, encoded⟩ :=
      whole.encodeMessage wellFormed variableLast short c.encrypt
    obtain ⟨c', done⟩ := enqueueWrite_of_encoded encoded
    cases done.symm.trans stopped
  generalize handlerRead server buf cli = outcome at case
  cases case with
  | seedStopped srvSeed key derived stop base stopped =>
      exact (written (encryptS2c_filled (server.derive_length derived)) (by decide) (by decide)
        (by decide) stopped).elim
  | answerStopped request head stop base stopped =>
      cases request with
      | pingRequest =>
          have whole : pingReply.Filled buf := ⟨filled.covers, filled.counted⟩
          exact (written whole (by decide) (by decide) (by decide) stopped).elim
      | fileSrvRequest =>
          exact (written (server.addressReply_filled _ _ _) (by decide) (by decide) (by decide)
            stopped).elim
      | authSrvRequest =>
          exact (written (server.addressReply_filled _ _ _) (by decide) (by decide) (by decide)
            stopped).elim
  | unknownConnection | gate | badHandshake | decrypted | seedWanted | keyed | unknownMessage |
    bodyWanted | answered => exact ⟨_, _, rfl⟩

/-- A handler leaves the reader at the start of its next message. -/
theorem HandlerCase.rested {cli' : Client} {result : Bool}
    (case : HandlerCase server cli buf stage (.done result cli'))
    (received : Received stage buf cli.toClientState) :
    cli'.base.read.offset = 0 ∧ cli.base.sock.SameInput cli'.base.sock := by
  generalize outcomeEq : Outcome.done result cli' = outcome at case
  cases case with
  | seedStopped | answerStopped => cases outcomeEq
  | unknownConnection | gate | badHandshake | decrypted | seedWanted | unknownMessage |
    bodyWanted =>
      cases outcomeEq
      exact ⟨received.offset, rfl, rfl⟩
  | keyed srvSeed key derived base written =>
      cases outcomeEq
      have case := enqueueCase encryptS2c (EncryptS2c.image ⟨s2cEncrypt, 9, srvSeed⟩) cli.base
      rw [written] at case
      obtain ⟨_, _, _, _, _, sameRead, _⟩ := case.recorded
      have sameSock : cli.base.sock.SameInput base.sock := enqueueWrite_sameInput written
      refine ⟨?_, sameSock⟩
      change base.read.offset = 0
      rw [sameRead]
      exact received.offset
  | answered request head base written =>
      cases outcomeEq
      have case := enqueueCase (server.answer cli.base.posted.length buf request).1
        (server.answer cli.base.posted.length buf request).2 (cli.base.readStruct msgStdHeader)
      rw [written] at case
      obtain ⟨_, _, _, _, _, sameRead, _⟩ := case.recorded
      have sameSock : (cli.base.readStruct msgStdHeader).sock.SameInput base.sock :=
        enqueueWrite_sameInput written
      refine ⟨?_, sameSock⟩
      change base.read.offset = 0
      rw [sameRead]
      exact received.offset

end Handlers

/-! ### A client -/

theorem requestStruct_buffered (request : RequestId) : request.struct.Buffered := by
  cases request <;> decide

theorem Stage.struct_buffered (stage : Stage) : stage.struct.Buffered := by
  cases stage with
  | hello | handshake | seed | header => decide
  | body request head => exact requestStruct_buffered request

/-- Between two calls the client waits for a message, and its reader is where
runs of the reader lead. -/
def Poised (holds : Stage → Client → Prop) (cli : Client) : Prop :=
  ∃ stage, Waiting stage cli.toClientState ∧ ReaderInvariant stage.struct cli.base ∧
    holds stage cli

/-- What holds of a client that waits for the message of a stage, turn after
turn of its reader and message after message. -/
structure PoisedRule (server : Server) (holds : Stage → Client → Prop) : Prop where
  start : ∀ sock polling, sock.calls = [] → holds .hello (Client.new sock polling)
  polled : ∀ stage cli event, holds stage cli → holds stage (cli.polled event)
  write : ∀ stage cli, holds stage cli → holds stage { cli with base := pumpWrite cli.base }
  visit : ∀ stage cli, holds stage cli → holds stage (cli.visited .resumeRead [])
  turn : ∀ stage cli c turn, ReaderInvariant stage.struct cli.base → holds stage cli →
    resumeReadTurn cli.base = .done turn c → holds stage { cli with base := c }
  handle : ∀ stage next (cli : Client) completed cli', Completed stage.struct cli.base.read →
    holds stage cli →
    Received stage cli.base.read.memory
      { cli with base := cli.base.released, completed := completed : Client }.toClientState →
    HandlerCase server { cli with base := cli.base.released, completed := completed }
      cli.base.read.memory stage (.done true cli') →
    Waiting next cli'.toClientState → holds next cli'

/-- Why a client stops the program: its reader stands at a payload that has no
room, or is in a loop that does not return and takes what it asks for off the
stack in each turn, or something was written that the peer does not take. -/
inductive StopCause (cli : Client) : Stop → Prop
  | tooLong (ns : NetStruct) (struct : cli.base.read.struct = some ns)
      (known : ns = connectionHeader ∨ ns = pingRequest) (field : NetField) (count : Nat)
      (pressing : Pressing ns cli.base field count) : StopCause cli .store
  | endless (ns : NetStruct) (struct : cli.base.read.struct = some ns)
      (endless : Endless ns cli.base) (forever : ¬ Returns cli.base)
      (stack : ∀ turns, ∃ c', resumeRead turns cli.base = .stopped .fuel c' ∧
        c'.sock.stackTaken = cli.base.sock.stackTaken + turns * cli.base.request ns) :
      StopCause cli .fuel
  | brokenPipe (broken : cli.base.sock.brokenPipe = true) : StopCause cli .brokenPipe

/-- Only two of the messages end with a payload. -/
theorem Stage.eq_of_variable {stage : Stage} {index : Nat} {field : NetField}
    (found : stage.struct.fields[index]? = some field) (variableSize : field.type.isVariable = true) :
    stage.struct = connectionHeader ∨ stage.struct = pingRequest := by
  have fixedSize {ns : NetStruct} (same : stage.struct = ns)
      (fixed : ∀ field ∈ ns.fields, field.type.isVariable = false) : False := by
    subst same
    rw [fixed field (List.mem_of_getElem? found)] at variableSize
    cases variableSize
  cases stage with
  | hello => exact Or.inl rfl
  | handshake | seed | header => exact (fixedSize rfl (by decide)).elim
  | body request head =>
      cases request with
      | pingRequest => exact Or.inr rfl
      | fileSrvRequest =>
          have fixed : ∀ field ∈ fileSrvRequest.fields, field.type.isVariable = false := by
            decide
          exact (fixedSize rfl fixed).elim
      | authSrvRequest =>
          have fixed : ∀ field ∈ authSrvRequest.fields, field.type.isVariable = false := by
            decide
          exact (fixedSize rfl fixed).elim

theorem Stage.memTotal_le (stage : Stage) : stage.struct.memTotal ≤ kMaxStackBufSize := by
  cases stage with
  | hello | handshake | seed | header => decide
  | body request head =>
      change request.struct.memTotal ≤ kMaxStackBufSize
      cases request <;> decide

/-- Whatever the daemon reads is read onto the stack. -/
theorem Stage.stackBuf_request (stage : Stage) {c : ClientBase}
    (standing : c.read.Standing stage.struct)
    (accepted : stage.struct.wireSz c.read.memory c.read.field ≠ sizeMax) :
    stackBuf (c.request stage.struct) = c.request stage.struct := by
  have buffered := stage.struct_buffered
  have total := stage.memTotal_le
  rw [stackBuf, if_pos]
  rw [ClientBase.request]
  obtain ⟨field, found⟩ := stage.struct.exists_field standing.field_lt
  cases kind : field.type.isVariable with
  | false =>
      have within := (buffered.wellFormed.window_of_fixed c.read.memory found kind).2
      omega
  | true =>
      obtain ⟨count, announced, size⟩ := buffered.exists_count found kind accepted
      have window := stage.struct.window_le c.read.memory c.read.field
      have limit := announced_le announced
      rw [buffered.last found kind, NetStruct.fixedRun_size] at window
      unfold kMaxBufCount at limit
      unfold kMaxStackBufSize
      omega

theorem ReadStop.stopCause {stage : Stage} {cli : Client} {stop : Stop}
    (readStop : ReadStop stage.struct cli.base stop) : StopCause cli stop := by
  cases readStop with
  | tooLong struct field count pressing =>
      exact .tooLong _ struct (Stage.eq_of_variable pressing.found pressing.variableSize) field count
        pressing
  | endless endless =>
      have standing := endless.invariant.standing
      refine .endless _ standing.struct endless (endless.not_returns stage.struct_buffered) ?_
      intro turns
      obtain ⟨c', stopped, -, taken⟩ := endless.resumeRead stage.struct_buffered turns
      rw [stage.stackBuf_request standing endless.accepted] at taken
      exact ⟨c', stopped, taken⟩

section Rule

variable {server : Server} {holds : Stage → Client → Prop}

/-- The handler is done with every message, and goes on only with a client that
waits for its next one. -/
theorem PoisedRule.answered (rule : PoisedRule server holds) {stage : Stage} {cli : Client}
    {struct : Option NetStruct} (completed : Completed stage.struct cli.base.read)
    (filled : stage.struct.Filled cli.base.read.memory) (kept : holds stage cli)
    (received : Received stage cli.base.read.memory
      { cli with base := cli.base.released, completed := struct : Client }.toClientState) :
    ∃ goesOn cli', handlerRead server cli.base.read.memory
        { cli with base := cli.base.released, completed := struct } = .done goesOn cli' ∧
      cli'.base.sock.toRead = cli.base.sock.toRead ∧
      (goesOn = true → cli'.base.hasPendingRead = true → Poised holds cli') := by
  obtain ⟨goesOn, cli', done⟩ := handlerRead_done server received filled
  have case : HandlerCase server { cli with base := cli.base.released, completed := struct }
      cli.base.read.memory stage (handlerRead server cli.base.read.memory _) :=
    handlerCase received
  rw [done] at case
  obtain ⟨offset, sameInput⟩ := case.rested received
  refine ⟨goesOn, cli', done, sameInput.toRead, ?_⟩
  rintro rfl pending
  rcases case.next received with ⟨next, waiting⟩ | none
  · have starts : ReaderStart next.struct cli'.base := ⟨waiting.standing, offset⟩
    exact ⟨next, waiting, starts.invariant,
      rule.handle stage next cli struct cli' completed kept received case waiting⟩
  · rw [ClientBase.hasPendingRead, none] at pending
    cases pending

theorem PoisedRule.pumpRead (rule : PoisedRule server holds) (fuel turns : Nat) {cli : Client}
    (poised : Poised holds cli) :
    match pumpRead server fuel turns cli with
    | .stopped stop cli' => cli.base.sock.toRead < fuel → cli.base.sock.toRead < turns →
        StopCause cli' stop
    | .done () cli' => Poised holds cli' ∨ cli'.base.sock.isDown = true := by
  induction turns generalizing cli with
  | zero => exact fun _ impossible => absurd impossible (Nat.not_lt_zero _)
  | succ turns ih =>
      obtain ⟨stage, waiting, invariant, before⟩ := poised
      have handled : HandledRead stage.struct
          (fun c => holds stage { cli.visited .resumeRead [] with base := c }) fuel cli.base
          (handleRead fuel cli.base) := by
        apply handledRead stage.struct_buffered ?_ fuel invariant (rule.visit stage cli before)
        intro first second turn inside kept done
        exact rule.turn stage { cli.visited .resumeRead [] with base := first } second turn inside
          kept done
      rw [ThemeSrv.pumpRead]
      simp only [visited_base]
      generalize handleRead fuel cli.base = outcome at handled
      cases outcome with
      | stopped stop c' => exact fun enough _ => (handled enough).stopCause
      | done result released =>
          cases result with
          | none =>
              obtain ⟨inside, frame, kept⟩ := handled
              exact Or.inl ⟨stage, waiting.still frame inside.standing, inside, kept⟩
          | some buf =>
              obtain ⟨c', rfl, rfl, completed, filled, less, frame, kept⟩ := handled
              obtain ⟨goesOn, cli', done, sameToRead, poised'⟩ :=
                rule.answered completed filled kept (waiting.received frame completed)
              change cli'.base.sock.toRead = c'.sock.toRead at sameToRead
              simp only at done ⊢
              simp only [done]
              by_cases broken : cli'.base.sock.brokenPipe = true
              · rw [if_pos broken]
                exact fun _ _ => .brokenPipe broken
              rw [if_neg broken]
              cases goesOn with
              | false => exact Or.inr cli'.shutdown_isDown
              | true =>
                  cases pending : cli'.base.hasPendingRead with
                  | false =>
                      simp only [if_true, Bool.false_eq_true, if_false]
                      exact Or.inr cli'.shutdown_isDown
                  | true =>
                      have rest := ih (poised' rfl pending)
                      simp only [if_true]
                      generalize ThemeSrv.pumpRead server fuel turns cli' = outcome at rest
                      cases outcome with
                      | stopped stop cli₂ =>
                          exact fun enough turnsEnough => rest (by omega) (by omega)
                      | done value cli₂ => exact rest

end Rule

/-! ### Events -/

/-- The loops of an event have turns for all that its socket can deliver. -/
def PollEvent.Ample (event : PollEvent) : Prop :=
  event.inbound.length + (event.inbound.map fun answer => answer.bytes.length).sum < event.fuel

instance (event : PollEvent) : Decidable event.Ample :=
  inferInstanceAs (Decidable (_ < _))

theorem ReaderInvariant.congr {ns : NetStruct} {c c' : ClientBase}
    (invariant : ReaderInvariant ns c) (read : c'.read = c.read) : ReaderInvariant ns c' where
  standing := read ▸ invariant.standing
  offset_le := read ▸ invariant.offset_le
  inside := read ▸ invariant.inside
  huge := read ▸ invariant.huge

theorem pumped_toRead (event : PollEvent) (cli : Client) :
    ((cli.polled event).pumped event).base.sock.toRead =
      event.inbound.length + (event.inbound.map fun answer => answer.bytes.length).sum := by
  rw [Client.pumped]
  split
  · exact (pumpWrite_sameInput _).toRead
  · rfl

/-- Between two events a client is poised, or its socket is down. -/
def Connection.Rests (holds : Stage → Client → Prop) : Connection → Prop
  | .alive cli => Poised holds cli ∨ cli.base.sock.isDown = true
  | .destroyed _ | .stopped _ _ => True

section Events

variable {server : Server} {holds : Stage → Client → Prop}

theorem PoisedRule.pumped (rule : PoisedRule server holds) {cli : Client}
    (poised : Poised holds cli) (event : PollEvent) :
    Poised holds ((cli.polled event).pumped event) := by
  obtain ⟨stage, waiting, invariant, before⟩ := poised
  have polled : ReaderInvariant stage.struct (cli.polled event).base := invariant.congr rfl
  have kept := rule.polled stage cli event before
  rw [Client.pumped]
  split
  · exact ⟨stage, (waiting.polled event).pumpWrite, polled.congr (pumpWriteFrame _).read,
      rule.write stage _ kept⟩
  · exact ⟨stage, waiting.polled event, polled, kept⟩

theorem PoisedRule.handleDispatch (rule : PoisedRule server holds) {event : PollEvent}
    {cli : Client} (rested : (Connection.alive cli).Rests holds)
    (hangUp : cli.base.sock.isDown = true → event.hup = true) :
    (handleDispatch server event (cli.polled event)).Rests holds ∧
      ∀ stop cli', handleDispatch server event (cli.polled event) = .stopped stop cli' →
        event.Ample → StopCause cli' stop := by
  cases hup : event.hup with
  | true =>
      simp only [ThemeSrv.handleDispatch, hup, if_true]
      refine ⟨trivial, ?_⟩
      intro stop cli' stopped
      cases stopped
  | false =>
      have poised : Poised holds cli := by
        refine rested.resolve_right fun down => ?_
        rw [hangUp down] at hup
        cases hup
      have stops := rule.pumpRead event.fuel event.fuel (rule.pumped poised event)
      rw [pumped_toRead] at stops
      rw [handleDispatch_up hup]
      split
      · next broken =>
          refine ⟨trivial, ?_⟩
          intro stop cli' stopped
          cases stopped
          exact fun _ => .brokenPipe broken
      split
      · generalize ThemeSrv.pumpRead server event.fuel event.fuel
          ((cli.polled event).pumped event) = outcome at stops
        cases outcome with
        | stopped stop cli' =>
            refine ⟨trivial, ?_⟩
            intro other otherCli stopped ample
            cases stopped
            exact stops ample ample
        | done value cli' =>
            refine ⟨stops, ?_⟩
            intro stop otherCli stopped
            cases stopped
      · refine ⟨Or.inl (rule.pumped poised event), ?_⟩
        intro stop cli' stopped
        cases stopped

theorem PoisedRule.rests (rule : PoisedRule server holds) {connection : Connection}
    (reached : ReachableConnection server connection) : connection.Rests holds := by
  apply reached.invariant
  · intro connection starts
    cases starts with
    | accepted sock polling unused =>
        have starts : ReaderStart connectionHeader (Client.new sock polling).base :=
          ⟨(waiting_new sock polling).standing, rfl⟩
        exact Or.inl ⟨.hello, waiting_new sock polling, starts.invariant,
          rule.start sock polling unused⟩
  · intro source target rests step
    cases step with
    | dispatch cli event polling hangUp => exact (rule.handleDispatch rests hangUp).1

end Events

/-! ### The server -/

/-- A run of the server ends only through the event of one of its clients, and
there only at a payload that is announced longer than the message buffer, in a
loop that never returns, or at a write to a peer that has closed. -/
theorem server_stop_causes (server : Server) {d : Daemon} {event : EpollEvent}
    {batch : List EpollEvent} (reached : ReachableServing server (.running d (event :: batch)))
    (hangsUp : ServerState.HangsUp (.running d (event :: batch))) (ample : event.event.Ample)
    {halt : Halt} (halted : d.dispatchEvent server event = .error halt) :
    ∃ node ∈ d.clients, node.fd = event.fd ∧ ∃ stop cli, halt = .client stop ∧
      handleDispatch (server.forClient node.address) event.event
        (node.client.polled event.event) = .stopped stop cli ∧
      StopCause cli stop := by
  obtain ⟨agrees, ready⟩ := sound_reachable reached.of_guarded
  have outcome := agrees.eventOutcome server ready
  rw [halted] at outcome
  cases outcome with
  | stopped node member fd polling stop cli ends =>
      have anything : PoisedRule (server.forClient node.address) fun _ _ => True := by
        constructor <;> intros <;> trivial
      have rests := anything.rests (reached.client member)
      have causes := (anything.handleDispatch rests (hangsUp node member fd)).2
      exact ⟨node, member, fd, stop, cli, rfl, ends, causes stop cli ends ample⟩

/-- A client asks for a payload of 30 bytes behind its connection header, and
sends it. -/
def longHello : PollEvent where
  write := false
  read := true
  hup := false
  inbound := [.data ([0x16, 0x1f, 0x00] ++ List.replicate 12 0 ++ List.replicate 16 0 ++
    [34, 0, 0, 0]), .data (List.replicate 30 7)]
  idle := .wouldBlock
  outbound := []
  fuel := 68

theorem server_stop_causes_longHello : ∃ node ∈ servingOne.clients, node.fd = 4 ∧ ∃ stop cli,
    Halt.client .store = .client stop ∧
      handleDispatch plainServer longHello (node.client.polled longHello) = .stopped stop cli ∧
      StopCause cli stop := by
  have waits : ReachableServing plainServer (.running servingOne [⟨4, 1, longHello, []⟩]) := by
    apply reachableServing_servingOne.tail
    exact ⟨trivial, .wait _ _ ⟨List.nodup_singleton _, by decide, by decide⟩⟩
  refine server_stop_causes plainServer waits ?_ (by decide) rfl
  intro node member fd down
  have new : servingOne.clients = [⟨0, 4, acceptedClient, some 0⟩] := rfl
  rw [new, List.mem_singleton] at member
  rw [member] at down
  cases down

end ThemeSrv
