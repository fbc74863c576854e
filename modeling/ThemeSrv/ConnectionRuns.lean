import ThemeSrv.ClientStages
import ThemeSrv.WriterQueue

/-!
# Runs of a connection

A rule for invariants of connections.  At the head of `pump_read` a client is
waiting for the message of some stage, or its socket has been shut down; what
the reads, the handlers and the writer keep from there is kept along every
run.
-/

namespace ThemeSrv

open KeystreamCipher TransitionSystem

/-- The outgoing side and the keys of a connection are the same, and its
socket has at most been read from. -/
structure WriterFrame (c c' : ClientBase) : Prop where
  writes : c'.writes = c.writes
  encrypt : c'.encrypt = c.encrypt
  posted : c'.posted = c.posted
  keystream : c'.decrypt.keystream = c.decrypt.keystream
  readOnly : c.sock.ReadOnly c'.sock

theorem ReadFrame.writerFrame {ns : NetStruct} {c c' : ClientBase} (frame : ReadFrame ns c c') :
    WriterFrame c c' :=
  ⟨frame.writes, frame.encrypt, frame.posted, frame.keystream, frame.readOnly⟩

theorem ReadFrame.released {ns : NetStruct} {c c' : ClientBase} (frame : ReadFrame ns c c') :
    WriterFrame c c'.released :=
  ⟨frame.writes, frame.encrypt, frame.posted, frame.keystream, frame.readOnly⟩

/-! ### From one message to the next -/

/-- A handler that returns true has registered the read of the next stage,
or none at all. -/
theorem HandlerCase.next {server : Server} {cli cli' : Client} {buf : Bytes} {stage : Stage}
    (case : HandlerCase server cli buf stage (.done true cli'))
    (received : Received stage buf cli.toClientState) :
    (∃ next, Waiting next cli'.toClientState) ∨ cli'.base.read.struct = none := by
  generalize outcomeEq : Outcome.done true cli' = outcome at case
  cases case with
  | unknownConnection | badHandshake | seedStopped | unknownMessage | answerStopped =>
      cases outcomeEq
  | gate =>
      cases outcomeEq
      refine Or.inl ⟨.handshake, ⟨rfl, ?_, received.encrypted, received.wantClientSeed,
        received.wantMsgHeader, ?_⟩, ?_, ?_⟩
      · intro isSeed
        cases isSeed
      · intro request head isBody
        cases isBody
      · exact standing_readStruct (by decide) received.field received.released
      · intro request head isBody
        cases isBody
  | decrypted =>
      cases outcomeEq
      exact Or.inr received.struct
  | seedWanted =>
      cases outcomeEq
      refine Or.inl ⟨.seed, ⟨⟨64, rfl⟩, fun _ => rfl, received.encrypted, rfl,
        received.wantMsgHeader, ?_⟩, ?_, ?_⟩
      · intro request head isBody
        cases isBody
      · exact standing_readStruct (by decide) received.field received.released
      · intro request head isBody
        cases isBody
  | keyed srvSeed key derived base written =>
      cases outcomeEq
      have case := enqueueCase encryptS2c (EncryptS2c.image ⟨s2cEncrypt, 9, srvSeed⟩) cli.base
      rw [written] at case
      obtain ⟨_, _, _, _, _, sameRead, _⟩ := case.recorded
      refine Or.inl ⟨.header, ⟨received.handler, ?_, rfl, rfl, rfl, ?_⟩, ?_, ?_⟩
      · intro isSeed
        cases isSeed
      · intro request head isBody
        cases isBody
      · apply standing_readStruct (by decide)
        · change base.read.field = 0
          rw [sameRead]
          exact received.field
        · change base.read.buf = none
          rw [sameRead]
          exact received.released
      · intro request head isBody
        cases isBody
  | bodyWanted request type =>
      cases outcomeEq
      refine Or.inl ⟨.body request buf, ⟨received.handler, ?_, received.encrypted,
        received.wantClientSeed, rfl, ?_⟩, ?_, ?_⟩
      · intro isSeed
        cases isSeed
      · intro request' head isBody
        cases isBody
        exact ⟨rfl, type⟩
      · exact standing_readFrom request received.bufsz received.size
      · intro request' head isBody
        cases isBody
        exact ⟨le_refl 1, rfl⟩
  | answered request head base written =>
      cases outcomeEq
      have case := enqueueCase (server.answer cli.base.posted.length buf request).1
        (server.answer cli.base.posted.length buf request).2 (cli.base.readStruct msgStdHeader)
      rw [written] at case
      obtain ⟨_, _, _, _, _, sameRead, _⟩ := case.recorded
      refine Or.inl ⟨.header, ⟨received.handler, ?_, received.encrypted, received.wantClientSeed,
        rfl, ?_⟩, ?_, ?_⟩
      · intro isSeed
        cases isSeed
      · intro request' head' isBody
        cases isBody
      · change base.read.Standing msgStdHeader
        rw [sameRead]
        exact standing_readStruct (by decide) received.field received.released
      · intro request' head' isBody
        cases isBody

/-! ### The rule -/

/-- An invariant of a connection, and what it leaves on record when the
connection ends. -/
structure ConnectionInvariant (server : Server) (invariant history : Client → Prop) : Prop where
  start : ∀ sock polling, sock.calls = [] → invariant (Client.new sock polling)
  polled : ∀ cli event, invariant cli → invariant (cli.polled event)
  write : ∀ cli, invariant cli → invariant { cli with base := pumpWrite cli.base }
  visit : ∀ stage cli, Waiting stage cli.toClientState → invariant cli →
    invariant (cli.visited .resumeRead [])
  read : ∀ cli base completed, WriterFrame cli.base base → invariant cli →
    invariant { cli with base := base, completed := completed }
  handle : ∀ stage buf cli outcome, Received stage buf cli.toClientState → invariant cli →
    HandlerCase server cli buf stage outcome →
    history outcome.state ∧
      ∀ cli', outcome = .done true cli' → cli'.base.hasPendingRead = true → invariant cli'
  recorded : ∀ cli, invariant cli → history cli
  shutdown : ∀ cli, history cli → history cli.shutdown
  recordedPolled : ∀ cli event, history cli → history (cli.polled event)
  hangUp : ∀ cli, history cli → history { cli with flags := { cli.flags with polling := false } }

/-- A client between two events. -/
def AtRest (invariant history : Client → Prop) (cli : Client) : Prop :=
  (∃ stage, Waiting stage cli.toClientState ∧ invariant cli) ∨
    (cli.base.sock.isDown = true ∧ history cli)

/-- A connection along its run. -/
def Connection.Keeps (invariant history : Client → Prop) : Connection → Prop
  | .alive cli => AtRest invariant history cli
  | .destroyed cli => history cli
  | .stopped _ cli => history cli

section Rule

variable {server : Server} {invariant history : Client → Prop}

theorem Client.shutdown_isDown (cli : Client) : cli.shutdown.base.sock.isDown = true :=
  Socket.shutdown_isDown cli.base.sock

/-- `pump_read` keeps the invariant, and leaves the client at rest only when
its socket blocks. -/
theorem ConnectionInvariant.pumpRead (rule : ConnectionInvariant server invariant history)
    (fuel turns : Nat) {stage : Stage} {cli : Client} (waiting : Waiting stage cli.toClientState)
    (holds : invariant cli) :
    match pumpRead server fuel turns cli with
    | .stopped _ cli' => history cli'
    | .done () cli' => AtRest invariant history cli' ∧ cli'.base.sock.Blocked := by
  induction turns generalizing stage cli with
  | zero => exact rule.recorded cli holds
  | succ turns ih =>
      rw [ThemeSrv.pumpRead]
      have visited := rule.visit stage cli waiting holds
      have case := handleReadCase stage.struct_wellFormed fuel waiting.standing
      generalize outcomeEq : handleRead fuel cli.base = outcome at case
      simp only [visited_base, outcomeEq]
      cases case with
      | stopped stop c' frame =>
          exact rule.recorded _ (rule.read _ _ cli.completed frame.writerFrame visited)
      | waiting c' frame standing blocked =>
          refine ⟨Or.inl ⟨stage, waiting.still frame standing, ?_⟩, blocked⟩
          exact rule.read _ _ cli.completed frame.writerFrame visited
      | complete c' frame completed =>
          have received := waiting.received frame completed
          have handed := rule.read (cli.visited .resumeRead []) c'.released
            cli.base.read.struct frame.released visited
          have handles : ∀ handed : Client, Received stage c'.read.memory handed.toClientState →
              HandlerCase server handed c'.read.memory stage
                (handlerRead server c'.read.memory handed) := fun handed => handlerCase
          have handler := handles { cli.visited .resumeRead [] with
            base := c'.released, completed := cli.base.read.struct } received
          simp only
          generalize handlerRead server c'.read.memory { cli.visited .resumeRead [] with
            base := c'.released, completed := cli.base.read.struct } = outcome at handler
          obtain ⟨recorded, kept⟩ := rule.handle stage _ _ outcome received handed handler
          cases outcome with
          | stopped stop cli' => exact recorded
          | done result cli' =>
              have closed : AtRest invariant history cli'.shutdown ∧
                  cli'.shutdown.base.sock.Blocked :=
                ⟨Or.inr ⟨cli'.shutdown_isDown, rule.shutdown cli' recorded⟩,
                  Or.inl cli'.shutdown_isDown⟩
              dsimp only
              cases broken : cli'.base.sock.brokenPipe with
              | true => exact recorded
              | false =>
                  simp only [Bool.false_eq_true, if_false]
                  cases result with
                  | false => exact closed
                  | true =>
                      rcases handler.next received with ⟨next, waiting'⟩ | none
                      · have pending : cli'.base.hasPendingRead = true := by
                          simp [ClientBase.hasPendingRead, waiting'.standing.struct]
                        simp only [pending, if_true]
                        exact ih waiting' (kept cli' rfl pending)
                      · have nothing : cli'.base.hasPendingRead = false := by
                          simp [ClientBase.hasPendingRead, none]
                        simp only [nothing, Bool.false_eq_true, if_false]
                        exact closed

theorem AtStage.withBase {stage : Stage} {cli : ClientState} (atStage : AtStage stage cli)
    (base : ClientBase) : AtStage stage { cli with base := base } :=
  ⟨atStage.handler, atStage.seedCount, atStage.encrypted, atStage.wantClientSeed,
    atStage.wantMsgHeader, atStage.chosen⟩

theorem pumpWriteLoop_keeps {kept : ClientBase → Prop}
    (written : ∀ c, kept c → kept (handleWrite c).2) (turns : Nat) {c : ClientBase}
    (holds : kept c) : kept (pumpWriteLoop turns c) := by
  induction turns generalizing c with
  | zero => exact holds
  | succ turns ih =>
      have next := written c holds
      rw [pumpWriteLoop]
      rcases result : handleWrite c with ⟨more, base⟩
      rw [result] at next
      cases more with
      | true => exact ih next
      | false => exact next

theorem pumpWrite_keeps (kept : ClientBase → Prop)
    (written : ∀ c, kept c → kept (handleWrite c).2) {c : ClientBase} (holds : kept c) :
    kept (pumpWrite c) :=
  pumpWriteLoop_keeps written _ holds

theorem pumpWriteFrame (c : ClientBase) : WriteFrame c (pumpWrite c) := by
  apply pumpWrite_keeps (WriteFrame c)
  · intro c' frame
    have next := handleWriteFrame c'
    exact ⟨next.posted.trans frame.posted, next.encrypt.trans frame.encrypt,
      next.decrypt.trans frame.decrypt, next.read.trans frame.read⟩
  · exact ⟨rfl, rfl, rfl, rfl⟩

theorem Waiting.pumpWrite {stage : Stage} {cli : Client}
    (waiting : Waiting stage cli.toClientState) :
    Waiting stage { cli with base := pumpWrite cli.base : Client }.toClientState := by
  have sameRead := (pumpWriteFrame cli.base).read
  refine ⟨waiting.toAtStage.withBase _, ?_, ?_⟩
  · change (ThemeSrv.pumpWrite cli.base).read.Standing stage.struct
    rw [sameRead]
    exact waiting.standing
  · change ∀ request head, stage = .body request head →
      1 ≤ (ThemeSrv.pumpWrite cli.base).read.field ∧
        (ThemeSrv.pumpWrite cli.base).read.memory.take 2 = head.take 2
    rw [sameRead]
    exact waiting.head

theorem Waiting.polled {stage : Stage} {cli : Client} (waiting : Waiting stage cli.toClientState)
    (event : PollEvent) : Waiting stage (cli.polled event).toClientState where
  toAtStage := waiting.toAtStage.withBase _
  standing := waiting.standing
  head := waiting.head

/-- Once `handle_dispatch` has looked at writing. -/
def Client.pumped (cli : Client) (event : PollEvent) : Client :=
  if event.write then { cli with base := ThemeSrv.pumpWrite cli.base } else cli

/-- What is left for `handle_dispatch` to do then. -/
theorem handleDispatch_up {event : PollEvent} (noHangUp : event.hup = false) (cli : Client) :
    handleDispatch server event cli =
      if (cli.pumped event).base.sock.brokenPipe then
        .stopped .brokenPipe (cli.pumped event)
      else if event.read then
        match pumpRead server event.fuel event.fuel (cli.pumped event) with
        | .stopped stop cli => .stopped stop cli
        | .done () cli => .alive cli
      else
        .alive (cli.pumped event) := by
  simp only [handleDispatch, noHangUp, Bool.false_eq_true, if_false]
  rfl

theorem ConnectionInvariant.pumped (rule : ConnectionInvariant server invariant history)
    (event : PollEvent) {stage : Stage} {cli : Client} (waiting : Waiting stage cli.toClientState)
    (holds : invariant cli) :
    Waiting stage ((cli.polled event).pumped event).toClientState ∧
      invariant ((cli.polled event).pumped event) := by
  rw [Client.pumped]
  split
  · exact ⟨(waiting.polled event).pumpWrite, rule.write _ (rule.polled cli event holds)⟩
  · exact ⟨waiting.polled event, rule.polled cli event holds⟩

theorem ConnectionInvariant.handleDispatch (rule : ConnectionInvariant server invariant history)
    (event : PollEvent) {cli : Client} (atRest : AtRest invariant history cli)
    (hangUp : cli.base.sock.isDown = true → event.hup = true) :
    (handleDispatch server event (cli.polled event)).Keeps invariant history := by
  cases hup : event.hup with
  | true =>
      simp only [ThemeSrv.handleDispatch, hup, if_true]
      apply rule.hangUp
      rcases atRest with ⟨stage, waiting, holds⟩ | ⟨down, recorded⟩
      · exact rule.recorded _ (rule.polled cli event holds)
      · exact rule.recordedPolled cli event recorded
  | false =>
      rw [handleDispatch_up hup]
      rcases atRest with ⟨stage, waiting, holds⟩ | ⟨down, recorded⟩
      · obtain ⟨waiting, holds⟩ := rule.pumped event waiting holds
        split
        · exact rule.recorded _ holds
        split
        · have pumped := rule.pumpRead event.fuel event.fuel waiting holds
          cases outcome : ThemeSrv.pumpRead server event.fuel event.fuel
              ((cli.polled event).pumped event) with
          | stopped stop cli' =>
              rw [outcome] at pumped
              exact pumped
          | done value cli' =>
              rw [outcome] at pumped
              exact pumped.1
        · exact Or.inl ⟨stage, waiting, holds⟩
      · rw [hangUp down] at hup
        cases hup

theorem waiting_new (sock : Socket) (polling : Bool) :
    Waiting .hello (Client.new sock polling).toClientState where
  handler := rfl
  seedCount := by
    intro isSeed
    cases isSeed
  encrypted := rfl
  wantClientSeed := rfl
  wantMsgHeader := rfl
  chosen := by
    intro request head isBody
    cases isBody
  standing := standing_readStruct (by decide) rfl rfl
  head := by
    intro request head isBody
    cases isBody

theorem ConnectionInvariant.keeps (rule : ConnectionInvariant server invariant history)
    {connection : Connection} (reached : ReachableConnection server connection) :
    connection.Keeps invariant history := by
  apply reached.invariant
  · intro connection starts
    cases starts with
    | accepted sock polling unused =>
        exact Or.inl ⟨.hello, waiting_new sock polling, rule.start sock polling unused⟩
  · intro source target kept step
    cases step with
    | dispatch cli event polling hangUp =>
        exact rule.handleDispatch event kept hangUp

theorem ConnectionInvariant.history_client (rule : ConnectionInvariant server invariant history)
    {connection : Connection} (reached : ReachableConnection server connection) :
    history connection.client := by
  have kept := rule.keeps reached
  cases connection with
  | alive cli =>
      rcases kept with ⟨stage, waiting, holds⟩ | ⟨down, recorded⟩
      · exact rule.recorded cli holds
      · exact recorded
  | destroyed cli => exact kept
  | stopped stop cli => exact kept

end Rule

end ThemeSrv
