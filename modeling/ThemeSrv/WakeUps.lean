import ThemeSrv.ActionFrames

/-!
# Wake-ups

Client sockets are polled edge-triggered, so a dispatch may only end where the
socket will announce itself again: after a read that would block, and with
every queued message behind a write that the socket did not take whole.
-/

namespace ThemeSrv

open Client KeystreamCipher TransitionSystem

/-- Answer of a read. -/
def SocketCall.readAnswer? : SocketCall → Option ReadAnswer
  | .read _ answer => some answer
  | .write _ _ | .shutdown => none

/-- The answer to the last read on a socket. -/
def Socket.lastRead (sock : Socket) : Option ReadAnswer :=
  (sock.calls.filterMap SocketCall.readAnswer?).getLast?

theorem Socket.Blocked.lastRead {sock : Socket} (blocked : sock.Blocked)
    (up : sock.isDown = false) : sock.lastRead = some .wouldBlock := by
  rcases blocked with down | ⟨calls, asked, sameCalls⟩
  · rw [up] at down
    cases down
  · simp [Socket.lastRead, sameCalls, SocketCall.readAnswer?]

/-! ### The write queue between two events -/

/-- The first message of the queue is waiting for the socket. -/
structure Drained (c : ClientBase) : Prop where
  inside : ∀ state ∈ c.writes, state.Inside
  stalled : c.writes ≠ [] → c.sock.isDown = true ∨ c.sock.WriteStalled

theorem Drained.readOnly {c c' : ClientBase} (drained : Drained c) (writes : c'.writes = c.writes)
    (readOnly : c.sock.ReadOnly c'.sock) : Drained c' where
  inside := by
    rw [writes]
    exact drained.inside
  stalled := by
    intro waiting
    rw [writes] at waiting
    rcases drained.stalled waiting with down | ⟨offered, answer, last, short⟩
    · exact Or.inl (readOnly.isDown down)
    · exact Or.inr ⟨offered, answer, readOnly.lastWrite_eq.trans last, short⟩

theorem ResumedWrite.drained {c c' : ClientBase} {state state' : WriteState}
    (resumed : ResumedWrite state c false state' c') {rest : List WriteState}
    (inside : ∀ queued ∈ state :: rest, queued.Inside) :
    Drained { c' with writes := state' :: rest } where
  inside := by
    intro queued member
    rcases List.mem_cons.mp member with rfl | behind
    · exact resumed.inside (inside state (by simp))
    · exact inside queued (by simp [behind])
  stalled := fun _ => resumed.stalled (inside state (by simp)) rfl

theorem Drained.enqueueWrite {ns : NetStruct} {image : Bytes} {c c' : ClientBase}
    (drained : Drained c) (done : enqueueWrite ns image c = .done () c') : Drained c' := by
  have case := enqueueCase ns image c
  rw [done] at case
  have fresh (wire : Bytes) : ∀ queued ∈ [WriteState.mk 0 wire], queued.Inside := by
    intro queued member
    rw [List.mem_singleton.mp member]
    exact Nat.zero_le _
  cases case with
  | queued wire encrypt encoded waiting =>
      constructor
      · intro queued member
        rcases List.mem_append.mp member with before | new
        · exact drained.inside queued before
        · exact fresh wire queued new
      · intro _
        exact drained.stalled waiting
  | sent wire encrypt encoded idle state _ resumed =>
      have empty : c'.writes = [] := resumed.writes.trans idle
      constructor
      · intro queued member
        rw [empty] at member
        cases member
      · intro waiting
        exact absurd empty waiting
  | partly wire encrypt encoded idle state c₁ resumed => exact resumed.drained (fresh wire)

/-- `pump_write` stops at the end of the queue, or where the socket does. -/
theorem pumpWriteLoop_drained (turns : Nat) {c : ClientBase}
    (inside : ∀ state ∈ c.writes, state.Inside) (enough : c.writes.length < turns) :
    Drained (pumpWriteLoop turns c) := by
  induction turns generalizing c with
  | zero => exact absurd enough (Nat.not_lt_zero _)
  | succ turns ih =>
      rw [pumpWriteLoop]
      have case := handleWriteCase c
      generalize handleWrite c = result at case
      cases case with
      | idle nothing => exact ⟨inside, fun waiting => absurd nothing waiting⟩
      | sent front rest queue state c' resumed =>
          rw [queue] at inside enough
          apply ih
          · intro queued member
            exact inside queued (List.mem_cons_of_mem _ member)
          · exact Nat.lt_of_succ_lt_succ enough
      | partly front rest queue state c' resumed =>
          rw [queue] at inside
          exact resumed.drained inside

theorem HandlerCase.drained {server : Server} {cli : Client} {buf : Bytes} {stage : Stage}
    {result : Bool} {cli' : Client} (case : HandlerCase server cli buf stage (.done result cli'))
    (drained : Drained cli.base) : Drained cli'.base := by
  have same (base : ClientBase) (writes : base.writes = cli.base.writes)
      (sock : base.sock = cli.base.sock) : Drained base := by
    apply drained.readOnly writes
    rw [sock]
    exact .refl _
  generalize outcomeEq : Outcome.done result cli' = outcome at case
  cases case with
  | seedStopped | answerStopped => cases outcomeEq
  | unknownConnection | badHandshake | decrypted | unknownMessage =>
      cases outcomeEq
      exact drained
  | gate | seedWanted | bodyWanted =>
      cases outcomeEq
      exact same _ rfl rfl
  | keyed srvSeed key derived base written =>
      cases outcomeEq
      have queued := drained.enqueueWrite written
      exact ⟨queued.inside, queued.stalled⟩
  | answered request head base written =>
      cases outcomeEq
      exact (same (cli.base.readStruct msgStdHeader) rfl rfl).enqueueWrite written

theorem drained_rule (server : Server) :
    ConnectionInvariant server (fun cli => Drained cli.base) fun _ => True where
  start := fun _ _ _ => ⟨by simp [Client.new, ClientBase.new, ClientBase.readStruct],
    fun waiting => absurd rfl waiting⟩
  polled := fun _ _ drained => ⟨drained.inside, drained.stalled⟩
  write := fun cli drained => pumpWriteLoop_drained _ drained.inside (Nat.lt_succ_self _)
  visit := fun _ _ _ drained => drained
  read := fun _ _ _ frame drained => drained.readOnly frame.writes frame.readOnly
  handle := by
    intro stage buf cli outcome received drained case
    refine ⟨trivial, ?_⟩
    rintro cli' rfl -
    exact case.drained drained
  recorded := fun _ _ => trivial
  shutdown := fun _ _ => trivial
  recordedPolled := fun _ _ _ => trivial
  hangUp := fun _ _ => trivial

/-! ### Dispatches that return -/

/-- Dispatched events, whatever the socket has been through. -/
inductive DispatchStep (server : Server) : Connection → Connection → Prop
  | dispatch (cli : Client) (event : PollEvent) (polling : cli.flags.polling = true) :
      DispatchStep server (.alive cli) (handleDispatch server event (cli.polled event))

/-- The connection is one of a run, unless its socket has been shut down. -/
def UpReachable (server : Server) (connection : Connection) : Prop :=
  connection.client.base.sock.isDown = false → ReachableConnection server connection

/-- Up to a shutdown such a run is a run of the connection. -/
theorem reachableConnection_of_up {server : Server} {connection : Connection}
    (reached : Reachable ConnectionStart (DispatchStep server) connection)
    (up : connection.client.base.sock.isDown = false) :
    ReachableConnection server connection := by
  have upReachable : UpReachable server connection := by
    refine reached.invariant ?_ ?_
    · intro connection starts up
      exact reachable_start starts
    · intro source target ih step up
      cases step with
      | dispatch cli event polling =>
          have before : cli.base.sock.isDown = false := by
            by_contra down
            have continues := continues_handleDispatch server event (cli.polled event)
            rw [continues.isDown (Bool.eq_true_of_not_eq_false down)] at up
            cases up
          apply (ih before).tail
          apply ConnectionStep.dispatch cli event polling
          intro down
          rw [before] at down
          cases down
  exact upReachable up

/-- What a dispatch leaves behind, unless the socket has been shut down. -/
structure Awake (event : PollEvent) (c : ClientBase) : Prop where
  read : event.read = true → c.sock.lastRead = some .wouldBlock
  write : c.writes = [] ∨ c.sock.WriteStalled

theorem Drained.write {c : ClientBase} (drained : Drained c) (up : c.sock.isDown = false) :
    c.writes = [] ∨ c.sock.WriteStalled := by
  by_cases idle : c.writes = []
  · exact Or.inl idle
  · rcases drained.stalled idle with down | stalled
    · rw [up] at down
      cases down
    · exact Or.inr stalled

theorem AtRest.write {cli : Client} (atRest : AtRest (fun cli => Drained cli.base) (fun _ => True) cli)
    (up : cli.base.sock.isDown = false) : cli.base.writes = [] ∨ cli.base.sock.WriteStalled := by
  rcases atRest with ⟨stage, waiting, drained⟩ | ⟨down, -⟩
  · exact drained.write up
  · rw [up] at down
    cases down

/-- Whenever a dispatch without a hang-up returns, the socket is going to
announce itself again. -/
theorem no_lost_wakeup (server : Server) {cli cli' : Client} {event : PollEvent}
    (reached : Reachable ConnectionStart (DispatchStep server) (.alive cli))
    (noHangUp : event.hup = false)
    (returned : handleDispatch server event (cli.polled event) = .alive cli')
    (up : cli'.base.sock.isDown = false) : Awake event cli'.base := by
  have before : cli.base.sock.isDown = false := by
    by_contra down
    have continues := continues_handleDispatch server event (cli.polled event)
    rw [returned] at continues
    have downAfter := continues.isDown (Bool.eq_true_of_not_eq_false down)
    rw [show (Connection.alive cli').client = cli' from rfl, up] at downAfter
    cases downAfter
  have atRest := (drained_rule server).keeps (reachableConnection_of_up reached before)
  have kept := (drained_rule server).handleDispatch event atRest (by simp [before])
  rw [returned] at kept
  refine ⟨?_, kept.write up⟩
  intro read
  rcases atRest with ⟨stage, waiting, drained⟩ | ⟨down, -⟩
  · obtain ⟨waiting, drained⟩ := (drained_rule server).pumped event waiting drained
    have pumped := (drained_rule server).pumpRead event.fuel event.fuel waiting drained
    rw [handleDispatch_up noHangUp, if_pos read] at returned
    split at returned
    · cases returned
    generalize pumpRead server event.fuel event.fuel _ = outcome at pumped returned
    cases outcome with
    | stopped stop stoppedCli => cases returned
    | done value doneCli =>
        cases returned
        exact pumped.2.lastRead up
  · rw [before] at down
    cases down

/-- The opening leaves a part of the handshake reply in the queue. -/
theorem no_lost_wakeup_opening :
    ∃ cli, handleDispatch plainServer opening (acceptedClient.polled opening) = .alive cli ∧
      cli.base.sock.isDown = false ∧ cli.base.unsent.length = 5 ∧ Awake opening cli.base := by
  have up : openedConnection.client.base.sock.isDown = false := by decide +kernel
  have queued : openedConnection.client.base.unsent.length = 5 := by decide +kernel
  have alive : openedConnection.isAlive = true := by decide +kernel
  rw [openedConnection] at up queued alive
  cases returned : handleDispatch plainServer opening (acceptedClient.polled opening) with
  | destroyed cli | stopped stop cli =>
      rw [returned] at alive
      cases alive
  | alive cli =>
      rw [returned] at up queued
      exact ⟨cli, rfl, up, queued, no_lost_wakeup plainServer
        (reachable_start (.accepted ⟨[], .wouldBlock, [], []⟩ true rfl)) rfl returned up⟩

end ThemeSrv
