import ThemeSrv.OfferedBytes
import ThemeSrv.WakeUps

/-!
# Emptying the queue

Whatever a connection has posted is either sent or queued.  When the socket is
writable again and takes what it is offered, one event sends all of the queue.
-/

namespace ThemeSrv

open KeystreamCipher

/-! ### Sent or queued -/

theorem sending_rule (server : Server) :
    ConnectionInvariant server (fun cli => Sending cli.base) fun cli => Sending cli.base where
  start := by
    intro sock polling unused
    have nothingSent : sock.sent = [] := by rw [Socket.sent, unused, List.flatMap_nil]
    refine ⟨⟨⟨[], [], [], rfl⟩, rfl, nothingSent.symm, rfl⟩, ?_⟩
    intro before offered answer after split
    change sock.calls = _ at split
    rw [unused] at split
    simp at split
  polled := fun _ _ sending =>
    sending.readOnly rfl rfl ⟨[], (List.append_nil _).symm, by simp⟩
  write := fun _ sending => pumpWrite_keeps Sending (fun _ sending => sending.handleWrite) sending
  visit := fun _ _ _ sending => sending
  read := fun _ _ _ frame sending => sending.readOnly frame.writes frame.posted frame.readOnly
  handle := by
    intro stage buf cli outcome received sending case
    have kept : Sending outcome.state.base := by
      cases case with
      | unknownConnection | badHandshake | decrypted | unknownMessage => exact sending
      | gate | seedWanted | bodyWanted => exact sending.readOnly rfl rfl (.refl _)
      | seedStopped srvSeed key derived stop base stopped =>
          have case := enqueueCase encryptS2c (EncryptS2c.image ⟨s2cEncrypt, 9, srvSeed⟩) cli.base
          rw [stopped] at case
          cases case
          exact sending
      | keyed srvSeed key derived base written =>
          exact (sending.enqueueWrite written).readOnly rfl rfl (.refl _)
      | answerStopped request head stop base stopped =>
          have case := enqueueCase (server.answer cli.base.posted.length buf request).1
            (server.answer cli.base.posted.length buf request).2 (cli.base.readStruct msgStdHeader)
          rw [stopped] at case
          cases case
          exact sending.readOnly rfl rfl (.refl _)
      | answered request head base written =>
          have registered : Sending (cli.base.readStruct msgStdHeader) :=
            sending.readOnly rfl rfl (.refl _)
          exact registered.enqueueWrite written
    refine ⟨kept, ?_⟩
    rintro cli' rfl -
    exact kept
  recorded := fun _ sending => sending
  shutdown := fun _ sending => sending.readOnly rfl rfl (Socket.readOnly_shutdown _)
  recordedPolled := fun _ _ sending =>
    sending.readOnly rfl rfl ⟨[], (List.append_nil _).symm, by simp⟩
  hangUp := fun _ sending => sending.readOnly rfl rfl (.refl _)

/-! ### A socket that takes what it is offered -/

/-- For as many writes as there are queued messages the socket takes all it is
offered. -/
structure TakesQueue (c : ClientBase) (outbound : List WriteAnswer) : Prop where
  many : c.writes.length ≤ outbound.length
  whole : ∀ answer ∈ outbound.take c.writes.length,
    ∃ count, answer = .accepted count ∧ c.unsent.length ≤ count

theorem resumeWrite_whole {state : WriteState} {c : ClientBase} (inside : state.Inside)
    {count : Nat} {rest : List WriteAnswer} (script : c.sock.outbound = .accepted count :: rest)
    (whole : state.unsent.length ≤ count) :
    ∃ state' c', resumeWrite state c = (true, state', c') ∧ c'.sock.outbound = rest := by
  have offered : state.buf.drop state.bufoffs = state.unsent := rfl
  have taken : min count state.unsent.length = state.buf.length - state.bufoffs := by
    rw [min_eq_right whole, WriteState.unsent, List.length_drop]
  have start : state.bufoffs ≤ state.buf.length := inside
  have finished : (state.bufoffs + (state.buf.length - state.bufoffs) == state.buf.length) = true := by
    rw [beq_iff_eq]
    omega
  rw [resumeWrite, Socket.write, script, offered]
  simp only [List.headD_cons, WriteAnswer.limit, taken, finished, List.tail_cons]
  exact ⟨_, _, rfl, rfl⟩

theorem pumpWriteLoop_empties (turns : Nat) {c : ClientBase} (enough : c.writes.length < turns)
    (inside : ∀ state ∈ c.writes, state.Inside) (takes : TakesQueue c c.sock.outbound) :
    (pumpWriteLoop turns c).writes = [] := by
  induction turns generalizing c with
  | zero => exact absurd enough (Nat.not_lt_zero _)
  | succ turns ih =>
      rw [pumpWriteLoop, handleWrite]
      cases queue : c.writes with
      | nil => exact queue
      | cons front rest =>
          rw [queue] at enough inside
          obtain ⟨many, whole⟩ := takes
          rw [queue] at many whole
          have unsent : c.unsent = front.unsent ++ rest.flatMap WriteState.unsent := by
            rw [ClientBase.unsent, queue, List.flatMap_cons]
          rw [unsent, List.length_append] at whole
          cases script : c.sock.outbound with
          | nil =>
              rw [script] at many
              exact absurd many (Nat.not_succ_le_zero _)
          | cons answer answers =>
              rw [script] at many whole
              obtain ⟨count, rfl, room⟩ := whole answer List.mem_cons_self
              obtain ⟨state, c', resumed, outbound⟩ := resumeWrite_whole
                (inside front List.mem_cons_self) script (by omega)
              simp only [resumed]
              refine ih (Nat.lt_of_succ_lt_succ enough) ?_ ⟨?_, ?_⟩
              · exact fun state member => inside state (List.mem_cons_of_mem _ member)
              · rw [outbound]
                exact Nat.le_of_succ_le_succ many
              · rw [outbound]
                intro answer member
                obtain ⟨count, accepted, room⟩ := whole answer (List.mem_cons_of_mem _ member)
                refine ⟨count, accepted, ?_⟩
                change (rest.flatMap WriteState.unsent).length ≤ count
                omega

theorem Continues.sent {c c' : ClientBase} (continues : Continues c c') :
    c.sock.sent <+: c'.sock.sent := by
  obtain ⟨more, calls⟩ := continues
  rw [Socket.sent, Socket.sent, ← calls, List.flatMap_append]
  exact List.prefix_append _ _

/-- On a writable socket that takes what it is offered, an event sends all
that the connection owes, whatever it reads afterwards. -/
theorem owed_is_sent (server : Server) {cli : Client}
    (reached : ReachableConnection server (.alive cli)) (up : cli.base.sock.isDown = false)
    {event : PollEvent} (noHangUp : event.hup = false) (writable : event.write = true)
    (takes : TakesQueue cli.base event.outbound) :
    cli.base.encoded <+: (handleDispatch server event (cli.polled event)).client.base.sock.sent := by
  obtain ⟨stage, waiting, drained⟩ : ∃ stage, Waiting stage cli.toClientState ∧ Drained cli.base := by
    rcases (drained_rule server).keeps reached with atRest | ⟨down, -⟩
    · exact atRest
    · rw [up] at down
      cases down
  have sending := (sending_rule server).history_client reached
  have polled := (sending_rule server).polled cli event sending
  have empty : (pumpWrite (cli.polled event).base).writes = [] := by
    apply pumpWriteLoop_empties
    · exact Nat.lt_succ_self _
    · exact drained.inside
    · exact ⟨takes.many, takes.whole⟩
  have frame := pumpWriteFrame (cli.polled event).base
  have conserved := (pumpWrite_keeps Sending (fun _ sending => sending.handleWrite)
    polled).represented.conserved
  have sent : (pumpWrite (cli.polled event).base).sock.sent = cli.base.encoded := by
    rw [ClientBase.unsent, empty, List.flatMap_nil, List.append_nil] at conserved
    rw [conserved, ClientBase.encoded, frame.posted]
    rfl
  rw [handleDispatch_up noHangUp, Client.pumped, if_pos writable, ← sent]
  split
  · exact List.prefix_refl _
  split
  · have read := framed_pumpRead server event.fuel event.fuel
      { cli.polled event with base := pumpWrite (cli.polled event).base }
    generalize pumpRead server event.fuel event.fuel _ = outcome at read ⊢
    cases outcome with
    | stopped stop cli' => exact read.continues.sent
    | done value cli' => exact read.continues.sent
  · exact List.prefix_refl _

/-- The socket is writable again, and takes the rest of a handshake reply. -/
def writableAgain : PollEvent :=
  { opening with write := true, read := false, inbound := [], outbound := [.accepted 5] }

/-- The opening leaves a part of the handshake reply in the queue. -/
theorem owed_is_sent_opened :
    ∃ cli, openedConnection = .alive cli ∧ cli.base.unsent.length = 5 ∧
      cli.base.encoded <+: (handleDispatch plainServer writableAgain
        (cli.polled writableAgain)).client.base.sock.sent := by
  have alive : openedConnection.isAlive = true := by decide +kernel
  have up : openedConnection.client.base.sock.isDown = false := by decide +kernel
  have queued : openedConnection.client.base.writes.length = 1 ∧
      openedConnection.client.base.unsent.length = 5 := by decide +kernel
  have reached := reachable_opened
  generalize openedConnection = connection at alive up queued reached
  cases connection with
  | destroyed cli | stopped stop cli => cases alive
  | alive cli =>
      refine ⟨cli, rfl, queued.2, owed_is_sent plainServer reached up rfl rfl ⟨queued.1.le, ?_⟩⟩
      intro answer member
      obtain rfl : answer = .accepted 5 := List.mem_singleton.mp (List.mem_of_mem_take member)
      exact ⟨5, rfl, queued.2.le⟩

end ThemeSrv
