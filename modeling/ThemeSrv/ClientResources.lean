import ThemeSrv.StopCauses

/-!
# What a client costs

The daemon does not look at the length of its write queues before it handles
the next request.  What it owes a client, and what it has sent to it, is all
the same bounded by what the client has sent itself, since every message pays
for its answer; and no message buffer is larger than that of the seed.
-/

namespace ThemeSrv

open ByteString Client Gatekeeper KeystreamCipher TransitionSystem

/-! ### Bytes of the message in hand -/

/-- Wire size of what the reader has of its message. -/
def ClientBase.position (c : ClientBase) (ns : NetStruct) : Nat :=
  ns.wireBefore c.read.memory c.read.field + c.read.offset

/-- The position advances by no more than what is received. -/
theorem position_of_turn {ns : NetStruct} (wellFormed : ns.WellFormed) {c c' : ClientBase}
    {turn : Turn} (standing : c.read.Standing ns) (done : resumeReadTurn c = .done turn c')
    (seen : c.position ns ≤ c.decrypt.fed.length) :
    c'.position ns ≤ c'.decrypt.fed.length ∧
      c'.position ns + c.sock.received.length ≤ c.position ns + c'.sock.received.length := by
  have case := turnCase wellFormed standing
  rw [done] at case
  obtain ⟨bytes, fed, received, -⟩ := (turnFrame case).fed
  have start : Accounted ns (c.decrypt.fed.length - c.position ns) 0 c := by
    unfold Accounted ClientBase.position at *
    omega
  have grows : c'.decrypt.fed.length = c.decrypt.fed.length + bytes.length := by
    rw [fed, Context.feed_fed, List.length_append]
  rw [received, List.length_append]
  unfold ClientBase.position at *
  rcases accounted_of_turn wellFormed standing case start with ⟨accounted, -⟩ | accounted
  · unfold Accounted at accounted
    omega
  · unfold Accounted at accounted
    omega

/-! ### Answers -/

theorem enqueueWrite_read {ns : NetStruct} {image : Bytes} {c c' : ClientBase}
    (done : enqueueWrite ns image c = .done () c') : c'.read = c.read := by
  have case := enqueueCase ns image c
  rw [done] at case
  obtain ⟨_, _, _, _, _, sameRead, _⟩ := case.recorded
  exact sameRead

theorem enqueueWrite_encoded {ns : NetStruct} {image : Bytes} {c c' : ClientBase}
    (wellFormed : ns.WellFormed) (variableLast : ns.VariableLast)
    (done : enqueueWrite ns image c = .done () c') :
    c'.encoded.length ≤ c.encoded.length + image.length := by
  have case := enqueueCase ns image c
  rw [done] at case
  obtain ⟨wire, encrypt, encoded, -, -, -, posted⟩ := case.recorded
  obtain ⟨count, inside, -, rfl, -⟩ := of_encodeMessage_packed wellFormed variableLast encoded
  rw [ClientBase.encoded, posted, List.flatMap_append, List.length_append, List.flatMap_singleton,
    Context.output_length, List.length_take]
  exact Nat.add_le_add_left (min_le_right _ _) _

theorem Server.answer_length (server : Server) (posted : Nat) (request : RequestId) {buf : Bytes}
    (size : buf.length = request.struct.allocation) :
    (server.answer posted buf request).2.length ≤ 56 := by
  cases request with
  | pingRequest =>
      change buf.length ≤ 56
      rw [size]
      decide
  | fileSrvRequest | authSrvRequest => exact (server.addressReply_length _ _ _).le

theorem Server.answer_encodes (server : Server) (posted : Nat) (buf : Bytes)
    (request : RequestId) : (server.answer posted buf request).1.WellFormed ∧
      (server.answer posted buf request).1.VariableLast := by
  cases request with
  | pingRequest => exact ⟨(by decide : pingReply.WellFormed), (by decide : pingReply.VariableLast)⟩
  | fileSrvRequest | authSrvRequest =>
      exact ⟨(by decide : fileSrvReply.WellFormed), (by decide : fileSrvReply.VariableLast)⟩

/-- No request has less than six bytes. -/
theorem six_le_wireBefore (request : RequestId) (block : Bytes) :
    6 ≤ request.struct.wireBefore block request.struct.size := by
  cases request with
  | pingRequest =>
      have whole : pingRequest.wireBefore block pingRequest.size =
          14 + pingRequest.wireSz block 4 := rfl
      change 6 ≤ pingRequest.wireBefore block pingRequest.size
      omega
  | fileSrvRequest => exact (by decide : 6 ≤ 7)
  | authSrvRequest => exact le_refl 6

/-- An answer that is paid for leaves nothing unpaid. -/
theorem paid_of_written {ns : NetStruct} {image : Bytes} {c base : ClientBase}
    (wellFormed : ns.WellFormed) (variableLast : ns.VariableLast)
    (written : enqueueWrite ns image c = .done () base)
    (paid : c.encoded.length + image.length ≤ 10 * c.sock.received.length) :
    base.encoded.length ≤ 10 * base.sock.received.length := by
  have longer := enqueueWrite_encoded wellFormed variableLast written
  have same := (enqueueWrite_sameInput written).received
  rw [same]
  exact longer.trans paid

/-! ### The rule -/

/-- Ten times what a client has sent covers what has been encoded for it, and
ten times the message in hand is left for its answer. -/
structure Funded (stage : Stage) (cli : Client) : Prop where
  seen : cli.base.position stage.struct ≤ cli.base.decrypt.fed.length
  paid : cli.base.encoded.length + 10 * cli.base.position stage.struct ≤
    10 * cli.base.sock.received.length

theorem funded_start {stage : Stage} {cli : Client} (field : cli.base.read.field = 0)
    (offset : cli.base.read.offset = 0)
    (paid : cli.base.encoded.length ≤ 10 * cli.base.sock.received.length) : Funded stage cli := by
  have start : cli.base.position stage.struct = 0 := by
    rw [ClientBase.position, field, offset]
    rfl
  constructor
  · rw [start]
    exact Nat.zero_le _
  · rw [start]
    exact paid

theorem funded_handle {server : Server} {stage next : Stage} {cli cli' : Client}
    {completed : Option NetStruct} (complete : Completed stage.struct cli.base.read)
    (funded : Funded stage cli)
    (case : HandlerCase server { cli with base := cli.base.released, completed := completed }
      cli.base.read.memory stage (.done true cli'))
    (waiting : Waiting next cli'.toClientState) : Funded next cli' := by
  have whole : cli.base.position stage.struct =
      stage.struct.wireBefore cli.base.read.memory stage.struct.size := by
    rw [ClientBase.position, complete.field, complete.offset, Nat.add_zero]
  have paid := funded.paid
  generalize outcomeEq : Outcome.done true cli' = outcome at case
  cases case with
  | unknownConnection | badHandshake | seedStopped | unknownMessage | answerStopped =>
      cases outcomeEq
  | gate | decrypted | seedWanted =>
      cases outcomeEq
      exact funded_start rfl rfl (show cli.base.encoded.length ≤ _ by
        change _ ≤ 10 * cli.base.sock.received.length
        omega)
  | keyed srvSeed key derived base written =>
      cases outcomeEq
      have read := enqueueWrite_read written
      have sent : cli.base.position (encryptMsg 64) = 64 := whole
      have size : (EncryptS2c.image ⟨s2cEncrypt, 9, srvSeed⟩).length = 9 := by
        simp only [EncryptS2c.image, List.length_append, leBytes_length,
          server.derive_length derived]
      change cli.base.encoded.length + 10 * cli.base.position (encryptMsg 64) ≤
        10 * cli.base.sock.received.length at paid
      have paidBase : base.encoded.length ≤ 10 * base.sock.received.length := by
        apply paid_of_written (by decide) (by decide) written
        change cli.base.encoded.length + _ ≤ 10 * cli.base.sock.received.length
        omega
      exact funded_start (congrArg ReadState.field read) (congrArg ReadState.offset read) paidBase
  | bodyWanted request type =>
      cases outcomeEq
      have sent : cli.base.position msgStdHeader = 2 := whole
      have struct : next.struct = request.struct :=
        (Option.some.inj waiting.standing.struct).symm
      have start : (cli.base.released.readFrom request.struct 1 cli.base.read.memory).position
          next.struct = 2 := by
        rw [struct]
        cases request <;> rfl
      have seen := funded.seen
      constructor
      · change ClientBase.position _ next.struct ≤ cli.base.decrypt.fed.length
        refine start.le.trans ?_
        rw [← sent]
        exact seen
      · change cli.base.encoded.length + 10 * ClientBase.position _ next.struct ≤
          10 * cli.base.sock.received.length
        change cli.base.encoded.length + 10 * cli.base.position msgStdHeader ≤ _ at paid
        rw [sent] at paid
        rw [show ClientBase.position _ next.struct = 2 from start]
        exact paid
  | answered request head base written =>
      cases outcomeEq
      have read := enqueueWrite_read written
      have size := server.answer_length cli.base.posted.length request complete.allocated
      have enough := six_le_wireBefore request cli.base.read.memory
      obtain ⟨wellFormed, variableLast⟩ :=
        server.answer_encodes cli.base.posted.length cli.base.read.memory request
      refine funded_start (congrArg ReadState.field read) (congrArg ReadState.offset read)
        (paid_of_written wellFormed variableLast written ?_)
      change _ + 10 * cli.base.position request.struct ≤ _ at paid
      change cli.base.position request.struct =
        request.struct.wireBefore cli.base.read.memory request.struct.size at whole
      change cli.base.encoded.length +
        (server.answer cli.base.posted.length cli.base.read.memory request).2.length ≤
          10 * cli.base.sock.received.length
      omega

theorem fundedRule (server : Server) : PoisedRule server Funded where
  start := fun sock polling unused => funded_start rfl rfl (Nat.zero_le _)
  polled := fun stage cli event funded => ⟨funded.seen, funded.paid⟩
  write := by
    intro stage cli funded
    have frame := pumpWriteFrame cli.base
    have same := (pumpWrite_sameInput cli.base).received
    have position : (pumpWrite cli.base).position stage.struct = cli.base.position stage.struct := by
      rw [ClientBase.position, ClientBase.position, frame.read]
    constructor
    · change (pumpWrite cli.base).position stage.struct ≤ (pumpWrite cli.base).decrypt.fed.length
      rw [position, frame.decrypt]
      exact funded.seen
    · change ((pumpWrite cli.base).posted.flatMap Posted.wire).length +
        10 * (pumpWrite cli.base).position stage.struct ≤
          10 * (pumpWrite cli.base).sock.received.length
      rw [position, frame.posted, same]
      exact funded.paid
  visit := fun stage cli funded => ⟨funded.seen, funded.paid⟩
  turn := by
    intro stage cli c turn invariant funded done
    obtain ⟨seen, advance⟩ :=
      position_of_turn stage.struct_wellFormed invariant.standing done funded.seen
    have case := turnCase stage.struct_wellFormed invariant.standing
    rw [done] at case
    have paid := funded.paid
    refine ⟨seen, ?_⟩
    change (c.posted.flatMap Posted.wire).length + 10 * c.position stage.struct ≤
      10 * c.sock.received.length
    change (cli.base.posted.flatMap Posted.wire).length + _ ≤ _ at paid
    rw [(turnFrame case).posted]
    omega
  handle := fun stage next cli completed cli' complete funded _ case waiting =>
    funded_handle complete funded case waiting

/-! ### The clients of a server -/

theorem Gatekeeper.RequestId.allocation_le (request : RequestId) : request.struct.allocation ≤ 96 := by
  cases request <;> decide

theorem Stage.allocation_le (stage : Stage) : stage.struct.allocation ≤ 96 := by
  cases stage with
  | hello | handshake | seed | header => decide
  | body request head => exact request.allocation_le

/-- A client that is up has at most ten times the bytes encoded for it that it
has sent, whether or not it takes them, and a message buffer of at most 96. -/
theorem client_resources (server : Server) {d : Daemon} {batch : List EpollEvent}
    (reached : ReachableServing server (.running d batch)) {node : ClientNode}
    (member : node ∈ d.clients) (up : node.client.base.sock.isDown = false) :
    node.client.base.sock.sent.length + node.client.base.unsent.length ≤
        10 * node.client.base.sock.received.length ∧
      node.client.base.read.memory.length ≤ 96 := by
  have sending : Sending node.client.base :=
    (sending_rule _).history_client (reached.client member)
  rcases (fundedRule _).rests (reached.client member) with
    ⟨stage, waiting, invariant, funded⟩ | down
  · constructor
    · rw [← List.length_append, sending.represented.conserved]
      exact (Nat.le_add_right _ _).trans funded.paid
    · exact waiting.standing.capacity.trans stage.allocation_le
  · rw [up] at down
    cases down

/-- The client has opened its connection, and has been sent 4 of 9 bytes. -/
theorem client_resources_opened : openedConnection.client.base.sock.sent.length +
      openedConnection.client.base.unsent.length ≤
        10 * openedConnection.client.base.sock.received.length ∧
    openedConnection.client.base.read.memory.length ≤ 96 := by
  have reached := reachableServing_opened
  rw [dispatchEvent_openingArrives] at reached
  have up : openedConnection.client.base.sock.isDown = false := by decide +kernel
  generalize openedConnection.client = cli at reached up ⊢
  have member : (⟨0, 4, cli, some 0⟩ : ClientNode) ∈ (servingOne.setClient 0 cli).clients :=
    List.mem_cons_self
  exact client_resources plainServer reached member up

end ThemeSrv
