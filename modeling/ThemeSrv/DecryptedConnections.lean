import ThemeSrv.RequestReplies
import ThemeSrv.WakeUps

/-!
# Connections in the clear

A client that sends an empty handshake wants to go on without a key.  Where
that is allowed the handshake is accepted, but nothing is registered to be
read behind it, and `pump_read` shuts the connection down.
-/

namespace ThemeSrv

open ByteString Client Gatekeeper TransitionSystem

/-- What an established connection waits for. -/
structure AwaitsRequests (cli : ClientState) : Prop where
  encrypted : cli.flags.encrypted = true
  wantMsgHeader : cli.flags.wantMsgHeader = true
  pending : cli.base.read.struct = some msgStdHeader
  up : cli.base.sock.isDown = false

/-- A handshake of size 2 has been received. -/
def EmptyHandshake (visits : List Visit) : Prop :=
  ∃ visit ∈ visits, visit.point = .handleHandshake ∧
    visit.buf.take 2 = leBytes 1 c2sConnect ++ leBytes 1 2

/-- The connection waits for requests, having answered those it was sent. -/
def Established (server : Server) (cli : Client) (requests : List Request) : Prop :=
  AwaitsRequests cli.toClientState ∧ cli.base.replies = requests.map (Request.reply server)

/-- Nothing is pending behind an empty handshake. -/
def NothingPending (cli : Client) : Prop :=
  EmptyHandshake cli.trace → cli.base.read.struct = none

section Runs

variable {server : Server} {cli : Client}

theorem emptyHandshake_append {visits more : List Visit}
    (others : ∀ visit ∈ more, visit.point ≠ .handleHandshake) :
    EmptyHandshake (visits ++ more) ↔ EmptyHandshake visits := by
  constructor
  · rintro ⟨found, member, isHandshake, size⟩
    rcases List.mem_append.mp member with before | new
    · exact ⟨found, before, isHandshake, size⟩
    · exact absurd isHandshake (others found new)
  · rintro ⟨found, member, empty⟩
    exact ⟨found, List.mem_append_left _ member, empty⟩

/-- Until an empty handshake is received. -/
theorem HandlerCase.nothingPending {buf : Bytes} {stage : Stage} {outcome : Outcome Client Bool}
    (case : HandlerCase server cli buf stage outcome)
    (received : Received stage buf cli.toClientState) (before : ¬ EmptyHandshake cli.trace) :
    NothingPending outcome.state ∧
      ∀ cli', outcome = .done true cli' → cli'.base.hasPendingRead = true →
        ¬ EmptyHandshake cli'.trace := by
  have passed {cli' : Client} (after : ¬ EmptyHandshake cli'.trace) :
      NothingPending cli' ∧ ∀ last, Outcome.done true cli' = .done true last →
        last.base.hasPendingRead = true → ¬ EmptyHandshake last.trace := by
    refine ⟨fun empty => absurd empty after, ?_⟩
    rintro last ⟨⟩ -
    exact after
  have visited {cli' : Client} (more : List Visit) (trace : cli'.trace = cli.trace ++ more)
      (others : ∀ visit ∈ more, visit.point ≠ .handleHandshake) :
      ¬ EmptyHandshake cli'.trace := by
    rw [trace, emptyHandshake_append others]
    exact before
  cases case with
  | unknownConnection => exact ⟨fun _ => received.struct, by simp⟩
  | gate => exact passed (visited [_] rfl (by simp))
  | badHandshake => exact ⟨fun _ => received.struct, by simp⟩
  | decrypted =>
      refine ⟨fun _ => received.struct, ?_⟩
      rintro last ⟨⟩ pending
      have nothing : cli.base.read.struct.isSome = true := pending
      rw [received.struct] at nothing
      cases nothing
  | seedWanted size =>
      apply passed
      rintro ⟨found, member, isHandshake, empty⟩
      rcases List.mem_append.mp member with earlier | new
      · exact before ⟨found, earlier, isHandshake, empty⟩
      · rw [List.mem_singleton] at new
        subst found
        have second : (buf.drop 1).take 1 = [2] := by
          have both : buf.take 2 = [0, 2] := empty
          rw [List.take_drop, both]
          rfl
        rw [second] at size
        exact absurd size (by decide)
  | seedStopped => exact ⟨fun empty => absurd empty (visited [_] rfl (by simp)), by simp⟩
  | keyed =>
      exact passed (visited [_, _] (List.append_assoc _ _ _) (by simp))
  | unknownMessage => exact ⟨fun empty => absurd empty (visited [_] rfl (by simp)), by simp⟩
  | bodyWanted => exact passed (visited [_] rfl (by simp))
  | answerStopped request head =>
      have quiet : request.point ≠ .handleHandshake := by cases request <;> simp [RequestId.point]
      exact ⟨fun empty => absurd empty
        (visited [_, _] (List.append_assoc _ _ _) (by simp [quiet])), by simp⟩
  | answered request head =>
      have quiet : request.point ≠ .handleHandshake := by cases request <;> simp [RequestId.point]
      exact passed (visited [_, _] (List.append_assoc _ _ _) (by simp [quiet]))

theorem nothingPending_rule (server : Server) :
    ConnectionInvariant server (fun cli => ¬ EmptyHandshake cli.trace) NothingPending where
  start := by
    rintro sock polling unused ⟨visit, member, -⟩
    cases member
  polled := fun _ _ before => before
  write := fun _ before => before
  visit := by
    intro stage cli waiting before
    have others : ∀ visit ∈ [(⟨.resumeRead, [], cli.toClientState⟩ : Visit)],
        visit.point ≠ .handleHandshake := by simp
    exact (emptyHandshake_append others).not.mpr before
  read := fun _ _ _ _ before => before
  handle := fun _ _ _ _ received before case => case.nothingPending received before
  recorded := fun _ before empty => absurd empty before
  shutdown := fun _ nothing => nothing
  recordedPolled := fun _ _ nothing => nothing
  hangUp := fun _ nothing => nothing

end Runs

/-- No connection is established behind an empty handshake, whatever requests
follow it; while it lasts its socket is shut down. -/
theorem not_established_behind_empty_handshake (server : Server) (requests : List Request)
    {connection : Connection}
    (reached : Reachable ConnectionStart (DispatchStep server) connection)
    (handshake : EmptyHandshake connection.client.trace) :
    ¬ Established server connection.client requests ∧
      ∀ cli, connection = .alive cli → cli.base.sock.isDown = true := by
  constructor
  · rintro ⟨awaits, -⟩
    have restricted := reachableConnection_of_up reached awaits.up
    have nothing := (nothingPending_rule server).history_client restricted handshake
    rw [awaits.pending] at nothing
    cases nothing
  · rintro cli rfl
    by_contra notDown
    have up : cli.base.sock.isDown = false := Bool.eq_false_of_not_eq_true notDown
    have kept := (nothingPending_rule server).keeps (reachableConnection_of_up reached up)
    rcases kept with ⟨stage, waiting, before⟩ | ⟨down, -⟩
    · exact before handshake
    · exact notDown down

/-- A client that goes on in the clear. -/
def clearOpening (requests : List Request) : PollEvent :=
  { opening with
    inbound := [.data (openingBytes.take 51 ++ [0, 2] ++ requests.flatMap Request.bytes)]
    outbound := [] }

/-- Behind its opening, on a server that allows it. -/
def clearConnection (requests : List Request) : Connection :=
  handleDispatch { plainServer with allowDecrypted := true } (clearOpening requests)
    (acceptedClient.polled (clearOpening requests))

theorem reachable_clear (requests : List Request) :
    Reachable ConnectionStart (DispatchStep { plainServer with allowDecrypted := true })
      (clearConnection requests) :=
  (reachable_start (ConnectionStart.accepted ⟨[], .wouldBlock, [], []⟩ true rfl)).tail
    (.dispatch acceptedClient (clearOpening requests) rfl)

/-- A ping behind the empty handshake is not even read. -/
theorem not_established_clear_ping :
    EmptyHandshake (clearConnection [.ping 7 9 [] (by decide)]).client.trace ∧
      ¬ Established { plainServer with allowDecrypted := true }
        (clearConnection [.ping 7 9 [] (by decide)]).client [.ping 7 9 [] (by decide)] := by
  have handshake : EmptyHandshake (clearConnection [.ping 7 9 [] (by decide)]).client.trace := by
    have points : (clearConnection [.ping 7 9 [] (by decide)]).client.trace.map
        (fun visit => (visit.point, visit.buf.take 2)) =
          [(.resumeRead, []), (.incomingRead, [22, 31]), (.resumeRead, []),
            (.handleHandshake, [0, 2]), (.setEncrypted, [0, 2])] := by
      decide +kernel
    have passed : (Point.handleHandshake, ([0, 2] : Bytes)) ∈
        (clearConnection [.ping 7 9 [] (by decide)]).client.trace.map
          (fun visit => (visit.point, visit.buf.take 2)) := by
      rw [points]
      simp
    obtain ⟨visit, member, same⟩ := List.mem_map.mp passed
    obtain ⟨point, front⟩ := Prod.mk.inj same
    exact ⟨visit, member, point, front⟩
  exact ⟨handshake, (not_established_behind_empty_handshake _ _ (reachable_clear _) handshake).1⟩

/-- The claim for one sequence. -/
theorem not_established_every_sequence :
    ¬ ∀ requests : List Request,
      Established { plainServer with allowDecrypted := true } (clearConnection requests).client
        requests := by
  intro claimed
  have up := (claimed []).1.up
  have down : (clearConnection []).client.base.sock.isDown = true := by decide +kernel
  rw [down] at up
  cases up

end ThemeSrv
