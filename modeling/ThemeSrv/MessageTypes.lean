import ThemeSrv.ConnectionRuns

/-!
# Message types

Handlers cast the buffer they are given.  Along every run the buffer is the
one of the struct it is cast to, and a request keeps the type field by which
`read_msg` chose its struct.
-/

namespace ThemeSrv

open ByteString Gatekeeper

/-- The request in hand is the one that `read_msg` chose a struct for. -/
def Visit.Chosen (visit : Visit) (request : RequestId) : Prop :=
  ∃ head, visit.state.chosen = some (request.struct, head) ∧
    visit.state.completed = some request.struct ∧
    visit.buf.take 2 = head.take 2 ∧
    RequestId.ofCode (leValue (visit.buf.take 2)) = some request

/-- What was read is what the code at this point takes it for. -/
def Visit.Typed (visit : Visit) : Prop :=
  match visit.point with
  | .resumeRead => visit.state.base.hasPendingRead = true
  | .incomingRead => visit.state.completed = some connectionHeader
  | .handleHandshake => visit.state.completed = some encryptHeader
  | .handleYdata => visit.state.completed = some (encryptMsg 64)
  | .setEncrypted => True
  | .readMsg => visit.state.completed = some msgStdHeader
  | .dispatchMsg => ∃ request, visit.Chosen request
  | .handlePing => visit.Chosen .pingRequest
  | .handleFileSrvReq => visit.Chosen .fileSrvRequest
  | .handleAuthSrvReq => visit.Chosen .authSrvRequest
  | .noDispatcher => False

/-- The record of a run without confusion: every point has the message it
expects, and `dispatch_msg` goes on to the handler of the chosen struct. -/
structure WellTyped (visits : List Visit) : Prop where
  typed : ∀ visit ∈ visits, visit.Typed
  dispatched : ∀ index visit, visits[index]? = some visit → visit.point = .dispatchMsg →
    ∃ request next, visit.Chosen request ∧ visits[index + 1]? = some next ∧
      next.point = request.point ∧ next.buf = visit.buf

theorem wellTyped_nil : WellTyped [] where
  typed := by simp
  dispatched := by simp

theorem WellTyped.append {visits : List Visit} (wellTyped : WellTyped visits) (visit : Visit)
    (typed : visit.Typed) (other : visit.point ≠ .dispatchMsg) :
    WellTyped (visits ++ [visit]) where
  typed := by
    intro earlier member
    rcases List.mem_append.mp member with member | member
    · exact wellTyped.typed earlier member
    · rwa [List.mem_singleton.mp member]
  dispatched := by
    intro index earlier found isDispatch
    rcases lt_or_ge index visits.length with inside | outside
    · rw [List.getElem?_append_left inside] at found
      obtain ⟨request, next, chosen, following, point, buf⟩ :=
        wellTyped.dispatched index earlier found isDispatch
      refine ⟨request, next, chosen, ?_, point, buf⟩
      have further := (List.getElem?_eq_some_iff.mp following).1
      rwa [List.getElem?_append_left further]
    · rw [List.getElem?_append_right outside] at found
      have member := List.mem_of_getElem? found
      rw [List.mem_singleton.mp member] at isDispatch
      exact absurd isDispatch other

theorem WellTyped.append_dispatch {visits : List Visit} (wellTyped : WellTyped visits)
    {visit next : Visit} {request : RequestId} (chosen : visit.Chosen request)
    (isDispatch : visit.point = .dispatchMsg) (handler : next.Chosen request)
    (point : next.point = request.point) (buf : next.buf = visit.buf) :
    WellTyped (visits ++ [visit] ++ [next]) where
  typed := by
    intro earlier member
    rcases List.mem_append.mp member with member | member
    · rcases List.mem_append.mp member with member | member
      · exact wellTyped.typed earlier member
      · rw [List.mem_singleton.mp member, Visit.Typed, isDispatch]
        exact ⟨request, chosen⟩
    · rw [List.mem_singleton.mp member, Visit.Typed, point]
      cases request <;> exact handler
  dispatched := by
    intro index earlier found isDispatch'
    rw [List.append_assoc] at found ⊢
    rcases lt_trichotomy index visits.length with inside | here | behind
    · rw [List.getElem?_append_left inside] at found
      obtain ⟨request', next', chosen', following, point', buf'⟩ :=
        wellTyped.dispatched index earlier found isDispatch'
      refine ⟨request', next', chosen', ?_, point', buf'⟩
      have further := (List.getElem?_eq_some_iff.mp following).1
      rwa [List.getElem?_append_left further]
    · subst here
      obtain rfl : visit = earlier := by simpa using found
      refine ⟨request, next, chosen, ?_, point, buf⟩
      simp
    · obtain ⟨offset, rfl⟩ := Nat.exists_eq_add_of_lt behind
      cases offset with
      | zero =>
          obtain rfl : next = earlier := by simpa [Nat.add_assoc] using found
          rw [point] at isDispatch'
          cases request <;> cases isDispatch'
      | succ offset => simp [Nat.add_assoc] at found

/-- The request a client received is the one it had chosen. -/
theorem Received.chosen_visit {request : RequestId} {head buf : Bytes} {cli : Client}
    (received : Received (.body request head) buf cli.toClientState) (point : Point)
    (state : ClientState) (completed : state.completed = cli.completed)
    (chosen : state.chosen = cli.chosen) : (⟨point, buf, state⟩ : Visit).Chosen request := by
  obtain ⟨choice, type⟩ := received.chosen request head rfl
  have same := received.head request head rfl
  refine ⟨head, chosen.trans choice, completed.trans received.completed, same, ?_⟩
  rw [same]
  exact type

theorem HandlerCase.wellTyped {server : Server} {cli : Client} {buf : Bytes} {stage : Stage}
    {outcome : Outcome Client Bool} (case : HandlerCase server cli buf stage outcome)
    (received : Received stage buf cli.toClientState) (wellTyped : WellTyped cli.trace) :
    WellTyped outcome.state.trace := by
  cases case with
  | unknownConnection | gate => exact wellTyped.append _ received.completed (by simp)
  | badHandshake | seedWanted => exact wellTyped.append _ received.completed (by simp)
  | decrypted =>
      have handshake := wellTyped.append ⟨.handleHandshake, buf, cli.toClientState⟩
        received.completed (by simp)
      exact handshake.append _ trivial (by simp)
  | seedStopped => exact wellTyped.append _ received.completed (by simp)
  | keyed =>
      have seeded := wellTyped.append ⟨.handleYdata, buf, { cli.toClientState with
        flags := { cli.flags with wantClientSeed := false } }⟩ received.completed (by simp)
      exact seeded.append _ trivial (by simp)
  | unknownMessage | bodyWanted => exact wellTyped.append _ received.completed (by simp)
  | answerStopped request head | answered request head =>
      exact wellTyped.append_dispatch (received.chosen_visit .dispatchMsg _ rfl rfl) rfl
        (received.chosen_visit request.point _ rfl rfl) rfl rfl

theorem wellTyped_rule (server : Server) :
    ConnectionInvariant server (fun cli => WellTyped cli.trace) (fun cli => WellTyped cli.trace) where
  start := fun _ _ _ => wellTyped_nil
  polled := fun _ _ holds => holds
  write := fun _ holds => holds
  visit := by
    intro stage cli waiting holds
    apply holds.append
    · change cli.base.read.struct.isSome = true
      rw [waiting.standing.struct]
      rfl
    · simp
  read := fun _ _ _ _ holds => holds
  handle := by
    intro stage buf cli outcome received holds case
    have wellTyped := case.wellTyped received holds
    refine ⟨wellTyped, ?_⟩
    rintro cli' rfl -
    exact wellTyped
  recorded := fun _ holds => holds
  shutdown := fun _ holds => holds
  recordedPolled := fun _ _ holds => holds
  hangUp := fun _ holds => holds

/-- No handler takes a message for another one. -/
theorem no_message_confusion (server : Server) {connection : Connection}
    (reached : ReachableConnection server connection) : WellTyped connection.client.trace :=
  (wellTyped_rule server).history_client reached

/-- A connection that has answered a request for the file server. -/
theorem no_message_confusion_served :
    (servedConnection [1, 0, 5, 0, 0, 0, 1]).client.trace.map (·.point) =
        [.resumeRead, .incomingRead, .resumeRead, .handleHandshake, .resumeRead, .handleYdata,
          .setEncrypted, .resumeRead, .resumeRead, .readMsg, .resumeRead, .dispatchMsg,
          .handleFileSrvReq, .resumeRead] ∧
      WellTyped (servedConnection [1, 0, 5, 0, 0, 0, 1]).client.trace :=
  ⟨by decide +kernel, no_message_confusion plainServer (reachable_served _)⟩

end ThemeSrv
