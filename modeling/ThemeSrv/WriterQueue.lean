import ThemeSrv.BufferedStream
import ThemeSrv.ClientBase
import ThemeSrv.TransitionSystem

/-!
# The outgoing stream of a connection

Messages are encrypted when they are enqueued and leave the connection on two
paths: at once, if nothing is queued, or from the front of `m_writes` when the
socket is writable again.  Either path may stop anywhere inside a message.
The connection refines a buffered stream of the encoded messages.
-/

namespace ThemeSrv

open BufferedStream KeystreamCipher TransitionSystem

/-! ### Socket writes -/

@[simp]
theorem Socket.shutdown_sent (sock : Socket) : sock.shutdown.sent = sock.sent := by
  simp [shutdown, sent, SocketCall.sent]

/-- The bytes an answer to a write takes. -/
def WriteAnswer.count : WriteAnswer → Nat
  | .accepted count => count
  | .wouldBlock | .failure | .brokenPipe => 0

theorem Socket.write_sent {sock sock' : Socket} {offered : Bytes} {answer : WriteAnswer}
    (answered : sock.write offered = (answer, sock')) :
    sock'.sent = sock.sent ++ offered.take answer.count ∧ answer.count ≤ offered.length := by
  simp only [Socket.write, Prod.mk.injEq] at answered
  obtain ⟨rfl, rfl⟩ := answered
  cases sock.outbound.headD .wouldBlock <;>
    simp [sent, SocketCall.sent, WriteAnswer.count, WriteAnswer.limit]

theorem Socket.write_calls {sock sock' : Socket} {offered : Bytes} {answer : WriteAnswer}
    (answered : sock.write offered = (answer, sock')) :
    sock'.calls = sock.calls ++ [.write offered answer] := by
  simp only [Socket.write, Prod.mk.injEq] at answered
  obtain ⟨rfl, rfl⟩ := answered
  rfl

/-- Offered bytes and answer of a write. -/
def SocketCall.writeAnswer? : SocketCall → Option (Bytes × WriteAnswer)
  | .write offered answer => some (offered, answer)
  | .read _ _ | .shutdown => none

/-- The last write on a socket. -/
def Socket.lastWrite (sock : Socket) : Option (Bytes × WriteAnswer) :=
  (sock.calls.filterMap SocketCall.writeAnswer?).getLast?

/-- The socket did not take all that the last write offered. -/
def Socket.WriteStalled (sock : Socket) : Prop :=
  ∃ offered answer, sock.lastWrite = some (offered, answer) ∧
    (answer = .wouldBlock ∨ ∃ count, answer = .accepted count ∧ count < offered.length)

theorem Socket.lastWrite_write {sock sock' : Socket} {offered : Bytes} {answer : WriteAnswer}
    (answered : sock.write offered = (answer, sock')) :
    sock'.lastWrite = some (offered, answer) := by
  simp [lastWrite, Socket.write_calls answered, SocketCall.writeAnswer?]

theorem Socket.ReadOnly.lastWrite_eq {sock sock' : Socket} (readOnly : sock.ReadOnly sock') :
    sock'.lastWrite = sock.lastWrite := by
  obtain ⟨calls, sameCalls, reads⟩ := readOnly
  have nothing : calls.filterMap SocketCall.writeAnswer? = [] := by
    rw [List.filterMap_eq_nil_iff]
    intro call member
    have noWrite := reads call member
    cases call with
    | write offered answer => cases noWrite
    | read asked answer | shutdown => rfl
  rw [lastWrite, lastWrite, sameCalls, List.filterMap_append, nothing, List.append_nil]

/-! ### Partly sent messages -/

/-- The part of a queued message that has been sent lies inside it. -/
def WriteState.Inside (state : WriteState) : Prop :=
  state.bufoffs ≤ state.buf.length

/-- What is left of a queued message. -/
def WriteState.unsent (state : WriteState) : Bytes :=
  state.buf.drop state.bufoffs

namespace ClientBase

/-- The unsent bytes of the queue, in queue order. -/
def unsent (c : ClientBase) : Bytes :=
  c.writes.flatMap WriteState.unsent

/-- The encoded messages in the order of their `enqueue_write` calls. -/
def encoded (c : ClientBase) : Bytes :=
  c.posted.flatMap Posted.wire

end ClientBase

/-- What `resume_write` does to the socket and to the message it resumes. -/
structure ResumedWrite (state : WriteState) (c : ClientBase) (done : Bool) (state' : WriteState)
    (c' : ClientBase) : Prop where
  count : ∃ count ≤ state.unsent.length,
    c'.sock.sent = c.sock.sent ++ state.unsent.take count ∧
    state'.unsent = state.unsent.drop count
  offered : ∃ answer more, c'.sock.calls = c.sock.calls ++ .write state.unsent answer :: more ∧
    ∀ call ∈ more, call.isWrite = false
  finished : done = true → state'.unsent = []
  inside : state.Inside → state'.Inside
  stalled : state.Inside → done = false → c'.sock.isDown = true ∨ c'.sock.WriteStalled
  writes : c'.writes = c.writes
  posted : c'.posted = c.posted
  encrypt : c'.encrypt = c.encrypt
  decrypt : c'.decrypt = c.decrypt
  read : c'.read = c.read

theorem resumedWrite {state state' : WriteState} {c c' : ClientBase} {done : Bool}
    (resumed : resumeWrite state c = (done, state', c')) :
    ResumedWrite state c done state' c' := by
  rcases answered : c.sock.write (state.buf.drop state.bufoffs) with ⟨answer, sock⟩
  obtain ⟨sent, le⟩ := Socket.write_sent answered
  have calls := Socket.write_calls answered
  have last := Socket.lastWrite_write answered
  have failed (nothing : answer.count = 0) :
      ResumedWrite state c false state { c with sock := sock.shutdown } := by
    refine ⟨⟨0, Nat.zero_le _, ?_, rfl⟩, ⟨answer, [.shutdown], ?_, ?_⟩, ?_, id, ?_,
      rfl, rfl, rfl, rfl, rfl⟩
    · simpa [nothing] using sent
    · simp only [Socket.shutdown, calls, List.append_assoc]
      rfl
    · simp [SocketCall.isWrite]
    · exact fun finished => by cases finished
    · intro inside unfinished
      left
      simp [Socket.isDown, Socket.shutdown]
  rw [resumeWrite, answered] at resumed
  cases answer with
  | failure | brokenPipe =>
      cases resumed
      exact failed rfl
  | wouldBlock =>
      cases resumed
      refine ⟨⟨0, Nat.zero_le _, ?_, rfl⟩, ⟨_, [], calls, by simp⟩, ?_, id, ?_,
        rfl, rfl, rfl, rfl, rfl⟩
      · simpa [WriteAnswer.count] using sent
      · exact fun finished => by cases finished
      · intro inside unfinished
        exact Or.inr ⟨_, _, last, Or.inl rfl⟩
  | accepted count =>
      cases resumed
      have within : count ≤ state.buf.length - state.bufoffs := by
        simpa [WriteAnswer.count] using le
      refine ⟨⟨count, le, sent, ?_⟩, ⟨_, [], calls, by simp⟩, fun finished => ?_, ?_, ?_,
        rfl, rfl, rfl, rfl, rfl⟩
      · simp [WriteState.unsent]
      · have whole := eq_of_beq finished
        exact List.drop_of_length_le (le_of_eq whole.symm)
      · intro inside
        change state.bufoffs + count ≤ state.buf.length
        have start : state.bufoffs ≤ state.buf.length := inside
        omega
      · intro inside unfinished
        have start : state.bufoffs ≤ state.buf.length := inside
        have short : state.bufoffs + count ≠ state.buf.length := by simpa using unfinished
        refine Or.inr ⟨_, _, last, Or.inr ⟨count, rfl, ?_⟩⟩
        rw [List.length_drop]
        omega

/-- The connection with a message encoded and recorded. -/
def ClientBase.encodedMessage (c : ClientBase) (ns : NetStruct) (wire : Bytes)
    (encrypt : Context) : ClientBase :=
  { c with
    encrypt := encrypt
    posted := c.posted ++ [⟨ns, encrypt.fed.drop c.encrypt.fed.length, wire⟩] }

/-- What `enqueue_write` can do. -/
inductive EnqueueCase (ns : NetStruct) (image : Bytes) (c : ClientBase) :
    Outcome ClientBase Unit → Prop
  | stopped (stop : Stop) (failed : encodeMessage ns image c.encrypt = .error stop) :
      EnqueueCase ns image c (.stopped stop c)
  | queued (wire : Bytes) (encrypt : Context)
      (encoded : encodeMessage ns image c.encrypt = .ok (wire, encrypt))
      (waiting : c.writes ≠ []) :
      EnqueueCase ns image c (.done ()
        { c.encodedMessage ns wire encrypt with writes := c.writes ++ [⟨0, wire⟩] })
  | sent (wire : Bytes) (encrypt : Context)
      (encoded : encodeMessage ns image c.encrypt = .ok (wire, encrypt)) (idle : c.writes = [])
      (state : WriteState) (c' : ClientBase)
      (resumed : ResumedWrite ⟨0, wire⟩ (c.encodedMessage ns wire encrypt) true state c') :
      EnqueueCase ns image c (.done () c')
  | partly (wire : Bytes) (encrypt : Context)
      (encoded : encodeMessage ns image c.encrypt = .ok (wire, encrypt)) (idle : c.writes = [])
      (state : WriteState) (c' : ClientBase)
      (resumed : ResumedWrite ⟨0, wire⟩ (c.encodedMessage ns wire encrypt) false state c') :
      EnqueueCase ns image c (.done () { c' with writes := [state] })

theorem enqueueCase (ns : NetStruct) (image : Bytes) (c : ClientBase) :
    EnqueueCase ns image c (enqueueWrite ns image c) := by
  rw [enqueueWrite]
  cases encoded : encodeMessage ns image c.encrypt with
  | error stop => exact .stopped stop encoded
  | ok result =>
      obtain ⟨wire, encrypt⟩ := result
      by_cases idle : c.writes = []
      · have nothing : (c.encodedMessage ns wire encrypt).hasPendingWrite = false := by
          simp [ClientBase.hasPendingWrite, ClientBase.encodedMessage, idle]
        rcases resumed : resumeWrite ⟨0, wire⟩ (c.encodedMessage ns wire encrypt) with
          ⟨done, state, c'⟩
        have resumedWrite := resumedWrite resumed
        simp only [ClientBase.encodedMessage] at nothing resumed
        cases done with
        | true =>
            simp only [nothing, resumed, Bool.false_eq_true, if_false]
            exact .sent wire encrypt encoded idle state c' resumedWrite
        | false =>
            have empty : c'.writes = [] := resumedWrite.writes.trans idle
            simp only [nothing, resumed, Bool.false_eq_true, if_false, empty, List.nil_append]
            exact .partly wire encrypt encoded idle state c' resumedWrite
      · have waiting : (c.encodedMessage ns wire encrypt).hasPendingWrite = true := by
          simp [ClientBase.hasPendingWrite, ClientBase.encodedMessage, idle]
        simp only [ClientBase.encodedMessage] at waiting
        simp only [waiting, if_true]
        exact .queued wire encrypt encoded idle

theorem EnqueueCase.recorded {ns : NetStruct} {image : Bytes} {c c' : ClientBase}
    (case : EnqueueCase ns image c (.done () c')) :
    ∃ wire encrypt, encodeMessage ns image c.encrypt = .ok (wire, encrypt) ∧
      c'.encrypt = encrypt ∧ c'.decrypt = c.decrypt ∧ c'.read = c.read ∧
      c'.posted = c.posted ++ [⟨ns, encrypt.fed.drop c.encrypt.fed.length, wire⟩] := by
  cases case with
  | queued wire encrypt encoded => exact ⟨wire, encrypt, encoded, rfl, rfl, rfl, rfl⟩
  | sent wire encrypt encoded _ state _ resumed | partly wire encrypt encoded _ state _ resumed =>
      exact ⟨wire, encrypt, encoded, resumed.encrypt, resumed.decrypt, resumed.read,
        resumed.posted⟩

theorem enqueueWrite_of_encoded {ns : NetStruct} {image wire : Bytes} {c : ClientBase}
    {encrypt : Context} (encoded : encodeMessage ns image c.encrypt = .ok (wire, encrypt)) :
    ∃ c', enqueueWrite ns image c = .done () c' := by
  have case := enqueueCase ns image c
  generalize outcomeEq : enqueueWrite ns image c = outcome at case
  cases case with
  | stopped stop failed => cases encoded.symm.trans failed
  | queued | sent | partly => exact ⟨_, rfl⟩

/-- What `handle_write` can do. -/
inductive HandleWriteCase (c : ClientBase) : Bool × ClientBase → Prop
  | idle (nothing : c.writes = []) : HandleWriteCase c (false, c)
  | sent (front : WriteState) (rest : List WriteState) (queue : c.writes = front :: rest)
      (state : WriteState) (c' : ClientBase) (resumed : ResumedWrite front c true state c') :
      HandleWriteCase c (true, { c' with writes := rest })
  | partly (front : WriteState) (rest : List WriteState) (queue : c.writes = front :: rest)
      (state : WriteState) (c' : ClientBase) (resumed : ResumedWrite front c false state c') :
      HandleWriteCase c (false, { c' with writes := state :: rest })

theorem handleWriteCase (c : ClientBase) : HandleWriteCase c (handleWrite c) := by
  rw [handleWrite]
  split
  · next nothing => exact .idle nothing
  · next front rest queue =>
      rcases resumed : resumeWrite front c with ⟨done, state, c'⟩
      cases done with
      | true => exact .sent front rest queue state c' (resumedWrite resumed)
      | false => exact .partly front rest queue state c' (resumedWrite resumed)

/-- What sending leaves alone. -/
structure WriteFrame (c c' : ClientBase) : Prop where
  posted : c'.posted = c.posted
  encrypt : c'.encrypt = c.encrypt
  decrypt : c'.decrypt = c.decrypt
  read : c'.read = c.read

theorem handleWriteFrame (c : ClientBase) : WriteFrame c (handleWrite c).2 := by
  have case := handleWriteCase c
  generalize handleWrite c = result at case
  cases case with
  | idle => exact ⟨rfl, rfl, rfl, rfl⟩
  | sent front rest queue state c' resumed | partly front rest queue state c' resumed =>
      exact ⟨resumed.posted, resumed.encrypt, resumed.decrypt, resumed.read⟩

/-! ### Refinement -/

/-- A connection stands for a buffered stream. -/
structure Represents (c : ClientBase) (stream : Stream UInt8) : Prop where
  posted : stream.posted = c.encoded
  accepted : stream.accepted = c.sock.sent
  pending : stream.pending = c.unsent

/-- What can happen to the outgoing side of a connection: the calls of the
protocol layer, a new key, and whatever the socket is going to answer. -/
inductive WriterStep : ClientBase → ClientBase → Prop
  | enqueueWrite {c c' : ClientBase} (ns : NetStruct) (image : Bytes)
      (done : enqueueWrite ns image c = .done () c') : WriterStep c c'
  | enqueueStopped {c c' : ClientBase} (ns : NetStruct) (image : Bytes) {stop : Stop}
      (stopped : ThemeSrv.enqueueWrite ns image c = .stopped stop c') : WriterStep c c'
  | handleWrite (c : ClientBase) : WriterStep c (handleWrite c).2
  | setCryptKey (c : ClientBase) (rc4 : Bytes → Nat → UInt8) (key : Bytes) :
      WriterStep c (c.setCryptKey rc4 key)
  | answers (c : ClientBase) (outbound : List WriteAnswer) :
      WriterStep c { c with sock := { c.sock with outbound := outbound } }

/-- A connection that has not been written to. -/
structure WriterStart (c : ClientBase) : Prop where
  writes : c.writes = []
  posted : c.posted = []
  sent : c.sock.sent = []

/-- Resuming the message in front of the pending bytes is one acceptance. -/
theorem ResumedWrite.accepts {c c' : ClientBase} {stream : Stream UInt8}
    {state state' : WriteState} {done : Bool} {behind : Bytes}
    (resumed : ResumedWrite state c done state' c') (accepted : stream.accepted = c.sock.sent)
    (front : stream.pending = state.unsent ++ behind) :
    ∃ count, (stream.accept count).accepted = c'.sock.sent ∧
      (stream.accept count).pending = state'.unsent ++ behind := by
  obtain ⟨count, le, sent, unsent⟩ := resumed.count
  refine ⟨count, ?_, ?_⟩
  · rw [Stream.accept_accepted, accepted, front, sent, List.take_append_of_le_length le]
  · rw [Stream.accept_pending, front, unsent, List.drop_append_of_le_length le]

theorem encoded_encodedMessage (c : ClientBase) (ns : NetStruct) (wire : Bytes)
    (encrypt : Context) : (c.encodedMessage ns wire encrypt).encoded = c.encoded ++ wire := by
  simp [ClientBase.encoded, ClientBase.encodedMessage]

/-- A message that is sent at once is posted and then accepted in part. -/
theorem Represents.send {ns : NetStruct} {c c' : ClientBase} {stream : Stream UInt8} {wire : Bytes}
    {encrypt : Context} {done : Bool} {state : WriteState} (represents : Represents c stream)
    (idle : c.writes = [])
    (resumed : ResumedWrite ⟨0, wire⟩ (c.encodedMessage ns wire encrypt) done state c') :
    ∃ stream', Relation.ReflTransGen Step stream stream' ∧ stream'.posted = c'.encoded ∧
      stream'.accepted = c'.sock.sent ∧ stream'.pending = state.unsent := by
  have front : (stream.post wire).pending = (WriteState.mk 0 wire).unsent ++ [] := by
    rw [Stream.post_pending, represents.pending]
    simp [ClientBase.unsent, idle, WriteState.unsent]
  have accepted : (stream.post wire).accepted = (c.encodedMessage ns wire encrypt).sock.sent :=
    represents.accepted
  obtain ⟨count, sent, left⟩ := resumed.accepts accepted front
  refine ⟨(stream.post wire).accept count, .tail (.single (.post stream wire))
    (.accept (stream.post wire) count), ?_, sent, by rw [left, List.append_nil]⟩
  rw [Stream.accept_posted, Stream.post_posted, represents.posted,
    ← encoded_encodedMessage c ns wire encrypt, ClientBase.encoded, ClientBase.encoded,
    resumed.posted]

/-- An `enqueue_write` call is a run of the stream the connection represents. -/
theorem EnqueueCase.refines {ns : NetStruct} {image : Bytes} {c c' : ClientBase}
    (case : EnqueueCase ns image c (.done () c')) {stream : Stream UInt8}
    (represents : Represents c stream) :
    ∃ stream', Relation.ReflTransGen Step stream stream' ∧ Represents c' stream' := by
  cases case with
  | queued wire encrypt encoded waiting =>
      refine ⟨stream.post wire, .single (.post stream wire), ?_, represents.accepted, ?_⟩
      · rw [Stream.post_posted, represents.posted]
        exact (encoded_encodedMessage c ns wire encrypt).symm
      · rw [Stream.post_pending, represents.pending]
        simp [ClientBase.unsent, WriteState.unsent]
  | sent wire encrypt encoded idle state _ resumed =>
      obtain ⟨stream', steps, posted, accepted, pending⟩ := represents.send idle resumed
      refine ⟨stream', steps, posted, accepted, ?_⟩
      rw [pending, resumed.finished rfl, ClientBase.unsent, resumed.writes]
      simp [ClientBase.encodedMessage, idle]
  | partly wire encrypt encoded idle state c₁ resumed =>
      obtain ⟨stream', steps, posted, accepted, pending⟩ := represents.send idle resumed
      refine ⟨stream', steps, posted, accepted, ?_⟩
      rw [pending]
      simp [ClientBase.unsent]

/-- A `handle_write` call is at most one acceptance. -/
theorem HandleWriteCase.refines {c : ClientBase} {result : Bool × ClientBase}
    (case : HandleWriteCase c result) {stream : Stream UInt8} (represents : Represents c stream) :
    ∃ stream', Relation.ReflTransGen Step stream stream' ∧ Represents result.2 stream' := by
  have queued {front : WriteState} {rest : List WriteState} (queue : c.writes = front :: rest) :
      stream.pending = front.unsent ++ rest.flatMap WriteState.unsent := by
    rw [represents.pending, ClientBase.unsent, queue, List.flatMap_cons]
  have posted (c' : ClientBase) {state state' : WriteState} {done : Bool}
      (resumed : ResumedWrite state c done state' c') : stream.posted = c'.encoded := by
    rw [represents.posted, ClientBase.encoded, ClientBase.encoded, resumed.posted]
  cases case with
  | idle nothing => exact ⟨stream, .refl, represents⟩
  | sent front rest queue state c' resumed =>
      obtain ⟨count, sent, left⟩ := resumed.accepts represents.accepted (queued queue)
      refine ⟨stream.accept count, .single (.accept stream count), posted c' resumed, sent, ?_⟩
      rw [left, resumed.finished rfl, List.nil_append]
      rfl
  | partly front rest queue state c' resumed =>
      obtain ⟨count, sent, left⟩ := resumed.accepts represents.accepted (queued queue)
      refine ⟨stream.accept count, .single (.accept stream count), posted c' resumed, sent, ?_⟩
      rw [left]
      simp [ClientBase.unsent]

theorem WriterStep.refines {c c' : ClientBase} (step : WriterStep c c') {stream : Stream UInt8}
    (represents : Represents c stream) :
    ∃ stream', Relation.ReflTransGen Step stream stream' ∧ Represents c' stream' := by
  cases step with
  | setCryptKey | answers =>
      exact ⟨stream, .refl, represents.posted, represents.accepted, represents.pending⟩
  | @enqueueStopped _ ns image stop stopped =>
      have case := enqueueCase ns image c
      rw [stopped] at case
      cases case with
      | stopped => exact ⟨stream, .refl, represents⟩
  | enqueueWrite ns image done =>
      have case := enqueueCase ns image c
      rw [done] at case
      exact case.refines represents
  | handleWrite => exact (handleWriteCase c).refines represents

def Represented (c : ClientBase) : Prop :=
  ∃ stream, Represents c stream

/-- Every state of a writer stands for a buffered stream. -/
theorem represented_of_reachable {c : ClientBase} (reached : Reachable WriterStart WriterStep c) :
    Represented c := by
  refine reached.invariant ?_ ?_
  · intro c starts
    refine ⟨⟨[], [], [], rfl⟩, ?_, starts.sent.symm, ?_⟩
    · simp [ClientBase.encoded, starts.posted]
    · simp [ClientBase.unsent, starts.writes]
  · intro c c' ⟨stream, represents⟩ step
    obtain ⟨stream', -, represents'⟩ := step.refines represents
    exact ⟨stream', represents'⟩

/-- At every point of every run the accepted bytes, followed by the unsent
rest of the queue, are the encoded messages in the order of the calls. -/
theorem sent_append_unsent {c : ClientBase} (reached : Reachable WriterStart WriterStep c) :
    c.sock.sent ++ c.unsent = c.encoded := by
  obtain ⟨stream, represents⟩ := represented_of_reachable reached
  rw [← represents.posted, ← represents.accepted, ← represents.pending, stream.conserved]

/-- Two messages over a socket that takes one byte, and later the rest of the
first one. -/
theorem sent_append_unsent_two_messages :
    ∃ c₁ c₂, enqueueWrite msgStdHeader [1, 0]
        (ClientBase.new ⟨[], .wouldBlock, [.accepted 1, .accepted 7], []⟩) = .done () c₁ ∧
      enqueueWrite msgStdHeader [2, 0] c₁ = .done () c₂ ∧
      (handleWrite c₂).2.sock.sent = [1, 0] ∧ (handleWrite c₂).2.unsent = [2, 0] ∧
      (handleWrite c₂).2.sock.sent ++ (handleWrite c₂).2.unsent = (handleWrite c₂).2.encoded := by
  obtain ⟨c₁, first⟩ : ∃ c₁, enqueueWrite msgStdHeader [1, 0]
      (ClientBase.new ⟨[], .wouldBlock, [.accepted 1, .accepted 7], []⟩) = .done () c₁ := ⟨_, rfl⟩
  obtain ⟨c₂, second, sent, unsent⟩ : ∃ c₂, enqueueWrite msgStdHeader [2, 0] c₁ = .done () c₂ ∧
      (handleWrite c₂).2.sock.sent = [1, 0] ∧ (handleWrite c₂).2.unsent = [2, 0] := by
    cases first
    exact ⟨_, rfl, rfl, rfl⟩
  have starts : WriterStart
      (ClientBase.new ⟨[], .wouldBlock, [.accepted 1, .accepted 7], []⟩) := ⟨rfl, rfl, rfl⟩
  exact ⟨c₁, c₂, first, second, sent, unsent, sent_append_unsent
    ((((reachable_start starts).tail (.enqueueWrite _ _ first)).tail
      (.enqueueWrite _ _ second)).tail (.handleWrite c₂))⟩

end ThemeSrv
