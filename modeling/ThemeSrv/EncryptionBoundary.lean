import ThemeSrv.ConnectionRuns
import ThemeSrv.MessageEncoding
import ThemeSrv.OfferedBytes

/-!
# The encryption boundary

All a connection ever offers to its socket is the reply of the handshake in
the clear, and behind it what the session cipher made of the messages that were
posted.
-/

namespace ThemeSrv

open Client Gatekeeper KeystreamCipher

/-- `common_encrypt_s2c` as `handle_ydata` fills it in. -/
def handshakeReply (srvSeed : Bytes) : Bytes :=
  EncryptS2c.image ⟨s2cEncrypt, 9, srvSeed⟩

/-- Seed and key that `handle_ydata` has made on a connection. -/
def SessionKey (server : Server) (visits : List Visit) (srvSeed key : Bytes) : Prop :=
  ∃ visit ∈ visits, visit.point = .handleYdata ∧
    server.derive visit.state.base.posted.length visit.buf = some (srvSeed, key)

/-- The session key is installed in both directions. -/
def KeyInstalled (server : Server) (visits : List Visit) (state : ClientState) : Prop :=
  ∃ srvSeed key, SessionKey server visits srvSeed key ∧
    state.base.encrypt.keystream = server.rc4 key ∧
    state.base.decrypt.keystream = server.rc4 key

/-- Handlers of gatekeeper requests. -/
def Point.isRequest : Point → Bool
  | .handlePing | .handleFileSrvReq | .handleAuthSrvReq => true
  | .resumeRead | .incomingRead | .handleHandshake | .handleYdata | .setEncrypted | .readMsg
  | .dispatchMsg | .noDispatcher => false

/-- The visits of `handle_ydata`. -/
def seedVisits (visits : List Visit) : List Visit :=
  visits.filter fun visit => visit.point = .handleYdata

/-- The record of a connection that encrypts in time. -/
structure VisitsInOrder (server : Server) (visits : List Visit) : Prop where
  installed : ∀ visit ∈ visits, visit.state.flags.encrypted = true →
    KeyInstalled server visits visit.state
  once : (seedVisits visits).length ≤ 1
  requests : ∀ visit ∈ visits, visit.point.isRequest = true →
    visit.state.flags.encrypted = true

/-- The handshake reply was posted in the clear, and then the encryptor was
keyed; all that was posted behind it went through it, in order, and nothing
else did. -/
def PostedUnder (keystream : Nat → UInt8) (srvSeed : Bytes) (c : ClientBase) : Prop :=
  ∃ reply answers, c.posted = reply :: answers ∧ reply.struct = encryptS2c ∧
    reply.wire = handshakeReply srvSeed ∧
    c.encrypt = (Context.keyed keystream).feed (answers.flatMap Posted.plain) ∧
    answers.flatMap Posted.wire =
      (Context.keyed keystream).output (answers.flatMap Posted.plain)

/-- Nothing but the handshake reply leaves in the clear, and no request is
served before the key is in place. -/
structure EncryptionBoundary (server : Server) (cli : Client) : Prop
    extends VisitsInOrder server cli.trace where
  offered : cli.base.sock.OffersWithin cli.base.encoded
  posted : cli.base.posted = [] ∨ ∃ srvSeed key, SessionKey server cli.trace srvSeed key ∧
    PostedUnder (server.rc4 key) srvSeed cli.base
  installedNow : cli.flags.encrypted = true → KeyInstalled server cli.trace cli.toClientState

/-! ### The record -/

section Visits

variable {server : Server} {visits : List Visit}

theorem SessionKey.append {srvSeed key : Bytes} (session : SessionKey server visits srvSeed key)
    (more : List Visit) : SessionKey server (visits ++ more) srvSeed key := by
  obtain ⟨visit, member, isSeed, derived⟩ := session
  exact ⟨visit, List.mem_append_left more member, isSeed, derived⟩

theorem KeyInstalled.append {state : ClientState} (installed : KeyInstalled server visits state)
    (more : List Visit) : KeyInstalled server (visits ++ more) state := by
  obtain ⟨srvSeed, key, session, encrypt, decrypt⟩ := installed
  exact ⟨srvSeed, key, session.append more, encrypt, decrypt⟩

theorem visitsInOrder_nil (server : Server) : VisitsInOrder server [] where
  installed := by simp
  once := by simp [seedVisits]
  requests := by simp

theorem seedVisits_append (visits : List Visit) {visit : Visit}
    (other : visit.point ≠ .handleYdata) :
    seedVisits (visits ++ [visit]) = seedVisits visits := by
  simp [seedVisits, other]

theorem VisitsInOrder.append (inOrder : VisitsInOrder server visits) {visit : Visit}
    (installed : visit.state.flags.encrypted = true →
      KeyInstalled server (visits ++ [visit]) visit.state)
    (once : visit.point = .handleYdata → seedVisits visits = [])
    (request : visit.point.isRequest = true → visit.state.flags.encrypted = true) :
    VisitsInOrder server (visits ++ [visit]) where
  installed := by
    intro earlier member encrypted
    rcases List.mem_append.mp member with before | new
    · exact (inOrder.installed earlier before encrypted).append [visit]
    · rw [List.mem_singleton] at new
      subst earlier
      exact installed encrypted
  once := by
    by_cases isSeed : visit.point = .handleYdata
    · have first := once isSeed
      rw [seedVisits] at first
      simp [seedVisits, first, isSeed]
    · rw [seedVisits_append visits isSeed]
      exact inOrder.once
  requests := by
    intro earlier member isRequest
    rcases List.mem_append.mp member with before | new
    · exact inOrder.requests earlier before isRequest
    · rw [List.mem_singleton] at new
      subst earlier
      exact request isRequest

end Visits

/-! ### The two phases -/

/-- Before the handshake is over. -/
structure ClearPhase (cli : Client) : Prop where
  flag : cli.flags.encrypted = false
  posted : cli.base.posted = []
  encrypt : cli.base.encrypt = .keyed fun _ => 0
  noSeed : seedVisits cli.trace = []

/-- Behind the handshake. -/
structure KeyedPhase (server : Server) (cli : Client) (srvSeed key : Bytes) : Prop where
  flag : cli.flags.encrypted = true
  session : SessionKey server cli.trace srvSeed key
  decrypt : cli.base.decrypt.keystream = server.rc4 key
  posted : PostedUnder (server.rc4 key) srvSeed cli.base

/-- What holds of a connection that has not ended. -/
structure Bounded (server : Server) (cli : Client) : Prop where
  sending : Sending cli.base
  inOrder : VisitsInOrder server cli.trace
  phase : ClearPhase cli ∨ ∃ srvSeed key, KeyedPhase server cli srvSeed key

section Phases

variable {server : Server} {cli : Client}

theorem PostedUnder.keystream {keystream : Nat → UInt8} {srvSeed : Bytes} {c : ClientBase}
    (posted : PostedUnder keystream srvSeed c) : c.encrypt.keystream = keystream := by
  obtain ⟨reply, answers, -, -, -, encrypt, -⟩ := posted
  rw [encrypt]
  rfl

theorem PostedUnder.congr {keystream : Nat → UInt8} {srvSeed : Bytes} {c c' : ClientBase}
    (posted : PostedUnder keystream srvSeed c) (samePosted : c'.posted = c.posted)
    (sameEncrypt : c'.encrypt = c.encrypt) : PostedUnder keystream srvSeed c' := by
  unfold PostedUnder
  rw [samePosted, sameEncrypt]
  exact posted

/-- One message more goes through the encryptor. -/
theorem PostedUnder.enqueueWrite {keystream : Nat → UInt8} {srvSeed : Bytes} {ns : NetStruct}
    {image : Bytes} {c c' : ClientBase} (posted : PostedUnder keystream srvSeed c)
    (wellFormed : ns.WellFormed) (variableLast : ns.VariableLast)
    (written : enqueueWrite ns image c = .done () c') : PostedUnder keystream srvSeed c' := by
  obtain ⟨reply, answers, before, struct, inClear, encrypt, output⟩ := posted
  have case := enqueueCase ns image c
  rw [written] at case
  obtain ⟨wire, encrypt', encoded, sameEncrypt, -, -, recorded⟩ := case.recorded
  obtain ⟨count, -, -, rfl, rfl⟩ := of_encodeMessage_packed wellFormed variableLast encoded
  refine ⟨reply, answers ++ [⟨ns, image.take count, c.encrypt.output (image.take count)⟩], ?_,
    struct, inClear, ?_, ?_⟩
  · rw [recorded, before, Context.feed_fed, List.drop_left]
    rfl
  · rw [sameEncrypt, encrypt, ← Context.feed_append]
    simp
  · rw [List.flatMap_append, List.flatMap_append, output, List.flatMap_singleton,
      List.flatMap_singleton, Context.output_append, ← encrypt]

theorem KeyedPhase.installed {srvSeed key : Bytes} (keyed : KeyedPhase server cli srvSeed key) :
    KeyInstalled server cli.trace cli.toClientState :=
  ⟨srvSeed, key, keyed.session, keyed.posted.keystream, keyed.decrypt⟩

theorem Bounded.installed (bounded : Bounded server cli) (encrypted : cli.flags.encrypted = true) :
    KeyInstalled server cli.trace cli.toClientState := by
  rcases bounded.phase with clear | ⟨srvSeed, key, keyed⟩
  · rw [clear.flag] at encrypted
    cases encrypted
  · exact keyed.installed

/-- What was encoded until now is all that was ever offered. -/
theorem Bounded.boundary (bounded : Bounded server cli) : EncryptionBoundary server cli where
  toVisitsInOrder := bounded.inOrder
  offered := bounded.sending.offers
  posted := by
    rcases bounded.phase with clear | ⟨srvSeed, key, keyed⟩
    · exact Or.inl clear.posted
    · exact Or.inr ⟨srvSeed, key, keyed.session, keyed.posted⟩
  installedNow := bounded.installed

theorem Bounded.congr (bounded : Bounded server cli) {cli' : Client} (sending : Sending cli'.base)
    (posted : cli'.base.posted = cli.base.posted) (encrypt : cli'.base.encrypt = cli.base.encrypt)
    (keystream : cli'.base.decrypt.keystream = cli.base.decrypt.keystream)
    (trace : cli'.trace = cli.trace) (flag : cli'.flags.encrypted = cli.flags.encrypted) :
    Bounded server cli' where
  sending := sending
  inOrder := by
    rw [trace]
    exact bounded.inOrder
  phase := by
    rcases bounded.phase with clear | ⟨srvSeed, key, keyed⟩
    · left
      exact ⟨flag.trans clear.flag, posted.trans clear.posted, encrypt.trans clear.encrypt,
        by rw [trace]; exact clear.noSeed⟩
    · right
      refine ⟨srvSeed, key, flag.trans keyed.flag, by rw [trace]; exact keyed.session, ?_, ?_⟩
      · rw [keystream]
        exact keyed.decrypt
      · exact keyed.posted.congr posted encrypt

theorem Bounded.framed (bounded : Bounded server cli) {cli' : Client}
    (frame : WriterFrame cli.base cli'.base) (trace : cli'.trace = cli.trace)
    (flag : cli'.flags.encrypted = cli.flags.encrypted) : Bounded server cli' :=
  bounded.congr (bounded.sending.readOnly frame.writes frame.posted frame.readOnly) frame.posted
    frame.encrypt frame.keystream trace flag

theorem Bounded.prepared (bounded : Bounded server cli) {cli' : Client}
    (writes : cli'.base.writes = cli.base.writes) (encrypt : cli'.base.encrypt = cli.base.encrypt)
    (posted : cli'.base.posted = cli.base.posted) (decrypt : cli'.base.decrypt = cli.base.decrypt)
    (sock : cli'.base.sock = cli.base.sock) (trace : cli'.trace = cli.trace)
    (flag : cli'.flags.encrypted = cli.flags.encrypted) : Bounded server cli' := by
  apply bounded.framed _ trace flag
  refine ⟨writes, encrypt, posted, by rw [decrypt], ?_⟩
  rw [sock]
  exact .refl _

theorem Bounded.visited (bounded : Bounded server cli) (point : Point) (buf : Bytes)
    (other : point ≠ .handleYdata)
    (request : point.isRequest = true → cli.flags.encrypted = true) :
    Bounded server (cli.visited point buf) where
  sending := bounded.sending
  inOrder := by
    apply bounded.inOrder.append
    · intro encrypted
      exact (bounded.installed encrypted).append _
    · intro isSeed
      exact absurd isSeed other
    · exact request
  phase := by
    rcases bounded.phase with clear | ⟨srvSeed, key, keyed⟩
    · exact Or.inl ⟨clear.flag, clear.posted, clear.encrypt,
        (seedVisits_append cli.trace other).trans clear.noSeed⟩
    · exact Or.inr ⟨srvSeed, key, keyed.flag, keyed.session.append _, keyed.decrypt, keyed.posted⟩

theorem Bounded.noted (bounded : Bounded server cli) (point : Point) (buf : Bytes)
    (other : point ≠ .handleYdata) (quiet : point.isRequest = false) :
    Bounded server (cli.visited point buf) := by
  apply bounded.visited point buf other
  intro isRequest
  rw [quiet] at isRequest
  cases isRequest

theorem KeyedPhase.enqueueWrite {ns : NetStruct} {image : Bytes} {base : ClientBase}
    {srvSeed key : Bytes} (keyed : KeyedPhase server cli srvSeed key)
    (wellFormed : ns.WellFormed) (variableLast : ns.VariableLast)
    (written : enqueueWrite ns image cli.base = .done () base) :
    KeyedPhase server { cli with base := base } srvSeed key := by
  have case := enqueueCase ns image cli.base
  rw [written] at case
  obtain ⟨-, -, -, -, sameDecrypt, -, -⟩ := case.recorded
  refine ⟨keyed.flag, keyed.session, ?_,
    keyed.posted.enqueueWrite wellFormed variableLast written⟩
  change base.decrypt.keystream = _
  rw [sameDecrypt]
  exact keyed.decrypt

theorem Server.answer_wellFormed (posted : Nat) (buf : Bytes) (request : RequestId) :
    (server.answer posted buf request).1.WellFormed ∧
      (server.answer posted buf request).1.VariableLast := by
  cases request with
  | pingRequest =>
      change pingReply.WellFormed ∧ pingReply.VariableLast
      exact ⟨by decide, by decide⟩
  | fileSrvRequest | authSrvRequest =>
      change fileSrvReply.WellFormed ∧ fileSrvReply.VariableLast
      exact ⟨by decide, by decide⟩

theorem Bounded.answered (bounded : Bounded server cli) (encrypted : cli.flags.encrypted = true)
    {posted : Nat} {buf : Bytes} {request : RequestId} {base : ClientBase}
    (written : enqueueWrite (server.answer posted buf request).1
      (server.answer posted buf request).2 cli.base = .done () base) :
    Bounded server { cli with base := base } where
  sending := bounded.sending.enqueueWrite written
  inOrder := bounded.inOrder
  phase := by
    rcases bounded.phase with clear | ⟨srvSeed, key, keyed⟩
    · rw [clear.flag] at encrypted
      cases encrypted
    · obtain ⟨wellFormed, variableLast⟩ := server.answer_wellFormed posted buf request
      exact Or.inr ⟨srvSeed, key, keyed.enqueueWrite wellFormed variableLast written⟩

theorem Bounded.answering (bounded : Bounded server cli) (buf : Bytes) (request : RequestId)
    (encrypted : cli.flags.encrypted = true) : Bounded server (cli.answering buf request) := by
  have prepared : Bounded server { cli with
      flags := { cli.flags with wantMsgHeader := true }
      base := cli.base.readStruct msgStdHeader } :=
    bounded.prepared rfl rfl rfl rfl rfl rfl rfl
  have dispatching := prepared.visited .dispatchMsg buf (by simp) fun _ => encrypted
  apply dispatching.visited
  · cases request <;> simp [RequestId.point]
  · exact fun _ => encrypted

/-! ### The handshake -/

theorem Server.derive_length {posted : Nat} {yData srvSeed key : Bytes}
    (derived : server.derive posted yData = some (srvSeed, key)) : srvSeed.length = 7 := by
  rw [Server.derive, makeServerKey] at derived
  split at derived
  · cases derived
  · cases derived
    rw [List.length_map, List.length_range]

/-- The null cipher leaves the handshake reply as it is. -/
theorem encode_handshakeReply {srvSeed wire : Bytes} {encrypt : Context}
    (size : srvSeed.length = 7)
    (encoded : encodeMessage encryptS2c (handshakeReply srvSeed) (.keyed fun _ => 0) =
      .ok (wire, encrypt)) : wire = handshakeReply srvSeed := by
  obtain ⟨count, -, sized, rfl, -⟩ :=
    of_encodeMessage_packed (by decide) (by decide) encoded
  have whole : sizeMessage encryptS2c (handshakeReply srvSeed) encryptS2c.size = .ok 9 := rfl
  rw [whole] at sized
  cases sized
  have all : (handshakeReply srvSeed).take 9 = handshakeReply srvSeed := by
    apply List.take_of_length_le
    simp [handshakeReply, EncryptS2c.image, size]
  rw [all, Context.output]
  exact combine_zero _ _

theorem VisitsInOrder.seeded (inOrder : VisitsInOrder server cli.trace) (clear : ClearPhase cli)
    (buf : Bytes) : VisitsInOrder server (cli.seeded buf).trace := by
  apply inOrder.append
  · intro encrypted
    exact absurd (clear.flag.symm.trans encrypted) Bool.false_ne_true
  · exact fun _ => clear.noSeed
  · intro isRequest
    cases isRequest

theorem sessionKey_seeded {buf srvSeed key : Bytes}
    (derived : server.derive cli.base.posted.length buf = some (srvSeed, key)) :
    SessionKey server (cli.seeded buf).trace srvSeed key :=
  ⟨_, List.mem_append_right _ (List.mem_singleton.mpr rfl), rfl, derived⟩

theorem Bounded.clear (bounded : Bounded server cli) (flag : cli.flags.encrypted = false) :
    ClearPhase cli := by
  rcases bounded.phase with clear | ⟨srvSeed, key, keyed⟩
  · exact clear
  · rw [keyed.flag] at flag
    cases flag

theorem Bounded.keyed (bounded : Bounded server cli) (clear : ClearPhase cli)
    {buf srvSeed key : Bytes}
    (derived : server.derive cli.base.posted.length buf = some (srvSeed, key)) {base : ClientBase}
    (written : enqueueWrite encryptS2c (handshakeReply srvSeed) cli.base = .done () base) :
    Bounded server (cli.keyed buf base server.rc4 key) := by
  have case := enqueueCase encryptS2c (handshakeReply srvSeed) cli.base
  rw [written] at case
  obtain ⟨wire, encrypt, encoded, -, -, -, posted⟩ := case.recorded
  rw [clear.encrypt] at encoded
  have inClear := encode_handshakeReply (server.derive_length derived) encoded
  have sent := bounded.sending.enqueueWrite written
  refine ⟨⟨?_, sent.offers⟩, bounded.inOrder.seeded clear buf, Or.inr ⟨srvSeed, key, rfl,
    sessionKey_seeded derived, rfl, ?_⟩⟩
  · obtain ⟨stream, represents⟩ := sent.represented
    exact ⟨stream, represents.posted, represents.accepted, represents.pending⟩
  · rw [clear.posted] at posted
    exact ⟨_, [], posted, rfl, inClear, rfl, rfl⟩

/-! ### Runs -/

theorem HandlerCase.bounded {buf : Bytes} {stage : Stage} {outcome : Outcome Client Bool}
    (case : HandlerCase server cli buf stage outcome)
    (received : Received stage buf cli.toClientState) (encrypting : server.allowDecrypted = false)
    (bounded : Bounded server cli) :
    EncryptionBoundary server outcome.state ∧
      ∀ cli', outcome = .done true cli' → Bounded server cli' := by
  have stepped {cli' : Client} (next : Bounded server cli') :
      EncryptionBoundary server cli' ∧
        ∀ last, Outcome.done true cli' = .done true last → Bounded server last := by
    refine ⟨next.boundary, ?_⟩
    rintro last ⟨⟩
    exact next
  cases case with
  | unknownConnection =>
      have visited := bounded.noted .incomingRead buf (by decide) rfl
      exact ⟨visited.boundary, by simp⟩
  | gate =>
      apply stepped
      exact (bounded.noted .incomingRead buf (by decide) rfl).prepared
        rfl rfl rfl rfl rfl rfl rfl
  | badHandshake =>
      have visited := bounded.noted .handleHandshake buf (by decide) rfl
      exact ⟨visited.boundary, by simp⟩
  | decrypted allowed =>
      rw [encrypting] at allowed
      cases allowed
  | seedWanted =>
      apply stepped
      exact (bounded.noted .handleHandshake buf (by decide) rfl).prepared rfl rfl rfl rfl rfl rfl rfl
  | seedStopped srvSeed key derived stop base stopped =>
      have case := enqueueCase encryptS2c (handshakeReply srvSeed) cli.base
      rw [handshakeReply, stopped] at case
      obtain rfl : base = cli.base := by
        cases case
        rfl
      have clear := bounded.clear received.encrypted
      refine ⟨⟨bounded.inOrder.seeded clear buf, bounded.sending.offers, Or.inl clear.posted, ?_⟩,
        by simp⟩
      intro encrypted
      exact absurd (clear.flag.symm.trans encrypted) Bool.false_ne_true
  | keyed srvSeed key derived base written =>
      apply stepped
      have keyed := bounded.keyed (bounded.clear received.encrypted) derived written
      have visited := keyed.noted .setEncrypted buf (by decide) rfl
      exact visited.prepared rfl rfl rfl rfl rfl rfl rfl
  | unknownMessage =>
      have choosing := (bounded.prepared rfl rfl rfl rfl rfl rfl rfl :
        Bounded server { cli with flags := { cli.flags with wantMsgHeader := false } })
      exact ⟨(choosing.noted .readMsg buf (by decide) rfl).boundary,
        by simp⟩
  | bodyWanted request type =>
      apply stepped
      have choosing := (bounded.prepared rfl rfl rfl rfl rfl rfl rfl :
        Bounded server { cli with flags := { cli.flags with wantMsgHeader := false } })
      exact (choosing.noted .readMsg buf (by decide) rfl).prepared
        rfl rfl rfl rfl rfl rfl rfl
  | answerStopped request head stop base stopped =>
      have answering := bounded.answering buf request received.encrypted
      have case := enqueueCase (server.answer cli.base.posted.length buf request).1
        (server.answer cli.base.posted.length buf request).2 (cli.base.readStruct msgStdHeader)
      rw [stopped] at case
      obtain rfl : base = cli.base.readStruct msgStdHeader := by
        cases case
        rfl
      exact ⟨answering.boundary, by simp⟩
  | answered request head base written =>
      apply stepped
      exact (bounded.answering buf request received.encrypted).answered received.encrypted written

theorem bounded_rule (server : Server) (encrypting : server.allowDecrypted = false) :
    ConnectionInvariant server (Bounded server) (EncryptionBoundary server) where
  start := by
    intro sock polling unused
    refine ⟨⟨⟨⟨[], [], [], rfl⟩, rfl, ?_, rfl⟩, ?_⟩, visitsInOrder_nil server,
      Or.inl ⟨rfl, rfl, rfl, rfl⟩⟩
    · change [] = sock.calls.flatMap SocketCall.sent
      rw [unused]
      rfl
    · intro before offered answer after split
      change sock.calls = _ at split
      rw [unused] at split
      simp at split
  polled := by
    intro cli event bounded
    exact bounded.framed ⟨rfl, rfl, rfl, rfl, [], (List.append_nil _).symm, by simp⟩ rfl rfl
  write := by
    intro cli bounded
    have frame := pumpWriteFrame cli.base
    have sending := pumpWrite_keeps Sending (fun _ sending => sending.handleWrite) bounded.sending
    exact bounded.congr sending frame.posted frame.encrypt (by rw [frame.decrypt]) rfl rfl
  visit := by
    intro stage cli waiting bounded
    exact bounded.noted .resumeRead [] (by decide) rfl
  read := by
    intro cli base completed frame bounded
    exact bounded.framed frame rfl rfl
  handle := by
    intro stage buf cli outcome received bounded case
    obtain ⟨boundary, next⟩ := case.bounded received encrypting bounded
    exact ⟨boundary, fun cli' returned _ => next cli' returned⟩
  recorded := fun _ bounded => bounded.boundary
  shutdown := by
    intro cli boundary
    exact ⟨boundary.toVisitsInOrder, boundary.offered.readOnly (Socket.readOnly_shutdown _),
      boundary.posted, boundary.installedNow⟩
  recordedPolled := fun _ _ boundary =>
    ⟨boundary.toVisitsInOrder, boundary.offered, boundary.posted, boundary.installedNow⟩
  hangUp := fun _ boundary =>
    ⟨boundary.toVisitsInOrder, boundary.offered, boundary.posted, boundary.installedNow⟩

end Phases

/-- The encryption boundary of every run. -/
theorem encryptionBoundary (server : Server) (encrypting : server.allowDecrypted = false)
    {connection : Connection} (reached : ReachableConnection server connection) :
    EncryptionBoundary server connection.client :=
  (bounded_rule server encrypting).history_client reached

/-- The first request of the opened connection has been answered, and a part of
the answer has been sent. -/
def answeredConnection : Connection :=
  handleDispatch plainServer draining
    ((servedConnection [1, 0, 5, 0, 0, 0, 1]).client.polled draining)

theorem encryptionBoundary_answered :
    answeredConnection.client.base.posted.length = 2 ∧
      answeredConnection.client.base.sock.sent.length = 19 ∧
      EncryptionBoundary plainServer answeredConnection.client := by
  refine ⟨by decide +kernel, by decide +kernel, ?_⟩
  exact encryptionBoundary plainServer rfl (reachable_dispatched
    (reachable_served [1, 0, 5, 0, 0, 0, 1]) (by decide +kernel) (by decide +kernel)
    (by decide +kernel) draining)

end ThemeSrv
