import ThemeSrv.ReaderField

/-!
# How a message is cut into deliveries

The socket delivers an encrypted message in pieces, with would-block answers
anywhere between them.  The reader hands out the message with exactly the
bytes of the message consumed if no delivery ends inside a field, and only
then: a field received in two parts is asked for again from its start.
-/

namespace ThemeSrv

open AllocatedBlock ByteString ConcatenatedParts KeystreamCipher

/-! ### Deliveries -/

/-- A script of socket answers delivers a stream in non-empty pieces, with any
number of would-block answers in front of a piece. -/
inductive Segmentation : List ReadAnswer → Bytes → Prop
  | nil : Segmentation [] []
  | wouldBlock {script : List ReadAnswer} {stream : Bytes} (pending : stream ≠ [])
      (more : Segmentation script stream) : Segmentation (.wouldBlock :: script) stream
  | data {script : List ReadAnswer} {stream : Bytes} (piece : Bytes) (nonempty : piece ≠ [])
      (more : Segmentation script stream) : Segmentation (.data piece :: script) (piece ++ stream)

/-- The bytes a script delivers. -/
def delivered (script : List ReadAnswer) : Bytes :=
  script.flatMap ReadAnswer.bytes

theorem Segmentation.delivered_eq {script : List ReadAnswer} {stream : Bytes}
    (segmentation : Segmentation script stream) : delivered script = stream := by
  induction segmentation with
  | nil => rfl
  | wouldBlock pending more ih => exact ih
  | data piece nonempty more ih => exact congrArg (piece ++ ·) ih

theorem Segmentation.eq_nil {script : List ReadAnswer} (segmentation : Segmentation script []) :
    script = [] := by
  generalize streamEq : ([] : Bytes) = stream at segmentation
  cases segmentation with
  | nil => rfl
  | wouldBlock pending more => exact absurd streamEq.symm pending
  | data piece nonempty more =>
      exact absurd (List.append_eq_nil_iff.mp streamEq.symm).1 nonempty

/-- What one read takes off a script that starts with a delivery. -/
inductive Piece (bufsz : Nat) : List ReadAnswer → Bytes → List ReadAnswer → Prop
  | whole (bytes : Bytes) (script : List ReadAnswer) :
      Piece bufsz (.data bytes :: script) bytes script
  | split (bytes leftover : Bytes) (script : List ReadAnswer) (full : bytes.length = bufsz) :
      Piece bufsz (.data (bytes ++ leftover) :: script) bytes (.data leftover :: script)

theorem Piece.count_wouldBlock {bufsz : Nat} {script rest : List ReadAnswer} {bytes : Bytes}
    (piece : Piece bufsz script bytes rest) :
    script.count .wouldBlock = rest.count .wouldBlock := by
  cases piece <;> simp

theorem Segmentation.read {sock : Socket} {bufsz : Nat} {script rest : List ReadAnswer}
    {stream : Bytes} (segmentation : Segmentation script stream) (pending : stream ≠ [])
    (inbound : sock.inbound = script ++ rest) (wanting : 0 < bufsz) :
    (∃ more next, script = .wouldBlock :: more ∧ Segmentation more stream ∧
      sock.read bufsz = (.wouldBlock, next) ∧ next.inbound = more ++ rest) ∨
    (∃ bytes more later next, Piece bufsz script bytes more ∧ bytes ≠ [] ∧
      stream = bytes ++ later ∧ Segmentation more later ∧
      sock.read bufsz = (.data bytes, next) ∧ next.inbound = more ++ rest) := by
  cases segmentation with
  | nil => exact absurd rfl pending
  | @wouldBlock more stream _ segmentation =>
      refine Or.inl ⟨more,
        { sock with inbound := more ++ rest, calls := sock.calls ++ [.read bufsz .wouldBlock] },
        rfl, segmentation, ?_, rfl⟩
      simp [Socket.read, inbound]
  | @data more later piece nonempty segmentation =>
      by_cases fits : piece.length ≤ bufsz
      · refine Or.inr ⟨piece, more, later,
          { sock with inbound := more ++ rest, calls := sock.calls ++ [.read bufsz (.data piece)] },
          .whole _ _, nonempty, rfl, segmentation, ?_, rfl⟩
        simp [Socket.read, inbound, fits]
      · have taken : (piece.take bufsz).length = bufsz := by
          rw [List.length_take]
          omega
        have leftover : piece.drop bufsz ≠ [] := by
          rw [ne_eq, List.drop_eq_nil_iff]
          omega
        have split := Piece.split (piece.take bufsz) (piece.drop bufsz) more taken
        rw [List.take_append_drop] at split
        refine Or.inr ⟨piece.take bufsz, .data (piece.drop bufsz) :: more,
          piece.drop bufsz ++ later,
          { sock with
            inbound := .data (piece.drop bufsz) :: (more ++ rest)
            calls := sock.calls ++ [.read bufsz (.data (piece.take bufsz))] },
          split, ?_, ?_, .data _ leftover segmentation, ?_, rfl⟩
        · rw [← List.length_pos_iff]
          omega
        · rw [← List.append_assoc, List.take_append_drop]
        · simp [Socket.read, inbound, fits]

variable {ns : NetStruct}

/-! ### Cuts -/

namespace Message

variable (message : Message ns)

/-- Counted from byte `start` of the wire, every answer of the script ends
between two fields of the message. -/
def CutBetweenFields (start : Nat) (script : List ReadAnswer) : Prop :=
  ∀ front, front <+: script →
    ∃ index, start + (delivered front).length = message.wireOffset index

variable {message}

theorem cutBetweenFields_cons {start : Nat} {answer : ReadAnswer} {script : List ReadAnswer} :
    message.CutBetweenFields start (answer :: script) ↔
      (∃ index, start = message.wireOffset index) ∧
        message.CutBetweenFields (start + answer.bytes.length) script := by
  constructor
  · refine fun cuts => ⟨cuts [] (List.nil_prefix), fun front isPrefix => ?_⟩
    obtain ⟨index, place⟩ := cuts (answer :: front) ((List.prefix_cons_inj answer).mpr isPrefix)
    refine ⟨index, ?_⟩
    rw [← place]
    simp [delivered, Nat.add_assoc]
  · rintro ⟨starts, cuts⟩ front isPrefix
    cases front with
    | nil => exact starts
    | cons head front =>
        obtain ⟨rfl, rest⟩ := List.cons_prefix_cons.mp isPrefix
        obtain ⟨index, place⟩ := cuts front rest
        refine ⟨index, ?_⟩
        rw [← place]
        simp [delivered, Nat.add_assoc]

theorem CutBetweenFields.start {start : Nat} {script : List ReadAnswer}
    (cuts : message.CutBetweenFields start script) : ∃ index, start = message.wireOffset index :=
  cuts [] List.nil_prefix

/-- A read that ends between two fields cuts the rest of the script as the
whole one. -/
theorem cutBetweenFields_piece {start bufsz : Nat} {script rest : List ReadAnswer} {bytes : Bytes}
    (piece : Piece bufsz script bytes rest)
    (between : ∃ index, start + bytes.length = message.wireOffset index) :
    message.CutBetweenFields start script ↔
      (∃ index, start = message.wireOffset index) ∧
        message.CutBetweenFields (start + bytes.length) rest := by
  cases piece with
  | whole => exact cutBetweenFields_cons
  | split bytes leftover script full =>
      rw [cutBetweenFields_cons, cutBetweenFields_cons]
      simp only [ReadAnswer.bytes, List.length_append, Nat.add_assoc, between, true_and]

end Message

/-! ### Reading a segmented message -/

/-- The connection is about to read a message of `ns` whose sender's cipher is
`encrypt`. -/
structure ClientBase.Awaits (ns : NetStruct) (encrypt : Context) (c : ClientBase) : Prop where
  struct : c.read.struct = some ns
  field : c.read.field = 0
  offset : c.read.offset = 0
  buf : c.read.buf = none
  synchronized : Context.Synchronized encrypt c.decrypt

/-- Successive `handle_read` calls, one for each would-block answer and one
more, hand out the message and nothing else; the script is used up, and with
it exactly the bytes it delivers. -/
def Message.ReadExactly (message : Message ns) (c : ClientBase) (script rest : List ReadAnswer) :
    Prop :=
  ∃ image c', HandleReads c (List.replicate (script.count .wouldBlock) none ++ [some image]) c' ∧
    message.Holds image ∧ c'.sock.inbound = rest ∧
    c'.sock.received = c.sock.received ++ delivered script

theorem ClientBase.Awaits.atField (wellFormed : ns.WellFormed) {message : Message ns}
    {encrypt : Context} {c : ClientBase} (awaits : c.Awaits ns encrypt) :
    AtField message encrypt c where
  standing :=
    { struct := awaits.struct
      field_lt := by
        rw [awaits.field]
        exact wellFormed.nonempty
      owned := by
        intro block owned
        rw [awaits.buf] at owned
        cases owned
      fresh := fun _ => awaits.field
      reached := by simp [awaits.field]
      capacity := by simp [ReadState.memory, awaits.buf] }
  offset := awaits.offset
  held := by
    intro index content before
    rw [awaits.field] at before
    omega
  pending := by
    intro content found
    rw [awaits.field] at found
    obtain ⟨field, foundField⟩ := ns.exists_field wellFormed.nonempty
    have fixedSize := wellFormed.field_zero_fixed foundField
    have positive := wellFormed.fixed_pos foundField fixedSize
    rw [← message.fixed 0 field content foundField found fixedSize] at positive
    exact List.length_pos_iff.mp positive
  keystream := awaits.synchronized.1.symm
  position := by
    rw [awaits.field, ← awaits.synchronized.2]
    simp [Message.wireOffset]

variable {message : Message ns} {encrypt : Context}

/-- A field in front of which the reader stands has its share of the stream. -/
theorem AtField.awaited_ne_nil {c : ClientBase} (atField : AtField message encrypt c) :
    c.awaited message encrypt ≠ [] := by
  have below := atField.wireOffset_lt
  have length := atField.awaited_length
  rw [← List.length_pos_iff]
  omega

theorem awaited_rest {c c' : ClientBase} {bytes later : Bytes}
    (stream : c.awaited message encrypt = bytes ++ later)
    (position : message.wireOffset c.read.field + bytes.length =
      message.wireOffset c'.read.field) :
    c'.awaited message encrypt = later := by
  rw [ClientBase.awaited, ← position, ← List.drop_drop]
  change (c.awaited message encrypt).drop bytes.length = later
  rw [stream, List.drop_left]

theorem AtField.scriptTurn (wellFormed : ns.WellFormed) {c : ClientBase}
    (atField : AtField message encrypt c) {script rest : List ReadAnswer}
    (segmentation : Segmentation script (c.awaited message encrypt))
    (inbound : c.sock.inbound = script ++ rest) :
    (∃ more next, script = .wouldBlock :: more ∧
      Segmentation more (c.awaited message encrypt) ∧ next.inbound = more ++ rest ∧
      next.received = c.sock.received ∧
      resumeReadTurn c = .done (.returned false) { c.allocated ns with sock := next }) ∨
    (∃ bytes more later next, Piece (c.request ns) script bytes more ∧ bytes ≠ [] ∧
      c.awaited message encrypt = bytes ++ later ∧ Segmentation more later ∧
      next.inbound = more ++ rest ∧ next.received = c.sock.received ++ bytes ∧
      FieldTurn message encrypt c bytes next (resumeReadTurn c)) := by
  rcases segmentation.read atField.awaited_ne_nil inbound (atField.request_pos wellFormed) with
    ⟨more, next, front, segmentation, answered, nextInbound⟩ |
    ⟨bytes, more, later, next, piece, nonempty, stream, segmentation, answered, nextInbound⟩
  · refine Or.inl ⟨more, next, front, segmentation, nextInbound, ?_, ?_⟩
    · simpa [ReadAnswer.bytes] using Socket.read_received answered
    · exact turn_of_wouldBlock wellFormed atField.standing (atField.asks wellFormed) answered
  · refine Or.inr ⟨bytes, more, later, next, piece, nonempty, stream, segmentation, nextInbound,
      Socket.read_received answered, ?_⟩
    exact fieldTurn wellFormed atField answered nonempty (by rw [stream, List.take_left])

/-- A delivery up to the end of the message leaves nothing of the stream. -/
theorem AtField.later_eq_nil {c : ClientBase} (atField : AtField message encrypt c)
    {bytes later : Bytes} (stream : c.awaited message encrypt = bytes ++ later)
    (position : message.wireOffset c.read.field + bytes.length = message.wire.length) :
    later = [] := by
  have length := atField.awaited_length
  rw [stream, List.length_append] at length
  exact List.eq_nil_of_length_eq_zero (by omega)

/-- From the start of a field, deliveries that end between fields are read up
to the end of the message. -/
theorem reading_of_cuts (wellFormed : ns.WellFormed) (fits : message.Fits) {rest : List ReadAnswer}
    (size : Nat) {c : ClientBase} (atField : AtField message encrypt c) {script : List ReadAnswer}
    (bound : script.length + (c.awaited message encrypt).length = size)
    (segmentation : Segmentation script (c.awaited message encrypt))
    (inbound : c.sock.inbound = script ++ rest)
    (cuts : message.CutBetweenFields (message.wireOffset c.read.field) script) :
    ∃ c', Reading c (script.count .wouldBlock) c' ∧ message.HeldUpTo ns.size c'.read.memory ∧
      c'.sock.inbound = rest ∧
      c'.sock.received = c.sock.received ++ c.awaited message encrypt := by
  induction size using Nat.strong_induction_on generalizing c script with
  | _ size ih =>
      rcases atField.scriptTurn wellFormed segmentation inbound with
        ⟨more, next, rfl, segmentation, nextInbound, received, turn⟩ |
        ⟨bytes, more, later, next, piece, nonempty, stream, segmentation, nextInbound, received,
          fieldTurn⟩
      · obtain ⟨c', reading, held, used, received'⟩ :=
          ih (more.length + (c.awaited message encrypt).length)
            (by rw [List.length_cons] at bound; omega) (atField.allocated wellFormed next) rfl
            segmentation nextInbound (Message.cutBetweenFields_cons.mp cuts).2
        refine ⟨c', ?_, held, used, ?_⟩
        · rw [List.count_cons_self]
          exact .blocked turn reading
        · rw [received', ← received]
          rfl
      · have between : bytes.length < c.request ns →
            ∃ index, message.wireOffset c.read.field + bytes.length =
              message.wireOffset index := by
          intro short
          cases piece with
          | whole => exact (Message.cutBetweenFields_cons.mp cuts).2.start
          | split bytes leftover script full => omega
        generalize outcomeEq : resumeReadTurn c = outcome at fieldTurn
        cases fieldTurn with
        | overrun c' tooLong => exact absurd fits tooLong
        | within c' offset short noField =>
            obtain ⟨index, place⟩ := between short
            exact absurd place (noField index)
        | next c₁ nextAt sameSock position =>
            have awaited := awaited_rest stream position
            have restCuts := ((Message.cutBetweenFields_piece piece ⟨_, position⟩).mp cuts).2
            have positive := List.length_pos_iff.mpr nonempty
            have lengths := congrArg List.length stream
            have shorter : more.length ≤ script.length := by
              cases piece <;> simp
            rw [List.length_append] at lengths
            obtain ⟨c', reading, held, used, received'⟩ :=
              ih (more.length + later.length) (by omega) nextAt (by rw [awaited])
                (by rw [awaited]; exact segmentation) (by rw [sameSock]; exact nextInbound)
                (by rw [← position]; exact restCuts)
            refine ⟨c', ?_, held, used, ?_⟩
            · rw [piece.count_wouldBlock]
              exact .again outcomeEq reading
            · rw [received', sameSock, received, awaited, stream, List.append_assoc]
        | complete c' held sameSock position =>
            obtain rfl := atField.later_eq_nil stream position
            obtain rfl := segmentation.eq_nil
            refine ⟨c', ?_, held, ?_, ?_⟩
            · rw [piece.count_wouldBlock]
              exact .complete outcomeEq
            · rw [sameSock]
              exact nextInbound
            · rw [sameSock, received, stream, List.append_nil]

/-- A reader with a debt completes no message that its buffer then holds: it
has consumed more bytes than the message has. -/
theorem Reading.debt (wellFormed : ns.WellFormed) {c c' : ClientBase} {blocked start debt : Nat}
    (reading : Reading c blocked c') (standing : c.read.Standing ns)
    (accounted : Accounted ns start debt c) (owing : 0 < c.read.offset ∨ 0 < debt) :
    start + ns.wireBefore c'.read.memory ns.size < c'.decrypt.fed.length := by
  induction reading generalizing debt with
  | @complete c c' turn =>
      have case := turnCase wellFormed standing
      rw [turn] at case
      have completed := completed_of_turn standing case
      rcases accounted_of_turn wellFormed standing case accounted with ⟨accounted, le⟩ | accounted
        <;> rw [Accounted, completed.field, completed.offset] at accounted
      · have noOffset := completed.offset
        omega
      · omega
  | again turn more ih | blocked turn more ih =>
      have case := turnCase wellFormed standing
      rw [turn] at case
      have kept := standing_of_turn standing case (by simp)
      rcases accounted_of_turn wellFormed standing case accounted with ⟨accounted, le⟩ | accounted
      · exact ih kept accounted (by omega)
      · exact ih kept accounted (by omega)

/-- What a reading passes to the cipher is what it receives. -/
theorem Reading.fed (wellFormed : ns.WellFormed) {c c' : ClientBase} {blocked : Nat}
    (reading : Reading c blocked c') (standing : c.read.Standing ns) :
    ∃ bytes, c'.decrypt = c.decrypt.feed bytes ∧
      c'.sock.received = c.sock.received ++ bytes := by
  induction reading with
  | complete turn =>
      have case := turnCase wellFormed standing
      rw [turn] at case
      obtain ⟨bytes, fed, received, -⟩ := (turnFrame case).fed
      exact ⟨bytes, fed, received⟩
  | again turn more ih | blocked turn more ih =>
      have case := turnCase wellFormed standing
      rw [turn] at case
      obtain ⟨first, fed, received, -⟩ := (turnFrame case).fed
      obtain ⟨second, fed', received'⟩ := ih (standing_of_turn standing case (by simp))
      refine ⟨first ++ second, ?_, ?_⟩
      · rw [fed', fed, Context.feed_append]
      · rw [received', received, List.append_assoc]

/-- A reader that ends up with the message in its buffer and no more bytes
than the message has met no delivery that ends inside a field. -/
theorem cuts_of_reading (wellFormed : ns.WellFormed) {rest : List ReadAnswer} {c c' : ClientBase}
    {blocked : Nat} (reading : Reading c blocked c') (atField : AtField message encrypt c)
    {script : List ReadAnswer}
    (segmentation : Segmentation script (c.awaited message encrypt))
    (inbound : c.sock.inbound = script ++ rest)
    (held : message.HeldUpTo ns.size c'.read.memory)
    (total : c'.decrypt.fed.length = encrypt.fed.length + message.wire.length) :
    message.CutBetweenFields (message.wireOffset c.read.field) script := by
  induction reading generalizing script with
  | @complete c c' turn =>
      rcases atField.scriptTurn wellFormed segmentation inbound with
        ⟨more, next, -, -, -, -, returned⟩ |
        ⟨bytes, more, later, next, piece, nonempty, stream, segmentation, -, -, fieldTurn⟩
      · cases turn.symm.trans returned
      · rw [turn] at fieldTurn
        cases fieldTurn with
        | complete _ _ _ position =>
            obtain rfl := atField.later_eq_nil stream position
            obtain rfl := segmentation.eq_nil
            have ends : message.wireOffset c.read.field + bytes.length =
                message.wireOffset ns.size := by rw [position, message.wireOffset_size]
            refine (Message.cutBetweenFields_piece piece ⟨_, ends⟩).mpr ⟨⟨_, rfl⟩, ?_⟩
            intro front isPrefix
            obtain rfl := List.prefix_nil.mp isPrefix
            exact ⟨ns.size, ends⟩
  | @again c c₁ c' blocked turn more ih =>
      rcases atField.scriptTurn wellFormed segmentation inbound with
        ⟨later, next, -, -, -, -, returned⟩ |
        ⟨bytes, script', later, next, piece, nonempty, stream, segmentation, nextInbound, -,
          fieldTurn⟩
      · cases turn.symm.trans returned
      · have case := turnCase wellFormed atField.standing
        rw [turn] at fieldTurn case
        cases fieldTurn with
        | next _ nextAt sameSock position =>
            have awaited := awaited_rest stream position
            refine (Message.cutBetweenFields_piece piece ⟨_, position⟩).mpr ⟨⟨_, rfl⟩, ?_⟩
            rw [position]
            exact ih nextAt (by rw [awaited]; exact segmentation)
              (by rw [sameSock]; exact nextInbound) held total
        | within _ offset short noField =>
            -- an offset becomes a debt, and a debt is never paid back
            have kept := standing_of_turn atField.standing case (by simp)
            have consumed := held.wireBefore_eq wellFormed (le_refl _) (le_refl _)
            rw [message.wireOffset_size] at consumed
            have owing {debt : Nat} (accounted : Accounted ns encrypt.fed.length debt c₁) := by
              exact more.debt wellFormed kept accounted (Or.inl offset)
            rcases accounted_of_turn wellFormed atField.standing case
              (atField.accounted wellFormed) with ⟨accounted, -⟩ | accounted
            · have := owing accounted
              omega
            · have := owing accounted
              omega
  | @blocked c c₁ c' blocked turn more ih =>
      rcases atField.scriptTurn wellFormed segmentation inbound with
        ⟨script', next, rfl, segmentation, nextInbound, -, returned⟩ |
        ⟨bytes, script', later, next, -, -, -, -, -, -, fieldTurn⟩
      · cases turn.symm.trans returned
        refine Message.cutBetweenFields_cons.mpr ⟨⟨_, rfl⟩, ?_⟩
        exact ih (atField.allocated wellFormed next) segmentation nextInbound held total
      · rw [turn] at fieldTurn
        cases fieldTurn

/-! ### When a message is read exactly -/

section ReadExactly

variable {c : ClientBase} {script rest : List ReadAnswer}

theorem ClientBase.Awaits.wireOffset_eq (awaits : c.Awaits ns encrypt) :
    message.wireOffset c.read.field = 0 := by
  simp [awaits.field, Message.wireOffset]

/-- In front of its first byte the whole message is awaited. -/
theorem ClientBase.Awaits.awaited_eq (awaits : c.Awaits ns encrypt) :
    c.awaited message encrypt = encrypt.output message.wire := by
  rw [ClientBase.awaited, awaits.wireOffset_eq, List.drop_zero]

theorem readExactly_of_cuts (wellFormed : ns.WellFormed) (awaits : c.Awaits ns encrypt)
    (segmentation : Segmentation script (encrypt.output message.wire))
    (inbound : c.sock.inbound = script ++ rest) (cuts : message.CutBetweenFields 0 script)
    (fits : message.Fits) : message.ReadExactly c script rest := by
  have atField : AtField message encrypt c := awaits.atField wellFormed
  have start : message.wireOffset c.read.field = 0 := awaits.wireOffset_eq
  rw [← awaits.awaited_eq] at segmentation
  rw [← start] at cuts
  obtain ⟨c', reading, held, used, received⟩ :=
    reading_of_cuts wellFormed fits _ atField rfl segmentation inbound cuts
  have completed := reading.completed wellFormed atField.standing
  refine ⟨c'.read.memory, c'.released, reading.handleReads completed.buf,
    (Message.holds_iff wellFormed).mpr held, used, ?_⟩
  rw [segmentation.delivered_eq]
  exact received

theorem cuts_of_readExactly (wellFormed : ns.WellFormed) (awaits : c.Awaits ns encrypt)
    (segmentation : Segmentation script (encrypt.output message.wire))
    (inbound : c.sock.inbound = script ++ rest) (exactly : message.ReadExactly c script rest) :
    message.CutBetweenFields 0 script ∧ message.Fits := by
  have atField : AtField message encrypt c := awaits.atField wellFormed
  have start : message.wireOffset c.read.field = 0 := awaits.wireOffset_eq
  obtain ⟨image, c', calls, holds, -, received⟩ := exactly
  obtain ⟨last, reading, buf, rfl⟩ := calls.reading wellFormed atField.standing
  have completed := reading.completed wellFormed atField.standing
  obtain rfl : last.read.memory = image := by simp [ReadState.memory, buf]
  have held := (Message.holds_iff wellFormed).mp holds
  constructor
  · obtain ⟨bytes, fed, received'⟩ := reading.fed wellFormed atField.standing
    obtain rfl : bytes = delivered script :=
      List.append_cancel_left (received'.symm.trans received)
    rw [← start]
    refine cuts_of_reading wellFormed reading atField (awaits.awaited_eq ▸ segmentation) inbound held ?_
    rw [fed, segmentation.delivered_eq, Context.feed_fed, List.length_append,
      Context.output_length, atField.position, start, Nat.add_zero]
  · intro index content found
    have inside := load_inside (holds index content found)
    rw [completed.allocated] at inside
    exact inside

/-- A segmented message is read exactly if and only if no delivery ends inside
a field and no field overruns the buffer. -/
theorem readExactly_iff (wellFormed : ns.WellFormed) (awaits : c.Awaits ns encrypt)
    (segmentation : Segmentation script (encrypt.output message.wire))
    (inbound : c.sock.inbound = script ++ rest) :
    message.ReadExactly c script rest ↔ message.CutBetweenFields 0 script ∧ message.Fits :=
  ⟨cuts_of_readExactly wellFormed awaits segmentation inbound,
    fun ⟨cuts, fits⟩ => readExactly_of_cuts wellFormed awaits segmentation inbound cuts fits⟩

end ReadExactly

/-! ### A ping in pieces and a message number in two -/

theorem freshReader_awaits (ns : NetStruct) (inbound : List ReadAnswer) :
    (freshReader ns inbound).Awaits ns (.keyed fun _ => 0) :=
  ⟨rfl, rfl, rfl, rfl, rfl, rfl⟩

/-- A ping with a payload of three bytes. -/
def threeBytePing : Message pingRequest :=
  .ofContents [[0, 0], [1, 0, 0, 0], [2, 0, 0, 0], [3, 0, 0, 0], [5, 6, 7]] rfl (by decide)

/-- Its five fields in three pieces. -/
def threeBytePieces : List ReadAnswer :=
  [.data [0, 0, 1, 0, 0, 0], .wouldBlock, .data [2, 0, 0, 0, 3, 0, 0, 0], .data [5, 6, 7]]

theorem readExactly_threeBytePing :
    threeBytePing.ReadExactly (freshReader pingRequest (threeBytePieces ++ [.data [7]]))
      threeBytePieces [.data [7]] := by
  have wellFormed : pingRequest.WellFormed := by decide
  have segmentation : Segmentation threeBytePieces
      ((Context.keyed fun _ => 0).output threeBytePing.wire) :=
    .data _ (by decide) (.wouldBlock (by decide) (.data _ (by decide) (.data _ (by decide) .nil)))
  refine (readExactly_iff wellFormed (freshReader_awaits _ _) segmentation rfl).mpr ⟨?_, ?_⟩
  · refine Message.cutBetweenFields_cons.mpr ⟨⟨0, rfl⟩, Message.cutBetweenFields_cons.mpr
      ⟨⟨2, rfl⟩, Message.cutBetweenFields_cons.mpr ⟨⟨2, rfl⟩, Message.cutBetweenFields_cons.mpr
        ⟨⟨4, rfl⟩, ?_⟩⟩⟩⟩
    intro front isPrefix
    obtain rfl := List.prefix_nil.mp isPrefix
    exact ⟨5, rfl⟩
  · decide

/-- The header of a file server request. -/
def fileRequestHeader : Message msgStdHeader :=
  .ofContents [[1, 0]] rfl (by decide)

/-- Received one byte at a time it is not read. -/
theorem not_readExactly_every_cut :
    ¬ ∀ (ns : NetStruct) (_ : ns.WellFormed) (message : Message ns) (encrypt : Context)
      (c : ClientBase) (_ : c.Awaits ns encrypt) (script rest : List ReadAnswer)
      (_ : Segmentation script (encrypt.output message.wire))
      (_ : c.sock.inbound = script ++ rest), message.ReadExactly c script rest := by
  intro claimed
  have wellFormed : msgStdHeader.WellFormed := by decide
  have segmentation : Segmentation [.data [1], .data [0]]
      ((Context.keyed fun _ => 0).output fileRequestHeader.wire) :=
    .data [1] (by decide) (.data [0] (by decide) .nil)
  have exactly := claimed msgStdHeader wellFormed fileRequestHeader _
    (freshReader msgStdHeader [.data [1], .data [0]]) (freshReader_awaits _ _) _ [] segmentation rfl
  obtain ⟨cuts, -⟩ := cuts_of_readExactly wellFormed (freshReader_awaits _ _) segmentation rfl
    exactly
  obtain ⟨index, place⟩ := cuts [.data [1]] ⟨[.data [0]], rfl⟩
  have found : fileRequestHeader.contents[0]? = some [1, 0] := rfl
  exact no_boundary_inside found (by decide) (by decide) index place

end ThemeSrv
