import ThemeSrv.ReaderSegmentation

/-!
# Messages in a stream of pieces

A peer's messages reach the reader in pieces that know nothing of messages: a
piece may hold a part of one or the end of one with the start of the next.  As
long as no piece ends inside a field, a `handle_read` call either uses them up
or hands out the message and leaves what is behind it.
-/

namespace ThemeSrv

open AllocatedBlock ByteString ConcatenatedParts KeystreamCipher

/-! ### Pieces -/

/-- A socket that delivers some pieces and then blocks.  It takes what it is
offered sooner or later. -/
structure Socket.Delivers (sock : Socket) (pieces : List Bytes) : Prop extends sock.Usable where
  inbound : sock.inbound = pieces.map .data
  idle : sock.idle = .wouldBlock
  nonempty : ∀ piece ∈ pieces, piece ≠ []
  healthy : ∀ answer ∈ sock.outbound, answer.isError = false

/-- Counted from `start`, every piece ends at one of the given positions. -/
def EndsAt (ends : Nat → Prop) : Nat → List Bytes → Prop
  | _, [] => True
  | start, piece :: pieces =>
      ends (start + piece.length) ∧ EndsAt ends (start + piece.length) pieces

/-- What one read takes off the pieces. -/
structure Taken (sock : Socket) (bufsz : Nat) (piece : Bytes) (pieces : List Bytes)
    (bytes : Bytes) (rest : List Bytes) (next : Socket) : Prop where
  answered : sock.read bufsz = (.data bytes, next)
  delivers : next.Delivers rest
  nonempty : bytes ≠ []
  split : (piece :: pieces).flatten = bytes ++ rest.flatten
  whole : bytes.length < bufsz → bytes = piece
  ends : ∀ ends start, EndsAt ends start (piece :: pieces) →
    EndsAt ends (start + bytes.length) rest

namespace Socket

variable {sock : Socket} {bufsz : Nat}

theorem Usable.read {sock' : Socket} (usable : sock.Usable) {asked : Nat} {answer : ReadAnswer}
    (calls : sock'.calls = sock.calls ++ [.read asked answer]) : sock'.Usable where
  up := by
    have up := usable.up
    rw [isDown] at up ⊢
    rw [calls]
    simpa using up
  intact := by
    have intact := usable.intact
    rw [brokenPipe] at intact ⊢
    rw [calls, List.any_append, intact]
    rfl

theorem Delivers.read_nil (delivers : sock.Delivers []) (bufsz : Nat) :
    ∃ next, sock.read bufsz = (.wouldBlock, next) ∧ next.Delivers [] := by
  refine ⟨{ sock with calls := sock.calls ++ [.read bufsz .wouldBlock] }, ?_, ?_⟩
  · rw [Socket.read, delivers.inbound]
    simp [delivers.idle, Idle.answer]
  · exact ⟨delivers.toUsable.read rfl, delivers.inbound, delivers.idle, delivers.nonempty,
      delivers.healthy⟩

theorem Delivers.read {piece : Bytes} {pieces : List Bytes}
    (delivers : sock.Delivers (piece :: pieces)) (wanting : 0 < bufsz) :
    ∃ bytes rest next, Taken sock bufsz piece pieces bytes rest next := by
  have present := delivers.nonempty piece List.mem_cons_self
  have others : ∀ other ∈ pieces, other ≠ [] := fun other member =>
    delivers.nonempty other (List.mem_cons_of_mem _ member)
  have inbound : sock.inbound = .data piece :: pieces.map .data := delivers.inbound
  by_cases fits : piece.length ≤ bufsz
  · refine ⟨piece, pieces, { sock with
      inbound := pieces.map .data, calls := sock.calls ++ [.read bufsz (.data piece)] }, ?_⟩
    constructor
    case answered => simp [Socket.read, inbound, fits]
    case delivers =>
      exact ⟨delivers.toUsable.read rfl, rfl, delivers.idle, others, delivers.healthy⟩
    case nonempty => exact present
    case split => exact List.flatten_cons
    case whole => exact fun _ => rfl
    case ends => exact fun ends start cut => cut.2
  · have long : bufsz < piece.length := not_le.mp fits
    have taken : (piece.take bufsz).length = bufsz := by
      rw [List.length_take, min_eq_left long.le]
    refine ⟨piece.take bufsz, piece.drop bufsz :: pieces, { sock with
      inbound := .data (piece.drop bufsz) :: pieces.map .data
      calls := sock.calls ++ [.read bufsz (.data (piece.take bufsz))] }, ?_⟩
    constructor
    case answered => simp [Socket.read, inbound, fits]
    case delivers =>
      refine ⟨delivers.toUsable.read rfl, rfl, delivers.idle, ?_, delivers.healthy⟩
      intro other member
      rcases List.mem_cons.1 member with rfl | member
      · rw [ne_eq, List.drop_eq_nil_iff]
        exact fits
      · exact others other member
    case nonempty =>
      rw [← List.length_pos_iff, taken]
      exact wanting
    case split =>
      rw [List.flatten_cons, List.flatten_cons, ← List.append_assoc, List.take_append_drop]
    case whole =>
      intro short
      rw [taken] at short
      exact absurd short (Nat.lt_irrefl _)
    case ends =>
      intro ends start cut
      have position : start + (piece.take bufsz).length + (piece.drop bufsz).length =
          start + piece.length := by
        rw [taken, List.length_drop]
        omega
      rw [EndsAt, position]
      exact cut

end Socket

/-! ### One call -/

variable {ns : NetStruct} {message : Message ns} {encrypt : Context} {c : ClientBase}

/-- What the reader asks for belongs to the message. -/
theorem Message.wireOffset_add_fixedRun_le (message : Message ns) {index : Nat}
    (inside : index ≤ ns.size) :
    message.wireOffset index + ns.fixedRun index ≤ message.wire.length := by
  induction inside using Nat.decreasingInduction with
  | self => rw [ns.fixedRun_size, message.wireOffset_size, Nat.add_zero]
  | of_succ index inside ih =>
      obtain ⟨field, found⟩ := ns.exists_field inside
      obtain ⟨content, foundContent⟩ := message.exists_content inside
      cases kind : field.type.isVariable with
      | true =>
          rw [ns.fixedRun_of_variable found kind]
          exact boundary_le _ _
      | false =>
          have length := message.fixed index field content found foundContent kind
          rw [ns.fixedRun_of_fixed found kind, ← length, ← Nat.add_assoc,
            ← message.wireOffset_succ foundContent]
          exact ih

theorem AtField.request_le (atField : AtField message encrypt c) (wellFormed : ns.WellFormed) :
    message.wireOffset c.read.field + c.request ns ≤ message.wire.length := by
  obtain ⟨content, found, -⟩ := atField.exists_content
  have inside := atField.standing.field_lt
  rw [atField.request_eq wellFormed found, ← Nat.add_assoc, ← message.wireOffset_succ found]
  exact message.wireOffset_add_fixedRun_le inside

/-- What a `handle_read` call makes of pieces: it waits at a later field when
they are used up, or hands out the message and leaves the pieces behind it. -/
inductive DeliveryCase (message : Message ns) (encrypt : Context) (c : ClientBase)
    (pieces : List Bytes) (origin : Nat) (ends : Nat → Prop) :
    Outcome ClientBase (Option Bytes) → Prop
  | waiting (c' : ClientBase) (atField : AtField message encrypt c')
      (delivers : c'.sock.Delivers [])
      (position : message.wireOffset c.read.field + pieces.flatten.length =
        message.wireOffset c'.read.field) :
      DeliveryCase message encrypt c pieces origin ends (.done none c')
  | complete (image : Bytes) (c' : ClientBase) (rest : List Bytes)
      (held : message.HeldUpTo ns.size image) (delivers : c'.sock.Delivers rest)
      (split : pieces.flatten = c.awaited message encrypt ++ rest.flatten)
      (cut : EndsAt ends (origin + message.wire.length) rest)
      (synchronized : Context.Synchronized (encrypt.feed message.wire) c'.decrypt) :
      DeliveryCase message encrypt c pieces origin ends (.done (some image) c')

theorem handleRead_returned {c c' : ClientBase} {complete : Bool} (fuel : Nat)
    (turn : resumeReadTurn c = .done (.returned complete) c') :
    handleRead (fuel + 1) c =
      if complete then .done c'.read.buf c'.released else .done none c' := by
  simp only [handleRead, resumeRead, turn]
  cases complete <;> rfl

/-- A later call waits for the rest of the message. -/
theorem DeliveryCase.prepend {c₁ : ClientBase} {pieces rest : List Bytes} {bytes : Bytes}
    {origin : Nat} {ends : Nat → Prop} {outcome : Outcome ClientBase (Option Bytes)}
    (later : DeliveryCase message encrypt c₁ rest origin ends outcome)
    (split : pieces.flatten = bytes ++ rest.flatten)
    (front : c.awaited message encrypt = bytes ++ c₁.awaited message encrypt)
    (position : message.wireOffset c.read.field + bytes.length =
      message.wireOffset c₁.read.field) :
    DeliveryCase message encrypt c pieces origin ends outcome := by
  cases later with
  | waiting c' atField delivers position' =>
      refine .waiting c' atField delivers ?_
      rw [split, List.length_append, ← position', ← position, Nat.add_assoc]
  | complete image c' left held delivers split' cut synchronized =>
      refine .complete image c' left held delivers ?_ cut synchronized
      rw [split, split', front, List.append_assoc]

/-- Behind the message the reader's cipher is where the sender's is. -/
theorem AtField.synchronized_of_complete (atField : AtField message encrypt c) {c' : ClientBase}
    (case : TurnCase ns c (.done (.returned true) c')) {bufsz : Nat} {bytes : Bytes} {sock : Socket}
    (answered : c.sock.read bufsz = (.data bytes, sock)) (sameSock : c'.sock = sock)
    (position : message.wireOffset c.read.field + bytes.length = message.wire.length) :
    Context.Synchronized (encrypt.feed message.wire) c'.decrypt := by
  obtain ⟨fed, decrypt, received, -⟩ := (turnFrame case).fed
  have same : fed = bytes := by
    rw [sameSock, Socket.read_received answered] at received
    exact (List.append_cancel_left received).symm
  rw [decrypt, same]
  refine ⟨atField.keystream.symm, ?_⟩
  rw [Context.feed_fed, Context.feed_fed, List.length_append, List.length_append, atField.position]
  omega

theorem AtField.delivery (wellFormed : ns.WellFormed) (fits : message.Fits) {origin : Nat}
    {ends : Nat → Prop}
    (inner : ∀ position, ends position → origin ≤ position →
      position ≤ origin + message.wire.length →
      ∃ index, position = origin + message.wireOffset index)
    (fuel : Nat) {c : ClientBase} (atField : AtField message encrypt c) {pieces : List Bytes}
    (delivers : c.sock.Delivers pieces)
    (cut : EndsAt ends (origin + message.wireOffset c.read.field) pieces) {later : Bytes}
    (stream : pieces.flatten <+: c.awaited message encrypt ++ later)
    (enough : pieces.flatten.length < fuel) :
    DeliveryCase message encrypt c pieces origin ends (handleRead fuel c) := by
  induction fuel generalizing c pieces with
  | zero => exact absurd enough (Nat.not_lt_zero _)
  | succ fuel ih =>
      cases pieces with
      | nil =>
          obtain ⟨next, answered, blocked⟩ := delivers.read_nil (c.request ns)
          rw [handleRead_returned fuel
            (turn_of_wouldBlock wellFormed atField.standing (atField.asks wellFormed) answered)]
          exact .waiting _ (atField.allocated wellFormed next) blocked rfl
      | cons piece pieces =>
          obtain ⟨bytes, rest, next, taken⟩ := delivers.read (atField.request_pos wellFormed)
          have bound := Socket.read_data_length taken.answered
          have requested := atField.request_le wellFormed
          have whole := atField.awaited_length
          have front : bytes <+: c.awaited message encrypt := by
            rw [taken.split] at stream
            exact List.prefix_of_prefix_length_le ((List.prefix_append _ _).trans stream)
              (List.prefix_append _ _) (by omega)
          have turn := fieldTurn wellFormed atField taken.answered taken.nonempty
            (List.prefix_iff_eq_take.1 front)
          have present := List.length_pos_iff.mpr taken.nonempty
          have lengths := congrArg List.length taken.split
          rw [List.length_append] at lengths
          obtain ⟨behind, split⟩ := front
          generalize outcomeEq : resumeReadTurn c = outcome at turn
          cases turn with
          | overrun c' tooLong => exact absurd fits tooLong
          | within c' offset short between =>
              have ended := cut.1
              rw [← taken.whole short] at ended
              obtain ⟨index, place⟩ := inner _ ended (by omega) (by omega)
              exact absurd (by omega) (between index)
          | next c₁ nextAt sameSock position =>
              have awaited := awaited_rest split.symm position
              rw [handleRead_again outcomeEq]
              refine (ih nextAt (sameSock ▸ taken.delivers) ?_ ?_ (by omega)).prepend taken.split
                ?_ position
              · rw [← position, ← Nat.add_assoc]
                exact taken.ends ends _ cut
              · rw [awaited]
                rw [taken.split, ← split, List.append_assoc] at stream
                exact (List.prefix_append_right_inj bytes).1 stream
              · rw [awaited, split]
          | complete c' held sameSock position =>
              have case := turnCase wellFormed atField.standing
              rw [outcomeEq] at case
              have completed := completed_of_turn atField.standing case
              have nothing : behind = [] := by
                have lengths := congrArg List.length split
                rw [List.length_append] at lengths
                exact List.eq_nil_of_length_eq_zero (by omega)
              rw [nothing, List.append_nil] at split
              rw [handleRead_returned fuel outcomeEq, if_pos rfl, completed.buf]
              have synchronized :=
                atField.synchronized_of_complete case taken.answered sameSock position
              refine .complete _ _ rest held (sameSock ▸ taken.delivers) ?_ ?_ synchronized
              · rw [taken.split, split]
              · rw [← position, ← Nat.add_assoc]
                exact taken.ends ends _ cut

end ThemeSrv
