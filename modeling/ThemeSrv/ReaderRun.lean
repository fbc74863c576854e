import ThemeSrv.ReaderTurn

/-!
# Runs of the reader

What every turn of `resume_read` preserves, whatever the socket delivers: the
reader stands at a field of its message, what it received is what it passed to
the cipher, and the bytes received add up to the sizes of the fields passed,
the offset in the current field, and a debt.  The debt is what a field was
handed twice: an offset that was already there when the field counted as read.
-/

namespace ThemeSrv

open AllocatedBlock ByteString KeystreamCipher

/-! ### Socket reads -/

theorem Socket.read_received {sock sock' : Socket} {bufsz : Nat} {answer : ReadAnswer}
    (answered : sock.read bufsz = (answer, sock')) :
    sock'.received = sock.received ++ answer.bytes := by
  rw [received, received, Socket.read_calls answered, List.flatMap_append]
  cases answer <;> simp [SocketCall.received, ReadAnswer.bytes]

/-- The bytes a socket has still to deliver. -/
def Socket.pending (sock : Socket) : Nat :=
  (sock.inbound.map fun answer => answer.bytes.length).sum

/-- A read moves bytes from the pending to the received ones. -/
theorem Socket.read_pending {sock sock' : Socket} {bufsz : Nat} {answer : ReadAnswer}
    (answered : sock.read bufsz = (answer, sock')) :
    sock'.pending + answer.bytes.length = sock.pending := by
  unfold pending
  rcases Socket.read_cases answered with ⟨empty, idle, stays⟩ | ⟨rest, front, -, stays⟩ |
    ⟨piece, rest, front, -, taken, stays⟩
  · rw [empty, stays, idle]
    simp
  · rw [front, stays, List.map_cons, List.sum_cons]
    omega
  · rw [front, stays, taken]
    simp only [ReadAnswer.bytes, List.map_cons, List.sum_cons, List.length_take, List.length_drop]
    omega

@[simp]
theorem Socket.shutdown_received (sock : Socket) : sock.shutdown.received = sock.received := by
  simp [shutdown, received, SocketCall.received]

variable {ns : NetStruct}

/-! ### Positions -/

/-- Wire size of the fields in front of one, as the buffer announces them. -/
def NetStruct.wireBefore (ns : NetStruct) (block : Bytes) : Nat → Nat
  | 0 => 0
  | count + 1 => ns.wireBefore block count + ns.wireSz block count

theorem NetStruct.WellFormed.wireBefore_congr (wellFormed : ns.WellFormed) {count : Nat}
    {first second : Bytes} (same : first.take (ns.memOffset count) = second.take (ns.memOffset count))
    (insideFirst : ns.memOffset count ≤ first.length)
    (insideSecond : ns.memOffset count ≤ second.length) :
    ns.wireBefore first count = ns.wireBefore second count := by
  induction count with
  | zero => rfl
  | succ count ih =>
      have below : ns.memOffset count ≤ ns.memOffset (count + 1) :=
        ns.memOffset_mono (Nat.le_succ count)
      have sameFront : first.take (ns.memOffset count) = second.take (ns.memOffset count) := by
        have front := congrArg (List.take (ns.memOffset count)) same
        rwa [List.take_take, List.take_take, min_eq_left below] at front
      rw [wireBefore, wireBefore, ih sameFront (by omega) (by omega),
        wellFormed.wireSz_congr sameFront (by omega) (by omega)]

/-- Fixed fields are as large on the wire as in memory. -/
theorem NetStruct.FixedBetween.wireBefore_add {first last : Nat}
    (between : ns.FixedBetween first last) (block : Bytes) (le : first ≤ last) (inside : last ≤ ns.size) :
    ns.wireBefore block last + ns.memOffset first =
      ns.wireBefore block first + ns.memOffset last := by
  apply between.carried le inside (motive := fun index =>
    ns.wireBefore block index + ns.memOffset first =
      ns.wireBefore block first + ns.memOffset index) rfl
  intro index field found fixedSize prior
  have offset := NetStruct.memOffset_succ found
  rw [wireBefore, NetStruct.wireSz_of_fixed found fixedSize]
  omega

/-! ### Places of rest -/

theorem RestingPlace.le_size {rest place : Nat} (restingAt : RestingPlace ns rest place) :
    rest ≤ ns.size := by
  rcases restingAt with ⟨last, -⟩ | ⟨field, found, -⟩
  · exact last.le
  · exact (ns.lt_size_of_found found).le

section Resting

variable {rest place : Nat} {block : Bytes} {decrypt : Context}

@[simp]
theorem resting_block : (resting ns rest place block decrypt).block = block := by
  unfold resting
  split_ifs <;> rfl

@[simp]
theorem resting_decrypt : (resting ns rest place block decrypt).decrypt = decrypt := by
  unfold resting
  split_ifs <;> rfl

theorem resting_field_ge : rest ≤ (resting ns rest place block decrypt).field := by
  unfold resting
  split_ifs <;> simp

theorem resting_field_le (le : rest ≤ ns.size) :
    (resting ns rest place block decrypt).field ≤ ns.size := by
  unfold resting
  split_ifs with last
  · exact le
  · exact Nat.lt_of_le_of_ne le last
  · exact le

theorem resting_complete :
    (resting ns rest place block decrypt).complete = true ↔
      (resting ns rest place block decrypt).field = ns.size := by
  unfold resting
  split_ifs <;> simp_all

theorem resting_offset (restingAt : RestingPlace ns rest place)
    (complete : (resting ns rest place block decrypt).complete = true) :
    (resting ns rest place block decrypt).offset = 0 := by
  unfold resting at complete ⊢
  split_ifs with last passed
  · obtain ⟨-, none⟩ | ⟨field, found, -⟩ := restingAt
    · exact none
    · exact absurd last (ns.lt_size_of_found found).ne
  · rfl
  · simp [last, passed] at complete

/-- Passing an empty field moves the reader to an equal position. -/
theorem resting_position (ns : NetStruct) (rest place : Nat) (block : Bytes)
    (decrypt : Context) :
    ns.wireBefore block (resting ns rest place block decrypt).field +
        (resting ns rest place block decrypt).offset =
      ns.wireBefore block rest + place := by
  unfold resting
  split_ifs with last passed
  · rfl
  · simp [NetStruct.wireBefore, passed]
  · rfl

end Resting

/-! ### What a turn keeps -/

namespace ClientBase

@[simp]
theorem allocated_memory (c : ClientBase) (ns : NetStruct) :
    (c.allocated ns).read.memory = c.read.grown ns :=
  rfl

@[simp]
theorem placed_memory (c : ClientBase) (ns : NetStruct) (sock : Socket) (result : Consumed) :
    (c.placed ns sock result).read.memory = result.block :=
  rfl

end ClientBase

theorem ReadState.Standing.allocated {c : ClientBase} (standing : c.read.Standing ns) :
    (c.allocated ns).read.Standing ns where
  struct := standing.struct
  field_lt := standing.field_lt
  owned := by
    intro block owned
    cases owned
    rfl
  fresh := by
    intro impossible
    cases impossible
  reached := by
    rw [ClientBase.allocated_memory, ReadState.grown_length standing.capacity]
    exact standing.reached.trans standing.capacity
  capacity := (ReadState.grown_length standing.capacity).le

theorem ReadState.Standing.placed {c : ClientBase} (standing : c.read.Standing ns) {sock : Socket}
    {result : Consumed} (inside : result.field < ns.size)
    (sameLength : result.block.length = (c.read.grown ns).length) :
    (c.placed ns sock result).read.Standing ns where
  struct := standing.struct
  field_lt := inside
  owned := by
    intro block owned
    cases owned
    exact sameLength
  fresh := by
    intro impossible
    cases impossible
  reached := by
    rw [ClientBase.placed_memory, sameLength, ReadState.grown_length standing.capacity]
    have below := ns.memOffset_le_memTotal result.field
    have room := ns.memTotal_le_allocation
    change ns.memOffset result.field ≤ _
    omega
  capacity := by
    rw [ClientBase.placed_memory, sameLength, ReadState.grown_length standing.capacity]

/-- What a returning turn leaves alone, and how it uses what it receives. -/
structure TurnFrame (c c' : ClientBase) : Prop where
  writes : c'.writes = c.writes
  encrypt : c'.encrypt = c.encrypt
  posted : c'.posted = c.posted
  struct : c'.read.struct = c.read.struct
  fed : ∃ bytes, c'.decrypt = c.decrypt.feed bytes ∧
    c'.sock.received = c.sock.received ++ bytes ∧
    c'.sock.pending + bytes.length = c.sock.pending

theorem turnFrame {c c' : ClientBase} {turn : Turn} (case : TurnCase ns c (.done turn c')) :
    TurnFrame c c' := by
  generalize outcomeEq : Outcome.done turn c' = outcome at case
  cases case with
  | tooLarge =>
      cases outcomeEq
      exact ⟨rfl, rfl, rfl, rfl, [], by simp [ClientBase.shutdown], by simp [ClientBase.shutdown],
        rfl⟩
  | stuck =>
      cases outcomeEq
      exact ⟨rfl, rfl, rfl, rfl, [], by simp [ClientBase.allocated],
        by simp [ClientBase.allocated], rfl⟩
  | badAlloc => cases outcomeEq
  | failure asks sock answered | wouldBlock asks sock answered =>
      cases outcomeEq
      exact ⟨rfl, rfl, rfl, rfl, [], by simp [ClientBase.allocated],
        by simpa [ReadAnswer.bytes] using Socket.read_received answered,
        Socket.read_pending answered⟩
  | overrun => cases outcomeEq
  | inside asks bytes sock answered =>
      cases outcomeEq
      exact ⟨rfl, rfl, rfl, rfl, bytes, rfl, Socket.read_received answered,
        Socket.read_pending answered⟩
  | across asks bytes sock answered =>
      cases outcomeEq
      exact ⟨rfl, rfl, rfl, rfl, bytes, resting_decrypt, Socket.read_received answered,
        Socket.read_pending answered⟩

/-- A turn that does not complete the message leaves the reader inside it. -/
theorem standing_of_turn {c c' : ClientBase} {turn : Turn} (standing : c.read.Standing ns)
    (case : TurnCase ns c (.done turn c')) (unfinished : turn ≠ .returned true) :
    c'.read.Standing ns := by
  generalize outcomeEq : Outcome.done turn c' = outcome at case
  cases case with
  | tooLarge =>
      cases outcomeEq
      exact standing
  | stuck | failure | wouldBlock =>
      cases outcomeEq
      exact standing.allocated
  | badAlloc | overrun => cases outcomeEq
  | inside asks bytes sock answered short stored done =>
      cases outcomeEq
      exact standing.placed standing.field_lt (store_length done)
  | across asks bytes sock answered full first stored rest place firstDone done restingAt =>
      cases outcomeEq
      have incomplete : ¬ (resting ns rest place stored (c.decrypt.feed bytes)).complete = true :=
        fun complete => unfinished (if_pos complete)
      rw [resting_complete] at incomplete
      have le : (resting ns rest place stored (c.decrypt.feed bytes)).field ≤ ns.size :=
        resting_field_le restingAt.le_size
      refine standing.placed (by omega) ?_
      rw [resting_block, store_length done, store_length firstDone]

/-- A completed message stands in a buffer of the allocated size. -/
structure Completed (ns : NetStruct) (rd : ReadState) : Prop where
  field : rd.field = ns.size
  offset : rd.offset = 0
  buf : rd.buf = some rd.memory
  allocated : rd.memory.length = ns.allocation
  bufsz : rd.bufsz = rd.memory.length

theorem completed_of_turn {c c' : ClientBase} (standing : c.read.Standing ns)
    (case : TurnCase ns c (.done (.returned true) c')) : Completed ns c'.read := by
  generalize outcomeEq : Outcome.done (Turn.returned true) c' = outcome at case
  cases case with
  | tooLarge | stuck | badAlloc | failure | wouldBlock | overrun | inside => cases outcomeEq
  | across asks bytes sock answered full first stored rest place firstDone done restingAt =>
      have sameTurn := (Outcome.done.inj outcomeEq).1
      obtain rfl := (Outcome.done.inj outcomeEq).2
      have complete : (resting ns rest place stored (c.decrypt.feed bytes)).complete = true := by
        by_contra incomplete
        rw [if_neg incomplete] at sameTurn
        cases sameTurn
      have grownLength := ReadState.grown_length standing.capacity
      have sameLength : stored.length = (c.read.grown ns).length := by
        rw [store_length done, store_length firstDone]
      refine ⟨resting_complete.mp complete, ?_, ?_, ?_, ?_⟩
      · exact resting_offset restingAt complete
      · simp [ClientBase.placed, ReadState.memory]
      · rw [ClientBase.placed_memory, resting_block, sameLength, grownLength]
      · rw [ClientBase.placed_memory, resting_block]
        exact sameLength.symm

theorem turn_of_wouldBlock (wellFormed : ns.WellFormed) {c : ClientBase} {sock : Socket}
    (standing : c.read.Standing ns) (asks : c.Asks ns)
    (answered : c.sock.read (c.request ns) = (.wouldBlock, sock)) :
    resumeReadTurn c = .done (.returned false) { c.allocated ns with sock := sock } := by
  generalize outcomeEq : resumeReadTurn c = outcome
  have case := turnCase wellFormed standing
  rw [outcomeEq] at case
  cases case with
  | tooLarge oversized => exact absurd oversized asks.accepted
  | stuck accepted exhausted => exact absurd asks.wanting (Nat.not_lt.mpr exhausted)
  | badAlloc accepted wanting huge => exact absurd asks.allocatable (Nat.not_lt.mpr huge)
  | wouldBlock asks other answer =>
      cases answered.symm.trans answer
      rfl
  | failure asks other answer => cases answered.symm.trans answer
  | overrun asks bytes other answer | inside asks bytes other answer
  | across asks bytes other answer => cases answered.symm.trans answer

/-! ### The debt -/

/-- The bytes passed to the cipher since position `start` are the fields in
front, the offset and the debt. -/
def Accounted (ns : NetStruct) (start debt : Nat) (c : ClientBase) : Prop :=
  c.decrypt.fed.length =
    start + ns.wireBefore c.read.memory c.read.field + c.read.offset + debt

/-- A turn pays no debt back, and one that passes a field at an offset leaves
the offset behind as debt. -/
theorem accounted_of_turn (wellFormed : ns.WellFormed) {c c' : ClientBase} {turn : Turn}
    {start debt : Nat} (standing : c.read.Standing ns) (case : TurnCase ns c (.done turn c'))
    (accounted : Accounted ns start debt c) :
    Accounted ns start debt c' ∧ c.read.offset ≤ c'.read.offset ∨
      Accounted ns start (debt + c.read.offset) c' := by
  have front {block : Bytes} (sameLength : block.length = (c.read.grown ns).length)
      (same : block.take (ns.memOffset c.read.field) =
        (c.read.grown ns).take (ns.memOffset c.read.field)) :
      ns.wireBefore block c.read.field = ns.wireBefore c.read.memory c.read.field := by
    refine wellFormed.wireBefore_congr ?_ ?_ standing.reached
    · rw [same, ReadState.grown_take standing.reached]
    · rw [sameLength, ReadState.grown_length standing.capacity]
      exact standing.reached.trans standing.capacity
  have kept : ns.wireBefore (c.read.grown ns) c.read.field =
      ns.wireBefore c.read.memory c.read.field := front rfl rfl
  unfold Accounted at accounted ⊢
  generalize outcomeEq : Outcome.done turn c' = outcome at case
  cases case with
  | tooLarge =>
      cases outcomeEq
      exact Or.inl ⟨accounted, le_refl _⟩
  | stuck | failure | wouldBlock =>
      cases outcomeEq
      refine Or.inl ⟨?_, le_refl _⟩
      change c.decrypt.fed.length = start + ns.wireBefore (c.read.grown ns) c.read.field + _ + _
      rw [kept]
      exact accounted
  | badAlloc | overrun => cases outcomeEq
  | inside asks bytes sock answered short stored done =>
      cases outcomeEq
      have same := front (store_length done) (store_take done (Nat.le_add_right _ _))
      refine Or.inl ⟨?_, Nat.le_add_right _ _⟩
      change (c.decrypt.fed ++ bytes).length =
        start + ns.wireBefore stored c.read.field + (c.read.offset + bytes.length) + debt
      rw [List.length_append, same]
      omega
  | across asks bytes sock answered full first stored rest place firstDone done restingAt further
      position between =>
      cases outcomeEq
      have offsets : ns.memOffset c.read.field ≤ ns.memOffset (c.read.field + 1) :=
        ns.memOffset_mono (Nat.le_succ _)
      have sameTake : stored.take (ns.memOffset c.read.field) =
          (c.read.grown ns).take (ns.memOffset c.read.field) := by
        rw [store_take done (by omega), store_take firstDone (Nat.le_add_right _ _)]
      have sameLength : stored.length = (c.read.grown ns).length := by
        rw [store_length done, store_length firstDone]
      have same := front sameLength sameTake
      have sameSize : ns.wireSz stored c.read.field = ns.wireSz c.read.memory c.read.field := by
        rw [← wellFormed.wireSz_grown standing]
        have long : ns.memOffset c.read.field ≤ (c.read.grown ns).length := by
          rw [ReadState.grown_length standing.capacity]
          exact standing.reached.trans standing.capacity
        exact wellFormed.wireSz_congr sameTake (by rw [sameLength]; exact long) long
      have passed := between.wireBefore_add stored further restingAt.le_size
      rw [NetStruct.wireBefore] at passed
      have restPosition := resting_position ns rest place stored (c.decrypt.feed bytes)
      refine Or.inr ?_
      simp only [ClientBase.placed, ReadState.memory, resting_block, resting_decrypt,
        Context.feed_fed, List.length_append, Option.getD_some]
      simp only [ReadState.memory] at accounted same sameSize full position
      omega

/-! ### Successive calls -/

/-- The connection after `handle_read` has handed out a message. -/
def ClientBase.released (c : ClientBase) : ClientBase :=
  { c with read := { c.read with field := 0, offset := 0, struct := none, buf := none } }

/-- Successive `handle_read` calls, each of which returns. -/
inductive HandleReads : ClientBase → List (Option Bytes) → ClientBase → Prop
  | nil (c : ClientBase) : HandleReads c [] c
  | cons {c c' c'' : ClientBase} {result : Option Bytes} {results : List (Option Bytes)}
      (fuel : Nat) (call : handleRead fuel c = .done result c')
      (more : HandleReads c' results c'') : HandleReads c (result :: results) c''

/-- Turns of `resume_read` that complete a message after `blocked` calls that
returned without one. -/
inductive Reading : ClientBase → Nat → ClientBase → Prop
  | complete {c c' : ClientBase} (turn : resumeReadTurn c = .done (.returned true) c') :
      Reading c 0 c'
  | again {c c' c'' : ClientBase} {blocked : Nat} (turn : resumeReadTurn c = .done .again c')
      (more : Reading c' blocked c'') : Reading c blocked c''
  | blocked {c c' c'' : ClientBase} {blocked : Nat}
      (turn : resumeReadTurn c = .done (.returned false) c')
      (more : Reading c' blocked c'') : Reading c (blocked + 1) c''

theorem handleRead_again {c c' : ClientBase} (turn : resumeReadTurn c = .done .again c')
    (fuel : Nat) : handleRead (fuel + 1) c = handleRead fuel c' := by
  simp only [handleRead, resumeRead, turn]

theorem Reading.handleReads {c c' : ClientBase} {blocked : Nat} {image : Bytes}
    (reading : Reading c blocked c') (buf : c'.read.buf = some image) :
    HandleReads c (List.replicate blocked none ++ [some image]) c'.released := by
  induction reading with
  | complete turn =>
      refine .cons 1 ?_ (.nil _)
      simp only [handleRead, resumeRead, turn, buf]
      rfl
  | @again c c₁ c₂ blocked turn more ih =>
      cases blocked with
      | zero | succ =>
          cases ih buf with
          | cons fuel call more =>
              exact .cons (fuel + 1) ((handleRead_again turn fuel).trans call) more
  | blocked turn more ih =>
      refine .cons 1 ?_ (ih buf)
      simp only [handleRead, resumeRead, turn]

theorem Reading.completed (wellFormed : ns.WellFormed) {c c' : ClientBase} {blocked : Nat}
    (reading : Reading c blocked c') (standing : c.read.Standing ns) :
    Completed ns c'.read := by
  induction reading with
  | complete turn => exact completed_of_turn standing (turn ▸ turnCase wellFormed standing)
  | again turn more ih | blocked turn more ih =>
      exact ih (standing_of_turn standing (turn ▸ turnCase wellFormed standing) (by simp))

section Calls

variable {c c' : ClientBase} {fuel : Nat}

theorem reading_of_resumeRead_true (done : resumeRead fuel c = .done true c') :
    Reading c 0 c' := by
  induction fuel generalizing c with
  | zero => cases done
  | succ fuel ih =>
      rw [resumeRead] at done
      split at done
      · cases done
      · next complete next turn =>
          cases done
          exact .complete turn
      · next next turn => exact .again turn (ih done)

theorem reading_of_resumeRead_false (wellFormed : ns.WellFormed)
    (standing : c.read.Standing ns) (done : resumeRead fuel c = .done false c') :
    c'.read.Standing ns ∧
      ∀ blocked last, Reading c' blocked last → Reading c (blocked + 1) last := by
  induction fuel generalizing c with
  | zero => cases done
  | succ fuel ih =>
      rw [resumeRead] at done
      split at done
      · cases done
      · next complete next turn =>
          cases done
          refine ⟨standing_of_turn standing (turn ▸ turnCase wellFormed standing) (by simp), ?_⟩
          exact fun blocked last more => .blocked turn more
      · next next turn =>
          obtain ⟨kept, prepend⟩ :=
            ih (standing_of_turn standing (turn ▸ turnCase wellFormed standing) (by simp)) done
          exact ⟨kept, fun blocked last more => .again turn (prepend blocked last more)⟩

/-- A message handed out after a number of calls without one is a reading. -/
theorem HandleReads.reading (wellFormed : ns.WellFormed) (standing : c.read.Standing ns)
    {blocked : Nat} {image : Bytes}
    (calls : HandleReads c (List.replicate blocked none ++ [some image]) c') :
    ∃ last, Reading c blocked last ∧ last.read.buf = some image ∧ c' = last.released := by
  induction blocked generalizing c with
  | zero =>
      cases calls with
      | cons fuel call more =>
          cases more
          rw [handleRead] at call
          split at call
          · cases call
          · cases call
          · next last done =>
              obtain ⟨buf, rfl⟩ := Outcome.done.inj call
              exact ⟨last, reading_of_resumeRead_true done, buf, rfl⟩
  | succ blocked ih =>
      rw [List.replicate_succ, List.cons_append] at calls
      cases calls with
      | cons fuel call more =>
          rw [handleRead] at call
          split at call
          · cases call
          · next next done =>
              cases call
              obtain ⟨kept, prepend⟩ := reading_of_resumeRead_false wellFormed standing done
              obtain ⟨last, reading, result⟩ := ih kept more
              exact ⟨last, prepend blocked last reading, result⟩
          · next last done =>
              have completed := (reading_of_resumeRead_true done).completed wellFormed standing
              have noBuf := (Outcome.done.inj call).1
              rw [completed.buf] at noBuf
              cases noBuf

end Calls

/-! ### A reader at its first message -/

/-- A new connection that has asked for a message. -/
def freshReader (ns : NetStruct) (inbound : List ReadAnswer) : ClientBase :=
  (ClientBase.new ⟨inbound, .wouldBlock, [], []⟩).readStruct ns

theorem freshReader_standing {ns : NetStruct} (nonempty : 0 < ns.size)
    (inbound : List ReadAnswer) : (freshReader ns inbound).read.Standing ns where
  struct := rfl
  field_lt := nonempty
  owned := fun _ owned => by cases owned
  fresh := fun _ => rfl
  reached := Nat.zero_le _
  capacity := Nat.zero_le _

end ThemeSrv
