import ThemeSrv.ReaderConsume

/-!
# One turn of the reader

`TurnCase` lists what one turn of the outer loop of `resume_read` can do from
a state that is in the middle of a message.  Everything later proved about
the reader goes through this list.
-/

namespace ThemeSrv

open AllocatedBlock ByteString KeystreamCipher

variable {ns : NetStruct}

/-! ### Socket reads -/

theorem Socket.read_data_length {sock sock' : Socket} {bufsz : Nat} {bytes : Bytes}
    (answered : sock.read bufsz = (.data bytes, sock')) : bytes.length ≤ bufsz := by
  rcases Socket.read_cases answered with ⟨-, idle, -⟩ | ⟨rest, -, short, -⟩ |
    ⟨piece, rest, -, long, taken, -⟩
  · have nothing := congrArg ReadAnswer.bytes idle
    rw [Socket.idle_bytes] at nothing
    change bytes = [] at nothing
    simp [nothing]
  · exact short
  · cases taken
    exact List.length_take_le _ _

/-! ### Crossing a field -/

/-- From a field and an offset, bytes that fill the field go on into the run
behind it.  The offset shifts them. -/
theorem consume_across (wellFormed : ns.WellFormed) {index offset : Nat} {block first : Bytes}
    (decrypt : Context) {input : Bytes} (inside : index < ns.size)
    (capacity : ns.memTotal ≤ block.length)
    (full : ns.wireSz block index ≤ input.length)
    (within : input.length + offset ≤ ns.wireSz block index + ns.fixedRun (index + 1))
    (firstDone : store block (ns.memOffset index + offset)
      (decrypt.output (input.take (ns.wireSz block index))) = some first) :
    ∃ stored rest place,
      store first (ns.memOffset (index + 1) + offset)
        ((decrypt.feed (input.take (ns.wireSz block index))).output
          (input.drop (ns.wireSz block index))) = some stored ∧
      consume ns (ns.size - index) index offset (ns.memOffset index) block decrypt input =
        .ok (resting ns rest place stored (decrypt.feed input)) ∧
      RestingPlace ns rest place ∧ index + 1 ≤ rest ∧
      ns.memOffset rest + place =
        ns.memOffset (index + 1) + (input.length - ns.wireSz block index) ∧
      ns.FixedBetween (index + 1) rest := by
  obtain ⟨field, found⟩ := ns.exists_field inside
  have reached := (ns.memOffset_le_memTotal index).trans capacity
  have nextOffset := NetStruct.memOffset_succ found
  obtain ⟨left, left_eq⟩ : ∃ left, ns.size - index = left + 1 := ⟨ns.size - index - 1, by omega⟩
  rw [left_eq, consume_succ (wellFormed.calcFieldSz_at found reached), firstDone]
  simp only [if_neg (Nat.not_lt.mpr full)]
  by_cases last : index + 1 = ns.size
  · have noRun : ns.fixedRun (index + 1) = 0 := by rw [last, ns.fixedRun_size]
    have exact : input.length = ns.wireSz block index := by omega
    have noOffset : offset = 0 := by omega
    have rest : input.drop (ns.wireSz block index) = [] := List.drop_of_length_le exact.le
    refine ⟨first, index + 1, 0, by simp [rest], ?_, Or.inl ⟨last, rfl⟩, le_refl _, by omega,
      fun _ _ ge lt => by omega⟩
    simp only [if_pos last, if_pos exact, resting, noOffset]
  · obtain ⟨less, rfl⟩ : ∃ less, left = less + 1 := ⟨left - 1, by omega⟩
    have firstLength := store_length firstDone
    obtain ⟨stored, rest, place, restDone, consumed, resting, le, position, between⟩ :=
      consume_run wellFormed (s := offset) (show index + 1 + (less + 1) = ns.size by omega)
        (show ns.memTotal ≤ first.length by omega) (decrypt.feed (input.take (ns.wireSz block index)))
        (input.drop (ns.wireSz block index)) (by rw [List.length_drop]; omega)
    have target : ns.memOffset index + offset + field.memSize =
        ns.memOffset (index + 1) + offset := by omega
    rw [← Context.feed_append, List.take_append_drop] at consumed
    rw [List.length_drop] at position
    refine ⟨stored, rest, place, restDone, ?_, resting, le, position, between⟩
    simp only [if_neg last, target, consumed]

theorem consume_inside (wellFormed : ns.WellFormed) {index offset : Nat} {block : Bytes}
    (decrypt : Context) {input : Bytes} (inside : index < ns.size)
    (capacity : ns.memTotal ≤ block.length) (short : input.length < ns.wireSz block index) :
    consume ns (ns.size - index) index offset (ns.memOffset index) block decrypt input =
      match store block (ns.memOffset index + offset) (decrypt.output input) with
      | none => .error .store
      | some stored => .ok ⟨false, index, offset + input.length, stored, decrypt.feed input⟩ := by
  obtain ⟨field, found⟩ := ns.exists_field inside
  have reached := (ns.memOffset_le_memTotal index).trans capacity
  obtain ⟨left, left_eq⟩ : ∃ left, ns.size - index = left + 1 := ⟨ns.size - index - 1, by omega⟩
  rw [left_eq, consume_succ (wellFormed.calcFieldSz_at found reached),
    List.take_of_length_le short.le]
  cases store block (ns.memOffset index + offset) (decrypt.output input) with
  | none => rfl
  | some stored => exact if_pos short

theorem consume_outside (wellFormed : ns.WellFormed) {index offset : Nat} {block : Bytes}
    (decrypt : Context) {input : Bytes} (inside : index < ns.size)
    (capacity : ns.memTotal ≤ block.length)
    (outside : store block (ns.memOffset index + offset)
      (decrypt.output (input.take (ns.wireSz block index))) = none) :
    consume ns (ns.size - index) index offset (ns.memOffset index) block decrypt input =
      .error .store := by
  obtain ⟨field, found⟩ := ns.exists_field inside
  have reached := (ns.memOffset_le_memTotal index).trans capacity
  obtain ⟨left, left_eq⟩ : ∃ left, ns.size - index = left + 1 := ⟨ns.size - index - 1, by omega⟩
  rw [left_eq, consume_succ (wellFormed.calcFieldSz_at found reached), outside]

/-! ### The cases of a turn -/

namespace ClientBase

/-- Number of bytes a turn asks the socket for. -/
def request (c : ClientBase) (ns : NetStruct) : Nat :=
  ns.window c.read.memory c.read.field - c.read.offset

/-- A turn gets as far as asking the socket. -/
structure Asks (ns : NetStruct) (c : ClientBase) : Prop where
  accepted : ns.wireSz c.read.memory c.read.field ≠ sizeMax
  wanting : c.read.offset < ns.window c.read.memory c.read.field
  allocatable : c.request ns < maxObject

/-- The connection after a read whose bytes the inner loop has placed. -/
def placed (c : ClientBase) (ns : NetStruct) (sock : Socket) (result : Consumed) : ClientBase :=
  { c.allocated ns with
    sock := sock
    read := { (c.allocated ns).read with
      field := result.field
      offset := result.offset
      buf := some result.block }
    decrypt := result.decrypt }

end ClientBase

/-- What one turn of `resume_read` can do. -/
inductive TurnCase (ns : NetStruct) (c : ClientBase) :
    Outcome ClientBase Turn → Prop
  | tooLarge (oversized : ns.wireSz c.read.memory c.read.field = sizeMax) :
      TurnCase ns c (.done (.returned false) c.shutdown)
  | stuck (accepted : ns.wireSz c.read.memory c.read.field ≠ sizeMax)
      (exhausted : ns.window c.read.memory c.read.field ≤ c.read.offset) :
      TurnCase ns c (.done .again (c.allocated ns))
  | badAlloc (accepted : ns.wireSz c.read.memory c.read.field ≠ sizeMax)
      (wanting : c.read.offset < ns.window c.read.memory c.read.field)
      (huge : maxObject ≤ c.request ns) :
      TurnCase ns c (.stopped .badAlloc (c.allocated ns))
  | failure (asks : c.Asks ns) (sock : Socket)
      (answered : c.sock.read (c.request ns) = (.failure, sock)) :
      TurnCase ns c (.done (.returned false) { c.allocated ns with sock := sock.shutdown })
  | wouldBlock (asks : c.Asks ns) (sock : Socket)
      (answered : c.sock.read (c.request ns) = (.wouldBlock, sock)) :
      TurnCase ns c (.done (.returned false) { c.allocated ns with sock := sock })
  | overrun (asks : c.Asks ns) (bytes : Bytes) (sock : Socket)
      (answered : c.sock.read (c.request ns) = (.data bytes, sock))
      (outside : store (c.read.grown ns) (ns.memOffset c.read.field + c.read.offset)
        (c.decrypt.output (bytes.take (ns.wireSz c.read.memory c.read.field))) = none) :
      TurnCase ns c (.stopped .store { c.allocated ns with sock := sock })
  | inside (asks : c.Asks ns) (bytes : Bytes) (sock : Socket)
      (answered : c.sock.read (c.request ns) = (.data bytes, sock))
      (short : bytes.length < ns.wireSz c.read.memory c.read.field) (stored : Bytes)
      (done : store (c.read.grown ns) (ns.memOffset c.read.field + c.read.offset)
        (c.decrypt.output bytes) = some stored) :
      TurnCase ns c (.done .again (c.placed ns sock
        ⟨false, c.read.field, c.read.offset + bytes.length, stored, c.decrypt.feed bytes⟩))
  | across (asks : c.Asks ns) (bytes : Bytes) (sock : Socket)
      (answered : c.sock.read (c.request ns) = (.data bytes, sock))
      (full : ns.wireSz c.read.memory c.read.field ≤ bytes.length)
      (first stored : Bytes) (rest place : Nat)
      (firstDone : store (c.read.grown ns) (ns.memOffset c.read.field + c.read.offset)
        (c.decrypt.output (bytes.take (ns.wireSz c.read.memory c.read.field))) = some first)
      (done : store first (ns.memOffset (c.read.field + 1) + c.read.offset)
        ((c.decrypt.feed (bytes.take (ns.wireSz c.read.memory c.read.field))).output
          (bytes.drop (ns.wireSz c.read.memory c.read.field))) = some stored)
      (resting_at : RestingPlace ns rest place) (further : c.read.field + 1 ≤ rest)
      (position : ns.memOffset rest + place = ns.memOffset (c.read.field + 1) +
        (bytes.length - ns.wireSz c.read.memory c.read.field))
      (between : ns.FixedBetween (c.read.field + 1) rest) :
      TurnCase ns c
        (.done (if (resting ns rest place stored (c.decrypt.feed bytes)).complete then
            .returned true else .again)
          (c.placed ns sock (resting ns rest place stored (c.decrypt.feed bytes))))

theorem NetStruct.window_le (ns : NetStruct) (block : Bytes) (index : Nat) :
    ns.window block index ≤ ns.wireSz block index + ns.fixedRun (index + 1) :=
  Nat.mod_le _ _

theorem NetStruct.WellFormed.wireSz_grown (wellFormed : ns.WellFormed) {rd : ReadState}
    (standing : rd.Standing ns) :
    ns.wireSz (rd.grown ns) rd.field = ns.wireSz rd.memory rd.field :=
  wellFormed.wireSz_congr (ReadState.grown_take standing.reached)
    (by rw [ReadState.grown_length standing.capacity]
        exact standing.reached.trans standing.capacity)
    standing.reached

/-- Once the socket has answered with data, a turn is the inner loop. -/
theorem receive_data {memsz readsz : Nat} {block bytes : Bytes} {c : ClientBase} {sock : Socket}
    (answered : c.sock.read readsz = (.data bytes, sock)) :
    receive ns memsz readsz block c =
      match consume ns (ns.size - c.read.field) c.read.field c.read.offset memsz block
          c.decrypt bytes with
      | .error stop => .stopped stop { c with sock := sock }
      | .ok result =>
          .done (if result.complete then .returned true else .again)
            { c with
              sock := sock
              read := { c.read with
                field := result.field
                offset := result.offset
                buf := some result.block }
              decrypt := result.decrypt } := by
  unfold receive
  rewrite [answered]
  rfl

theorem turnCase (wellFormed : ns.WellFormed) {c : ClientBase} (standing : c.read.Standing ns) :
    TurnCase ns c (resumeReadTurn c) := by
  rw [resumeReadTurn_eq wellFormed c standing]
  by_cases oversized : ns.wireSz c.read.memory c.read.field = sizeMax
  · rw [if_pos oversized]
    exact .tooLarge oversized
  rw [if_neg oversized]
  by_cases exhausted : ns.window c.read.memory c.read.field ≤ c.read.offset
  · rw [if_pos exhausted]
    exact .stuck oversized exhausted
  rw [if_neg exhausted]
  change TurnCase ns c (if maxObject ≤ c.request ns then _ else
    receive ns (ns.memOffset c.read.field) (c.request ns) (c.read.grown ns) (c.allocated ns))
  by_cases huge : maxObject ≤ c.request ns
  · rw [if_pos huge]
    exact .badAlloc oversized (Nat.lt_of_not_le exhausted) huge
  rw [if_neg huge]
  have asks : c.Asks ns := ⟨oversized, Nat.lt_of_not_le exhausted, Nat.lt_of_not_le huge⟩
  rcases answered : c.sock.read (c.request ns) with ⟨answer, sock⟩
  cases answer with
  | failure =>
      rw [receive, show (c.allocated ns).sock.read (c.request ns) = _ from answered]
      exact .failure asks sock answered
  | wouldBlock =>
      rw [receive, show (c.allocated ns).sock.read (c.request ns) = _ from answered]
      exact .wouldBlock asks sock answered
  | data bytes =>
      have sameSize := wellFormed.wireSz_grown standing
      have capacity : ns.memTotal ≤ (c.read.grown ns).length := by
        rw [ReadState.grown_length standing.capacity]
        have := ns.memTotal_le_allocation
        omega
      rw [receive_data (c := c.allocated ns) answered]
      change TurnCase ns c (match consume ns (ns.size - c.read.field) c.read.field c.read.offset
        (ns.memOffset c.read.field) (c.read.grown ns) c.decrypt bytes with | .error _ => _ | .ok _ => _)
      by_cases short : bytes.length < ns.wireSz c.read.memory c.read.field
      · rw [consume_inside wellFormed c.decrypt standing.field_lt capacity
          (by rw [sameSize]; exact short)]
        cases done : store (c.read.grown ns) (ns.memOffset c.read.field + c.read.offset)
            (c.decrypt.output bytes) with
        | none =>
            refine .overrun asks bytes sock answered ?_
            rw [List.take_of_length_le short.le]
            exact done
        | some stored => exact .inside asks bytes sock answered short stored done
      · have full := Nat.le_of_not_lt short
        cases firstDone : store (c.read.grown ns) (ns.memOffset c.read.field + c.read.offset)
            (c.decrypt.output (bytes.take (ns.wireSz c.read.memory c.read.field))) with
        | none =>
            rw [consume_outside wellFormed c.decrypt standing.field_lt capacity
              (by rw [sameSize]; exact firstDone)]
            exact .overrun asks bytes sock answered firstDone
        | some first =>
            have bound := Socket.read_data_length answered
            have window := ns.window_le c.read.memory c.read.field
            have within : bytes.length + c.read.offset ≤
                ns.wireSz c.read.memory c.read.field + ns.fixedRun (c.read.field + 1) := by
              unfold ClientBase.request at bound
              omega
            rw [← sameSize] at within full firstDone
            obtain ⟨stored, rest, place, done, consumed, restingAt, further, position, between⟩ :=
              consume_across wellFormed c.decrypt standing.field_lt capacity full within firstDone
            rw [consumed]
            rw [sameSize] at firstDone done position full
            exact .across asks bytes sock answered full first stored rest place firstDone done
              restingAt further position between

end ThemeSrv
