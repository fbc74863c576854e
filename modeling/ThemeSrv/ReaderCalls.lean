import ThemeSrv.ReaderRun

/-!
# One call of the reader

What a `handle_read` call does to a connection, however it ends: it offers
nothing to the socket, it leaves the outgoing side alone, and it does not
touch the fields of the message that had been received before.
-/

namespace ThemeSrv

open AllocatedBlock KeystreamCipher

/-- The state an execution ends in. -/
def Outcome.state {State Value : Type} : Outcome State Value → State
  | .done _ state => state
  | .stopped _ state => state

/-! ### The calls on the socket -/

/-- Code that makes calls on a socket, but forgets none. -/
def Continues (c c' : ClientBase) : Prop :=
  c.sock.calls <+: c'.sock.calls

theorem Continues.isDown {c c' : ClientBase} (continues : Continues c c')
    (down : c.sock.isDown = true) : c'.sock.isDown = true := by
  simp only [Socket.isDown, List.contains_iff_mem] at down ⊢
  exact continues.subset down

theorem Continues.of_calls {c c' : ClientBase} {more : List SocketCall}
    (calls : c'.sock.calls = c.sock.calls ++ more) : Continues c c' :=
  ⟨more, calls.symm⟩

theorem continues_receive (ns : NetStruct) (memsz readsz : Nat) (block : Bytes) (c : ClientBase) :
    Continues c (receive ns memsz readsz block c).state := by
  rw [receive]
  rcases answered : c.sock.read readsz with ⟨answer, sock⟩
  have calls := Socket.read_calls answered
  cases answer with
  | failure =>
      apply Continues.of_calls
      simp only [Outcome.state, Socket.shutdown, calls, List.append_assoc]
      rfl
  | wouldBlock => exact .of_calls calls
  | data bytes =>
      simp only
      split
      · exact .of_calls calls
      · exact .of_calls calls

theorem continues_resumeReadTurn (c : ClientBase) : Continues c (resumeReadTurn c).state := by
  have same : Continues c c := List.prefix_refl _
  have received (ns : NetStruct) (memsz readsz : Nat) (block : Bytes) :=
    continues_receive ns memsz readsz block
      { c with read := { c.read with bufsz := block.length, buf := some block } }
  rw [resumeReadTurn]
  split
  · exact same
  split
  · exact same
  split
  · exact same
  · exact .of_calls rfl
  split
  · exact same
  simp only
  split
  · exact same
  split
  · exact same
  · exact received _ _ _ _

theorem continues_resumeRead (fuel : Nat) (c : ClientBase) :
    Continues c (resumeRead fuel c).state := by
  induction fuel generalizing c with
  | zero => exact List.prefix_refl _
  | succ fuel ih =>
      have turn := continues_resumeReadTurn c
      rw [resumeRead]
      cases outcome : resumeReadTurn c with
      | stopped stop c' =>
          rw [outcome] at turn
          exact turn
      | done result c' =>
          rw [outcome] at turn
          cases result with
          | returned complete => exact turn
          | again => exact turn.trans (ih c')

/-! ### One call -/

/-- How the reader's side of a connection moves on while it is receiving a
message. -/
structure ReadFrame (ns : NetStruct) (c c' : ClientBase) : Prop where
  writes : c'.writes = c.writes
  encrypt : c'.encrypt = c.encrypt
  posted : c'.posted = c.posted
  struct : c'.read.struct = c.read.struct
  keystream : c'.decrypt.keystream = c.decrypt.keystream
  readOnly : c.sock.ReadOnly c'.sock
  field : c.read.field ≤ c'.read.field
  front : c'.read.memory.take (ns.memOffset c.read.field) =
    c.read.memory.take (ns.memOffset c.read.field)

variable {ns : NetStruct}

theorem ReadFrame.refl (ns : NetStruct) (c : ClientBase) : ReadFrame ns c c where
  writes := rfl
  encrypt := rfl
  posted := rfl
  struct := rfl
  keystream := rfl
  readOnly := .refl c.sock
  field := le_refl _
  front := rfl

theorem ReadFrame.trans {c₁ c₂ c₃ : ClientBase} (before : ReadFrame ns c₁ c₂)
    (after : ReadFrame ns c₂ c₃) : ReadFrame ns c₁ c₃ where
  writes := after.writes.trans before.writes
  encrypt := after.encrypt.trans before.encrypt
  posted := after.posted.trans before.posted
  struct := after.struct.trans before.struct
  keystream := after.keystream.trans before.keystream
  readOnly := before.readOnly.trans after.readOnly
  field := before.field.trans after.field
  front := by
    have shorter := ns.memOffset_mono before.field
    have front := congrArg (List.take (ns.memOffset c₁.read.field)) after.front
    rw [List.take_take, List.take_take, min_eq_left shorter] at front
    rw [front, before.front]

theorem ReadState.Standing.allocatedFrame {c : ClientBase} (standing : c.read.Standing ns)
    {sock : Socket} (readOnly : c.sock.ReadOnly sock) :
    ReadFrame ns c { c.allocated ns with sock := sock } where
  writes := rfl
  encrypt := rfl
  posted := rfl
  struct := rfl
  keystream := rfl
  readOnly := readOnly
  field := le_refl _
  front := ReadState.grown_take standing.reached

theorem ReadState.Standing.placedFrame {c : ClientBase} (standing : c.read.Standing ns)
    {sock : Socket} (readOnly : c.sock.ReadOnly sock) {result : Consumed}
    (field : c.read.field ≤ result.field)
    (keystream : result.decrypt.keystream = c.decrypt.keystream)
    (front : result.block.take (ns.memOffset c.read.field) =
      (c.read.grown ns).take (ns.memOffset c.read.field)) :
    ReadFrame ns c (c.placed ns sock result) where
  writes := rfl
  encrypt := rfl
  posted := rfl
  struct := rfl
  keystream := keystream
  readOnly := readOnly
  field := field
  front := front.trans (ReadState.grown_take standing.reached)

/-- Every turn, returning or not, keeps the frame. -/
theorem TurnCase.frame {c : ClientBase} {outcome : Outcome ClientBase Turn}
    (case : TurnCase ns c outcome) (standing : c.read.Standing ns) :
    ReadFrame ns c outcome.state := by
  cases case with
  | tooLarge oversized =>
      exact { ReadFrame.refl ns c with readOnly := Socket.readOnly_shutdown c.sock }
  | stuck | badAlloc => exact standing.allocatedFrame (.refl c.sock)
  | failure asks sock answered =>
      exact standing.allocatedFrame
        ((Socket.readOnly_read answered).trans (Socket.readOnly_shutdown sock))
  | wouldBlock asks sock answered | overrun asks bytes sock answered =>
      exact standing.allocatedFrame (Socket.readOnly_read answered)
  | inside asks bytes sock answered short stored done =>
      exact standing.placedFrame (Socket.readOnly_read answered) (le_refl _) rfl
        (store_take done (Nat.le_add_right _ _))
  | across asks bytes sock answered full first stored rest place firstDone done restingAt further =>
      have offsets : ns.memOffset c.read.field ≤ ns.memOffset (c.read.field + 1) :=
        ns.memOffset_mono (Nat.le_succ _)
      apply standing.placedFrame (Socket.readOnly_read answered)
      · have passed : rest ≤ (resting ns rest place stored (c.decrypt.feed bytes)).field :=
          resting_field_ge
        omega
      · rw [resting_decrypt]
        rfl
      · rw [resting_block, store_take done (by omega), store_take firstDone (Nat.le_add_right _ _)]

/-- The last thing a socket did was to answer a read with would-block, unless
it has been shut down. -/
def Socket.Blocked (sock : Socket) : Prop :=
  sock.isDown = true ∨ ∃ calls asked, sock.calls = calls ++ [.read asked .wouldBlock]

theorem Socket.shutdown_isDown (sock : Socket) : sock.shutdown.isDown = true := by
  simp [Socket.shutdown, Socket.isDown]

/-- A turn returns without a message only if the socket blocks or is shut
down. -/
theorem TurnCase.blocked {c c' : ClientBase} (case : TurnCase ns c (.done (.returned false) c')) :
    c'.sock.Blocked := by
  generalize outcomeEq : Outcome.done (Turn.returned false) c' = outcome at case
  cases case with
  | tooLarge =>
      cases outcomeEq
      exact Or.inl (Socket.shutdown_isDown c.sock)
  | failure asks sock answered =>
      cases outcomeEq
      exact Or.inl (Socket.shutdown_isDown sock)
  | wouldBlock asks sock answered =>
      cases outcomeEq
      exact Or.inr ⟨c.sock.calls, _, Socket.read_calls answered⟩
  | stuck | badAlloc | overrun | inside => cases outcomeEq
  | across =>
      have sameTurn := (Outcome.done.inj outcomeEq).1
      split_ifs at sameTurn
      cases sameTurn

/-- What a `handle_read` call can do from the middle of a message. -/
inductive HandleReadCase (ns : NetStruct) (c : ClientBase) :
    Outcome ClientBase (Option Bytes) → Prop
  | stopped (stop : Stop) (c' : ClientBase) (frame : ReadFrame ns c c') :
      HandleReadCase ns c (.stopped stop c')
  | waiting (c' : ClientBase) (frame : ReadFrame ns c c') (standing : c'.read.Standing ns)
      (blocked : c'.sock.Blocked) : HandleReadCase ns c (.done none c')
  | complete (c' : ClientBase) (frame : ReadFrame ns c c') (completed : Completed ns c'.read) :
      HandleReadCase ns c (.done (some c'.read.memory) c'.released)

theorem HandleReadCase.prepend {c c₁ : ClientBase} {outcome : Outcome ClientBase (Option Bytes)}
    (rest : HandleReadCase ns c₁ outcome) (frame : ReadFrame ns c c₁) :
    HandleReadCase ns c outcome := by
  cases rest with
  | stopped stop c' later => exact .stopped stop c' (frame.trans later)
  | waiting c' later standing blocked => exact .waiting c' (frame.trans later) standing blocked
  | complete c' later completed => exact .complete c' (frame.trans later) completed

theorem handleReadCase (wellFormed : ns.WellFormed) (fuel : Nat) {c : ClientBase}
    (standing : c.read.Standing ns) : HandleReadCase ns c (handleRead fuel c) := by
  induction fuel generalizing c with
  | zero => exact .stopped .fuel c (.refl ns c)
  | succ fuel ih =>
      rw [handleRead, resumeRead]
      have case := turnCase wellFormed standing
      have frame := case.frame standing
      cases turn : resumeReadTurn c with
      | stopped stop c' =>
          rw [turn] at frame
          exact .stopped stop c' frame
      | done result c' =>
          rw [turn] at case frame
          cases result with
          | again =>
              have rest := ih (standing_of_turn standing case (by simp))
              rw [handleRead] at rest
              exact rest.prepend frame
          | returned complete =>
              cases complete with
              | false =>
                  exact .waiting c' frame (standing_of_turn standing case (by simp)) case.blocked
              | true =>
                  have completed := completed_of_turn standing case
                  have handsOut : HandleReadCase ns c (.done (some c'.read.memory) c'.released) :=
                    .complete c' frame completed
                  rw [← completed.buf] at handsOut
                  exact handsOut

end ThemeSrv
