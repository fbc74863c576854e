import ThemeSrv.FilledImages
import ThemeSrv.ReaderProgress

/-!
# How a call of the reader stops

In the messages the daemon reads, only the last field may be variable, and it
counts bytes.  On such a message a `handle_read` call returns, or it writes
outside of its buffer at a payload that is announced too long, or it loops for
ever: behind a field that came in pieces, or at the end of the stream, where
each turn takes more of the stack.
-/

namespace ThemeSrv

open AllocatedBlock ByteString KeystreamCipher

/-- Well-formed descriptors whose variable fields are buffers of bytes. -/
structure NetStruct.Buffered (ns : NetStruct) : Prop where
  wellFormed : ns.WellFormed
  buffers : ∀ field ∈ ns.fields, field.type.isVariable = true →
    field.type.isBuffer = true ∧ field.elementsz = 1

instance (ns : NetStruct) : Decidable ns.Buffered :=
  decidable_of_iff (ns.WellFormed ∧ ∀ field ∈ ns.fields, field.type.isVariable = true →
      field.type.isBuffer = true ∧ field.elementsz = 1)
    ⟨fun ⟨wellFormed, buffers⟩ => ⟨wellFormed, buffers⟩,
      fun ⟨wellFormed, buffers⟩ => ⟨wellFormed, buffers⟩⟩

variable {ns : NetStruct}

namespace NetStruct.Buffered

theorem buffer (buffered : ns.Buffered) {index : Nat} {field : NetField}
    (found : ns.fields[index]? = some field) (variableSize : field.type.isVariable = true) :
    field.type.isBuffer = true ∧ field.elementsz = 1 :=
  buffered.buffers field (List.mem_of_getElem? found) variableSize

theorem last (buffered : ns.Buffered) {index : Nat} {field : NetField}
    (found : ns.fields[index]? = some field) (variableSize : field.type.isVariable = true) :
    index + 1 = ns.size := by
  obtain ⟨sizeField, prefixed⟩ := buffered.wellFormed.prefixed found variableSize
  exact prefixed.last (buffered.buffer found variableSize).1

theorem wireSz_eq (buffered : ns.Buffered) {index : Nat} {field : NetField} (block : Bytes)
    (found : ns.fields[index]? = some field) (variableSize : field.type.isVariable = true) :
    ns.wireSz block index = countOrMax (ns.announced block index) := by
  rw [NetStruct.wireSz_of_variable found variableSize, (buffered.buffer found variableSize).2,
    Nat.one_mul]
  cases announced : ns.announced block index with
  | none => rfl
  | some count =>
      have limit := announced_le announced
      unfold kMaxBufCount at limit
      exact Nat.mod_eq_of_lt (by change count < sizeMod; unfold sizeMod; omega)

/-- A count that has not been rejected. -/
theorem exists_count (buffered : ns.Buffered) {block : Bytes} {index : Nat} {field : NetField}
    (found : ns.fields[index]? = some field) (variableSize : field.type.isVariable = true)
    (accepted : ns.wireSz block index ≠ sizeMax) :
    ∃ count, ns.announced block index = some count ∧ ns.wireSz block index = count := by
  have size := buffered.wireSz_eq block found variableSize
  cases announced : ns.announced block index with
  | none =>
      rw [announced] at size
      exact absurd size accepted
  | some count =>
      rw [announced] at size
      exact ⟨count, rfl, size⟩

/-- What is asked for can be allocated. -/
theorem window_lt (buffered : ns.Buffered) {block : Bytes} {index : Nat} (inside : index < ns.size)
    (accepted : ns.wireSz block index ≠ sizeMax) : ns.window block index < maxObject := by
  have wellFormed := buffered.wellFormed
  have total := wellFormed.memTotal_lt
  obtain ⟨field, found⟩ := ns.exists_field inside
  cases kind : field.type.isVariable with
  | false =>
      have within := (wellFormed.window_of_fixed block found kind).2
      unfold maxObject
      omega
  | true =>
      obtain ⟨count, announced, size⟩ := buffered.exists_count found kind accepted
      have window := ns.window_le block index
      have bound := wellFormed.limit_lt found
      have limit := announced_le announced
      rw [(buffered.buffer found kind).2, Nat.one_mul] at bound
      rw [buffered.last found kind, ns.fixedRun_size] at window
      unfold maxObject
      omega

/-- A buffer is filled if it has room for its descriptor and holds what is
announced of its payload. -/
theorem filled (buffered : ns.Buffered) {block : Bytes} (covers : ns.memTotal ≤ block.length)
    (payload : ∀ (index : Nat) (field : NetField), ns.fields[index]? = some field →
      field.type.isVariable = true → ∃ count, ns.announced block index = some count ∧
        ns.memOffset index + count ≤ block.length) : ns.Filled block := by
  refine ⟨covers, fun index field found variableSize => ?_⟩
  obtain ⟨count, announced, ends⟩ := payload index field found variableSize
  obtain ⟨isBuffer, byte⟩ := buffered.buffer found variableSize
  refine ⟨count, announced, ?_, ?_⟩
  · rw [byte, Nat.one_mul]
    exact ends
  · intro notBuffer
    rw [isBuffer] at notBuffer
    cases notBuffer

end NetStruct.Buffered

/-! ### What a socket has in store -/

/-- A bound for the reads until the socket is idle. -/
def Socket.toRead (sock : Socket) : Nat :=
  sock.inbound.length + sock.pending

/-- The peer has closed its side, and everything it sent has been read. -/
def Socket.AtEnd (sock : Socket) : Prop :=
  sock.inbound = [] ∧ sock.idle = .endOfFile

theorem Socket.AtEnd.read {sock sock' : Socket} {bufsz : Nat} {answer : ReadAnswer}
    (atEnd : sock.AtEnd) (answered : sock.read bufsz = (answer, sock')) :
    answer = .data [] ∧ sock'.AtEnd := by
  obtain ⟨empty, closed⟩ := atEnd
  rw [Socket.read, empty, closed] at answered
  cases answered
  exact ⟨rfl, rfl, rfl⟩

/-- A read brings a socket nearer to its idle state. -/
theorem Socket.read_toRead {sock sock' : Socket} {bufsz : Nat} {answer : ReadAnswer}
    (answered : sock.read bufsz = (answer, sock')) (wanting : 0 < bufsz) :
    sock'.toRead < sock.toRead ∨ sock.inbound = [] ∧ answer = sock.idle.answer := by
  have pending := Socket.read_pending answered
  unfold toRead
  rcases Socket.read_cases answered with ⟨empty, idle, -⟩ | ⟨rest, front, -, stays⟩ |
    ⟨piece, rest, front, long, taken, stays⟩
  · exact Or.inr ⟨empty, idle⟩
  · left
    rw [front, stays, List.length_cons]
    omega
  · left
    have taken : answer.bytes.length = bufsz := by
      rw [taken, ReadAnswer.bytes, List.length_take, min_eq_left long.le]
    rw [front, stays, List.length_cons, List.length_cons]
    omega

/-- A socket whose last delivery was not one of its script. -/
theorem Socket.atEnd_of_idle {sock : Socket} {bytes : Bytes} (empty : sock.inbound = [])
    (idle : .data bytes = sock.idle.answer) : sock.AtEnd := by
  refine ⟨empty, ?_⟩
  cases closed : sock.idle with
  | endOfFile => rfl
  | wouldBlock | failure =>
      rw [closed] at idle
      cases idle

/-! ### The loop that does not end -/

def SocketCall.stackTaken : SocketCall → Nat
  | .read bufsz _ => stackBuf bufsz
  | .write _ _ | .shutdown => 0

/-- The stack for all the reads of a socket. -/
def Socket.stackTaken (sock : Socket) : Nat :=
  (sock.calls.map SocketCall.stackTaken).sum

theorem Socket.read_stackTaken {sock sock' : Socket} {bufsz : Nat} {answer : ReadAnswer}
    (answered : sock.read bufsz = (answer, sock')) :
    sock'.stackTaken = sock.stackTaken + stackBuf bufsz := by
  have calls := Socket.read_calls answered
  simp [stackTaken, calls, SocketCall.stackTaken]

/-- `resume_read` is in a loop without an end: the offset has used up the
window, or there is nothing more to be read. -/
structure Endless (ns : NetStruct) (c : ClientBase) : Prop where
  invariant : ReaderInvariant ns c
  accepted : ns.wireSz c.read.memory c.read.field ≠ sizeMax
  cause : ns.window c.read.memory c.read.field ≤ c.read.offset ∨ c.sock.AtEnd

namespace Endless

variable {c : ClientBase}

/-- Every turn asks for the same number of bytes once more. -/
theorem turn (endless : Endless ns c) (buffered : ns.Buffered) :
    ∃ c', resumeReadTurn c = .done .again c' ∧ Endless ns c' ∧
      c'.request ns = c.request ns ∧
      c'.sock.stackTaken = c.sock.stackTaken + stackBuf (c.request ns) := by
  obtain ⟨invariant, accepted, cause⟩ := endless
  have wellFormed := buffered.wellFormed
  have standing := invariant.standing
  have sameSize : ns.wireSz (c.read.grown ns) c.read.field =
      ns.wireSz c.read.memory c.read.field := wellFormed.wireSz_grown standing
  have case := turnCase wellFormed standing
  have kept {c' : ClientBase} (done : resumeReadTurn c = .done .again c') :
      ReaderInvariant ns c' := invariant.step wellFormed (.turn done (by simp))
  have ended (asks : c.Asks ns) : c.sock.AtEnd :=
    cause.resolve_left (Nat.not_le.mpr asks.wanting)
  generalize outcomeEq : resumeReadTurn c = outcome at case
  cases case with
  | tooLarge oversized => exact absurd oversized accepted
  | stuck _ exhausted =>
      have sameWindow : ns.window (c.read.grown ns) c.read.field =
          ns.window c.read.memory c.read.field := by
        rw [NetStruct.window, sameSize, NetStruct.window]
      have nothing : c.request ns = 0 := Nat.sub_eq_zero_of_le exhausted
      refine ⟨_, rfl, ⟨kept outcomeEq, ?_, Or.inl ?_⟩, ?_, ?_⟩
      · change ns.wireSz (c.read.grown ns) c.read.field ≠ sizeMax
        rwa [sameSize]
      · change ns.window (c.read.grown ns) c.read.field ≤ c.read.offset
        rwa [sameWindow]
      · change ns.window (c.read.grown ns) c.read.field - c.read.offset = _
        rw [sameWindow, ClientBase.request]
      · rw [nothing]
        rfl
  | badAlloc _ _ huge =>
      have small := buffered.window_lt standing.field_lt accepted
      unfold ClientBase.request at huge
      omega
  | failure asks sock answered | wouldBlock asks sock answered =>
      cases ((ended asks).read answered).1
  | overrun asks bytes sock answered outside =>
      obtain ⟨nothing, -⟩ := (ended asks).read answered
      cases nothing
      have inside := invariant.inside
      obtain ⟨stored, done⟩ := exists_store_grown standing [] (by
        rw [List.length_nil, Nat.min_zero]
        exact inside)
      rw [done] at outside
      cases outside
  | inside asks bytes sock answered short stored done =>
      obtain ⟨nothing, atEnd⟩ := (ended asks).read answered
      cases nothing
      have front := store_take done (Nat.le_add_right (ns.memOffset c.read.field) c.read.offset)
      have grownLength := ReadState.grown_length standing.capacity
      have reached := standing.reached.trans standing.capacity
      have storedSize : ns.wireSz stored c.read.field = ns.wireSz c.read.memory c.read.field := by
        rw [wellFormed.wireSz_congr front (by rw [store_length done, grownLength]; exact reached)
          (by rw [grownLength]; exact reached), sameSize]
      refine ⟨_, rfl, ⟨kept outcomeEq, ?_, Or.inr atEnd⟩, ?_, Socket.read_stackTaken answered⟩
      · change ns.wireSz stored c.read.field ≠ sizeMax
        rwa [storedSize]
      · change ns.window stored c.read.field - c.read.offset = _
        rw [NetStruct.window, storedSize, ClientBase.request, NetStruct.window]
  | across asks bytes sock answered full =>
      obtain ⟨nothing, -⟩ := (ended asks).read answered
      cases nothing
      have empty : ns.wireSz c.read.memory c.read.field = 0 := Nat.le_zero.mp full
      have wanting := asks.wanting
      have window := ns.window_le c.read.memory c.read.field
      obtain ⟨field, found⟩ := ns.exists_field standing.field_lt
      cases kind : field.type.isVariable with
      | false =>
          have positive := wellFormed.fixed_pos found kind
          rw [NetStruct.wireSz_of_fixed found kind] at empty
          omega
      | true =>
          rw [buffered.last found kind, ns.fixedRun_size] at window
          omega

/-- After any number of turns the call is still in its loop, and every turn
has taken its piece of the stack. -/
theorem resumeRead (endless : Endless ns c) (buffered : ns.Buffered) (turns : Nat) :
    ∃ c', resumeRead turns c = .stopped .fuel c' ∧ Endless ns c' ∧
      c'.sock.stackTaken = c.sock.stackTaken + turns * stackBuf (c.request ns) := by
  induction turns generalizing c with
  | zero => exact ⟨c, rfl, endless, by rw [Nat.zero_mul, Nat.add_zero]⟩
  | succ turns ih =>
      obtain ⟨c₁, again, endless₁, same, taken⟩ := endless.turn buffered
      obtain ⟨c₂, stopped, endless₂, rest⟩ := ih endless₁
      rw [ThemeSrv.resumeRead, again]
      refine ⟨c₂, stopped, endless₂, ?_⟩
      rw [rest, same, taken, Nat.succ_mul, Nat.add_assoc, Nat.add_comm (stackBuf _)]

theorem not_returns (endless : Endless ns c) (buffered : ns.Buffered) : ¬ Returns c := by
  rintro ⟨fuel, complete, last, done⟩
  obtain ⟨c', stopped, -, -⟩ := endless.resumeRead buffered fuel
  cases stopped.symm.trans done

end Endless

/-! ### A turn -/

section Turns

variable {c : ClientBase} {outcome : Outcome ClientBase Turn}

/-- Why a call of the reader stops. -/
inductive ReadStop (ns : NetStruct) (c : ClientBase) : Stop → Prop
  | tooLong (struct : c.read.struct = some ns) (field : NetField) (count : Nat)
      (pressing : Pressing ns c field count) : ReadStop ns c .store
  | endless (endless : Endless ns c) : ReadStop ns c .fuel

theorem ReadStop.struct {stop : Stop} (readStop : ReadStop ns c stop) :
    c.read.struct = some ns := by
  cases readStop with
  | tooLong struct => exact struct
  | endless endless => exact endless.invariant.standing.struct

theorem TurnCase.readStop (case : TurnCase ns c outcome) (buffered : ns.Buffered)
    (invariant : ReaderInvariant ns c) (done : resumeReadTurn c = outcome) {stop : Stop}
    {c' : ClientBase} (stopped : outcome = .stopped stop c') : ReadStop ns c' stop := by
  have standing := invariant.standing
  cases case with
  | badAlloc accepted wanting huge =>
      have small := buffered.window_lt standing.field_lt accepted
      unfold ClientBase.request at huge
      omega
  | overrun =>
      have overruns : Overruns c := ⟨_, Or.inl done⟩
      have outOfRoom : ¬ InRoom ns c :=
        fun inRoom => not_overruns_of_inRoom buffered.wellFormed invariant inRoom overruns
      unfold InRoom at outOfRoom
      push Not at outOfRoom
      obtain ⟨field, count, found, variableSize, announced, oversized⟩ := outOfRoom
      cases stopped
      refine .tooLong standing.struct field count ⟨found, variableSize, ?_, oversized⟩
      rw [← announced]
      refine buffered.wellFormed.announced_congr (ReadState.grown_take standing.reached) ?_
        standing.reached found variableSize
      rw [ClientBase.allocated_memory, ReadState.grown_length standing.capacity]
      exact standing.reached.trans standing.capacity
  | tooLarge | stuck | failure | wouldBlock | inside | across => cases stopped

theorem TurnCase.again_toRead (case : TurnCase ns c outcome) (invariant : ReaderInvariant ns c)
    {c' : ClientBase} (again : outcome = .done .again c') :
    Endless ns c ∨ c'.sock.toRead < c.sock.toRead := by
  have delivered {bytes : Bytes} {sock : Socket} (asks : c.Asks ns)
      (answered : c.sock.read (c.request ns) = (.data bytes, sock)) :
      Endless ns c ∨ sock.toRead < c.sock.toRead := by
    rcases Socket.read_toRead answered (Nat.sub_pos_of_lt asks.wanting) with less | ⟨empty, idle⟩
    · exact Or.inr less
    · exact Or.inl ⟨invariant, asks.accepted, Or.inr (Socket.atEnd_of_idle empty idle)⟩
  cases case with
  | stuck accepted exhausted => exact Or.inl ⟨invariant, accepted, Or.inl exhausted⟩
  | inside asks bytes sock answered =>
      cases again
      exact delivered asks answered
  | across asks bytes sock answered =>
      have same := (Outcome.done.inj again).2
      subst same
      exact delivered asks answered
  | tooLarge | badAlloc | failure | wouldBlock | overrun => cases again

/-- A payload that was asked for and has come is in the buffer. -/
theorem payload_stored (buffered : ns.Buffered) (standing : c.read.Standing ns) (asks : c.Asks ns)
    {bytes first stored : Bytes} {field : NetField} (found : ns.fields[c.read.field]? = some field)
    (variableSize : field.type.isVariable = true)
    (full : ns.wireSz c.read.memory c.read.field ≤ bytes.length)
    (firstDone : store (c.read.grown ns) (ns.memOffset c.read.field + c.read.offset)
      (c.decrypt.output (bytes.take (ns.wireSz c.read.memory c.read.field))) = some first)
    (sameLength : stored.length = first.length)
    (sameFront : stored.take (ns.memOffset c.read.field) = first.take (ns.memOffset c.read.field)) :
    ∃ count, ns.announced stored c.read.field = some count ∧
      ns.memOffset c.read.field + count ≤ stored.length := by
  have length := store_length firstDone
  have room := ns.memTotal_le_allocation
  have offset := ns.memOffset_le_memTotal c.read.field
  rw [ReadState.grown_length standing.capacity] at length
  obtain ⟨count, announced, size⟩ := buffered.exists_count found variableSize asks.accepted
  have front : stored.take (ns.memOffset c.read.field) =
      c.read.memory.take (ns.memOffset c.read.field) := by
    rw [sameFront, store_take firstDone (Nat.le_add_right _ _),
      ReadState.grown_take standing.reached]
  refine ⟨count, ?_, ?_⟩
  · rw [buffered.wellFormed.announced_congr front (by omega) standing.reached found variableSize]
    exact announced
  · by_cases nothing : count = 0
    · omega
    · have plain : c.decrypt.output
          (bytes.take (ns.wireSz c.read.memory c.read.field)) ≠ [] := by
        rw [← List.length_pos_iff, Context.output_length, List.length_take]
        omega
      have ends := store_inside plain firstDone
      rw [Context.output_length, List.length_take, ReadState.grown_length standing.capacity] at ends
      omega

/-- A message that is complete although its payload was not asked for has an
empty one. -/
theorem payload_empty (buffered : ns.Buffered) {rest place index : Nat} {stored : Bytes}
    {decrypt : Context} {field : NetField} (found : ns.fields[index]? = some field)
    (variableSize : field.type.isVariable = true) (inside : rest ≤ index)
    (completes : (resting ns rest place stored decrypt).complete = true) :
    ns.announced stored index = some 0 := by
  have isLast := buffered.last found variableSize
  have notLast : rest ≠ ns.size := by omega
  rw [resting, if_neg notLast] at completes
  split_ifs at completes with passed
  obtain rfl : rest = index := by
    have behind : rest + 1 = ns.size := by simpa using completes
    omega
  obtain ⟨count, announced, size⟩ := buffered.exists_count found variableSize
    (by rw [passed.2]; decide)
  rw [announced, ← size, passed.2]

/-- A message is complete with every announced byte in its buffer. -/
theorem TurnCase.filled (case : TurnCase ns c outcome) (buffered : ns.Buffered)
    (standing : c.read.Standing ns) {c' : ClientBase}
    (complete : outcome = .done (.returned true) c') :
    ns.Filled c'.read.memory ∧ c'.sock.toRead < c.sock.toRead := by
  cases case with
  | across asks bytes sock answered full first stored rest place firstDone done restingAt further
      position between =>
      obtain ⟨turn, same⟩ := Outcome.done.inj complete
      subst same
      have completes : (resting ns rest place stored (c.decrypt.feed bytes)).complete = true := by
        by_contra incomplete
        rw [if_neg incomplete] at turn
        cases turn
      have sameLength := store_length done
      have length : stored.length = ns.allocation := by
        rw [sameLength, store_length firstDone, ReadState.grown_length standing.capacity]
      have room := ns.memTotal_le_allocation
      rw [ClientBase.placed_memory, resting_block]
      constructor
      · apply buffered.filled (by omega)
        intro index field found variableSize
        rcases Nat.lt_or_ge c.read.field index with before | reached
        · have inside : rest ≤ index := by
            by_contra beyond
            have fixedSize := between index field before (Nat.lt_of_not_le beyond) found
            rw [variableSize] at fixedSize
            cases fixedSize
          have offset := ns.memOffset_le_memTotal index
          exact ⟨0, payload_empty buffered found variableSize inside completes, by omega⟩
        · obtain rfl : c.read.field = index := by
            have isLast := buffered.last found variableSize
            have fieldInside := standing.field_lt
            omega
          have further' : ns.memOffset c.read.field ≤ ns.memOffset (c.read.field + 1) :=
            ns.memOffset_mono (Nat.le_succ _)
          exact payload_stored buffered standing asks found variableSize full firstDone sameLength
            (store_take done (by omega))
      · rcases Socket.read_toRead answered (Nat.sub_pos_of_lt asks.wanting) with
          less | ⟨empty, idle⟩
        · exact less
        · obtain ⟨nothing, -⟩ := (Socket.atEnd_of_idle empty idle).read answered
          cases nothing
          exact absurd completes (across_nothing_incomplete buffered.wellFormed stored _ asks
            (Nat.le_zero.mp full) restingAt further (by simpa using position) between)
  | tooLarge | stuck | badAlloc | failure | wouldBlock | overrun | inside => cases complete

end Turns

/-! ### A call -/

section Calls

variable {kept : ClientBase → Prop}

/-- How a `resume_read` call ends.  It stops only for a reason, if it has
turns for everything its socket can deliver. -/
def Resumed (ns : NetStruct) (kept : ClientBase → Prop) (fuel : Nat) (c : ClientBase) :
    Outcome ClientBase Bool → Prop
  | .stopped stop c' => c.sock.toRead < fuel → ReadStop ns c' stop
  | .done false c' => ReaderInvariant ns c' ∧ kept c'
  | .done true c' =>
      Completed ns c'.read ∧ ns.Filled c'.read.memory ∧ c'.sock.toRead < c.sock.toRead ∧ kept c'

/-- A call that has more to read needs one turn more. -/
theorem Resumed.prepend {fuel : Nat} {c c' : ClientBase} {outcome : Outcome ClientBase Bool}
    (rest : Resumed ns kept fuel c' outcome) (less : c'.sock.toRead < c.sock.toRead) :
    Resumed ns kept (fuel + 1) c outcome := by
  cases outcome with
  | stopped stop last => exact fun enough => rest (by omega)
  | done complete last =>
      cases complete with
      | false => exact rest
      | true =>
          obtain ⟨completed, filled, less', holds⟩ := rest
          exact ⟨completed, filled, less'.trans less, holds⟩

/-- What every turn keeps is kept by the call. -/
theorem resumed (buffered : ns.Buffered)
    (turns : ∀ c c' turn, ReaderInvariant ns c → kept c → resumeReadTurn c = .done turn c' → kept c')
    (fuel : Nat) {c : ClientBase} (invariant : ReaderInvariant ns c) (holds : kept c) :
    Resumed ns kept fuel c (resumeRead fuel c) := by
  induction fuel generalizing c with
  | zero => exact fun impossible => absurd impossible (Nat.not_lt_zero _)
  | succ fuel ih =>
      have case := turnCase buffered.wellFormed invariant.standing
      rw [resumeRead]
      cases turn : resumeReadTurn c with
      | stopped stop c' => exact fun _ => case.readStop buffered invariant rfl turn
      | done result c' =>
          have next := turns c c' result invariant holds turn
          have inside (unfinished : result ≠ .returned true) : ReaderInvariant ns c' :=
            invariant.step buffered.wellFormed (.turn turn unfinished)
          cases result with
          | returned complete =>
              cases complete with
              | false => exact ⟨inside (by simp), next⟩
              | true =>
                  obtain ⟨filled, less⟩ := case.filled buffered invariant.standing turn
                  have completed : Completed ns c'.read := by
                    rw [turn] at case
                    exact completed_of_turn invariant.standing case
                  exact ⟨completed, filled, less, next⟩
          | again =>
              rcases case.again_toRead invariant turn with endless | less
              · obtain ⟨c₁, again, endless₁, -, -⟩ := endless.turn buffered
                cases turn.symm.trans again
                obtain ⟨c₂, stopped, endless₂, -⟩ := endless₁.resumeRead buffered fuel
                simp only [stopped]
                exact fun _ => .endless endless₂
              · exact (ih (inside (by simp)) next).prepend less

/-- How a `handle_read` call ends. -/
def HandledRead (ns : NetStruct) (kept : ClientBase → Prop) (fuel : Nat) (c : ClientBase) :
    Outcome ClientBase (Option Bytes) → Prop
  | .stopped stop c' => c.sock.toRead < fuel → ReadStop ns c' stop
  | .done none c' => ReaderInvariant ns c' ∧ ReadFrame ns c c' ∧ kept c'
  | .done (some buf) released => ∃ c', released = c'.released ∧ buf = c'.read.memory ∧
      Completed ns c'.read ∧ ns.Filled buf ∧ c'.sock.toRead < c.sock.toRead ∧
      ReadFrame ns c c' ∧ kept c'

theorem handledRead (buffered : ns.Buffered)
    (turns : ∀ c c' turn, ReaderInvariant ns c → kept c → resumeReadTurn c = .done turn c' → kept c')
    (fuel : Nat) {c : ClientBase} (invariant : ReaderInvariant ns c) (holds : kept c) :
    HandledRead ns kept fuel c (handleRead fuel c) := by
  have framed : Resumed ns (fun c' => ReadFrame ns c c' ∧ kept c') fuel c (resumeRead fuel c) := by
    apply resumed buffered ?_ fuel invariant ⟨.refl ns c, holds⟩
    intro first second turn inside ⟨frame, before⟩ done
    have case := turnCase buffered.wellFormed inside.standing
    have next := case.frame inside.standing
    rw [done] at next
    exact ⟨frame.trans next, turns first second turn inside before done⟩
  rw [handleRead]
  cases outcome : resumeRead fuel c with
  | stopped stop c' =>
      rw [outcome] at framed
      exact framed
  | done complete c' =>
      rw [outcome] at framed
      cases complete with
      | false => exact framed
      | true =>
          obtain ⟨completed, filled, less, frame, last⟩ := framed
          simp only [completed.buf]
          exact ⟨c', rfl, rfl, completed, filled, less, frame, last⟩

end Calls

end ThemeSrv
