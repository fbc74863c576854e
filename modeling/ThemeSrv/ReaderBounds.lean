import ThemeSrv.ReaderRun
import ThemeSrv.TransitionSystem

/-!
# The bounds of the receive buffer

`alloc_buf` allocates the memory size of the descriptor and a slack of up to
32 bytes; a buffer field, which has no memory size, and a string longer than
its capacity are written into the slack and past it.  A run in which every
announced field ends within the allocation never writes outside, and from any
other state of the reader some delivery makes it do so.
-/

namespace ThemeSrv

open AllocatedBlock ByteString KeystreamCipher TransitionSystem

variable {ns : NetStruct}

/-! ### Runs of the reader on one message -/

/-- The reader is put on a message: at its first field, or behind the fields
of a buffer that is handed back. -/
structure ReaderStart (ns : NetStruct) (c : ClientBase) : Prop where
  standing : c.read.Standing ns
  offset : c.read.offset = 0

/-- One turn that does not complete the message, or any change on the other
side of the socket. -/
inductive ReaderStep : ClientBase → ClientBase → Prop
  | turn {c c' : ClientBase} {turn : Turn} (done : resumeReadTurn c = .done turn c')
      (unfinished : turn ≠ .returned true) : ReaderStep c c'
  | socket (c : ClientBase) (sock : Socket) : ReaderStep c { c with sock := sock }

/-- The next turn stores received bytes, or copies the old buffer, outside of
an allocation. -/
def Overruns (c : ClientBase) : Prop :=
  ∃ c', resumeReadTurn c = .stopped .store c' ∨ resumeReadTurn c = .stopped .copy c'

/-- If the reader stands at a variable field, the elements announced for it
and the fixed fields behind it end within the allocation. -/
def InRoom (ns : NetStruct) (c : ClientBase) : Prop :=
  ∀ (field : NetField) (count : Nat), ns.fields[c.read.field]? = some field →
    field.type.isVariable = true → ns.announced c.read.memory c.read.field = some count →
    ns.memOffset c.read.field + field.elementsz * count + ns.fixedRun (c.read.field + 1) ≤
      (ns.memTotal / 8 + 4) * 8

/-! ### The offset stays below the window -/

/-- What holds of the reader in every state of a run. -/
structure ReaderInvariant (ns : NetStruct) (c : ClientBase) : Prop where
  standing : c.read.Standing ns
  offset_le : c.read.offset ≤ ns.window c.read.memory c.read.field
  inside : ns.memOffset c.read.field + c.read.offset ≤ ns.allocation
  huge : maxObject ≤ ns.window c.read.memory c.read.field → c.read.offset = 0

theorem ReaderStart.invariant {c : ClientBase} (starts : ReaderStart ns c) :
    ReaderInvariant ns c where
  standing := starts.standing
  offset_le := by
    rw [starts.offset]
    exact Nat.zero_le _
  inside := by
    rw [starts.offset]
    exact starts.standing.reached.trans starts.standing.capacity
  huge := fun _ => starts.offset

namespace NetStruct.WellFormed

theorem window_congr (wellFormed : ns.WellFormed) {index : Nat} {first second : Bytes}
    (same : first.take (ns.memOffset index) = second.take (ns.memOffset index))
    (insideFirst : ns.memOffset index ≤ first.length)
    (insideSecond : ns.memOffset index ≤ second.length) :
    ns.window first index = ns.window second index := by
  rw [window, window, wellFormed.wireSz_congr same insideFirst insideSecond]

theorem window_of_fixed (wellFormed : ns.WellFormed) {index : Nat} {field : NetField}
    (block : Bytes) (found : ns.fields[index]? = some field)
    (fixedSize : field.type.isVariable = false) :
    ns.window block index = field.memSize + ns.fixedRun (index + 1) ∧
      ns.memOffset index + ns.window block index ≤ ns.memTotal := by
  have run := ns.fixedRun_of_fixed found fixedSize
  have within := ns.memOffset_add_fixedRun_le index
  have bound := wellFormed.memTotal_lt
  have exact : ns.window block index = field.memSize + ns.fixedRun (index + 1) := by
    rw [window, NetStruct.wireSz_of_fixed found fixedSize]
    exact Nat.mod_eq_of_lt (by unfold sizeMod; omega)
  exact ⟨exact, by omega⟩

end NetStruct.WellFormed

theorem RestingPlace.place_le (wellFormed : ns.WellFormed) {rest place : Nat}
    (restingAt : RestingPlace ns rest place) (block : Bytes) (inside : rest < ns.size) :
    place ≤ ns.window block rest ∧ ns.memOffset rest + place ≤ ns.memTotal ∧
      (maxObject ≤ ns.window block rest → place = 0) := by
  have offset := ns.memOffset_le_memTotal rest
  obtain ⟨last, -⟩ | ⟨field, found, placed⟩ := restingAt
  · omega
  · cases kind : field.type.isVariable with
    | true =>
        rw [kind, if_pos rfl] at placed
        subst placed
        exact ⟨Nat.zero_le _, by omega, fun _ => rfl⟩
    | false =>
        rw [kind] at placed
        simp only [Bool.false_eq_true, if_false] at placed
        obtain ⟨window, within⟩ := wellFormed.window_of_fixed block found kind
        have bound := wellFormed.memTotal_lt
        unfold maxObject
        exact ⟨by omega, by omega, fun huge => by omega⟩

theorem ReaderInvariant.placed (wellFormed : ns.WellFormed) {c : ClientBase}
    (invariant : ReaderInvariant ns c) {rest place : Nat} {stored : Bytes} {decrypt : Context}
    (sock : Socket) (restingAt : RestingPlace ns rest place)
    (sameLength : stored.length = (c.read.grown ns).length)
    (incomplete : ¬ (resting ns rest place stored decrypt).complete = true) :
    ReaderInvariant ns (c.placed ns sock (resting ns rest place stored decrypt)) := by
  have room := ns.memTotal_le_allocation
  have inner : (resting ns rest place stored decrypt).field < ns.size := by
    rw [resting_complete] at incomplete
    exact Nat.lt_of_le_of_ne (resting_field_le restingAt.le_size) incomplete
  have standing : (c.placed ns sock (resting ns rest place stored decrypt)).read.Standing ns :=
    invariant.standing.placed inner (by rw [resting_block, sameLength])
  by_cases passed : place = 0 ∧ ns.wireSz stored rest = 0
  · have atStart : (resting ns rest place stored decrypt).offset = 0 := by
      unfold resting
      split_ifs with last
      · exact passed.1
      · rfl
    refine ⟨standing, ?_, ?_, fun _ => atStart⟩
    · exact atStart.le.trans (Nat.zero_le _)
    · have below := ns.memOffset_le_memTotal (resting ns rest place stored decrypt).field
      change ns.memOffset (resting ns rest place stored decrypt).field +
        (resting ns rest place stored decrypt).offset ≤ _
      omega
  · have last : rest ≠ ns.size := by
      rintro rfl
      simp [resting] at incomplete
    have stays : resting ns rest place stored decrypt = ⟨false, rest, place, stored, decrypt⟩ := by
      rw [resting, if_neg last, if_neg passed]
    rw [stays] at standing ⊢
    obtain ⟨le, within, huge⟩ := restingAt.place_le wellFormed stored
      (Nat.lt_of_le_of_ne restingAt.le_size last)
    exact ⟨standing, le, by change ns.memOffset rest + place ≤ _; omega, huge⟩

theorem ReaderInvariant.allocated (wellFormed : ns.WellFormed) {c : ClientBase}
    (invariant : ReaderInvariant ns c) (sock : Socket) :
    ReaderInvariant ns { c.allocated ns with sock := sock } := by
  have standing := invariant.standing
  have grownLength := ReadState.grown_length standing.capacity
  have same : ns.window (c.read.grown ns) c.read.field = ns.window c.read.memory c.read.field :=
    wellFormed.window_congr (ReadState.grown_take standing.reached)
      (by rw [grownLength]; exact standing.reached.trans standing.capacity) standing.reached
  refine ⟨standing.allocated, ?_, invariant.inside, ?_⟩
  · change c.read.offset ≤ ns.window (c.read.grown ns) c.read.field
    rw [same]
    exact invariant.offset_le
  · change maxObject ≤ ns.window (c.read.grown ns) c.read.field → _
    rw [same]
    exact invariant.huge

theorem ReaderInvariant.step (wellFormed : ns.WellFormed) {c c' : ClientBase}
    (invariant : ReaderInvariant ns c) (step : ReaderStep c c') : ReaderInvariant ns c' := by
  have standing := invariant.standing
  cases step with
  | socket => exact ⟨standing, invariant.offset_le, invariant.inside, invariant.huge⟩
  | @turn _ turn returned unfinished =>
      have case := turnCase wellFormed standing
      rw [returned] at case
      generalize outcomeEq : Outcome.done turn c' = outcome at case
      cases case with
      | tooLarge =>
          cases outcomeEq
          exact ⟨standing, invariant.offset_le, invariant.inside, invariant.huge⟩
      | stuck =>
          cases outcomeEq
          exact invariant.allocated wellFormed c.sock
      | failure asks sock answered | wouldBlock asks sock answered =>
          cases outcomeEq
          exact invariant.allocated wellFormed _
      | badAlloc | overrun => cases outcomeEq
      | inside asks bytes sock answered short stored done =>
          cases outcomeEq
          have grownLength := ReadState.grown_length standing.capacity
          have bound := Socket.read_data_length answered
          have allocatable := asks.allocatable
          have le := invariant.offset_le
          have same : ns.window stored c.read.field = ns.window c.read.memory c.read.field := by
            refine wellFormed.window_congr ?_ ?_ standing.reached
            · rw [store_take done (Nat.le_add_right _ _), ReadState.grown_take standing.reached]
            · rw [store_length done, grownLength]
              exact standing.reached.trans standing.capacity
          unfold ClientBase.request at bound allocatable
          refine ⟨standing.placed standing.field_lt (store_length done), ?_, ?_, ?_⟩
          · change c.read.offset + bytes.length ≤ ns.window stored c.read.field
            rw [same]
            omega
          · change ns.memOffset c.read.field + (c.read.offset + bytes.length) ≤ _
            by_cases nothing : c.decrypt.output bytes = []
            · have empty := congrArg List.length nothing
              rw [Context.output_length, List.length_nil] at empty
              rw [empty]
              exact invariant.inside
            · have ends := store_inside nothing done
              rw [Context.output_length, grownLength] at ends
              omega
          · change maxObject ≤ ns.window stored c.read.field → c.read.offset + bytes.length = 0
            rw [same]
            intro huge
            have none := invariant.huge huge
            omega
      | across asks bytes sock answered full first stored rest place firstDone done restingAt =>
          cases outcomeEq
          refine invariant.placed wellFormed sock restingAt ?_ fun complete => ?_
          · rw [store_length done, store_length firstDone]
          · exact unfinished (if_pos complete)

theorem readerInvariant_of_reachable (wellFormed : ns.WellFormed) {c : ClientBase}
    (reached : Reachable (ReaderStart ns) ReaderStep c) : ReaderInvariant ns c :=
  reached.invariant (fun _ starts => starts.invariant)
    (fun _ _ invariant step => invariant.step wellFormed step)

/-! ### In room nothing is written outside -/

/-- A rejected count makes the wire size `-elementsz`. -/
theorem sizeT_mul_sizeMax {elementsz : Nat} (small : elementsz < 2 ^ 63) :
    sizeT (elementsz * sizeMax) = if elementsz = 0 then 0 else sizeMod - elementsz := by
  unfold sizeT sizeMax sizeMod
  split_ifs with none <;> omega

/-- With the wire size of a rejected count, a window ends inside the message, or
no object is that large. -/
theorem NetStruct.rejected_window_le {block : Bytes} {index : Nat} {field : NetField}
    (limit : ns.memTotal + field.elementsz * kMaxBufCount + 64 ≤ 2 ^ 63)
    (size : ns.wireSz block index = sizeT (field.elementsz * sizeMax))
    (run : ns.memOffset (index + 1) + ns.fixedRun (index + 1) ≤ ns.memTotal)
    (offset : ns.memOffset index ≤ ns.memOffset (index + 1)) :
    ns.memOffset index + ns.window block index ≤ ns.memTotal ∨
      maxObject ≤ ns.window block index := by
  have small : field.elementsz < 2 ^ 63 := by
    unfold kMaxBufCount at limit
    omega
  rw [sizeT_mul_sizeMax small] at size
  rw [window, size]
  unfold sizeT sizeMod maxObject
  unfold kMaxBufCount at limit
  split_ifs with none <;> omega

/-- Bytes that end within the allocation can be stored where the reader stands. -/
theorem exists_store_grown {c : ClientBase} (standing : c.read.Standing ns) (bytes : Bytes)
    (ends : ns.memOffset c.read.field + c.read.offset +
      min (ns.wireSz c.read.memory c.read.field) bytes.length ≤ ns.allocation) :
    ∃ stored, store (c.read.grown ns) (ns.memOffset c.read.field + c.read.offset)
      (c.decrypt.output (bytes.take (ns.wireSz c.read.memory c.read.field))) = some stored := by
  apply exists_store
  rw [Context.output_length, List.length_take, ReadState.grown_length standing.capacity]
  exact ends

/-- The window of a field that is in room ends within the allocation, unless a
rejected count has made it larger than any object. -/
theorem InRoom.window_le (wellFormed : ns.WellFormed) {c : ClientBase}
    (inRoom : InRoom ns c) (standing : c.read.Standing ns) :
    ns.memOffset c.read.field + ns.window c.read.memory c.read.field ≤ ns.allocation ∨
      maxObject ≤ ns.window c.read.memory c.read.field := by
  have room := ns.memTotal_le_allocation
  have total := wellFormed.memTotal_lt
  obtain ⟨field, found⟩ := ns.exists_field standing.field_lt
  cases kind : field.type.isVariable with
  | false =>
      have within := (wellFormed.window_of_fixed c.read.memory found kind).2
      exact Or.inl (by omega)
  | true =>
      have bound := wellFormed.limit_lt found
      have size : ns.wireSz c.read.memory c.read.field =
          sizeT (field.elementsz * countOrMax (ns.announced c.read.memory c.read.field)) :=
        NetStruct.wireSz_of_variable found kind
      have offset := ns.memOffset_add_fixedRun_le (c.read.field + 1)
      have nextOffset := NetStruct.memOffset_succ found
      cases announced : ns.announced c.read.memory c.read.field with
      | some count =>
          have within := inRoom field count found kind announced
          have exact : ns.wireSz c.read.memory c.read.field ≤ field.elementsz * count := by
            rw [size, announced]
            exact Nat.mod_le _ _
          have window := ns.window_le c.read.memory c.read.field
          change _ ≤ ns.allocation at within
          exact Or.inl (by omega)
      | none =>
          rw [announced, countOrMax] at size
          rcases NetStruct.rejected_window_le bound size offset (by omega) with within | huge
          · exact Or.inl (by omega)
          · exact Or.inr huge

theorem not_overruns_of_inRoom (wellFormed : ns.WellFormed) {c : ClientBase}
    (invariant : ReaderInvariant ns c) (inRoom : InRoom ns c) : ¬ Overruns c := by
  rintro ⟨c', stops⟩
  have standing := invariant.standing
  generalize outcomeEq : resumeReadTurn c = outcome at stops
  have case := turnCase wellFormed standing
  rw [outcomeEq] at case
  cases case with
  | overrun asks bytes sock answered outside =>
      have bound := Socket.read_data_length answered
      have allocatable := asks.allocatable
      have wanting := asks.wanting
      unfold ClientBase.request at bound allocatable
      have ends : ns.memOffset c.read.field + c.read.offset + bytes.length ≤ ns.allocation := by
        rcases inRoom.window_le wellFormed standing with within | huge
        · omega
        · have none := invariant.huge huge
          omega
      obtain ⟨stored, done⟩ := exists_store_grown standing bytes (by omega)
      rw [done] at outside
      cases outside
  | tooLarge | stuck | badAlloc | failure | wouldBlock | inside | across =>
      rcases stops with stops | stops <;> cases stops

/-! ### Out of room some delivery is written outside -/

/-- The reader stands at a field whose announced elements, with the fixed
fields behind it, do not end within the allocation. -/
structure Pressing (ns : NetStruct) (c : ClientBase) (field : NetField) (count : Nat) : Prop where
  found : ns.fields[c.read.field]? = some field
  variableSize : field.type.isVariable = true
  announced : ns.announced c.read.memory c.read.field = some count
  oversized : ns.allocation <
    ns.memOffset c.read.field + field.elementsz * count + ns.fixedRun (c.read.field + 1)

theorem announced_le {block : Bytes} {index count : Nat}
    (announced : ns.announced block index = some count) : count ≤ kMaxBufCount := by
  unfold NetStruct.announced at announced
  split at announced
  · obtain ⟨bytes, -, valid⟩ := Option.bind_eq_some_iff.mp announced
    exact (announcedCount_le valid).1
  · cases announced

theorem Pressing.sizes (wellFormed : ns.WellFormed) {c : ClientBase} {field : NetField}
    {count : Nat} (pressing : Pressing ns c field count) :
    ns.wireSz c.read.memory c.read.field = field.elementsz * count ∧
      ns.window c.read.memory c.read.field =
        field.elementsz * count + ns.fixedRun (c.read.field + 1) ∧
      field.elementsz * count + ns.fixedRun (c.read.field + 1) < maxObject ∧
      25 < field.elementsz * count := by
  have found := pressing.found
  have oversized := pressing.oversized
  have bound := wellFormed.limit_lt found
  have limit : field.elementsz * count ≤ field.elementsz * kMaxBufCount :=
    Nat.mul_le_mul_left _ (announced_le pressing.announced)
  have room := ns.memTotal_le_allocation
  have offset := NetStruct.memOffset_succ found
  have run := ns.memOffset_add_fixedRun_le (c.read.field + 1)
  have size : ns.wireSz c.read.memory c.read.field = field.elementsz * count := by
    rw [NetStruct.wireSz_of_variable found pressing.variableSize, pressing.announced, countOrMax]
    exact Nat.mod_eq_of_lt (by unfold sizeMod; omega)
  refine ⟨size, ?_, by unfold maxObject; omega, by omega⟩
  rw [NetStruct.window, size]
  exact Nat.mod_eq_of_lt (by unfold sizeMod; omega)

/-- A socket that delivers one zero byte. -/
def oneByte : Socket :=
  ⟨[.data [0]], .wouldBlock, [], []⟩

theorem oneByte_read {bufsz : Nat} (wanting : 0 < bufsz) :
    ∃ sock, oneByte.read bufsz = (.data [0], sock) :=
  ⟨_, if_pos wanting⟩

/-- One byte for a field that is out of room is the first one outside, or goes
to the next cell. -/
theorem Pressing.next (wellFormed : ns.WellFormed) {c : ClientBase} {field : NetField}
    {count : Nat} (pressing : Pressing ns c field count) (invariant : ReaderInvariant ns c) :
    Overruns { c with sock := oneByte } ∨
      ∃ c', ReaderStep { c with sock := oneByte } c' ∧ Pressing ns c' field count ∧
        c'.read.field = c.read.field ∧ c'.read.offset = c.read.offset + 1 := by
  obtain ⟨size, window, object, large⟩ := pressing.sizes wellFormed
  have oversized := pressing.oversized
  have standing := invariant.standing
  have inside := invariant.inside
  have asks : ({ c with sock := oneByte } : ClientBase).Asks ns := by
    refine ⟨?_, ?_, ?_⟩
    · rw [size]
      unfold maxObject at object
      unfold sizeMax sizeMod
      omega
    · change c.read.offset < ns.window c.read.memory c.read.field
      omega
    · change c.request ns < _
      unfold ClientBase.request
      omega
  obtain ⟨sock, answer⟩ := oneByte_read (Nat.sub_pos_of_lt asks.wanting)
  have case : TurnCase ns { c with sock := oneByte } _ := turnCase wellFormed standing
  generalize outcomeEq : resumeReadTurn { c with sock := oneByte } = outcome at case
  cases case with
  | tooLarge tooLarge => exact absurd tooLarge asks.accepted
  | stuck accepted exhausted => exact absurd asks.wanting (Nat.not_lt.mpr exhausted)
  | badAlloc accepted wanting huge => exact absurd asks.allocatable (Nat.not_lt.mpr huge)
  | failure _ other answered | wouldBlock _ other answered => cases answer.symm.trans answered
  | overrun => exact Or.inl ⟨_, Or.inl outcomeEq⟩
  | inside _ bytes other answered short stored done =>
      cases answer.symm.trans answered
      refine Or.inr ⟨_, .turn outcomeEq (by simp), ?_, rfl, rfl⟩
      refine ⟨pressing.found, pressing.variableSize, ?_, oversized⟩
      rw [← pressing.announced]
      refine wellFormed.announced_congr ?_ ?_ standing.reached pressing.found
        pressing.variableSize
      · exact (store_take done (Nat.le_add_right _ _)).trans
          (ReadState.grown_take standing.reached)
      · rw [ClientBase.placed_memory, store_length done, ReadState.grown_length standing.capacity]
        exact standing.reached.trans standing.capacity
  | across _ bytes other answered full =>
      cases answer.symm.trans answered
      change ns.wireSz c.read.memory c.read.field ≤ 1 at full
      omega

/-- From a field that is out of room, byte after byte runs into the end of
the allocation. -/
theorem Pressing.exists_overrun (wellFormed : ns.WellFormed) (left : Nat) {c : ClientBase}
    {field : NetField} {count : Nat} (pressing : Pressing ns c field count)
    (invariant : ReaderInvariant ns c)
    (room : ns.memOffset c.read.field + c.read.offset + left = ns.allocation) :
    ∃ c', Relation.ReflTransGen ReaderStep c c' ∧ Overruns c' := by
  induction left generalizing c with
  | zero =>
      rcases pressing.next wellFormed invariant with overruns | ⟨c', step, -, sameField, offset⟩
      · exact ⟨_, .single (.socket c oneByte), overruns⟩
      · -- the byte would lie behind the last cell
        have kept := ((invariant.step wellFormed (.socket c oneByte)).step wellFormed step).inside
        rw [sameField, offset] at kept
        omega
  | succ left ih =>
      rcases pressing.next wellFormed invariant with
        overruns | ⟨c₁, step, pressing', sameField, offset⟩
      · exact ⟨_, .single (.socket c oneByte), overruns⟩
      · have kept := (invariant.step wellFormed (.socket c oneByte)).step wellFormed step
        obtain ⟨c', steps, overruns⟩ := ih pressing' kept (by rw [sameField, offset]; omega)
        exact ⟨c', .head (.socket c oneByte) (.head step steps), overruns⟩

theorem exists_overrun_of_not_inRoom (wellFormed : ns.WellFormed) {c : ClientBase}
    (invariant : ReaderInvariant ns c) (outOfRoom : ¬ InRoom ns c) :
    ∃ c', Relation.ReflTransGen ReaderStep c c' ∧ Overruns c' := by
  unfold InRoom at outOfRoom
  push Not at outOfRoom
  obtain ⟨field, count, found, variableSize, announced, oversized⟩ := outOfRoom
  have inside := invariant.inside
  exact Pressing.exists_overrun wellFormed (ns.allocation - (ns.memOffset c.read.field +
    c.read.offset)) ⟨found, variableSize, announced, oversized⟩ invariant (by omega)

/-- In a run whose states are all in room the reader writes and copies inside
of its allocations; from a state that is not in room the peer can make it
write outside. -/
theorem reader_bounds (wellFormed : ns.WellFormed) :
    (∀ c, Reachable (ReaderStart ns) (Guarded (InRoom ns) ReaderStep) c → InRoom ns c →
      ¬ Overruns c) ∧
    (∀ c, Reachable (ReaderStart ns) ReaderStep c → ¬ InRoom ns c →
      ∃ c', Relation.ReflTransGen ReaderStep c c' ∧ Overruns c') :=
  ⟨fun _ reached inRoom =>
      not_overruns_of_inRoom wellFormed (readerInvariant_of_reachable wellFormed reached.of_guarded)
        inRoom,
    fun _ reached outOfRoom =>
      exists_overrun_of_not_inRoom wellFormed (readerInvariant_of_reachable wellFormed reached)
        outOfRoom⟩

/-! ### Ping payloads -/

/-- A ping request up to its payload, with the number of payload bytes. -/
def pingFront (count : UInt8) : Bytes :=
  [0, 0, 1, 0, 0, 0, 2, 0, 0, 0, count, 0, 0, 0]

/-- A connection that asks for a ping request and is sent one. -/
def pingReader (count : UInt8) (payload : Bytes) : ClientBase :=
  freshReader pingRequest [.data (pingFront count), .data payload]

/-- The same connection when the payload is next. -/
def payloadReader (count : UInt8) (payload : Bytes) : ClientBase :=
  { pingReader count payload with
    sock := ⟨[.data payload], .wouldBlock, [], [.read 14 (.data (pingFront count))]⟩
    read := ⟨some pingRequest, 4, 0, 40, some (pingFront count ++ List.replicate 26 0)⟩
    decrypt := (Context.keyed fun _ => 0).feed (pingFront count) }

theorem freshReader_start {ns : NetStruct} (nonempty : 0 < ns.size) (inbound : List ReadAnswer) :
    ReaderStart ns (freshReader ns inbound) :=
  ⟨freshReader_standing nonempty inbound, rfl⟩

theorem pingReader_start (count : UInt8) (payload : Bytes) :
    ReaderStart pingRequest (pingReader count payload) :=
  freshReader_start (by decide) _

/-- A payload of 26 bytes still fits. -/
theorem reader_bounds_short_ping : ¬ Overruns (payloadReader 26 (List.replicate 26 7)) := by
  have wellFormed : pingRequest.WellFormed := by decide
  have turn : resumeReadTurn (pingReader 26 (List.replicate 26 7)) =
      .done .again (payloadReader 26 (List.replicate 26 7)) := rfl
  refine (reader_bounds wellFormed).1 _
    ((reachable_start (pingReader_start _ _)).tail ⟨?_, .turn turn (by decide)⟩) ?_
  · intro field count found variableSize
    obtain rfl : (⟨.integer, "type", 2, 1⟩ : NetField) = field := Option.some.inj found
    cases variableSize
  · intro field count found _ announced
    obtain rfl : (⟨.buffer, "payload", 1, 0⟩ : NetField) = field := Option.some.inj found
    have known : pingRequest.announced (payloadReader 26 (List.replicate 26 7)).read.memory 4 =
        some 26 := by decide
    obtain rfl : 26 = count := Option.some.inj (known.symm.trans announced)
    decide

/-- A payload of 27 bytes is written past the end of the message buffer. -/
theorem ping_payload_overruns :
    ¬ ∀ (ns : NetStruct) (_ : ns.WellFormed) (c : ClientBase)
      (_ : Reachable (ReaderStart ns) ReaderStep c), ¬ Overruns c := by
  intro claimed
  have wellFormed : pingRequest.WellFormed := by decide
  have turn : resumeReadTurn (pingReader 27 (List.replicate 27 7)) =
      .done .again (payloadReader 27 (List.replicate 27 7)) := rfl
  exact claimed pingRequest wellFormed _
    ((reachable_start (pingReader_start _ _)).tail (.turn turn (by decide))) ⟨_, Or.inl rfl⟩

end ThemeSrv
