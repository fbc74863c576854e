import ThemeSrv.ReaderBounds
import ThemeSrv.ReaderCalls

/-!
# The limit on element counts

A length prefix that announces more than `kMaxBufCount` elements, or that does
not even count itself, is reported by an all-ones size.  The report gets lost
on the way: it is multiplied by the element size before it is looked for.
-/

namespace ThemeSrv

open AllocatedBlock ByteString KeystreamCipher TransitionSystem

variable {ns : NetStruct}

/-- A turn has received the last byte of the length prefix in front of a
field. -/
structure PrefixReceived (before c : ClientBase) (turn : Turn) (index : Nat) : Prop where
  done : resumeReadTurn before = .done turn c
  behind : before.read.field < index
  reached : index ≤ c.read.field

/-- The rest of the call does nothing but shut the socket down. -/
def ShutsDown (c : ClientBase) : Prop :=
  ∀ fuel, ∃ c', resumeRead (fuel + 1) c = .done false c' ∧
    c'.sock.calls = c.sock.calls ++ [.shutdown]

/-- The rest of the call starts by asking the socket for `count` bytes. -/
def AsksFor (c : ClientBase) (count : Nat) : Prop :=
  ∀ fuel, ∃ answer more,
    (resumeRead (fuel + 1) c).state.sock.calls = c.sock.calls ++ .read count answer :: more

/-- Behind the length prefix of a field an invalid or excessive count shuts
the socket down, and a valid one has exactly its elements read, with the fixed
fields that follow them. -/
def LimitEnforced (ns : NetStruct) (index : Nat) (field : NetField) (turn : Turn)
    (c : ClientBase) : Prop :=
  match ns.announced c.read.memory index with
  | none => turn = .again ∧ ShutsDown c
  | some count =>
      if field.elementsz * count = 0 then
        index < c.read.field
      else
        turn = .again ∧ c.read.field = index ∧
          AsksFor c (field.elementsz * count + ns.fixedRun (index + 1))

/-! ### What follows the prefix -/

/-- A reader in the middle of a message shuts the socket down at once exactly
if the size of its field is the reserved one. -/
theorem shutsDown_iff (wellFormed : ns.WellFormed) {c : ClientBase} (standing : c.read.Standing ns) :
    ShutsDown c ↔ ns.wireSz c.read.memory c.read.field = sizeMax := by
  have case := turnCase wellFormed standing
  constructor
  · intro shutsDown
    obtain ⟨c', returned, calls⟩ := shutsDown 0
    rw [resumeRead] at returned
    generalize resumeReadTurn c = outcome at case returned
    have asked {asked : Nat} {answer : ReadAnswer} {sock : Socket}
        (answered : c.sock.read asked = (answer, sock)) {more : List SocketCall}
        (same : sock.calls ++ more = c.sock.calls ++ [.shutdown]) : False := by
      rw [Socket.read_calls answered, List.append_assoc] at same
      cases List.append_cancel_left same
    cases case with
    | tooLarge oversized => exact oversized
    | stuck | badAlloc | overrun | inside => cases returned
    | failure asks sock answered =>
        cases returned
        exact (asked answered calls).elim
    | wouldBlock asks sock answered =>
        cases returned
        exact (asked answered (List.append_nil _ |>.trans calls)).elim
    | across asks bytes sock answered full first stored rest place =>
        split_ifs at returned <;> cases returned
  · intro oversized fuel
    have turn : resumeReadTurn c = .done (.returned false) c.shutdown := by
      rw [resumeReadTurn_eq wellFormed c standing, if_pos oversized]
    refine ⟨c.shutdown, ?_, rfl⟩
    rw [resumeRead, turn]

/-- What a reader asks for that does ask. -/
theorem asksFor_request (wellFormed : ns.WellFormed) {c : ClientBase}
    (standing : c.read.Standing ns) (asks : c.Asks ns) : AsksFor c (c.request ns) := by
  intro fuel
  have case := turnCase wellFormed standing
  have first : ∃ answer more,
      (resumeReadTurn c).state.sock.calls = c.sock.calls ++ .read (c.request ns) answer :: more := by
    generalize resumeReadTurn c = outcome at case
    cases case with
    | tooLarge oversized => exact absurd oversized asks.accepted
    | stuck accepted exhausted => exact absurd asks.wanting (Nat.not_lt.mpr exhausted)
    | badAlloc accepted wanting huge => exact absurd asks.allocatable (Nat.not_lt.mpr huge)
    | failure _ sock answered =>
        refine ⟨.failure, [.shutdown], ?_⟩
        change sock.calls ++ [.shutdown] = _
        rw [Socket.read_calls answered, List.append_assoc]
        rfl
    | wouldBlock _ sock answered => exact ⟨.wouldBlock, [], Socket.read_calls answered⟩
    | overrun _ bytes sock answered | inside _ bytes sock answered
    | across _ bytes sock answered => exact ⟨.data bytes, [], Socket.read_calls answered⟩
  obtain ⟨answer, more, calls⟩ := first
  have turned : Continues (resumeReadTurn c).state (resumeRead (fuel + 1) c).state := by
    rw [resumeRead]
    cases resumeReadTurn c with
    | stopped stop c' => exact List.prefix_refl _
    | done turn c' =>
        cases turn with
        | returned complete => exact List.prefix_refl _
        | again => exact continues_resumeRead fuel c'
  obtain ⟨later, whole⟩ := turned
  refine ⟨answer, more ++ later, ?_⟩
  rw [← whole, calls, List.append_assoc, List.cons_append]

/-- Where a turn leaves the reader that has received a prefix. -/
theorem PrefixReceived.place (wellFormed : ns.WellFormed) {before c : ClientBase} {turn : Turn}
    {index : Nat} {field : NetField} (standing : before.read.Standing ns)
    (found : ns.fields[index]? = some field) (isVariable : field.type.isVariable = true)
    (received : PrefixReceived before c turn index) :
    (ns.wireSz c.read.memory index = 0 → c.read.field = index + 1) ∧
      (ns.wireSz c.read.memory index ≠ 0 →
        turn = .again ∧ c.read.field = index ∧ c.read.offset = 0) := by
  have case := turnCase wellFormed standing
  have behind := received.behind
  have reached := received.reached
  rw [received.done] at case
  generalize outcomeEq : Outcome.done turn c = outcome at case
  cases case with
  | badAlloc | overrun => cases outcomeEq
  | tooLarge | stuck | failure | wouldBlock | inside =>
      cases outcomeEq
      exact absurd reached (Nat.not_le.mpr behind)
  | across asks bytes sock answered full first stored rest place firstDone done restingAt further
      position between =>
      cases outcomeEq
      have notBefore : ¬ index < rest := by
        intro earlier
        have fixedSize := between index field behind earlier found
        rw [isVariable] at fixedSize
        cases fixedSize
      obtain ⟨restField, foundRest⟩ : ∃ restField, ns.fields[rest]? = some restField := by
        apply ns.exists_field
        have inside := ns.lt_size_of_found found
        omega
      have notLast : rest ≠ ns.size := (ns.lt_size_of_found foundRest).ne
      change index ≤ (resting ns rest place stored (before.decrypt.feed bytes)).field at reached
      change (ns.wireSz (resting ns rest place stored (before.decrypt.feed bytes)).block index = 0 →
          (resting ns rest place stored (before.decrypt.feed bytes)).field = index + 1) ∧
        (ns.wireSz (resting ns rest place stored (before.decrypt.feed bytes)).block index ≠ 0 →
          (if (resting ns rest place stored (before.decrypt.feed bytes)).complete then
            Turn.returned true else Turn.again) = .again ∧
          (resting ns rest place stored (before.decrypt.feed bytes)).field = index ∧
          (resting ns rest place stored (before.decrypt.feed bytes)).offset = 0)
      rw [resting_block]
      by_cases passed : place = 0 ∧ ns.wireSz stored rest = 0
      · rw [resting, if_neg notLast, if_pos passed] at reached ⊢
        -- an empty field is variable, and the field behind it is not
        have here : index = rest := by
          by_contra other
          have next : index = rest + 1 := by
            change index ≤ rest + 1 at reached
            omega
          have restVariable : restField.type.isVariable = true := by
            by_contra fixedSize
            have positive := wellFormed.fixed_pos foundRest (Bool.eq_false_of_not_eq_true fixedSize)
            rw [NetStruct.wireSz_of_fixed foundRest (Bool.eq_false_of_not_eq_true fixedSize)]
              at passed
            omega
          subst next
          have fixedSize := wellFormed.fixed_behind_variable foundRest restVariable found
          rw [isVariable] at fixedSize
          cases fixedSize
        subst here
        exact ⟨fun _ => rfl, fun nonempty => absurd passed.2 nonempty⟩
      · rw [resting, if_neg notLast, if_neg passed] at reached ⊢
        obtain rfl : index = rest := by
          change index ≤ rest at reached
          omega
        have atStart : place = 0 := by
          obtain ⟨last, -⟩ | ⟨other, foundOther, placed⟩ := restingAt
          · exact absurd last notLast
          · cases found.symm.trans foundOther
            rw [isVariable] at placed
            exact placed
        exact ⟨fun empty => absurd ⟨atStart, empty⟩ passed, fun _ => ⟨rfl, rfl, atStart⟩⟩

/-! ### When the limit is enforced -/

section Received

variable {before c : ClientBase} {turn : Turn} {index : Nat} {field : NetField}

theorem PrefixReceived.standing (wellFormed : ns.WellFormed)
    (reached : Reachable (ReaderStart ns) ReaderStep before)
    (received : PrefixReceived before c turn index) (again : turn = .again) :
    c.read.Standing ns := by
  have standing := (readerInvariant_of_reachable wellFormed reached).standing
  have case := turnCase wellFormed standing
  rw [received.done] at case
  exact standing_of_turn standing case (by rw [again]; simp)

theorem wireSz_of_announced (wellFormed : ns.WellFormed) {count : Nat}
    (found : ns.fields[index]? = some field) (isVariable : field.type.isVariable = true)
    (announced : ns.announced c.read.memory index = some count) :
    ns.wireSz c.read.memory index = field.elementsz * count := by
  have bound := wellFormed.limit_lt found
  have within : field.elementsz * count ≤ field.elementsz * kMaxBufCount :=
    Nat.mul_le_mul_left _ (announced_le announced)
  rw [NetStruct.wireSz_of_variable found isVariable, announced, countOrMax]
  exact Nat.mod_eq_of_lt (by unfold sizeMod; omega)

theorem wireSz_of_rejected (wellFormed : ns.WellFormed) (found : ns.fields[index]? = some field)
    (isVariable : field.type.isVariable = true)
    (rejected : ns.announced c.read.memory index = none) :
    ns.wireSz c.read.memory index =
      if field.elementsz = 0 then 0 else sizeMod - field.elementsz := by
  have bound := wellFormed.limit_lt found
  rw [NetStruct.wireSz_of_variable found isVariable, rejected, countOrMax,
    sizeT_mul_sizeMax (by unfold kMaxBufCount at bound; omega)]

/-- A valid count is asked for as it stands. -/
theorem PrefixReceived.enforced_of_announced (wellFormed : ns.WellFormed)
    (reached : Reachable (ReaderStart ns) ReaderStep before)
    (found : ns.fields[index]? = some field) (isVariable : field.type.isVariable = true)
    (received : PrefixReceived before c turn index) {count : Nat}
    (announced : ns.announced c.read.memory index = some count) :
    LimitEnforced ns index field turn c := by
  have standing := (readerInvariant_of_reachable wellFormed reached).standing
  obtain ⟨empty, filled⟩ := received.place wellFormed standing found isVariable
  have bound := wellFormed.limit_lt found
  have within : field.elementsz * count ≤ field.elementsz * kMaxBufCount :=
    Nat.mul_le_mul_left _ (announced_le announced)
  have exact := wireSz_of_announced wellFormed found isVariable announced
  unfold LimitEnforced
  rw [announced]
  dsimp only
  split_ifs with nothing
  · rw [empty (exact.trans nothing)]
    exact Nat.lt_succ_self index
  · obtain ⟨again, here, offset⟩ := filled (by rw [exact]; exact nothing)
    refine ⟨again, here, ?_⟩
    have run := ns.memOffset_add_fixedRun_le (index + 1)
    have window : ns.window c.read.memory c.read.field =
        field.elementsz * count + ns.fixedRun (index + 1) := by
      rw [here, NetStruct.window, exact]
      exact Nat.mod_eq_of_lt (by unfold sizeMod; omega)
    have request : c.request ns = field.elementsz * count + ns.fixedRun (index + 1) := by
      rw [ClientBase.request, window, offset, Nat.sub_zero]
    rw [← request]
    apply asksFor_request wellFormed (received.standing wellFormed reached again)
    constructor
    · rw [here, exact]
      unfold sizeMax sizeMod
      omega
    · rw [offset, window]
      omega
    · rw [request]
      unfold maxObject
      omega

/-- A rejected count is recognised for single bytes only. -/
theorem PrefixReceived.single_of_shutsDown (wellFormed : ns.WellFormed)
    (reached : Reachable (ReaderStart ns) ReaderStep before)
    (found : ns.fields[index]? = some field) (isVariable : field.type.isVariable = true)
    (received : PrefixReceived before c turn index)
    (rejected : ns.announced c.read.memory index = none) (again : turn = .again)
    (shutsDown : ShutsDown c) : field.elementsz = 1 := by
  have standing := (readerInvariant_of_reachable wellFormed reached).standing
  obtain ⟨empty, filled⟩ := received.place wellFormed standing found isVariable
  have bound := wellFormed.limit_lt found
  have size := wireSz_of_rejected wellFormed found isVariable rejected
  have standing' := received.standing wellFormed reached again
  have reserved := (shutsDown_iff wellFormed standing').mp shutsDown
  by_cases nothing : ns.wireSz c.read.memory index = 0
  · -- behind an empty field there is a fixed one
    rw [empty nothing] at reserved
    have inside := standing'.field_lt
    rw [empty nothing] at inside
    obtain ⟨next, foundNext⟩ := ns.exists_field inside
    have fixedSize := wellFormed.fixed_behind_variable found isVariable foundNext
    have offset := NetStruct.memOffset_succ foundNext
    have total := ns.memOffset_le_memTotal (index + 1 + 1)
    rw [NetStruct.wireSz_of_fixed foundNext fixedSize] at reserved
    unfold sizeMax sizeMod at reserved
    omega
  · obtain ⟨-, here, -⟩ := filled nothing
    rw [here, size] at reserved
    unfold sizeMax at reserved
    unfold kMaxBufCount at bound
    split_ifs at reserved with none
    · unfold sizeMod at reserved
      omega
    · unfold sizeMod at reserved
      omega

theorem PrefixReceived.shutsDown_of_single (wellFormed : ns.WellFormed)
    (reached : Reachable (ReaderStart ns) ReaderStep before)
    (found : ns.fields[index]? = some field) (isVariable : field.type.isVariable = true)
    (received : PrefixReceived before c turn index)
    (rejected : ns.announced c.read.memory index = none) (single : field.elementsz = 1) :
    turn = .again ∧ ShutsDown c := by
  have standing := (readerInvariant_of_reachable wellFormed reached).standing
  obtain ⟨-, filled⟩ := received.place wellFormed standing found isVariable
  have size := wireSz_of_rejected wellFormed found isVariable rejected
  rw [single, if_neg Nat.one_ne_zero] at size
  obtain ⟨again, here, -⟩ := filled (by rw [size]; decide)
  have standing' := received.standing wellFormed reached again
  constructor
  · exact again
  · apply (shutsDown_iff wellFormed standing').mpr
    rw [here, size]
    rfl

end Received

/-- Behind the prefix the limit is enforced exactly if the count is valid and
within the limit, or elements are single bytes. -/
theorem limitEnforced_iff (wellFormed : ns.WellFormed) {before c : ClientBase} {turn : Turn}
    (reached : Reachable (ReaderStart ns) ReaderStep before) {index : Nat} {field : NetField}
    (found : ns.fields[index]? = some field) (isVariable : field.type.isVariable = true)
    (received : PrefixReceived before c turn index) :
    LimitEnforced ns index field turn c ↔
      ns.announced c.read.memory index ≠ none ∨ field.elementsz = 1 := by
  cases announced : ns.announced c.read.memory index with
  | some count =>
      have enforced := received.enforced_of_announced wellFormed reached found isVariable announced
      simpa using enforced
  | none =>
      unfold LimitEnforced
      rw [announced]
      simp only [ne_eq, not_true_eq_false, false_or]
      constructor
      · rintro ⟨again, shutsDown⟩
        exact received.single_of_shutsDown wellFormed reached found isVariable announced again
          shutsDown
      · intro single
        exact received.shutsDown_of_single wellFormed reached found isVariable announced single

/-! ### A ping and an address that announce too much -/

/-- A connection that asks for a message and is sent its fixed front. -/
def frontReader (ns : NetStruct) (front : Bytes) : ClientBase :=
  freshReader ns [.data front]

theorem frontReader_reachable {ns : NetStruct} (nonempty : 0 < ns.size) (front : Bytes) :
    Reachable (ReaderStart ns) ReaderStep (frontReader ns front) :=
  reachable_start (freshReader_start nonempty _)

/-- A ping of 2000 bytes. -/
def longPing : Bytes :=
  [0, 0, 1, 0, 0, 0, 2, 0, 0, 0, 0xd0, 7, 0, 0]

theorem limitEnforced_long_ping :
    ∃ c, resumeReadTurn (frontReader pingRequest longPing) = .done .again c ∧
      LimitEnforced pingRequest 4 ⟨.buffer, "payload", 1, 0⟩ .again c := by
  have wellFormed : pingRequest.WellFormed := by decide
  obtain ⟨c, turn, field⟩ : ∃ c,
      resumeReadTurn (frontReader pingRequest longPing) = .done .again c ∧ c.read.field = 4 :=
    ⟨_, rfl, rfl⟩
  have received : PrefixReceived (frontReader pingRequest longPing) c .again 4 :=
    ⟨turn, (by decide : 0 < 4), field.ge⟩
  exact ⟨c, turn, (limitEnforced_iff wellFormed (frontReader_reachable (by decide) longPing) rfl rfl
    received).mpr (Or.inr rfl)⟩

/-- An address of 65535 units is not rejected: its size is allocated. -/
theorem not_limitEnforced_every_prefix :
    ¬ ∀ (ns : NetStruct) (_ : ns.WellFormed) (before c : ClientBase) (turn : Turn)
      (_ : Reachable (ReaderStart ns) ReaderStep before) (index : Nat) (field : NetField)
      (_ : ns.fields[index]? = some field) (_ : field.type.isVariable = true)
      (_ : PrefixReceived before c turn index), LimitEnforced ns index field turn c := by
  intro claimed
  have wellFormed : fileSrvReply.WellFormed := by decide
  obtain ⟨c, turn, field, stops⟩ : ∃ c,
      resumeReadTurn (frontReader fileSrvReply [1, 0, 5, 0, 0, 0, 0xff, 0xff]) =
        .done .again c ∧ c.read.field = 3 ∧ ∃ c', resumeRead 1 c = .stopped .badAlloc c' :=
    ⟨_, rfl, rfl, _, rfl⟩
  have received : PrefixReceived (frontReader fileSrvReply [1, 0, 5, 0, 0, 0, 0xff, 0xff]) c
      .again 3 :=
    ⟨turn, (by decide : 0 < 3), field.ge⟩
  have enforced := claimed fileSrvReply wellFormed _ c .again
    (frontReader_reachable (by decide) _) 3 ⟨.stringUtf16, "address", 2, 24⟩ rfl rfl received
  have rejected : fileSrvReply.announced c.read.memory 3 = none := by
    cases turn
    decide
  unfold LimitEnforced at enforced
  rw [rejected] at enforced
  obtain ⟨c', returned, -⟩ := enforced.2 0
  obtain ⟨other, stopped⟩ := stops
  cases stopped.symm.trans returned

end ThemeSrv
