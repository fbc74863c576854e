import ThemeSrv.MessageContents
import ThemeSrv.ReaderRun

/-!
# The reader at the start of a field

Between two fields of a valid message the reader knows exactly where it is.
`FieldTurn` lists what the next delivery makes of it: either the delivery ends
between two fields again, or it ends inside one, or the message does not fit
its buffer.
-/

namespace ThemeSrv

open AllocatedBlock ByteString ConcatenatedParts KeystreamCipher

variable {ns : NetStruct}

/-- The fields a buffer holds are as large on the wire as it announces. -/
theorem Message.HeldUpTo.wireBefore_eq {message : Message ns} {held : Nat} {block : Bytes}
    (heldUpTo : message.HeldUpTo held block) (wellFormed : ns.WellFormed) {count : Nat}
    (le : count ≤ held) (inside : count ≤ ns.size) :
    ns.wireBefore block count = message.wireOffset count := by
  induction count with
  | zero => simp [NetStruct.wireBefore, wireOffset]
  | succ count ih =>
      obtain ⟨content, found⟩ := message.exists_content (show count < ns.size by omega)
      rw [NetStruct.wireBefore, ih (by omega) (by omega), message.wireOffset_succ found,
        heldUpTo.wireSz_eq wellFormed found (by omega)]

/-- The reader stands at the start of a non-empty field.  Its buffer holds the
fields in front, and its cipher is where the sender's was at this field. -/
structure AtField (message : Message ns) (encrypt : Context) (c : ClientBase) : Prop where
  standing : c.read.Standing ns
  offset : c.read.offset = 0
  held : message.HeldUpTo c.read.field c.read.memory
  pending : ∀ content, message.contents[c.read.field]? = some content → content ≠ []
  keystream : c.decrypt.keystream = encrypt.keystream
  position : c.decrypt.fed.length = encrypt.fed.length + message.wireOffset c.read.field

/-- The encrypted message from the reader's field on. -/
def ClientBase.awaited (message : Message ns) (encrypt : Context) (c : ClientBase) : Bytes :=
  (encrypt.output message.wire).drop (message.wireOffset c.read.field)

/-- What a delivery makes of a reader at the start of a field. -/
inductive FieldTurn (message : Message ns) (encrypt : Context) (c : ClientBase) (bytes : Bytes)
    (sock : Socket) : Outcome ClientBase Turn → Prop
  | overrun (c' : ClientBase) (tooLong : ¬ message.Fits) :
      FieldTurn message encrypt c bytes sock (.stopped .store c')
  | next (c' : ClientBase) (atField : AtField message encrypt c') (sameSock : c'.sock = sock)
      (position : message.wireOffset c.read.field + bytes.length =
        message.wireOffset c'.read.field) :
      FieldTurn message encrypt c bytes sock (.done .again c')
  | complete (c' : ClientBase) (held : message.HeldUpTo ns.size c'.read.memory)
      (sameSock : c'.sock = sock)
      (position : message.wireOffset c.read.field + bytes.length = message.wire.length) :
      FieldTurn message encrypt c bytes sock (.done (.returned true) c')
  | within (c' : ClientBase) (offset : 0 < c'.read.offset)
      (short : bytes.length < c.request ns)
      (between : ∀ index,
        message.wireOffset c.read.field + bytes.length ≠ message.wireOffset index) :
      FieldTurn message encrypt c bytes sock (.done .again c')

namespace AtField

variable {message : Message ns} {encrypt : Context} {c : ClientBase}

theorem exists_content (atField : AtField message encrypt c) :
    ∃ content, message.contents[c.read.field]? = some content ∧ content ≠ [] := by
  obtain ⟨content, found⟩ := message.exists_content atField.standing.field_lt
  exact ⟨content, found, atField.pending content found⟩

/-- Part of the message is still to come. -/
theorem wireOffset_lt (atField : AtField message encrypt c) :
    message.wireOffset c.read.field < message.wire.length := by
  obtain ⟨content, found, nonempty⟩ := atField.exists_content
  have positive := List.length_pos_iff.mpr nonempty
  have next := message.wireOffset_succ found
  have below : message.wireOffset (c.read.field + 1) ≤ message.wire.length := boundary_le _ _
  omega

theorem awaited_length (atField : AtField message encrypt c) :
    message.wireOffset c.read.field + (c.awaited message encrypt).length =
      message.wire.length := by
  have below := atField.wireOffset_lt
  rw [ClientBase.awaited, List.length_drop, Context.output_length]
  omega

/-- The bytes accounted for since the message started leave no debt. -/
theorem accounted (atField : AtField message encrypt c) (wellFormed : ns.WellFormed) :
    Accounted ns encrypt.fed.length 0 c := by
  rw [Accounted, atField.held.wireBefore_eq wellFormed (le_refl _) atField.standing.field_lt.le,
    atField.offset, atField.position, Nat.add_zero]

theorem request_eq (atField : AtField message encrypt c) (wellFormed : ns.WellFormed)
    {content : Bytes} (found : message.contents[c.read.field]? = some content) :
    c.request ns = content.length + ns.fixedRun (c.read.field + 1) := by
  have bound := message.length_add_fixedRun_lt wellFormed found
  rw [ClientBase.request, NetStruct.window, atField.held.wireSz_eq wellFormed found (le_refl _),
    atField.offset, Nat.sub_zero]
  exact Nat.mod_eq_of_lt (by unfold maxObject at bound; unfold sizeMod; omega)

theorem asks (atField : AtField message encrypt c) (wellFormed : ns.WellFormed) : c.Asks ns := by
  obtain ⟨content, found, nonempty⟩ := atField.exists_content
  have positive := List.length_pos_iff.mpr nonempty
  have request := atField.request_eq wellFormed found
  have bound := message.length_add_fixedRun_lt wellFormed found
  refine ⟨?_, ?_, by omega⟩
  · rw [atField.held.wireSz_eq wellFormed found (le_refl _)]
    unfold maxObject at bound
    unfold sizeMax sizeMod
    omega
  · have offset := atField.offset
    unfold ClientBase.request at request
    omega

theorem request_pos (atField : AtField message encrypt c) (wellFormed : ns.WellFormed) :
    0 < c.request ns := by
  have wanting := (atField.asks wellFormed).wanting
  unfold ClientBase.request
  omega

/-- A turn that gets nothing from the socket leaves the reader at its field. -/
theorem allocated (atField : AtField message encrypt c) (wellFormed : ns.WellFormed)
    (sock : Socket) : AtField message encrypt { c.allocated ns with sock := sock } where
  standing := atField.standing.allocated
  offset := atField.offset
  held := by
    have standing := atField.standing
    refine atField.held.congr wellFormed standing.field_lt
      (ReadState.grown_take standing.reached) standing.reached ?_
    rw [ClientBase.allocated_memory, ReadState.grown_length standing.capacity]
    exact standing.reached.trans standing.capacity
  pending := atField.pending
  keystream := atField.keystream
  position := atField.position

/-- Decrypting a delivery at a distance from the reader's field yields the
wire at that distance. -/
theorem output_segment (atField : AtField message encrypt c) (start count : Nat) (fed : Bytes)
    (length : fed.length = start) :
    (c.decrypt.feed fed).output (((c.awaited message encrypt).drop start).take count) =
      (message.wire.drop (message.wireOffset c.read.field + start)).take count := by
  have sameKeystream : (c.decrypt.feed fed).keystream = encrypt.keystream := atField.keystream
  rw [ClientBase.awaited, List.drop_drop]
  refine Context.output_segment sameKeystream ?_ _ _
  rw [Context.feed_fed, List.length_append, atField.position, length]
  omega

end AtField

/-- The inner loop comes to rest at the start of a field of the message, inside
a fixed field, or behind the last one. -/
theorem fieldTurn_rest (wellFormed : ns.WellFormed) {message : Message ns} {encrypt : Context}
    {c : ClientBase} {bytes stored : Bytes} {sock : Socket} {rest place : Nat}
    (atField : AtField message encrypt c)
    (restingAt : RestingPlace ns rest place) (held : message.HeldUpTo rest stored)
    (sameLength : stored.length = (c.read.grown ns).length)
    (position : message.wireOffset c.read.field + bytes.length = message.wireOffset rest + place)
    (short : 0 < place → bytes.length < c.request ns) :
    FieldTurn message encrypt c bytes sock
      (.done (if (resting ns rest place stored (c.decrypt.feed bytes)).complete then
          .returned true else .again)
        (c.placed ns sock (resting ns rest place stored (c.decrypt.feed bytes)))) := by
  have covers := message.covers
  have cipher : (c.decrypt.feed bytes).fed.length =
      encrypt.fed.length + (message.wireOffset rest + place) := by
    rw [Context.feed_fed, List.length_append, atField.position]
    omega
  by_cases last : rest = ns.size
  · obtain ⟨-, rfl⟩ | ⟨field, found, -⟩ := restingAt
    · subst last
      simp only [resting, if_true]
      refine .complete _ held rfl ?_
      rw [position, message.wireOffset_size, Nat.add_zero]
    · have := ns.lt_size_of_found found
      omega
  obtain ⟨behind, -⟩ | ⟨field, found, placed⟩ := restingAt
  · exact absurd behind last
  have inside := ns.lt_size_of_found found
  obtain ⟨content, foundContent⟩ := message.exists_content inside
  have size := held.wireSz_eq wellFormed foundContent (le_refl _)
  by_cases passed : place = 0 ∧ ns.wireSz stored rest = 0
  · obtain ⟨rfl, empty⟩ := passed
    obtain rfl : content = [] := List.eq_nil_of_length_eq_zero (by omega)
    have nextHeld : message.HeldUpTo (rest + 1) stored := by
      have room : ns.memOffset rest ≤ stored.length := by
        rw [sameLength, ReadState.grown_length atField.standing.capacity]
        have := ns.memOffset_le_memTotal rest
        have := ns.memTotal_le_allocation
        omega
      exact held.store_field wellFormed foundContent (by simpa using room) (by simp)
    have nextOffset := message.wireOffset_succ foundContent
    have passed : resting ns rest 0 stored (c.decrypt.feed bytes) =
        ⟨rest + 1 == ns.size, rest + 1, 0, stored, c.decrypt.feed bytes⟩ := by
      rw [resting, if_neg last, if_pos ⟨rfl, empty⟩]
    rw [passed]
    by_cases lastField : rest + 1 = ns.size
    · simp only [lastField, beq_self_eq_true, if_true]
      refine .complete _ (lastField ▸ nextHeld) rfl ?_
      rw [position, ← message.wireOffset_size, ← lastField, nextOffset, List.length_nil]
    · have kind : field.type.isVariable = true := by
        by_contra fixedSize
        have fixedSize : field.type.isVariable = false := by simpa using fixedSize
        have positive := wellFormed.fixed_pos found fixedSize
        have length := message.fixed rest field [] found foundContent fixedSize
        simp at length
        omega
      simp only [beq_eq_false_iff_ne.mpr lastField, Bool.false_eq_true, if_false]
      refine .next _ ⟨?_, rfl, nextHeld, ?_, atField.keystream, ?_⟩ rfl ?_
      · exact atField.standing.placed (by simp only; omega) sameLength
      · intro nextContent foundNext
        change message.contents[rest + 1]? = some nextContent at foundNext
        obtain ⟨nextField, foundNextField⟩ := message.exists_field foundNext
        have fixedSize := wellFormed.fixed_behind_variable found kind foundNextField
        have positive := wellFormed.fixed_pos foundNextField fixedSize
        have length := message.fixed (rest + 1) nextField nextContent foundNextField foundNext
          fixedSize
        rw [← length] at positive
        exact List.length_pos_iff.mp positive
      · change (c.decrypt.feed bytes).fed.length = _ + message.wireOffset (rest + 1)
        rw [cipher, nextOffset, List.length_nil]
      · change _ = message.wireOffset (rest + 1)
        rw [position, nextOffset, List.length_nil]
  · rw [resting, if_neg last, if_neg passed]
    simp only [Bool.false_eq_true, if_false]
    by_cases start : place = 0
    · subst start
      refine .next _ ⟨?_, rfl, held, ?_, atField.keystream, cipher⟩ rfl position
      · exact atField.standing.placed inside sameLength
      · intro other foundOther
        cases foundContent.symm.trans foundOther
        rw [← List.length_pos_iff]
        omega
    · have positive : 0 < place := Nat.pos_of_ne_zero start
      refine .within _ positive (short positive) ?_
      have fixedSize : field.type.isVariable = false := by
        by_contra kind
        rw [if_pos (by simpa using kind)] at placed
        exact start placed
      rw [fixedSize] at placed
      simp only [Bool.false_eq_true, if_false] at placed
      have length := message.fixed rest field content found foundContent fixedSize
      rw [position]
      exact no_boundary_inside foundContent (Nat.lt_add_of_pos_right positive)
        (by change _ < message.wireOffset rest + _; omega)

theorem fieldTurn (wellFormed : ns.WellFormed) {message : Message ns} {encrypt : Context}
    {c : ClientBase} {bytes : Bytes} {sock : Socket} (atField : AtField message encrypt c)
    (answered : c.sock.read (c.request ns) = (.data bytes, sock)) (nonempty : bytes ≠ [])
    (segment : bytes = (c.awaited message encrypt).take bytes.length) :
    FieldTurn message encrypt c bytes sock (resumeReadTurn c) := by
  obtain ⟨content, found, contentNonempty⟩ := atField.exists_content
  have inside := atField.standing.field_lt
  have request := atField.request_eq wellFormed found
  have size := atField.held.wireSz_eq wellFormed found (le_refl _)
  have bound := Socket.read_data_length answered
  have noOffset := atField.offset
  have nextWire := message.wireOffset_succ found
  have grownLength := ReadState.grown_length atField.standing.capacity
  have grownHeld : message.HeldUpTo c.read.field (c.read.grown ns) :=
    (atField.allocated wellFormed sock).held
  have plain (count : Nat) (le : count ≤ bytes.length) :
      c.decrypt.output (bytes.take count) =
        (message.wire.drop (message.wireOffset c.read.field)).take count := by
    have direct := atField.output_segment 0 count [] rfl
    rw [segment, List.take_take, min_eq_left le]
    simpa using direct
  have plainRest (start : Nat) (le : start ≤ bytes.length) :
      (c.decrypt.feed (bytes.take start)).output (bytes.drop start) =
        (message.wire.drop (message.wireOffset c.read.field + start)).take
          (bytes.length - start) := by
    have direct := atField.output_segment start (bytes.length - start)
      (bytes.take start) (by rw [List.length_take]; omega)
    rw [← direct]
    congr 1
    conv_lhs => rw [segment]
    rw [List.drop_take]
  generalize outcomeEq : resumeReadTurn c = outcome
  have case := turnCase wellFormed atField.standing
  rw [outcomeEq] at case
  cases case with
  | tooLarge oversized => exact absurd oversized (atField.asks wellFormed).accepted
  | stuck accepted exhausted =>
      exact absurd (atField.asks wellFormed).wanting (Nat.not_lt.mpr exhausted)
  | badAlloc accepted wanting huge =>
      exact absurd (atField.asks wellFormed).allocatable (Nat.not_lt.mpr huge)
  | failure asks other answer | wouldBlock asks other answer =>
      cases answered.symm.trans answer
  | overrun asks other otherSock answer outside =>
      refine .overrun _ fun fits => ?_
      have room := fits c.read.field content found
      rw [wellFormed.netStructCalcsz_eq] at room
      change _ ≤ ns.allocation at room
      obtain ⟨stored, done⟩ : ∃ stored, store (c.read.grown ns)
          (ns.memOffset c.read.field + c.read.offset)
          (c.decrypt.output (other.take (ns.wireSz c.read.memory c.read.field))) = some stored :=
        exists_store _ (by
          rw [Context.output_length, List.length_take, size]
          omega)
      rw [done] at outside
      cases outside
  | inside asks other otherSock answer short stored done =>
      cases answered.symm.trans answer
      have positive := List.length_pos_iff.mpr nonempty
      rw [size] at short
      refine .within _ (Nat.add_pos_right _ positive) (by omega) ?_
      exact no_boundary_inside found (Nat.lt_add_of_pos_right positive)
        (Nat.add_lt_add_left short _)
  | across asks other otherSock answer full first stored rest place firstDone done restingAt
      further position between =>
      cases answered.symm.trans answer
      rw [size] at full firstDone done position
      rw [noOffset, Nat.add_zero] at firstDone done
      have offset : ns.memOffset c.read.field + content.length ≤ (c.read.grown ns).length := by
        have stores := store_inside (by
          rw [← List.length_pos_iff, Context.output_length, List.length_take]
          have := List.length_pos_iff.mpr contentNonempty
          omega) firstDone
        rw [Context.output_length, List.length_take] at stores
        omega
      have wholeField : c.decrypt.output (bytes.take content.length) = content := by
        rw [plain _ full, Message.wire, Message.wireOffset, flatten_drop_cons found,
          List.take_left]
      rw [wholeField] at firstDone
      have firstHeld := grownHeld.store_field wellFormed found offset firstDone
      have firstLength := store_length firstDone
      rw [plainRest _ full, ← nextWire] at done
      have restLength : ((message.wire.drop (message.wireOffset (c.read.field + 1))).take
          (bytes.length - content.length)).length = bytes.length - content.length := by
        rw [nextWire, ← plainRest _ full, Context.output_length, List.length_drop]
      have run := ns.memOffset_add_fixedRun_le (c.read.field + 1)
      have room := ns.memTotal_le_allocation
      have frontHeld : message.HeldUpTo (c.read.field + 1) stored := by
        by_cases last : c.read.field + 1 = ns.size
        · have noRun : ns.fixedRun (c.read.field + 1) = 0 := by rw [last, ns.fixedRun_size]
          have nothing : bytes.length - content.length = 0 := by omega
          rw [nothing, List.take_zero, store_nil] at done
          cases done
          exact firstHeld
        · exact firstHeld.congr wellFormed (by omega) (store_take done (le_refl _)) (by omega)
            (by rw [store_length done]; omega)
      have held := Message.HeldUpTo.store_run between restingAt.le_size done
        (by rw [restLength]; omega) (by rw [restLength]; omega) (by rw [restLength]) frontHeld
      have wirePlace := message.wireOffset_add between further restingAt.le_size
      have runs := between.memOffset_add_fixedRun further restingAt.le_size
      refine fieldTurn_rest wellFormed atField restingAt held
        (by rw [store_length done, firstLength]) (by omega) ?_
      intro positive
      obtain ⟨-, none⟩ | ⟨field, foundField, placed⟩ := restingAt
      · omega
      · cases kind : field.type.isVariable with
        | true =>
            rw [kind, if_pos rfl] at placed
            omega
        | false =>
            rw [kind] at placed
            have restRun := ns.fixedRun_of_fixed foundField kind
            simp only [Bool.false_eq_true, if_false] at placed
            omega

end ThemeSrv
