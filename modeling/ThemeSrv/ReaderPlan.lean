import ThemeSrv.FieldSizes

/-!
# What one turn of the reader asks for

A reader stands at a field and an offset of the message it is receiving, with
a buffer that holds the fields before.  From there one turn of `resume_read`
re-allocates the buffer at the size of the message and asks the socket for a
window: the current field and the fixed fields behind it, less the offset.
-/

namespace ThemeSrv

open AllocatedBlock ByteString KeystreamCipher

namespace NetStruct

/-- The number of bytes `alloc_buf` allocates for a message. -/
def allocation (ns : NetStruct) : Nat :=
  (ns.memTotal / 8 + 4) * 8

/-- Wire size of a field and of the fixed fields behind it: what can be asked
for in one read, as the code adds it up. -/
def window (ns : NetStruct) (block : Bytes) (index : Nat) : Nat :=
  sizeT (ns.wireSz block index + ns.fixedRun (index + 1))

theorem memTotal_le_allocation (ns : NetStruct) : ns.memTotal + 25 ≤ ns.allocation := by
  unfold allocation
  omega

theorem allocation_le (ns : NetStruct) : ns.allocation ≤ ns.memTotal + 32 := by
  unfold allocation
  omega

end NetStruct

/-! ### The two planning loops -/

namespace NetStruct.WellFormed

variable {ns : NetStruct} {block : Bytes}

theorem sizeT_memOffset (wellFormed : ns.WellFormed) (index : Nat) :
    sizeT (ns.memOffset index) = ns.memOffset index := by
  have below := ns.memOffset_le_memTotal index
  have bound := wellFormed.memTotal_lt
  exact Nat.mod_eq_of_lt (by unfold sizeMod; omega)

/-- The first loop finds the memory offset of the current field. -/
theorem sizeBefore_eq (wellFormed : ns.WellFormed) {count : Nat} (le : count ≤ ns.size)
    (inside : ns.memOffset count ≤ block.length) :
    ∃ wiresz, sizeBefore ns (some block) count = .ok (ns.memOffset count, wiresz) := by
  induction count with
  | zero => exact ⟨0, by simp [sizeBefore]⟩
  | succ count ih =>
      have before : ns.memOffset count ≤ ns.memOffset (count + 1) :=
        ns.memOffset_mono (Nat.le_succ count)
      obtain ⟨wiresz, done⟩ := ih (by omega) (by omega)
      obtain ⟨field, found⟩ := ns.exists_field (show count < ns.size by omega)
      have sizes := wellFormed.calcFieldSz_at found (before.trans inside)
      refine ⟨sizeT (wiresz + ns.wireSz block count), ?_⟩
      rw [sizeBefore, done]
      simp only [Option.map_some, bind, Except.bind, sizes, assertD, if_true, pure, Except.pure]
      rw [← NetStruct.memOffset_succ found, wellFormed.sizeT_memOffset]

theorem wire_ne_max (wellFormed : ns.WellFormed) {index : Nat} {field : NetField}
    (found : ns.fields[index]? = some field) : field.memSize ≠ sizeMax := by
  have below := ns.memOffset_le_memTotal (index + 1)
  rw [NetStruct.memOffset_succ found] at below
  have bound := wellFormed.memTotal_lt
  unfold sizeMax sizeMod
  omega

/-- Behind the first field the second loop adds up all memory sizes, and the
wire sizes up to the next variable field. -/
theorem planFields_behind (wellFormed : ns.WellFormed) (ptr : Option Pointer) (first : Nat)
    (left index : Nat) (plan : ReadPlan) (span : index + left = ns.size)
    (behind : first < index) (allocated : plan.allocsz = ns.memOffset index)
    (readsz : sizeT plan.readsz = plan.readsz) :
    ∃ fixedsz, planFields ns ptr first index left plan =
      .ok (some ⟨fixedsz, ns.memTotal,
        if plan.fixedsz then sizeT (plan.readsz + ns.fixedRun index) else plan.readsz⟩) := by
  induction left generalizing index plan with
  | zero =>
      obtain rfl : index = ns.size := by omega
      have sameAlloc : plan.allocsz = ns.memTotal := by rw [allocated, ns.memOffset_size]
      refine ⟨plan.fixedsz, ?_⟩
      cases plan with
      | mk fixedsz allocsz readsz' =>
          simp only at sameAlloc readsz
          simp [planFields, sameAlloc, readsz]
  | succ left ih =>
      obtain ⟨field, found⟩ := ns.exists_field (show index < ns.size by omega)
      have nextOffset := NetStruct.memOffset_succ found
      have nextAlloc : sizeT (plan.allocsz + field.memSize) = ns.memOffset (index + 1) := by
        rw [allocated, ← nextOffset, wellFormed.sizeT_memOffset]
      have notFirst : index ≠ first := by omega
      rw [planFields]
      simp only [notFirst, if_false]
      cases kind : field.type.isVariable with
      | true =>
          rw [wellFormed.calcFieldSz_none found kind]
          obtain ⟨fixedsz, done⟩ := ih (index + 1) ⟨false, ns.memOffset (index + 1), plan.readsz⟩
            (by omega) (by omega) rfl readsz
          refine ⟨fixedsz, ?_⟩
          have noSize : (0 : Nat) ≠ sizeMax := by decide
          simp only [bind, Except.bind, noSize, if_false, Bool.and_false, Bool.false_eq_true,
            nextAlloc] at done ⊢
          rw [done, ns.fixedRun_of_variable found kind, Nat.add_zero, readsz, ite_self]
      | false =>
          rw [wellFormed.calcFieldSz_of_fixed found kind]
          have run := ns.fixedRun_of_fixed found kind
          obtain ⟨fixedsz, done⟩ := ih (index + 1)
            ⟨plan.fixedsz, ns.memOffset (index + 1),
              if plan.fixedsz then sizeT (plan.readsz + field.memSize) else plan.readsz⟩
            (by omega) (by omega) rfl (by split <;> simp_all [sizeT])
          refine ⟨fixedsz, ?_⟩
          simp only [bind, Except.bind, wellFormed.wire_ne_max found, if_false, Bool.and_true,
            nextAlloc] at done ⊢
          rw [done]
          cases plan.fixedsz with
          | false => rfl
          | true =>
              have sums : sizeT (sizeT (plan.readsz + field.memSize) + ns.fixedRun (index + 1)) =
                  sizeT (plan.readsz + ns.fixedRun index) := by
                rw [run, ← Nat.add_assoc]
                simp [sizeT]
              simp only [if_true, sums]

end NetStruct.WellFormed

/-! ### Where a reader stands -/

namespace ReadState

/-- The cells of the message buffer; a null buffer has none. -/
def memory (rd : ReadState) : Bytes :=
  rd.buf.getD []

/-- The reader is receiving a message of `ns`: it stands at one of its
fields, and the buffer holds the fields before. -/
structure Standing (ns : NetStruct) (rd : ReadState) : Prop where
  struct : rd.struct = some ns
  field_lt : rd.field < ns.size
  owned : ∀ block, rd.buf = some block → block.length = rd.bufsz
  fresh : rd.buf = none → rd.field = 0
  reached : ns.memOffset rd.field ≤ rd.memory.length
  capacity : rd.memory.length ≤ ns.allocation

/-- The buffer after `alloc_buf`. -/
def grown (ns : NetStruct) (rd : ReadState) : Bytes :=
  rd.memory ++ List.replicate (ns.allocation - rd.memory.length) 0

theorem grown_length {ns : NetStruct} {rd : ReadState} (capacity : rd.memory.length ≤ ns.allocation) :
    (rd.grown ns).length = ns.allocation := by
  rw [grown, List.length_append, List.length_replicate]
  omega

theorem grown_take {ns : NetStruct} {rd : ReadState} {bound : Nat}
    (within : bound ≤ rd.memory.length) :
    (rd.grown ns).take bound = rd.memory.take bound := by
  rw [grown, List.take_append_of_le_length within]

end ReadState

namespace NetStruct.WellFormed

variable {ns : NetStruct} {rd : ReadState}

theorem allocation_lt (wellFormed : ns.WellFormed) : ns.allocation < maxObject := by
  have bound := wellFormed.memTotal_lt
  have below := ns.allocation_le
  unfold maxObject
  omega

theorem allocBuf_eq (wellFormed : ns.WellFormed) (standing : rd.Standing ns) :
    allocBuf rd.buf rd.bufsz ns.memTotal false = .ok (rd.grown ns) := by
  have below := wellFormed.allocation_lt
  have newsz : sizeT ((ns.memTotal / 8 + 4) * 8) = ns.allocation := by
    change sizeT ns.allocation = _
    unfold maxObject at below
    exact Nat.mod_eq_of_lt (by unfold sizeMod; omega)
  have capacity := standing.capacity
  unfold allocBuf
  simp only [Bool.false_eq_true, if_false, newsz, if_neg (Nat.not_le.mpr below)]
  cases buf : rd.buf with
  | none => simp [ReadState.grown, ReadState.memory, buf]
  | some block =>
      have memory : rd.memory = block := by simp [ReadState.memory, buf]
      rw [memory] at capacity
      have sameLength := standing.owned block buf
      have loaded : load block 0 rd.bufsz = some block := by
        rw [← sameLength, load_eq_some (by omega), List.drop_zero, List.take_length]
      have stored : store (List.replicate ns.allocation 0) 0 block = some (rd.grown ns) := by
        rw [store_of_inside (by rw [List.length_replicate]; omega)]
        simp [ReadState.grown, memory, List.drop_replicate]
      simp only [loaded, stored]

/-- Until the buffer is allocated the reader stands at the first field, which
is fixed. -/
theorem field_zero_fixed (wellFormed : ns.WellFormed) {field : NetField}
    (found : ns.fields[0]? = some field) : field.type.isVariable = false := by
  by_contra kind
  obtain ⟨sizeField, prefixed⟩ := wellFormed.prefixed found (by simpa using kind)
  obtain ⟨before, impossible, -⟩ := prefixed.exists_succ
  omega

/-- Sizes of the current field, as the planning loop looks them up. -/
theorem calcFieldSz_standing (wellFormed : ns.WellFormed) (standing : rd.Standing ns)
    {field : NetField} (found : ns.fields[rd.field]? = some field) :
    calcFieldSz ns rd.field (rd.buf.map (Pointer.mk · (ns.memOffset rd.field))) =
      .ok ⟨true, field.memSize, ns.wireSz rd.memory rd.field⟩ := by
  cases buf : rd.buf with
  | none =>
      have fresh := standing.fresh buf
      rw [fresh] at found ⊢
      have kind := wellFormed.field_zero_fixed found
      rw [Option.map_none, wellFormed.calcFieldSz_of_fixed found kind,
        NetStruct.wireSz_of_fixed found kind]
  | some block =>
      have memory : rd.memory = block := by simp [ReadState.memory, buf]
      have reached := standing.reached
      rw [memory] at reached
      rw [Option.map_some, wellFormed.calcFieldSz_at found reached, memory]

theorem sizeBefore_standing (wellFormed : ns.WellFormed) (standing : rd.Standing ns) :
    ∃ wiresz, sizeBefore ns rd.buf rd.field = .ok (ns.memOffset rd.field, wiresz) := by
  cases buf : rd.buf with
  | none =>
      rw [standing.fresh buf]
      exact ⟨0, by simp [sizeBefore]⟩
  | some block =>
      have reached := standing.reached
      rw [ReadState.memory, buf] at reached
      exact wellFormed.sizeBefore_eq standing.field_lt.le reached

/-- The second loop: the whole memory size to allocate, the window to ask
for. -/
theorem planFields_standing (wellFormed : ns.WellFormed) (standing : rd.Standing ns) :
    ∃ fixedsz, planFields ns (rd.buf.map (Pointer.mk · (ns.memOffset rd.field))) rd.field rd.field
        (ns.size - rd.field) ⟨true, ns.memOffset rd.field, 0⟩ =
      .ok (if ns.wireSz rd.memory rd.field = sizeMax then none
        else some ⟨fixedsz, ns.memTotal, ns.window rd.memory rd.field⟩) := by
  have inside := standing.field_lt
  obtain ⟨field, found⟩ := ns.exists_field inside
  obtain ⟨left, left_eq⟩ : ∃ left, ns.size - rd.field = left + 1 :=
    ⟨ns.size - rd.field - 1, by omega⟩
  rw [left_eq, planFields]
  simp only [if_true, wellFormed.calcFieldSz_standing standing found, bind, Except.bind]
  by_cases tooLarge : ns.wireSz rd.memory rd.field = sizeMax
  · exact ⟨true, by simp [tooLarge, pure, Except.pure]⟩
  · have nextAlloc : sizeT (ns.memOffset rd.field + field.memSize) =
        ns.memOffset (rd.field + 1) := by
      rw [← NetStruct.memOffset_succ found, wellFormed.sizeT_memOffset]
    obtain ⟨fixedsz, done⟩ := wellFormed.planFields_behind
      (rd.buf.map (Pointer.mk · (ns.memOffset rd.field))) rd.field left (rd.field + 1)
      ⟨true, ns.memOffset (rd.field + 1), sizeT (ns.wireSz rd.memory rd.field)⟩
      (by omega) (by omega) rfl (by simp [sizeT])
    have sums : sizeT (sizeT (ns.wireSz rd.memory rd.field) + ns.fixedRun (rd.field + 1)) =
        ns.window rd.memory rd.field := by
      simp [NetStruct.window, sizeT]
    refine ⟨fixedsz, ?_⟩
    simp only [tooLarge, if_false, Bool.and_self, if_true, nextAlloc, Nat.zero_add]
    rw [done]
    simp only [if_true, sums]

end NetStruct.WellFormed

/-! ### One turn -/

namespace ClientBase

/-- The connection once `alloc_buf` has run. -/
def allocated (c : ClientBase) (ns : NetStruct) : ClientBase :=
  { c with read := { c.read with
      bufsz := (c.read.grown ns).length
      buf := some (c.read.grown ns) } }

end ClientBase

theorem resumeReadTurn_eq {ns : NetStruct} (wellFormed : ns.WellFormed) (c : ClientBase)
    (standing : c.read.Standing ns) :
    resumeReadTurn c =
      if ns.wireSz c.read.memory c.read.field = sizeMax then
        .done (.returned false) c.shutdown
      else if ns.window c.read.memory c.read.field ≤ c.read.offset then
        .done .again (c.allocated ns)
      else if maxObject ≤ ns.window c.read.memory c.read.field - c.read.offset then
        .stopped .badAlloc (c.allocated ns)
      else
        receive ns (ns.memOffset c.read.field)
          (ns.window c.read.memory c.read.field - c.read.offset) (c.read.grown ns)
          (c.allocated ns) := by
  obtain ⟨wiresz, before⟩ := wellFormed.sizeBefore_standing standing
  obtain ⟨fixedsz, planned⟩ := wellFormed.planFields_standing standing
  unfold resumeReadTurn
  rw [standing.struct]
  simp only [before, planned]
  by_cases tooLarge : ns.wireSz c.read.memory c.read.field = sizeMax
  · simp [tooLarge]
  · simp only [tooLarge, if_false, wellFormed.allocBuf_eq standing]
    have request : ns.window c.read.memory c.read.field -
        min (ns.window c.read.memory c.read.field) c.read.offset =
          ns.window c.read.memory c.read.field - c.read.offset := by omega
    have exhausted : ns.window c.read.memory c.read.field - c.read.offset = 0 ↔
        ns.window c.read.memory c.read.field ≤ c.read.offset := by omega
    simp only [request, exhausted]
    rfl

end ThemeSrv
