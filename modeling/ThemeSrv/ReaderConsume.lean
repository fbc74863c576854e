import ThemeSrv.ReaderPlan

/-!
# Where the received bytes go

The inner loop of `resume_read` walks the fields it has received.  Fixed
fields are as large in memory as on the wire, so a run of them is one store;
the loop comes to rest inside a fixed field, at a variable field whose bytes
are still to come, or behind the last field.
-/

namespace ThemeSrv

open AllocatedBlock ByteString KeystreamCipher

variable {ns : NetStruct}

theorem consume_succ {left field offset mempos alloc wire : Nat} {block : Bytes}
    (sizes : calcFieldSz ns field (some ⟨block, mempos⟩) = .ok ⟨true, alloc, wire⟩)
    (decrypt : Context) (input : Bytes) :
    consume ns (left + 1) field offset mempos block decrypt input =
      match store block (mempos + offset) (decrypt.output (input.take wire)) with
      | none => .error .store
      | some stored =>
          if input.length < wire then
            .ok ⟨false, field, offset + input.length, stored, decrypt.feed input⟩
          else if field + 1 = ns.size then
            if input.length = wire then
              .ok ⟨true, field + 1, offset, stored, decrypt.feed input⟩
            else
              .error .assertion
          else
            consume ns left (field + 1) 0 (mempos + offset + alloc) stored
              (decrypt.feed (input.take wire)) (input.drop wire) := by
  rw [consume, sizes]
  simp only [bind, Except.bind, assertD, if_true]
  cases store block (mempos + offset) (decrypt.output (input.take wire)) with
  | none => rfl
  | some stored =>
      simp only [List.length_take]
      by_cases short : input.length < wire
      · have whole : input.take wire = input := List.take_of_length_le short.le
        have rest : input.drop wire = [] := List.drop_of_length_le short.le
        simp only [min_eq_right short.le, if_pos short, whole, rest, List.isEmpty_nil, if_true,
          pure, Except.pure]
      · simp only [if_neg (by omega : ¬ min wire input.length < wire), if_neg short]
        by_cases last : field + 1 = ns.size
        · simp only [if_pos last]
          by_cases exact : input.length = wire
          · have whole : input.take wire = input := List.take_of_length_le exact.le
            have rest : input.drop wire = [] := List.drop_of_length_le exact.le
            simp only [whole, rest, List.isEmpty_nil, if_true, if_pos exact, pure, Except.pure]
          · have rest : (input.drop wire).isEmpty = false := by
              rw [List.isEmpty_eq_false_iff, ne_eq, List.drop_eq_nil_iff]
              omega
            simp [rest, exact]
        · simp only [if_neg last]

/-- Where the inner loop comes to rest once it has used up its input at an
offset of a field: an empty variable field is passed at once. -/
def resting (ns : NetStruct) (field offset : Nat) (block : Bytes) (decrypt : Context) : Consumed :=
  if field = ns.size then
    ⟨true, field, offset, block, decrypt⟩
  else if offset = 0 ∧ ns.wireSz block field = 0 then
    ⟨field + 1 == ns.size, field + 1, 0, block, decrypt⟩
  else
    ⟨false, field, offset, block, decrypt⟩

theorem resting_of_fixed (wellFormed : ns.WellFormed) {index : Nat} {field : NetField}
    (found : ns.fields[index]? = some field) (fixedSize : field.type.isVariable = false)
    (offset : Nat) (block : Bytes) (decrypt : Context) :
    resting ns index offset block decrypt = ⟨false, index, offset, block, decrypt⟩ := by
  have inside := ns.lt_size_of_found found
  have positive := wellFormed.fixed_pos found fixedSize
  rw [resting, if_neg (by omega), if_neg]
  rw [NetStruct.wireSz_of_fixed found fixedSize]
  omega

/-- A position the inner loop can rest at: inside a fixed field, at a
variable field, or behind the last one. -/
def RestingPlace (ns : NetStruct) (index offset : Nat) : Prop :=
  (index = ns.size ∧ offset = 0) ∨
    ∃ field, ns.fields[index]? = some field ∧
      if field.type.isVariable then offset = 0 else offset < field.memSize

/-- The field behind a variable field is fixed. -/
theorem NetStruct.WellFormed.fixed_behind_variable (wellFormed : ns.WellFormed) {index : Nat}
    {field next : NetField} (found : ns.fields[index]? = some field)
    (variableSize : field.type.isVariable = true) (foundNext : ns.fields[index + 1]? = some next) :
    next.type.isVariable = false := by
  by_contra kind
  obtain ⟨sizeField, prefixed⟩ := wellFormed.prefixed foundNext (by simpa using kind)
  have same : some field = some sizeField := found.symm.trans prefixed.found
  cases same
  rw [prefixed.type] at variableSize
  cases variableSize

theorem consume_nil (wellFormed : ns.WellFormed) {left index : Nat} {block : Bytes}
    (span : index + (left + 1) = ns.size) (inside : ns.memTotal ≤ block.length)
    (decrypt : Context) :
    consume ns (left + 1) index 0 (ns.memOffset index) block decrypt [] =
      .ok (resting ns index 0 block decrypt) := by
  obtain ⟨field, found⟩ := ns.exists_field (show index < ns.size by omega)
  have reached := (ns.memOffset_le_memTotal index).trans inside
  rw [consume_succ (wellFormed.calcFieldSz_at found reached)]
  simp only [List.take_nil, Context.output_nil, store_nil, List.length_nil, Context.feed_nil,
    List.drop_nil, Nat.add_zero]
  by_cases waiting : 0 < ns.wireSz block index
  · rw [if_pos waiting, resting, if_neg (by omega), if_neg (by omega)]
  · have empty : ns.wireSz block index = 0 := by omega
    have passed : resting ns index 0 block decrypt =
        ⟨index + 1 == ns.size, index + 1, 0, block, decrypt⟩ := by
      rw [resting, if_neg (by omega), if_pos ⟨rfl, empty⟩]
    rw [if_neg waiting, passed, empty]
    by_cases last : index + 1 = ns.size
    · simp [last]
    · rw [if_neg last]
      have kind : field.type.isVariable = true := by
        by_contra fixedSize
        have positive := wellFormed.fixed_pos found (by simpa using fixedSize)
        rw [NetStruct.wireSz_of_fixed found (by simpa using fixedSize)] at empty
        omega
      obtain ⟨left, rfl⟩ : ∃ less, left = less + 1 := ⟨left - 1, by omega⟩
      obtain ⟨next, foundNext⟩ := ns.exists_field (show index + 1 < ns.size by omega)
      have nextFixed := wellFormed.fixed_behind_variable found kind foundNext
      have nextReached := (ns.memOffset_le_memTotal (index + 1)).trans inside
      have positive := wellFormed.fixed_pos foundNext nextFixed
      rw [← NetStruct.memOffset_succ found,
        consume_succ (wellFormed.calcFieldSz_at foundNext nextReached),
        NetStruct.wireSz_of_fixed foundNext nextFixed]
      simp [positive, last]

/-- A run of fixed fields.  The bytes may be stored with a shift `s`; then
they end inside the run. -/
theorem consume_run (wellFormed : ns.WellFormed) {left index s : Nat} {block : Bytes}
    (span : index + (left + 1) = ns.size) (inside : ns.memTotal ≤ block.length)
    (decrypt : Context) (input : Bytes) (within : input.length + s ≤ ns.fixedRun index) :
    ∃ stored rest offset,
      store block (ns.memOffset index + s) (decrypt.output input) = some stored ∧
      consume ns (left + 1) index 0 (ns.memOffset index + s) block decrypt input =
        .ok (resting ns rest offset stored (decrypt.feed input)) ∧
      RestingPlace ns rest offset ∧ index ≤ rest ∧
      ns.memOffset rest + offset = ns.memOffset index + input.length ∧
      ns.FixedBetween index rest := by
  induction left using Nat.strong_induction_on generalizing index block decrypt input with
  | _ left ih =>
      obtain ⟨field, found⟩ := ns.exists_field (show index < ns.size by omega)
      cases kind : field.type.isVariable with
      | true =>
          rw [ns.fixedRun_of_variable found kind] at within
          obtain rfl : s = 0 := by omega
          obtain rfl : input = [] := List.eq_nil_of_length_eq_zero (by omega)
          refine ⟨block, index, 0, by simp, ?_, Or.inr ⟨field, found, by simp [kind]⟩, le_refl _,
            by simp, fun _ _ ge lt => by omega⟩
          simpa using consume_nil wellFormed span inside decrypt
      | false =>
          have run := ns.fixedRun_of_fixed found kind
          have bound := ns.memOffset_add_fixedRun_le index
          have nextOffset := NetStruct.memOffset_succ found
          have positive := wellFormed.fixed_pos found kind
          obtain ⟨first, firstDone⟩ : ∃ first, store block (ns.memOffset index + s)
              (decrypt.output (input.take field.memSize)) = some first :=
            exists_store _ (by rw [Context.output_length, List.length_take]; omega)
          rw [consume_succ (wellFormed.calcFieldSz_of_fixed found kind _), Nat.add_zero, firstDone]
          by_cases short : input.length < field.memSize
          · have whole : input.take field.memSize = input := List.take_of_length_le short.le
            rw [whole] at firstDone
            refine ⟨first, index, input.length, firstDone, ?_,
              Or.inr ⟨field, found, by simpa [kind] using short⟩, le_refl _, rfl,
              fun _ _ ge lt => by omega⟩
            rw [resting_of_fixed wellFormed found kind]
            simp only [if_pos short, Nat.zero_add]
          · by_cases last : index + 1 = ns.size
            · have noRun : ns.fixedRun (index + 1) = 0 := by rw [last, ns.fixedRun_size]
              have exact : input.length = field.memSize := by omega
              have whole : input.take field.memSize = input := List.take_of_length_le exact.le
              rw [whole] at firstDone
              refine ⟨first, index + 1, 0, firstDone, ?_, Or.inl ⟨last, rfl⟩, Nat.le_succ _,
                by omega, NetStruct.FixedBetween.cons (fun _ _ ge lt => by omega) found kind⟩
              simp only [if_neg short, if_pos last, if_pos exact, resting]
            · obtain ⟨less, rfl⟩ : ∃ less, left = less + 1 := ⟨left - 1, by omega⟩
              have firstLength := store_length firstDone
              obtain ⟨stored, rest, offset, restDone, consumed, place, le, position, between⟩ :=
                ih less (by omega) (show index + 1 + (less + 1) = ns.size by omega)
                  (show ns.memTotal ≤ first.length by omega)
                  (decrypt.feed (input.take field.memSize)) (input.drop field.memSize)
                  (by rw [List.length_drop]; omega)
              have joined := store_append ((decrypt.feed (input.take field.memSize)).output
                (input.drop field.memSize)) firstDone (by
                  rw [← Context.output_append, List.take_append_drop, Context.output_length]
                  omega)
              have address : ns.memOffset index + s +
                  (decrypt.output (input.take field.memSize)).length =
                    ns.memOffset (index + 1) + s := by
                rw [Context.output_length, List.length_take, min_eq_left (by omega), nextOffset]
                omega
              rw [address, restDone, ← Context.output_append, List.take_append_drop] at joined
              have target : ns.memOffset index + s + field.memSize =
                  ns.memOffset (index + 1) + s := by omega
              rw [← Context.feed_append, List.take_append_drop] at consumed
              refine ⟨stored, rest, offset, joined.symm, ?_, place, by omega, ?_,
                between.cons found kind⟩
              · simp only [if_neg short, if_neg last, target, consumed]
              · rw [List.length_drop] at position
                omega

end ThemeSrv
