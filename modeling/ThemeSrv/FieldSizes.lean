import ThemeSrv.ClientBase

/-!
# What `calc_field_sz` computes

For a well-formed descriptor the size functions of the codec never fail and
never wrap, except where an element count is rejected: the rejected count is
`(size_t)-1`, and it is multiplied by the element size like any other.  The
size of a variable field depends on its length prefix alone.
-/

namespace ThemeSrv

open AllocatedBlock ByteString

/-! ### Offsets -/

namespace NetStruct

variable {ns : NetStruct} {index : Nat} {field : NetField}

theorem lt_size_of_found (found : ns.fields[index]? = some field) : index < ns.size :=
  (List.getElem?_eq_some_iff.mp found).1

theorem exists_field (inside : index < ns.size) : ∃ field, ns.fields[index]? = some field :=
  ⟨_, List.getElem?_eq_getElem inside⟩

@[simp]
theorem memOffset_zero (ns : NetStruct) : ns.memOffset 0 = 0 := by
  simp [memOffset]

theorem memOffset_succ (found : ns.fields[index]? = some field) :
    ns.memOffset (index + 1) = ns.memOffset index + field.memSize := by
  simp [memOffset, List.take_add_one, found]

@[simp]
theorem memOffset_size (ns : NetStruct) : ns.memOffset ns.size = ns.memTotal := by
  simp [memOffset, memTotal, size]

theorem memOffset_mono {first second : Nat} (le : first ≤ second) :
    ns.memOffset first ≤ ns.memOffset second := by
  obtain ⟨step, rfl⟩ := Nat.exists_eq_add_of_le le
  simp [memOffset, List.take_add]

theorem memTotal_eq (ns : NetStruct) (index : Nat) :
    ns.memTotal =
      ns.memOffset index + ((ns.fields.drop index).map NetField.memSize).sum := by
  rw [memTotal, memOffset, ← List.sum_append, ← List.map_append, List.take_append_drop]

theorem memOffset_le_memTotal (ns : NetStruct) (index : Nat) :
    ns.memOffset index ≤ ns.memTotal := by
  rw [ns.memTotal_eq index]
  exact Nat.le_add_right _ _

theorem memTotal_le_extent (ns : NetStruct) : ns.memTotal ≤ ns.extent := by
  unfold memTotal extent
  exact List.sum_le_sum fun field _ => Nat.le_add_right _ _

theorem memSize_add_limit_le_extent (found : ns.fields[index]? = some field) :
    ns.memTotal + field.elementsz * kMaxBufCount ≤ ns.extent := by
  have member : field.elementsz * kMaxBufCount ∈
      ns.fields.map fun field => field.elementsz * kMaxBufCount :=
    List.mem_map.mpr ⟨field, List.mem_of_getElem? found, rfl⟩
  have bound := List.le_sum_of_mem member
  have split : ns.extent =
      ns.memTotal + (ns.fields.map fun field => field.elementsz * kMaxBufCount).sum := by
    simp only [extent, memTotal]
    exact List.sum_map_add
  omega

/-! ### Runs of fixed fields -/

theorem fixedRun_of_variable (found : ns.fields[index]? = some field)
    (variableSize : field.type.isVariable = true) : ns.fixedRun index = 0 := by
  obtain ⟨inside, rfl⟩ := List.getElem?_eq_some_iff.mp found
  rw [fixedRun, List.drop_eq_getElem_cons inside,
    List.takeWhile_cons_of_neg (by simp [variableSize])]
  rfl

theorem fixedRun_of_fixed (found : ns.fields[index]? = some field)
    (fixedSize : field.type.isVariable = false) :
    ns.fixedRun index = field.memSize + ns.fixedRun (index + 1) := by
  obtain ⟨inside, rfl⟩ := List.getElem?_eq_some_iff.mp found
  rw [fixedRun, List.drop_eq_getElem_cons inside,
    List.takeWhile_cons_of_pos (by simp [fixedSize]), List.map_cons, List.sum_cons, fixedRun]

@[simp]
theorem fixedRun_size (ns : NetStruct) : ns.fixedRun ns.size = 0 := by
  simp [fixedRun, size]

theorem memOffset_add_fixedRun_le (ns : NetStruct) (index : Nat) :
    ns.memOffset index + ns.fixedRun index ≤ ns.memTotal := by
  have total := ns.memTotal_eq index
  have run : ns.fixedRun index ≤ ((ns.fields.drop index).map NetField.memSize).sum := by
    unfold fixedRun
    exact List.Sublist.sum_le_sum ((List.takeWhile_sublist _).map _) (fun _ _ => Nat.zero_le _)
  omega

/-- The fields from one index up to another are all fixed. -/
def FixedBetween (ns : NetStruct) (first last : Nat) : Prop :=
  ∀ (index : Nat) (field : NetField), first ≤ index → index < last →
    ns.fields[index]? = some field → field.type.isVariable = false

theorem FixedBetween.tail {first last : Nat} (between : ns.FixedBetween first last) :
    ns.FixedBetween (first + 1) last :=
  fun index field ge lt found => between index field (by omega) lt found

theorem FixedBetween.cons {first last : Nat} (between : ns.FixedBetween (first + 1) last)
    (found : ns.fields[first]? = some field) (fixedSize : field.type.isVariable = false) :
    ns.FixedBetween first last := by
  intro index other ge lt foundOther
  rcases Nat.eq_or_lt_of_le ge with same | later
  · subst same
    cases found.symm.trans foundOther
    exact fixedSize
  · exact between index other later lt foundOther

/-- What each of the fixed fields preserves goes from the first to the last. -/
theorem FixedBetween.carried {first last : Nat} (between : ns.FixedBetween first last)
    (le : first ≤ last) (inside : last ≤ ns.size) {motive : Nat → Prop} (start : motive first)
    (step : ∀ (index : Nat) (field : NetField), ns.fields[index]? = some field →
      field.type.isVariable = false → motive index → motive (index + 1)) : motive last := by
  induction le with
  | refl => exact start
  | @step last le ih =>
      obtain ⟨field, found⟩ := ns.exists_field (show last < ns.size by omega)
      have fixedSize := between last field le (Nat.lt_succ_self last) found
      have prior := ih (fun index field ge lt => between index field ge (by omega)) (by omega)
      exact step last field found fixedSize prior

/-- Inside a run the lengths of the remaining run and the offsets agree. -/
theorem FixedBetween.memOffset_add_fixedRun {first last : Nat}
    (between : ns.FixedBetween first last) (le : first ≤ last) (inside : last ≤ ns.size) :
    ns.memOffset last + ns.fixedRun last = ns.memOffset first + ns.fixedRun first := by
  apply between.carried le inside (motive := fun index =>
    ns.memOffset index + ns.fixedRun index = ns.memOffset first + ns.fixedRun first) rfl
  intro index field found fixedSize prior
  have run := ns.fixedRun_of_fixed found fixedSize
  have offset := memOffset_succ found
  omega

/-! ### Consequences of the shape -/

/-- The field in front of a variable field, which carries its length. -/
structure Prefixed (ns : NetStruct) (index : Nat) (field sizeField : NetField) : Prop where
  found : ns.previous? index = some sizeField
  type : sizeField.type = .bufferSize
  count : sizeField.count = 1
  width : sizeField.elementsz = 1 ∨ sizeField.elementsz = 2 ∨ sizeField.elementsz = 4 ∨
    sizeField.elementsz = 8
  divides : field.type = .bufferRedundant → sizeField.elementsz % field.elementsz = 0
  last : field.type.isBuffer = true → index + 1 = ns.size

namespace WellFormed

theorem fixed_pos (wellFormed : ns.WellFormed) (found : ns.fields[index]? = some field)
    (fixedSize : field.type.isVariable = false) : 0 < field.memSize := by
  have shape := wellFormed.shape index field found
  unfold fieldShape at shape
  rw [if_neg (by simp [fixedSize])] at shape
  exact of_decide_eq_true shape

theorem prefixed (wellFormed : ns.WellFormed) (found : ns.fields[index]? = some field)
    (variableSize : field.type.isVariable = true) :
    ∃ sizeField, ns.Prefixed index field sizeField := by
  have shape := wellFormed.shape index field found
  unfold fieldShape at shape
  rw [if_pos variableSize] at shape
  cases previous : ns.previous? index with
  | none => simp [previous] at shape
  | some sizeField =>
      simp only [previous, Bool.and_eq_true, Bool.or_eq_true, Bool.not_eq_true', beq_iff_eq,
        bne_iff_ne, ne_eq, List.contains_eq_mem, decide_eq_true_eq, List.mem_cons,
        List.not_mem_nil, or_false] at shape
      obtain ⟨place, ⟨⟨type, count⟩, width⟩, divides⟩ := shape
      refine ⟨sizeField, previous, type, count, width, ?_, ?_⟩
      · intro redundant
        exact divides.resolve_left (fun other => other redundant)
      · intro buffer
        exact place.resolve_left (by simp [buffer])

theorem memTotal_lt (wellFormed : ns.WellFormed) : ns.memTotal + 64 ≤ 2 ^ 63 := by
  have addressable := wellFormed.addressable
  have below := ns.memTotal_le_extent
  omega

theorem limit_lt (wellFormed : ns.WellFormed) (found : ns.fields[index]? = some field) :
    ns.memTotal + field.elementsz * kMaxBufCount + 64 ≤ 2 ^ 63 := by
  have addressable := wellFormed.addressable
  have below := memSize_add_limit_le_extent found
  omega

end WellFormed

namespace Prefixed

variable {sizeField : NetField}

theorem exists_succ (prefixed : ns.Prefixed index field sizeField) :
    ∃ before, index = before + 1 ∧ ns.fields[before]? = some sizeField := by
  cases index with
  | zero => exact absurd prefixed.found (by simp [previous?])
  | succ before => exact ⟨before, rfl, prefixed.found⟩

theorem memSize_eq (prefixed : ns.Prefixed index field sizeField) :
    sizeField.memSize = sizeField.elementsz := by
  simp [NetField.memSize, prefixed.count]

theorem width_pos (prefixed : ns.Prefixed index field sizeField) :
    0 < sizeField.elementsz ∧ sizeField.elementsz ≤ 8 := by
  rcases prefixed.width with width | width | width | width <;> omega

theorem fixedSize (prefixed : ns.Prefixed index field sizeField) :
    sizeField.type.isVariable = false := by
  rw [prefixed.type]
  rfl

theorem assertD_last (prefixed : ns.Prefixed index field sizeField) :
    assertD (!field.type.isBuffer || index + 1 == ns.size) = .ok () := by
  cases buffer : field.type.isBuffer with
  | false => rfl
  | true => simp [assertD, prefixed.last buffer]

theorem memOffset_eq (prefixed : ns.Prefixed index field sizeField) :
    ns.memOffset index = ns.memOffset (index - 1) + sizeField.elementsz := by
  obtain ⟨before, rfl, found⟩ := prefixed.exists_succ
  rw [memOffset_succ found, prefixed.memSize_eq, Nat.add_sub_cancel]

end Prefixed

end NetStruct

/-! ### Length prefixes -/

/-- What a length prefix counts besides the elements: a redundant prefix
counts itself. -/
def ownCount (sizeField field : NetField) : Nat :=
  if field.type = .bufferRedundant then sizeField.elementsz / field.elementsz else 0

/-- The number of elements a prefix value announces, if it is valid and
within the limit. -/
def announcedCount (sizeField field : NetField) (value : Nat) : Option Nat :=
  if ownCount sizeField field ≤ value ∧ value - ownCount sizeField field ≤ kMaxBufCount then
    some (value - ownCount sizeField field)
  else
    none

theorem announcedCount_le {sizeField field : NetField} {value count : Nat}
    (announced : announcedCount sizeField field value = some count) :
    count ≤ kMaxBufCount ∧ value = count + ownCount sizeField field := by
  unfold announcedCount at announced
  split at announced
  · cases announced
    omega
  · cases announced

/-- How `extract_elementcount` reports a count: in-band. -/
def countOrMax : Option Nat → Nat
  | some count => count
  | none => sizeMax

theorem extractInteger_eq {field : NetField} {block bytes : Bytes} {position : Nat}
    (width : field.elementsz = 1 ∨ field.elementsz = 2 ∨ field.elementsz = 4 ∨
      field.elementsz = 8)
    (loaded : load block position field.elementsz = some bytes) :
    extractInteger field ⟨block, position⟩ = .ok (leValue bytes) := by
  unfold extractInteger
  rcases width with width | width | width | width <;>
    simp only [width] at loaded ⊢ <;> simp [loaded]

theorem ownCount_le {ns : NetStruct} {index : Nat} {field sizeField : NetField}
    (prefixed : ns.Prefixed index field sizeField) : ownCount sizeField field ≤ 8 := by
  unfold ownCount
  split
  · exact (Nat.div_le_self _ _).trans prefixed.width_pos.2
  · omega

/-- Subtracting a redundant prefix's own size in `size_t` either is exact or
leaves a number over the limit. -/
theorem countOrMax_announcedCount {sizeField field : NetField} {value : Nat}
    (own : ownCount sizeField field ≤ 8) (small : value < sizeMod) :
    (if sizeT (value + sizeMod - ownCount sizeField field) > kMaxBufCount then sizeMax
      else sizeT (value + sizeMod - ownCount sizeField field)) =
      countOrMax (announcedCount sizeField field value) := by
  unfold announcedCount sizeT sizeMod sizeMax kMaxBufCount at *
  by_cases enough : ownCount sizeField field ≤ value
  · have exact : (value + 2 ^ 64 - ownCount sizeField field) % 2 ^ 64 =
        value - ownCount sizeField field := by omega
    rw [exact]
    by_cases within : value - ownCount sizeField field ≤ 1024
    · rw [if_neg (by omega), if_pos ⟨enough, within⟩]
      rfl
    · rw [if_pos (by omega), if_neg (by omega)]
      rfl
  · have wrapped : (value + 2 ^ 64 - ownCount sizeField field) % 2 ^ 64 =
        value + 2 ^ 64 - ownCount sizeField field := by omega
    rw [wrapped, if_pos (by omega), if_neg (by omega)]
    rfl

theorem extractElementcount_eq {ns : NetStruct} {index : Nat} {field sizeField : NetField}
    (prefixed : ns.Prefixed index field sizeField) {block bytes : Bytes} {position : Nat}
    (behind : sizeField.elementsz ≤ position)
    (loaded : load block (position - sizeField.elementsz) sizeField.elementsz = some bytes) :
    extractElementcount sizeField field ⟨block, position⟩ =
      .ok (countOrMax (announcedCount sizeField field (leValue bytes))) := by
  have small : leValue bytes < sizeMod := by
    have below := leValue_lt bytes
    have width := load_length loaded
    have power : 256 ^ bytes.length ≤ 256 ^ 8 :=
      Nat.pow_le_pow_right (by omega) (by have := prefixed.width_pos; omega)
    unfold sizeMod
    omega
  have limit := countOrMax_announcedCount (ownCount_le prefixed) small
  unfold extractElementcount
  rw [extractInteger_eq prefixed.width loaded]
  by_cases redundant : field.type = .bufferRedundant
  · have own : ownCount sizeField field = sizeField.elementsz / field.elementsz := by
      simp [ownCount, redundant]
    rw [own] at limit
    simp only [assertD, prefixed.type, prefixed.count, redundant, prefixed.divides redundant,
      beq_self_eq_true, if_true, if_neg (Nat.not_lt.mpr behind), pure, bind, Except.bind,
      Except.pure, limit]
  · have own : ownCount sizeField field = 0 := by simp [ownCount, redundant]
    have plain : sizeT (leValue bytes + sizeMod - 0) = leValue bytes := by
      unfold sizeT sizeMod at *
      omega
    rw [own, plain] at limit
    simp only [assertD, prefixed.type, prefixed.count, beq_self_eq_true,
      beq_eq_false_iff_ne.mpr redundant, if_true, Bool.false_eq_true, if_false,
      if_neg (Nat.not_lt.mpr behind), pure, bind, Except.bind, Except.pure, limit]

theorem extractElementcount_outside {ns : NetStruct} {index : Nat} {field sizeField : NetField}
    (prefixed : ns.Prefixed index field sizeField) {block : Bytes} {position : Nat}
    (outside : position < sizeField.elementsz ∨
      load block (position - sizeField.elementsz) sizeField.elementsz = none) :
    extractElementcount sizeField field ⟨block, position⟩ = .error .load := by
  have type : assertD (sizeField.type == .bufferSize) = .ok () := by simp [assertD, prefixed.type]
  have count : assertD (sizeField.count == 1) = .ok () := by simp [assertD, prefixed.count]
  simp only [extractElementcount, type, count, bind, Except.bind]
  by_cases short : position < sizeField.elementsz
  · rw [if_pos short]
    rfl
  · have missing := outside.resolve_left short
    have failed : extractInteger sizeField ⟨block, position - sizeField.elementsz⟩ =
        .error .load := by
      unfold extractInteger
      rcases prefixed.width with width | width | width | width <;>
        simp only [width] at missing ⊢ <;> simp [missing]
    rw [if_neg short, failed]

/-! ### Field sizes -/

namespace NetStruct

/-- The element count a message buffer announces for one of its fields. -/
def announced (ns : NetStruct) (block : Bytes) (index : Nat) : Option Nat :=
  match ns.fields[index]?, ns.previous? index with
  | some field, some sizeField =>
      (load block (ns.memOffset index - sizeField.elementsz) sizeField.elementsz).bind
        fun bytes => announcedCount sizeField field (leValue bytes)
  | _, _ => none

/-- The wire size the codec gives a field, from the prefix in the buffer. -/
def wireSz (ns : NetStruct) (block : Bytes) (index : Nat) : Nat :=
  match ns.fields[index]? with
  | none => 0
  | some field =>
      if field.type.isVariable then
        sizeT (field.elementsz * countOrMax (ns.announced block index))
      else
        field.memSize

variable {ns : NetStruct} {index : Nat} {field : NetField} {block : Bytes}

theorem wireSz_of_fixed (found : ns.fields[index]? = some field)
    (fixedSize : field.type.isVariable = false) : ns.wireSz block index = field.memSize := by
  simp [wireSz, found, fixedSize]

theorem wireSz_of_variable (found : ns.fields[index]? = some field)
    (variableSize : field.type.isVariable = true) :
    ns.wireSz block index =
      sizeT (field.elementsz * countOrMax (ns.announced block index)) := by
  simp [wireSz, found, variableSize]

namespace WellFormed

theorem sizeT_memSize (wellFormed : ns.WellFormed) (found : ns.fields[index]? = some field) :
    sizeT (field.elementsz * field.count) = field.memSize := by
  have below := ns.memOffset_le_memTotal (index + 1)
  rw [memOffset_succ found] at below
  have bound := wellFormed.memTotal_lt
  exact Nat.mod_eq_of_lt (by unfold sizeMod; change field.memSize < _; omega)

theorem calcFieldSz_of_fixed (wellFormed : ns.WellFormed)
    (found : ns.fields[index]? = some field) (fixedSize : field.type.isVariable = false)
    (ptr : Option Pointer) :
    calcFieldSz ns index ptr = .ok ⟨true, field.memSize, field.memSize⟩ := by
  simp [calcFieldSz, found, fixedSize, wellFormed.sizeT_memSize found]

theorem calcFieldSz_none (wellFormed : ns.WellFormed)
    (found : ns.fields[index]? = some field) (variableSize : field.type.isVariable = true) :
    calcFieldSz ns index none = .ok ⟨false, field.memSize, 0⟩ := by
  obtain ⟨sizeField, prefixed⟩ := wellFormed.prefixed found variableSize
  have place := prefixed.assertD_last
  simp only [calcFieldSz, found, variableSize, if_true, prefixed.found,
    wellFormed.sizeT_memSize found, place, bind, Except.bind, pure, Except.pure]

theorem calcFieldSz_of_variable (wellFormed : ns.WellFormed)
    (found : ns.fields[index]? = some field) (variableSize : field.type.isVariable = true)
    {sizeField : NetField} (prefixed : ns.Prefixed index field sizeField)
    {bytes : Bytes} {position : Nat} (behind : sizeField.elementsz ≤ position)
    (loaded : load block (position - sizeField.elementsz) sizeField.elementsz = some bytes) :
    calcFieldSz ns index (some ⟨block, position⟩) =
      .ok ⟨true, field.memSize, sizeT (field.elementsz *
        countOrMax (announcedCount sizeField field (leValue bytes)))⟩ := by
  have place := prefixed.assertD_last
  simp only [calcFieldSz, found, variableSize, if_true, prefixed.found,
    wellFormed.sizeT_memSize found, extractElementcount_eq prefixed behind loaded, place, bind,
    Except.bind, pure, Except.pure]

/-- A prefix in a buffer that holds the fields before it can be loaded. -/
theorem exists_load_prefix {sizeField : NetField}
    (prefixed : ns.Prefixed index field sizeField) (inside : ns.memOffset index ≤ block.length) :
    ∃ bytes, load block (ns.memOffset index - sizeField.elementsz) sizeField.elementsz =
      some bytes := by
  have offset := prefixed.memOffset_eq
  exact ⟨_, load_eq_some (by omega)⟩

theorem announced_eq {sizeField : NetField} (found : ns.fields[index]? = some field)
    (prefixed : ns.Prefixed index field sizeField) {bytes : Bytes}
    (loaded : load block (ns.memOffset index - sizeField.elementsz) sizeField.elementsz =
      some bytes) :
    ns.announced block index = announcedCount sizeField field (leValue bytes) := by
  simp [announced, found, prefixed.found, loaded]

/-- Sizes of a field of a buffer that holds the fields before it. -/
theorem calcFieldSz_at (wellFormed : ns.WellFormed) (found : ns.fields[index]? = some field)
    (inside : ns.memOffset index ≤ block.length) :
    calcFieldSz ns index (some ⟨block, ns.memOffset index⟩) =
      .ok ⟨true, field.memSize, ns.wireSz block index⟩ := by
  cases kind : field.type.isVariable with
  | false =>
      rw [wellFormed.calcFieldSz_of_fixed found kind, wireSz_of_fixed found kind]
  | true =>
      obtain ⟨sizeField, prefixed⟩ := wellFormed.prefixed found kind
      obtain ⟨bytes, loaded⟩ := exists_load_prefix prefixed inside
      have offset := prefixed.memOffset_eq
      rw [wellFormed.calcFieldSz_of_variable found kind prefixed (by omega) loaded,
        wireSz_of_variable found kind, announced_eq found prefixed loaded]

end WellFormed

/-- The wire size of a field depends on the buffer in front of it only. -/
theorem WellFormed.announced_congr (wellFormed : ns.WellFormed) {first second : Bytes}
    (same : first.take (ns.memOffset index) = second.take (ns.memOffset index))
    (insideFirst : ns.memOffset index ≤ first.length)
    (insideSecond : ns.memOffset index ≤ second.length)
    (found : ns.fields[index]? = some field) (variableSize : field.type.isVariable = true) :
    ns.announced first index = ns.announced second index := by
  obtain ⟨sizeField, prefixed⟩ := wellFormed.prefixed found variableSize
  have offset := prefixed.memOffset_eq
  have sameLoad : load first (ns.memOffset index - sizeField.elementsz) sizeField.elementsz =
      load second (ns.memOffset index - sizeField.elementsz) sizeField.elementsz :=
    load_congr_take same (by omega) insideFirst insideSecond
  simp only [announced, found, prefixed.found, sameLoad]

theorem WellFormed.wireSz_congr (wellFormed : ns.WellFormed) {first second : Bytes}
    (same : first.take (ns.memOffset index) = second.take (ns.memOffset index))
    (insideFirst : ns.memOffset index ≤ first.length)
    (insideSecond : ns.memOffset index ≤ second.length) :
    ns.wireSz first index = ns.wireSz second index := by
  unfold wireSz
  split
  · rfl
  · next field found =>
      split
      · next variableSize =>
          rw [wellFormed.announced_congr same insideFirst insideSecond found variableSize]
      · rfl

end NetStruct

end ThemeSrv
