import ThemeSrv.FieldAccessors

/-!
# Agreement of the accessors and the codec

The macros and the codec interpret the same bytes independently.  They agree
on a little-endian host; on a big-endian one the conversions that are done in
`size_t` lose the number, and the getter of a string does not convert.
-/

namespace ThemeSrv

open AllocatedBlock ByteString

/-- A multi-byte field with a value in its range.  The value of a redundant
size leaves room for the size itself, and a text is shorter than its field. -/
inductive FieldValue
  | uint16 (value : UInt16)
  | uint32 (value : UInt32)
  | bufferSz (value : UInt32)
  | bufferRedundantSz (value : UInt32) (representable : value.toNat + uint32Size < 2 ^ 32)
  | stringUtf16 (szval : Nat) (field : StringUtf16 szval) (text : List UInt16)
      (short : text.length < szval)

/-- How `extract_elementcount` reports a count: one over the limit is
`(size_t)-1`. -/
def reportedCount (count : Nat) : Nat :=
  if count > kMaxBufCount then sizeMax else count

/-- The setter stores the little-endian form, the getter returns the value
again, and the codec reads the same integer and the same element count. -/
def AccessorsAgree (order : ByteOrder) (name : String) : FieldValue → Prop
  | .uint16 value =>
      let member := setUint16 order value
      let stored := order.memory 2 member.toNat
      leValue stored = value.toNat ∧ getUint16 order member = value ∧
        extractIntegerOn order ⟨.integer, name, 2, 1⟩ ⟨stored, 0⟩ = .ok value.toNat
  | .uint32 value =>
      let member := setUint32 order value
      let stored := order.memory 4 member.toNat
      leValue stored = value.toNat ∧ getUint32 order member = value ∧
        extractIntegerOn order ⟨.integer, name, 4, 1⟩ ⟨stored, 0⟩ = .ok value.toNat
  | .bufferSz value =>
      let member := setBufferSz order value
      let stored := order.memory 4 member.toNat
      let szField : NetField := ⟨.bufferSize, name ++ "sz", 4, 1⟩
      leValue stored = value.toNat ∧ getBufferSz order member = value ∧
        extractIntegerOn order szField ⟨stored, 0⟩ = .ok value.toNat ∧
        extractElementcountOn order szField ⟨.buffer, name, 1, 0⟩ ⟨stored, 4⟩ =
          .ok (reportedCount value.toNat)
  | .bufferRedundantSz value _ =>
      let member := setBufferRedundantSz order value
      let stored := order.memory 4 member.toNat
      let szField : NetField := ⟨.bufferSize, name ++ "sz", 4, 1⟩
      leValue stored = value.toNat + uint32Size ∧ getBufferRedundantSz order member = value ∧
        extractIntegerOn order szField ⟨stored, 0⟩ = .ok (value.toNat + uint32Size) ∧
        extractElementcountOn order szField ⟨.bufferRedundant, name, 1, 0⟩ ⟨stored, 4⟩ =
          .ok (reportedCount value.toNat)
  | .stringUtf16 szval field text _ =>
      let written := field.set order text
      let stored := order.memory 2 written.count.toNat
      let szField : NetField := ⟨.bufferSize, name ++ "sz", 2, 1⟩
      leValue stored = text.length ∧ written.get = some text ∧
        extractIntegerOn order szField ⟨stored, 0⟩ = .ok text.length ∧
        extractElementcountOn order szField ⟨.stringUtf16, name, 2, szval⟩ ⟨stored, 2⟩ =
          .ok (reportedCount text.length)

/-- The fields whose conversions work on the host. -/
def FieldValue.Portable (order : ByteOrder) : FieldValue → Prop
  | .uint16 _ | .uint32 _ | .bufferSz _ => True
  | .bufferRedundantSz _ _ => order = .little
  | .stringUtf16 _ _ text _ => (order = .little ∧ text.length < 2 ^ 16) ∨ text = []

/-! ### The codec -/

section Codec

variable {order : ByteOrder} {name : String} {stored : Bytes} {type : DataType}

theorem codec_integer {width : Nat} (covers : stored.length = width)
    (known : width = 2 ∨ width = 4) :
    extractIntegerOn order ⟨type, name, width, 1⟩ ⟨stored, 0⟩ = .ok (leValue stored) := by
  have loaded : load stored 0 width = some stored := by
    rw [load_eq_some (by omega), List.drop_zero, ← covers, List.take_length]
  rw [extractIntegerOn_eq]
  apply extractInteger_eq _ loaded
  rcases known with rfl | rfl <;> simp

theorem codec_count {width elementsz count : Nat} (covers : stored.length = width)
    (known : width = 2 ∨ width = 4) (single : type = .bufferRedundant → elementsz = 1) :
    extractElementcountOn order ⟨.bufferSize, name ++ "sz", width, 1⟩
        ⟨type, name, elementsz, count⟩ ⟨stored, width⟩ =
      .ok (countOrMax (announcedCount ⟨.bufferSize, name ++ "sz", width, 1⟩
        ⟨type, name, elementsz, count⟩ (leValue stored))) := by
  have loaded : load stored (width - width) width = some stored := by
    rw [Nat.sub_self, load_eq_some (by omega), List.drop_zero, ← covers, List.take_length]
  have fields : NetStruct.Prefixed
      ⟨name, [⟨.bufferSize, name ++ "sz", width, 1⟩, ⟨type, name, elementsz, count⟩]⟩ 1
      ⟨type, name, elementsz, count⟩ ⟨.bufferSize, name ++ "sz", width, 1⟩ := by
    constructor
    case found => rfl
    case type => rfl
    case count => rfl
    case width => rcases known with rfl | rfl <;> simp
    case divides =>
      intro redundant
      change width % elementsz = 0
      rw [single redundant, Nat.mod_one]
    case last =>
      intro buffer
      rfl
  rw [extractElementcountOn_eq]
  exact extractElementcount_eq fields (le_refl width) loaded

theorem countOrMax_plain {szField field : NetField} (plain : field.type ≠ .bufferRedundant)
    (value : Nat) : countOrMax (announcedCount szField field value) = reportedCount value := by
  have own : ownCount szField field = 0 := if_neg plain
  unfold announcedCount reportedCount
  rw [own, Nat.sub_zero]
  by_cases within : value ≤ kMaxBufCount
  · rw [if_pos ⟨Nat.zero_le _, within⟩, if_neg (by omega)]
    rfl
  · rw [if_neg (fun both => within both.2), if_pos (by omega)]
    rfl

theorem countOrMax_redundant (value : Nat) :
    countOrMax (announcedCount ⟨.bufferSize, name ++ "sz", 4, 1⟩ ⟨.bufferRedundant, name, 1, 0⟩
      (value + uint32Size)) = reportedCount value := by
  have own : ownCount ⟨.bufferSize, name ++ "sz", 4, 1⟩ ⟨.bufferRedundant, name, 1, 0⟩ =
      uint32Size := by
    simp [ownCount, uint32Size]
  unfold announcedCount reportedCount
  rw [own, Nat.add_sub_cancel]
  by_cases within : value ≤ kMaxBufCount
  · rw [if_pos ⟨Nat.le_add_left _ _, within⟩, if_neg (by omega)]
    rfl
  · rw [if_neg (fun both => within both.2), if_pos (by omega)]
    rfl

end Codec

/-! ### The accessors -/

section Accessors

variable (order : ByteOrder)

theorem setUint16_toNat (value : UInt16) :
    (setUint16 order value).toNat = themeLe order 2 value.toNat := by
  rw [setUint16, UInt16.toNat_ofNat']
  exact Nat.mod_eq_of_lt (themeLe_lt order value.toNat_lt)

theorem setUint32_toNat (value : UInt32) :
    (setUint32 order value).toNat = themeLe order 4 value.toNat := by
  rw [setUint32, UInt32.toNat_ofNat']
  exact Nat.mod_eq_of_lt (themeLe_lt order value.toNat_lt)

theorem getUint16_setUint16 (value : UInt16) : getUint16 order (setUint16 order value) = value := by
  rw [getUint16, setUint16_toNat, themeLe_themeLe order value.toNat_lt, UInt16.ofNat_toNat]

theorem getUint32_setUint32 (value : UInt32) : getUint32 order (setUint32 order value) = value := by
  rw [getUint32, setUint32_toNat, themeLe_themeLe order value.toNat_lt, UInt32.ofNat_toNat]

theorem leValue_setUint16 (value : UInt16) :
    leValue (order.memory 2 (setUint16 order value).toNat) = value.toNat := by
  rw [setUint16_toNat, memory_themeLe, leValue_leBytes_of_lt value.toNat_lt]

theorem leValue_setUint32 (value : UInt32) :
    leValue (order.memory 4 (setUint32 order value).toNat) = value.toNat := by
  rw [setUint32_toNat, memory_themeLe, leValue_leBytes_of_lt value.toNat_lt]

/-- The bytes of a `size_t` that was swapped hold nothing of a small number. -/
theorem toNat_wide_swap (width : Nat) (number : Nat) (narrow : width ≤ sizeWidth)
    (small : number < 256 ^ (sizeWidth - width)) :
    themeLe .big sizeWidth number % 256 ^ width = 0 :=
  swapped_mod_eq_zero narrow small

theorem getBufferRedundantSz_little {value : UInt32}
    (representable : value.toNat + uint32Size < 2 ^ 32) :
    (setBufferRedundantSz .little value).toNat = value.toNat + uint32Size ∧
      getBufferRedundantSz .little (setBufferRedundantSz .little value) = value := by
  have stored : (setBufferRedundantSz .little value).toNat = value.toNat + uint32Size := by
    rw [setBufferRedundantSz, UInt32.toNat_ofNat']
    simp only [themeLe, sizeT, sizeMod]
    omega
  refine ⟨stored, ?_⟩
  have back : sizeT (value.toNat + uint32Size + sizeMod - uint32Size) = value.toNat := by
    unfold sizeT sizeMod uint32Size at *
    omega
  rw [getBufferRedundantSz, stored, themeLe, back, UInt32.ofNat_toNat]

theorem setBufferRedundantSz_big {value : UInt32}
    (representable : value.toNat + uint32Size < 2 ^ 32) :
    (setBufferRedundantSz .big value).toNat = 0 := by
  have plain : sizeT (value.toNat + uint32Size) = value.toNat + uint32Size := by
    unfold sizeT sizeMod
    omega
  have power : 2 ^ 32 = 256 ^ 4 := by norm_num
  rw [setBufferRedundantSz, UInt32.toNat_ofNat', plain, power]
  rw [power] at representable
  exact toNat_wide_swap 4 _ (by decide) representable

theorem StringUtf16.set_prefix {szval : Nat} (field : StringUtf16 szval) {text : List UInt16}
    (short : text.length < szval) : text <+: (field.set order text).units := by
  have size : min szval text.length = text.length := by omega
  have terminator : min (szval - 1) text.length = text.length := by omega
  simp only [StringUtf16.set, size, terminator, List.take_length]
  rw [List.set_append_right _ _ (le_refl _)]
  exact List.prefix_append _ _

theorem StringUtf16.get_of_count {szval : Nat} {field : StringUtf16 szval} {text : List UInt16}
    (front : text <+: field.units) (count : field.count.toNat = text.length) :
    field.get = some text := by
  have room := front.length_le
  rw [field.covers] at room
  rw [StringUtf16.get, count, if_pos room, ← List.prefix_iff_eq_take.1 front]

end Accessors

/-! ### Agreement -/

section Strings

variable {order : ByteOrder} {szval : Nat} {text : List UInt16}

theorem StringUtf16.set_count (field : StringUtf16 szval) (order : ByteOrder)
    (short : text.length < szval) :
    (field.set order text).count.toNat = themeLe order sizeWidth text.length % 2 ^ 16 := by
  have size : min szval text.length = text.length := by omega
  simp only [StringUtf16.set, size, UInt16.toNat_ofNat']

theorem agree_string (name : String) {field : StringUtf16 szval} (short : text.length < szval)
    (count : (field.set order text).count.toNat = text.length)
    (stored : leValue (order.memory 2 (field.set order text).count.toNat) = text.length) :
    AccessorsAgree order name (.stringUtf16 szval field text short) := by
  refine ⟨stored, StringUtf16.get_of_count (StringUtf16.set_prefix order field short) count, ?_, ?_⟩
  · rw [codec_integer (order.memory_length _ _) (Or.inl rfl), stored]
  · rw [codec_count (order.memory_length _ _) (Or.inl rfl) (fun redundant => by cases redundant),
      stored, countOrMax_plain (by simp)]

theorem agree_string_iff (name : String) (field : StringUtf16 szval) (short : text.length < szval) :
    AccessorsAgree order name (.stringUtf16 szval field text short) ↔
      (order = .little ∧ text.length < 2 ^ 16) ∨ text = [] := by
  have written := field.set_count order short
  constructor
  · rintro ⟨stored, -⟩
    have below : text.length < 256 ^ 2 := by
      rw [← stored]
      have bound := leValue_lt (order.memory 2 (field.set order text).count.toNat)
      rwa [order.memory_length] at bound
    cases order with
    | little => exact Or.inl ⟨rfl, by omega⟩
    | big =>
        -- the swap at the width of `size_t` leaves a zero
        have vanishes := toNat_wide_swap 2 text.length (by decide)
          (below.trans (by decide))
        rw [written] at stored
        have zero : leValue (ByteOrder.memory .big 2 0) = 0 := by decide
        have power : 2 ^ 16 = 256 ^ 2 := by norm_num
        rw [power, vanishes, zero] at stored
        exact Or.inr (List.length_eq_zero_iff.1 stored.symm)
  · rintro (⟨rfl, fits⟩ | rfl)
    · have count : (field.set .little text).count.toNat = text.length :=
        written.trans (Nat.mod_eq_of_lt fits)
      apply agree_string name short count
      rw [count]
      exact leValue_leBytes_of_lt fits
    · have none : themeLe order sizeWidth 0 = 0 := by cases order <;> decide
      have count : (field.set order []).count.toNat = 0 := by
        rw [written, List.length_nil, none, Nat.zero_mod]
      apply agree_string name short count
      rw [count]
      cases order <;> decide

end Strings

/-- The accessors and the codec agree exactly on the fields whose conversions
are made at the width of the member, in both directions. -/
theorem accessorsAgree_iff (order : ByteOrder) (name : String) (value : FieldValue) :
    AccessorsAgree order name value ↔ value.Portable order := by
  cases value with
  | uint16 value =>
      refine iff_of_true ⟨leValue_setUint16 order value, getUint16_setUint16 order value, ?_⟩ trivial
      rw [codec_integer (order.memory_length _ _) (Or.inl rfl), leValue_setUint16]
  | uint32 value =>
      refine iff_of_true ⟨leValue_setUint32 order value, getUint32_setUint32 order value, ?_⟩ trivial
      rw [codec_integer (order.memory_length _ _) (Or.inr rfl), leValue_setUint32]
  | bufferSz value =>
      have stored : leValue (order.memory 4 (setBufferSz order value).toNat) = value.toNat :=
        leValue_setUint32 order value
      refine iff_of_true ⟨stored, getUint32_setUint32 order value, ?_, ?_⟩ trivial
      · rw [codec_integer (order.memory_length _ _) (Or.inr rfl), stored]
      · rw [codec_count (order.memory_length _ _) (Or.inr rfl) (fun _ => rfl), stored,
          countOrMax_plain (by simp)]
  | bufferRedundantSz value representable =>
      cases order with
      | little =>
          obtain ⟨member, back⟩ := getBufferRedundantSz_little representable
          have stored : leValue (ByteOrder.memory .little 4
              (setBufferRedundantSz .little value).toNat) = value.toNat + uint32Size := by
            rw [member]
            exact leValue_leBytes_of_lt representable
          refine iff_of_true ⟨stored, back, ?_, ?_⟩ rfl
          · rw [codec_integer (ByteOrder.memory_length _ _ _) (Or.inr rfl), stored]
          · rw [codec_count (ByteOrder.memory_length _ _ _) (Or.inr rfl) (fun _ => rfl), stored,
              countOrMax_redundant]
      | big =>
          constructor
          · intro agree
            have stored := agree.1
            rw [setBufferRedundantSz_big representable] at stored
            have zero : leValue (ByteOrder.memory .big 4 0) = 0 := by decide
            unfold uint32Size at stored
            omega
          · intro little
            cases little
  | stringUtf16 szval field text short => exact agree_string_iff name field short

/-- A big-endian host stores the text "A" with a count of zero. -/
theorem not_accessorsAgree_every_order :
    ¬ ∀ (order : ByteOrder) (name : String) (value : FieldValue),
      AccessorsAgree order name value := by
  intro agree
  have stored := (agree .big "address" (.stringUtf16 24 (.cleared (by decide)) [0x41] (by decide))).1
  revert stored
  decide

end ThemeSrv
