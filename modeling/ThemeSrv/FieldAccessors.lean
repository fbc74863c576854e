import ThemeSrv.FieldSizes
import ThemeSrv.NativeByteOrder

/-!
# Field accessors

The setters and getters that the macros of `protocol_structs_begin.inl` give a
packed struct, and the integer functions of the codec, on a host of either
byte order.
-/

namespace ThemeSrv

open AllocatedBlock ByteString

/-! ### Conversions -/

/-- `THEME_LE16`, `THEME_LE32` and `THEME_LE64`: the overload of `swap_endian`
is chosen by the width of the argument's type, and there is one only when
`THEME_BIG_ENDIAN` is defined. -/
def themeLe : ByteOrder → Nat → Nat → Nat
  | .little, _, number => number
  | .big, width, number => swapped width number

/-- Width of `size_t`. -/
def sizeWidth : Nat := 8

/-- `sizeof(uint32_t)`. -/
def uint32Size : Nat := 4

/-! ### Integer fields -/

/-- `THEME_NET_FIELD_UINT16`: the setter's value of the member. -/
def setUint16 (order : ByteOrder) (value : UInt16) : UInt16 :=
  .ofNat (themeLe order 2 value.toNat)

def getUint16 (order : ByteOrder) (member : UInt16) : UInt16 :=
  .ofNat (themeLe order 2 member.toNat)

/-- `THEME_NET_FIELD_UINT32`. -/
def setUint32 (order : ByteOrder) (value : UInt32) : UInt32 :=
  .ofNat (themeLe order 4 value.toNat)

def getUint32 (order : ByteOrder) (member : UInt32) : UInt32 :=
  .ofNat (themeLe order 4 member.toNat)

/-- The size of `THEME_NET_FIELD_BUFFER`. -/
def setBufferSz (order : ByteOrder) (value : UInt32) : UInt32 :=
  .ofNat (themeLe order 4 value.toNat)

def getBufferSz (order : ByteOrder) (member : UInt32) : UInt32 :=
  .ofNat (themeLe order 4 member.toNat)

/-- The size of `THEME_NET_FIELD_BUFFER_REDUNDANT`: adding the `sizeof` makes
the argument of the swap a `size_t`. -/
def setBufferRedundantSz (order : ByteOrder) (value : UInt32) : UInt32 :=
  .ofNat (themeLe order sizeWidth (sizeT (value.toNat + uint32Size)))

def getBufferRedundantSz (order : ByteOrder) (member : UInt32) : UInt32 :=
  .ofNat (themeLe order sizeWidth (sizeT (member.toNat + sizeMod - uint32Size)))

/-! ### Strings -/

/-- The members of `THEME_NET_FIELD_STRING_UTF16`: `m_namesz`, and the array
`m_name` of `szval` units. -/
structure StringUtf16 (szval : Nat) where
  count : UInt16
  units : List UInt16
  covers : units.length = szval
  nonempty : 0 < szval

namespace StringUtf16

variable {szval : Nat}

/-- The members are zero. -/
def cleared (nonempty : 0 < szval) : StringUtf16 szval where
  count := 0
  units := List.replicate szval 0
  covers := List.length_replicate
  nonempty := nonempty

/-- The setter.  The size it converts is a `size_t`. -/
def set (order : ByteOrder) (field : StringUtf16 szval) (value : List UInt16) :
    StringUtf16 szval where
  count := .ofNat (themeLe order sizeWidth (min szval value.length))
  units := (value.take (min szval value.length) ++
    field.units.drop (min szval value.length)).set (min (szval - 1) value.length) 0
  covers := by
    simp only [List.length_set, List.length_append, List.length_take, List.length_drop,
      field.covers]
    omega
  nonempty := field.nonempty

/-- The getter, `none` where the view would reach behind the array. -/
def get (field : StringUtf16 szval) : Option (List UInt16) :=
  if field.count.toNat ≤ szval then some (field.units.take field.count.toNat) else none

end StringUtf16

/-! ### Integers of the codec -/

/-- `extract_integer`. -/
def extractIntegerOn (order : ByteOrder) (field : NetField) (ptr : Pointer) : Except Stop Nat :=
  match field.elementsz with
  | 1 | 2 | 4 | 8 =>
      match load ptr.block ptr.position field.elementsz with
      | some bytes => .ok (themeLe order field.elementsz (order.value bytes))
      | none => .error .load
  | _ => .error .assertion

/-- `extract_elementcount`. -/
def extractElementcountOn (order : ByteOrder) (szField bufField : NetField) (ptr : Pointer) :
    Except Stop Nat := do
  assertD (szField.type == .bufferSize)
  assertD (szField.count == 1)
  if ptr.position < szField.elementsz then
    throw .load
  let result ← extractIntegerOn order szField ⟨ptr.block, ptr.position - szField.elementsz⟩
  let result ←
    if bufField.type == .bufferRedundant then do
      assertD (szField.elementsz % bufField.elementsz == 0)
      pure (sizeT (result + sizeMod - szField.elementsz / bufField.elementsz))
    else
      pure result
  return if result > kMaxBufCount then sizeMax else result

/-! ### Conversions at the width of the member -/

theorem themeLe_lt (order : ByteOrder) {width number : Nat} (fits : number < 256 ^ width) :
    themeLe order width number < 256 ^ width := by
  cases order with
  | little => exact fits
  | big => exact swapped_lt width number

theorem themeLe_themeLe (order : ByteOrder) {width number : Nat} (fits : number < 256 ^ width) :
    themeLe order width (themeLe order width number) = number := by
  cases order with
  | little => rfl
  | big =>
      change swapped width (swapped width number) = number
      rw [swapped_swapped, Nat.mod_eq_of_lt fits]

/-- The converted number is kept in little-endian form. -/
theorem memory_themeLe (order : ByteOrder) (width number : Nat) :
    order.memory width (themeLe order width number) = leBytes width number := by
  cases order with
  | little => rfl
  | big =>
      change (leBytes width (swapped width number)).reverse = leBytes width number
      rw [leBytes_swapped, List.reverse_reverse]

/-- Bytes are converted to the number they denote in little-endian form. -/
theorem themeLe_value (order : ByteOrder) {width : Nat} {bytes : List UInt8}
    (covers : bytes.length = width) : themeLe order width (order.value bytes) = leValue bytes := by
  subst covers
  cases order with
  | little => rfl
  | big =>
      have recovered := leBytes_leValue bytes.reverse
      rw [List.length_reverse] at recovered
      change leValue (leBytes bytes.length (leValue bytes.reverse)).reverse = leValue bytes
      rw [recovered, List.reverse_reverse]

theorem extractIntegerOn_eq (order : ByteOrder) (field : NetField) (ptr : Pointer) :
    extractIntegerOn order field ptr = extractInteger field ptr := by
  unfold extractIntegerOn extractInteger
  cases loaded : load ptr.block ptr.position field.elementsz with
  | none => rfl
  | some bytes =>
      have same := themeLe_value order (load_length loaded)
      dsimp only
      rewrite [same]
      rfl

theorem extractElementcountOn_eq (order : ByteOrder) (szField bufField : NetField)
    (ptr : Pointer) :
    extractElementcountOn order szField bufField ptr = extractElementcount szField bufField ptr := by
  unfold extractElementcountOn extractElementcount
  simp only [extractIntegerOn_eq]

end ThemeSrv
