import ThemeSrv.NativeByteOrder
import ThemeSrv.ThreeWayComparison

/-!
# Universally unique identifiers

The class `uuid` of `core/uuid.h`: sixteen bytes, the swap of its first three
fields that the client's byte order asks for, and the comparison operators.
The functions of libuuid are parameters with the contracts that their manual
pages give.
-/

namespace ThemeSrv

open ByteString ThreeWayComparison

/-- `uuid_t`. -/
@[ext]
structure UuidT where
  bytes : List UInt8
  length_bytes : bytes.length = 16

namespace UuidT

/-- The bytes as unsigned numbers. -/
def digits (id : UuidT) : List ℕ :=
  id.bytes.map UInt8.toNat

theorem digits_injective : Function.Injective digits := by
  intro first second same
  ext1
  exact List.map_injective_iff.mpr (fun _ _ => UInt8.toNat_inj.mp) same

/-- The lexical order of the bytes. -/
instance : LinearOrder UuidT :=
  LinearOrder.lift' digits digits_injective

theorem digits_strictMono : StrictMono digits :=
  fun _ _ before => before

/-- All bytes are zero. -/
def zero : UuidT where
  bytes := List.replicate 16 0
  length_bytes := List.length_replicate

end UuidT

/-! ### The class -/

/-- The class `uuid`. -/
@[ext]
structure Uuid where
  data : UuidT

namespace Uuid

/-- `uuid::null`, with `m_data` as its initializer leaves it. -/
def null : Uuid :=
  ⟨.zero⟩

/-- The constructor from a buffer, and `from_bytes`. -/
def fromBytes (buf : UuidT) : Uuid :=
  ⟨buf⟩

/-- `__builtin_bswap16` and `__builtin_bswap32` on a field of the union `uuid_le`. -/
def bswap (order : ByteOrder) (field : List UInt8) : List UInt8 :=
  order.memory field.length (swapped field.length (order.value field))

/-- `m_data1`, `m_data2` and `m_data3` are swapped, and `m_data4` is copied. -/
def swapFields (order : ByteOrder) (bytes : List UInt8) : List UInt8 :=
  bswap order (bytes.take 4) ++ bswap order ((bytes.drop 4).take 2) ++
    bswap order ((bytes.drop 6).take 2) ++ bytes.drop 8

/-- A host of either byte order has the bytes of the field in reverse. -/
theorem bswap_eq_reverse (order : ByteOrder) (field : List UInt8) :
    bswap order field = field.reverse := by
  cases order with
  | little =>
      rw [bswap, ByteOrder.memory, ByteOrder.arrange, ByteOrder.value, ByteOrder.arrange,
        leBytes_swapped, leBytes_leValue]
  | big =>
      have recovered := leBytes_leValue field.reverse
      rw [List.length_reverse] at recovered
      rw [bswap, ByteOrder.memory, ByteOrder.arrange, ByteOrder.value, ByteOrder.arrange,
        leBytes_swapped, recovered, List.reverse_reverse]

theorem swapFields_append (order : ByteOrder) {data1 data2 data3 data4 : List UInt8}
    (four : data1.length = 4) (two : data2.length = 2) (twoMore : data3.length = 2) :
    swapFields order (data1 ++ data2 ++ data3 ++ data4) =
      data1.reverse ++ data2.reverse ++ data3.reverse ++ data4 := by
  have short1 : data1.drop 6 = [] := List.drop_of_length_le (by omega)
  have shorter1 : data1.drop 8 = [] := List.drop_of_length_le (by omega)
  have short2 : data2.drop 4 = [] := List.drop_of_length_le (by omega)
  simp [swapFields, bswap_eq_reverse, List.drop_append, four, two, twoMore,
    short1, shorter1, short2]

theorem swapFields_length (order : ByteOrder) {bytes : List UInt8} (sized : bytes.length = 16) :
    (swapFields order bytes).length = 16 := by
  simp [swapFields, bswap_eq_reverse, sized]

/-- The swap undoes itself, also between hosts of different byte order. -/
theorem swapFields_swapFields (order other : ByteOrder) {bytes : List UInt8}
    (sized : bytes.length = 16) : swapFields order (swapFields other bytes) = bytes := by
  have four : (bytes.take 4).length = 4 := by simp [sized]
  have two : ((bytes.drop 4).take 2).length = 2 := by simp [sized]
  have twoMore : ((bytes.drop 6).take 2).length = 2 := by simp [sized]
  have whole : bytes.take 4 ++ (bytes.drop 4).take 2 ++ (bytes.drop 6).take 2 ++ bytes.drop 8 =
      bytes := by
    have last := List.take_append_drop 2 (bytes.drop 6)
    have middle := List.take_append_drop 2 (bytes.drop 4)
    rw [List.drop_drop] at last middle
    rw [List.append_assoc, last, List.append_assoc, middle, List.take_append_drop]
  calc swapFields order (swapFields other bytes)
      = swapFields order ((bytes.take 4).reverse ++ ((bytes.drop 4).take 2).reverse ++
          ((bytes.drop 6).take 2).reverse ++ bytes.drop 8) := by
        rw [← swapFields_append other four two twoMore, whole]
    _ = bytes := by
        rw [swapFields_append order (by rwa [List.length_reverse])
          (by rwa [List.length_reverse]) (by rwa [List.length_reverse]), List.reverse_reverse,
          List.reverse_reverse, List.reverse_reverse, whole]

/-- Bytes that `to_le_bytes` stores at the buffer. -/
def toLeBytes (order : ByteOrder) (id : Uuid) : UuidT where
  bytes := swapFields order id.data.bytes
  length_bytes := swapFields_length order id.data.length_bytes

/-- `from_le_bytes`: the copy of the buffer is swapped in place. -/
def fromLeBytes (order : ByteOrder) (buf : UuidT) : Uuid where
  data :=
    { bytes := swapFields order (fromBytes buf).data.bytes
      length_bytes := swapFields_length order (fromBytes buf).data.length_bytes }

/-- `THEME_NET_FIELD_UUID`: the setter's value of the member. -/
def setUuid (order : ByteOrder) (value : Uuid) : UuidT :=
  value.toLeBytes order

def getUuid (order : ByteOrder) (member : UuidT) : Uuid :=
  fromLeBytes order member

/-- A member set on one host is the same id on any other host. -/
theorem getUuid_setUuid (order other : ByteOrder) (value : Uuid) :
    getUuid order (setUuid other value) = value :=
  Uuid.ext (UuidT.ext (swapFields_swapFields order other value.data.length_bytes))

theorem setUuid_getUuid (order other : ByteOrder) (member : UuidT) :
    setUuid order (getUuid other member) = member :=
  UuidT.ext (swapFields_swapFields order other member.length_bytes)

/-! ### Comparison -/

/-- `equals` and `operator ==`, with `uuid_compare` of libuuid. -/
def equals (uuidCompare : UuidT → UuidT → ℤ) (id rhs : Uuid) : Bool :=
  uuidCompare id.data rhs.data == 0

/-- `operator <`. -/
def less (uuidCompare : UuidT → UuidT → ℤ) (id rhs : Uuid) : Bool :=
  uuidCompare id.data rhs.data == -1

/-- `empty`, with `uuid_is_null` of libuuid. -/
def empty (uuidIsNull : UuidT → ℤ) (id : Uuid) : Bool :=
  uuidIsNull id.data == 1

/-- Ids in the lexical order of their bytes. -/
instance : LinearOrder Uuid :=
  LinearOrder.lift' data fun _ _ => Uuid.ext

theorem data_strictMono : StrictMono data :=
  fun _ _ before => before

section Contracts

variable {uuidCompare : UuidT → UuidT → ℤ}

theorem equals_iff (contract : SignOrders uuidCompare) (id rhs : Uuid) :
    equals uuidCompare id rhs = true ↔ id = rhs := by
  rw [equals, beq_iff_eq]
  exact (contract.comap data_strictMono).zero_iff id rhs

theorem lt_of_less (contract : SignOrders uuidCompare) {id rhs : Uuid}
    (found : less uuidCompare id rhs = true) : id < rhs :=
  (contract.comap data_strictMono).lt_of_eq (by decide) (beq_iff_eq.mp found)

/-- The operators are right about two ids unless `uuid_compare` reports their
order by a negative number other than -1. -/
theorem exactlyOne_iff (contract : SignOrders uuidCompare) (id rhs : Uuid) :
    [less uuidCompare id rhs, equals uuidCompare id rhs, less uuidCompare rhs id].count true = 1 ↔
      (id < rhs → uuidCompare id.data rhs.data = -1) ∧
        (rhs < id → uuidCompare rhs.data id.data = -1) :=
  (contract.comap data_strictMono).exactlyOne_iff (by decide) id rhs

/-- `uuid_is_null` returns 1 for the id without a set bit, and 0 otherwise. -/
theorem empty_iff {uuidIsNull : UuidT → ℤ} (nullOne : uuidIsNull .zero = 1)
    (otherZero : ∀ id, id ≠ .zero → uuidIsNull id = 0) (id : Uuid) :
    empty uuidIsNull id = true ↔ id = null := by
  rw [empty, beq_iff_eq, null, Uuid.ext_iff]
  by_cases zero : id.data = .zero
  · simp [zero, nullOne]
  · simp [zero, otherZero id.data zero]

end Contracts

/-! ### Ways to meet the contract -/

/-- A `memcmp` that returns the difference of the first bytes that differ. -/
def memcmpDifference : List ℕ → List ℕ → ℤ :=
  lexically fun first second => (first : ℤ) - second

/-- A `memcmp` that returns only the sign. -/
def memcmpSign (first second : List ℕ) : ℤ :=
  (memcmpDifference first second).sign

/-- A `uuid_compare` that returns the sign for the ten bytes of the time and
clock fields, and leaves the six bytes of the node to `memcmp`. -/
def compareFields (memcmp : List ℕ → List ℕ → ℤ) (first second : UuidT) : ℤ :=
  inParts 10 memcmpSign memcmp first.digits second.digits

theorem memcmpDifference_signOrders : SignOrders memcmpDifference :=
  (SignOrders.difference fun before => Int.ofNat_lt.mpr before).lexically

theorem memcmpSign_signOrders : SignOrders memcmpSign :=
  memcmpDifference_signOrders.sign

theorem compareFields_signOrders {memcmp : List ℕ → List ℕ → ℤ} (orders : SignOrders memcmp) :
    SignOrders (compareFields memcmp) :=
  (memcmpSign_signOrders.inParts orders 10).comap UuidT.digits_strictMono

theorem compareFields_memcmpSign {first second : UuidT} (before : first < second) :
    compareFields memcmpSign first second = -1 := by
  have negative := (compareFields_signOrders memcmpSign_signOrders).less before
  unfold compareFields inParts memcmpSign at negative ⊢
  split_ifs at negative ⊢ with same
  · exact Int.sign_eq_neg_one_of_neg (Int.sign_neg_iff.mp negative)
  · exact Int.sign_eq_neg_one_of_neg (Int.sign_neg_iff.mp negative)

/-- The id with one byte set, the last of the node. -/
def nodeId (byte : UInt8) : Uuid where
  data :=
    { bytes := List.replicate 15 0 ++ [byte]
      length_bytes := rfl }

/-! ### The order of the operators -/

/-- The operators make a strict total order exactly when `uuid_compare` has no
negative result but -1. -/
theorem less_strictlyTotal_iff (uuidCompare : UuidT → UuidT → ℤ)
    (contract : SignOrders uuidCompare) :
    StrictlyTotal (less uuidCompare) (equals uuidCompare) ↔
      ∀ first second : UuidT, first < second → uuidCompare first second = -1 := by
  have ids := (contract.comap data_strictMono).strictlyTotal_iff (by decide : (-1 : ℤ) < 0)
  constructor
  · intro total first second before
    exact ids.mp total ⟨first⟩ ⟨second⟩ before
  · intro marked
    exact ids.mpr fun id rhs before => marked id.data rhs.data before

theorem less_strictlyTotal_compareFields :
    StrictlyTotal (less (compareFields memcmpSign)) (equals (compareFields memcmpSign)) ∧
      ¬ StrictlyTotal (less (compareFields memcmpDifference))
        (equals (compareFields memcmpDifference)) := by
  constructor
  · refine (less_strictlyTotal_iff _ (compareFields_signOrders memcmpSign_signOrders)).mpr ?_
    intro first second before
    exact compareFields_memcmpSign before
  · intro total
    have marked :=
      (less_strictlyTotal_iff _ (compareFields_signOrders memcmpDifference_signOrders)).mp total
        (nodeId 0).data (nodeId 2).data (by decide)
    revert marked
    decide

/-- Two nodes that differ by more than one are not ordered and not equal. -/
theorem nodeIds_unordered :
    SignOrders (compareFields memcmpDifference) ∧
      less (compareFields memcmpDifference) (nodeId 0) (nodeId 2) = false ∧
      equals (compareFields memcmpDifference) (nodeId 0) (nodeId 2) = false ∧
      less (compareFields memcmpDifference) (nodeId 2) (nodeId 0) = false ∧
      ¬ StrictlyTotal (less (compareFields memcmpDifference))
        (equals (compareFields memcmpDifference)) := by
  refine ⟨compareFields_signOrders memcmpDifference_signOrders, by decide, by decide, by decide, ?_⟩
  intro total
  have one := total.exactlyOne (nodeId 0) (nodeId 2)
  revert one
  decide

end Uuid

end ThemeSrv
