import Mathlib.Algebra.Order.BigOperators.Group.List
import Mathlib.Data.List.TakeWhile
import Mathlib.Tactic.Ring
import Mathlib.Tactic.Linarith

/-!
# Message descriptors

A `NetStruct` is the table that describes one message: its fields in order,
each with a kind, an element size and an element count.  The codec in
`ClientBase` interprets these tables; the shape its assertions ask for is
`NetStruct.WellFormed`.
-/

namespace ThemeSrv

/-- `size_t` arithmetic is modulo `2 ^ 64`. -/
def sizeMod : Nat := 2 ^ 64

/-- `(size_t)-1`. -/
def sizeMax : Nat := sizeMod - 1

def sizeT (number : Nat) : Nat := number % sizeMod

/-- Die if the client tries to send more than this many elements in a
buffer. -/
def kMaxBufCount : Nat := 1024

inductive DataType
  | integer
  | uuid
  | blob
  | bufferSize
  | stringUtf16
  | buffer
  | bufferRedundant
  deriving DecidableEq, Repr

/-- Fields whose wire size is carried by the field in front of them. -/
def DataType.isVariable : DataType → Bool
  | .stringUtf16 | .buffer | .bufferRedundant => true
  | .integer | .uuid | .blob | .bufferSize => false

/-- Variable fields that have to stand last. -/
def DataType.isBuffer : DataType → Bool
  | .buffer | .bufferRedundant => true
  | .integer | .uuid | .blob | .bufferSize | .stringUtf16 => false

structure NetField where
  type : DataType
  name : String
  elementsz : Nat
  count : Nat
  deriving DecidableEq, Repr

/-- Size of a field in the memory image of its message. -/
def NetField.memSize (field : NetField) : Nat :=
  field.elementsz * field.count

structure NetStruct where
  name : String
  fields : List NetField
  deriving DecidableEq, Repr

namespace NetStruct

/-- `m_size`: the number of fields. -/
def size (ns : NetStruct) : Nat :=
  ns.fields.length

end NetStruct

/-- `net_struct_calcsz`: the memory offset of field `idx`, the whole memory
size when there is no such field. -/
def netStructCalcsz (msg : NetStruct) (idx : Nat) : Nat :=
  (msg.fields.take idx).foldl (fun size field => sizeT (size + sizeT field.memSize)) 0

namespace NetStruct

/-- The memory offset of a field, in unbounded arithmetic. -/
def memOffset (ns : NetStruct) (index : Nat) : Nat :=
  ((ns.fields.take index).map NetField.memSize).sum

/-- Size of the whole memory image. -/
def memTotal (ns : NetStruct) : Nat :=
  (ns.fields.map NetField.memSize).sum

/-- Size of the longest run of fixed fields that starts at a field: the
fields that can be read without looking at a length prefix. -/
def fixedRun (ns : NetStruct) (index : Nat) : Nat :=
  (((ns.fields.drop index).takeWhile fun field => !field.type.isVariable).map
    NetField.memSize).sum

/-- The field in front of a field. -/
def previous? (ns : NetStruct) : Nat → Option NetField
  | 0 => none
  | index + 1 => ns.fields[index]?

/-- What a field needs of the field in front of it and of its place. -/
def fieldShape (previous : Option NetField) (field : NetField) (isLast : Bool) : Bool :=
  if field.type.isVariable then
    (!field.type.isBuffer || isLast) &&
      match previous with
      | none => false
      | some sizeField =>
          sizeField.type == .bufferSize && sizeField.count == 1 &&
            [1, 2, 4, 8].contains sizeField.elementsz &&
            (field.type != .bufferRedundant || sizeField.elementsz % field.elementsz == 0)
  else
    0 < field.memSize

/-- Upper bound on what one message of the descriptor can occupy, in memory
and on the wire. -/
def extent (ns : NetStruct) : Nat :=
  (ns.fields.map fun field => field.memSize + field.elementsz * kMaxBufCount).sum

/-- The descriptors the codec is written for, as `calc_field_sz`,
`extract_elementcount` and `extract_integer` assert them: a variable field
directly follows an integer size field, buffers stand last, fixed fields are
not empty.  The last clause says that the sizes are those of objects in
memory. -/
structure WellFormed (ns : NetStruct) : Prop where
  nonempty : 0 < ns.size
  shape : ∀ (index : Nat) (field : NetField), ns.fields[index]? = some field →
    fieldShape (ns.previous? index) field (index + 1 == ns.size) = true
  addressable : ns.extent + 64 ≤ 2 ^ 63

instance (ns : NetStruct) : Decidable ns.WellFormed :=
  decidable_of_iff
    (0 < ns.size ∧
      (∀ index < ns.size, ∀ field ∈ ns.fields[index]?,
        fieldShape (ns.previous? index) field (index + 1 == ns.size) = true) ∧
      ns.extent + 64 ≤ 2 ^ 63)
    ⟨fun ⟨nonempty, shape, addressable⟩ =>
        ⟨nonempty, fun index field found =>
          shape index (List.getElem?_eq_some_iff.mp found).1 field found, addressable⟩,
      fun ⟨nonempty, shape, addressable⟩ =>
        ⟨nonempty, fun index _ field found => shape index field found, addressable⟩⟩

end NetStruct

end ThemeSrv
