import ThemeSrv.LittleEndianBytes

/-!
# Byte order of the host

Numbers as a host keeps them in memory, and the byte swap that turns them into
little-endian form on a host that keeps the most significant byte first.  A
swap at a larger width than the number is kept at loses the number.
-/

namespace ByteString

/-- Which byte of a number a host keeps at the lowest address. -/
inductive ByteOrder
  | little
  | big
  deriving DecidableEq, Repr

namespace ByteOrder

/-- Little-endian bytes as the host arranges them. -/
def arrange : ByteOrder → List UInt8 → List UInt8
  | little, bytes => bytes
  | big, bytes => bytes.reverse

/-- A number in the memory of the host. -/
def memory (order : ByteOrder) (width number : Nat) : List UInt8 :=
  order.arrange (leBytes width number)

/-- The number that bytes in the memory of the host are. -/
def value (order : ByteOrder) (bytes : List UInt8) : Nat :=
  leValue (order.arrange bytes)

end ByteOrder

/-- The number with its bytes in reverse. -/
def swapped (width number : Nat) : Nat :=
  leValue (leBytes width number).reverse

theorem leBytes_add (first second number : Nat) :
    leBytes (first + second) number =
      leBytes first number ++ leBytes second (number / 256 ^ first) := by
  induction first generalizing number with
  | zero => simp [leBytes]
  | succ first ih =>
      rw [Nat.succ_add, leBytes, leBytes, ih, List.cons_append, pow_succ', Nat.div_div_eq_div_mul]

theorem leBytes_zero (width : Nat) : leBytes width 0 = List.replicate width 0 := by
  induction width with
  | zero => rfl
  | succ width ih => simp [leBytes, ih, List.replicate_succ]

theorem leBytes_swapped (width number : Nat) :
    leBytes width (swapped width number) = (leBytes width number).reverse := by
  have recovered := leBytes_leValue (leBytes width number).reverse
  rwa [List.length_reverse, leBytes_length] at recovered

theorem swapped_lt (width number : Nat) : swapped width number < 256 ^ width := by
  have below := leValue_lt (leBytes width number).reverse
  rwa [List.length_reverse, leBytes_length] at below

theorem swapped_swapped (width number : Nat) :
    swapped width (swapped width number) = number % 256 ^ width := by
  rw [swapped, leBytes_swapped, List.reverse_reverse, leValue_leBytes]

/-- The low bytes of a wide swap are the high bytes of the number. -/
theorem swapped_mod_eq_zero {wide narrow number : Nat} (le : narrow ≤ wide)
    (small : number < 256 ^ (wide - narrow)) : swapped wide number % 256 ^ narrow = 0 := by
  have split : leBytes wide number =
      leBytes (wide - narrow) number ++ List.replicate narrow 0 := by
    calc leBytes wide number
        = leBytes (wide - narrow + narrow) number := by rw [Nat.sub_add_cancel le]
      _ = leBytes (wide - narrow) number ++ leBytes narrow 0 := by
          rw [leBytes_add, Nat.div_eq_of_lt small]
      _ = _ := by rw [leBytes_zero]
  rw [swapped, split, List.reverse_append, List.reverse_replicate, leValue_append,
    leValue_replicate_zero, List.length_replicate, Nat.zero_add, Nat.mul_mod_right]

namespace ByteOrder

theorem memory_length (order : ByteOrder) (width number : Nat) :
    (order.memory width number).length = width := by
  cases order <;> simp [memory, arrange]

end ByteOrder

end ByteString
