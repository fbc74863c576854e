import Mathlib.Data.Nat.Digits.Lemmas
import Mathlib.Tactic.Ring
import Mathlib.Tactic.Linarith

/-!
# Little-endian byte strings

Byte strings read as base-256 numerals, least significant byte first.  The
value is Mathlib's `Nat.ofDigits`; this file adds the fixed-width encoder and
the facts that decoding and encoding at one width are inverse to each other.
-/

namespace ByteString

/-- The number a byte string denotes, least significant byte first. -/
def leValue (bytes : List UInt8) : Nat :=
  Nat.ofDigits 256 (bytes.map UInt8.toNat)

/-- The low `width` bytes of a number, least significant byte first. -/
def leBytes : Nat → Nat → List UInt8
  | 0, _ => []
  | width + 1, number => UInt8.ofNat (number % 256) :: leBytes width (number / 256)

@[simp]
theorem leValue_nil : leValue [] = 0 :=
  rfl

theorem leValue_cons (byte : UInt8) (bytes : List UInt8) :
    leValue (byte :: bytes) = byte.toNat + 256 * leValue bytes := by
  simp [leValue, Nat.ofDigits_cons]

theorem leValue_append (first second : List UInt8) :
    leValue (first ++ second) = leValue first + 256 ^ first.length * leValue second := by
  simp [leValue, Nat.ofDigits_append]

theorem leValue_lt (bytes : List UInt8) : leValue bytes < 256 ^ bytes.length := by
  have below := Nat.ofDigits_lt_base_pow_length (b := 256) (l := bytes.map UInt8.toNat)
    (by omega) (by
      intro digit digitMem
      obtain ⟨byte, -, rfl⟩ := List.mem_map.mp digitMem
      exact byte.toNat_lt)
  simpa [leValue] using below

@[simp]
theorem leBytes_length (width number : Nat) : (leBytes width number).length = width := by
  induction width generalizing number with
  | zero => rfl
  | succ width ih => simp [leBytes, ih]

theorem leValue_leBytes (width number : Nat) :
    leValue (leBytes width number) = number % 256 ^ width := by
  induction width generalizing number with
  | zero => simp [leBytes, Nat.mod_one]
  | succ width ih =>
      have low : (UInt8.ofNat (number % 256)).toNat = number % 256 := by
        simp
      rw [leBytes, leValue_cons, low, ih, pow_succ', Nat.mod_mul]

theorem leValue_leBytes_of_lt {width number : Nat} (fits : number < 256 ^ width) :
    leValue (leBytes width number) = number := by
  rw [leValue_leBytes, Nat.mod_eq_of_lt fits]

theorem leBytes_leValue (bytes : List UInt8) :
    leBytes bytes.length (leValue bytes) = bytes := by
  induction bytes with
  | nil => rfl
  | cons byte bytes ih =>
      have low : (byte.toNat + 256 * leValue bytes) % 256 = byte.toNat := by
        have := byte.toNat_lt
        omega
      have high : (byte.toNat + 256 * leValue bytes) / 256 = leValue bytes := by
        have := byte.toNat_lt
        omega
      rw [List.length_cons, leBytes, leValue_cons, low, high, ih]
      simp

theorem leValue_replicate_zero (count : Nat) : leValue (List.replicate count 0) = 0 := by
  induction count with
  | zero => rfl
  | succ count ih => simp [List.replicate_succ, leValue_cons, ih]

/-! ### Two-byte units -/

/-- Units one behind the other. -/
def leUnits (units : List UInt16) : List UInt8 :=
  units.flatMap fun unit => leBytes 2 unit.toNat

theorem leUnits_length (units : List UInt16) : (leUnits units).length = 2 * units.length := by
  induction units with
  | nil => rfl
  | cons unit units ih =>
      unfold leUnits at ih ⊢
      rw [List.flatMap_cons, List.length_append, ih, leBytes_length, List.length_cons]
      omega

theorem leUnits_append (first second : List UInt16) :
    leUnits (first ++ second) = leUnits first ++ leUnits second :=
  List.flatMap_append

theorem leUnits_take (units : List UInt16) (count : Nat) :
    (leUnits units).take (2 * count) = leUnits (units.take count) := by
  by_cases inside : count ≤ units.length
  · have front : (leUnits (units.take count)).length = 2 * count := by
      rw [leUnits_length, List.length_take, min_eq_left inside]
    conv_lhs => rw [← List.take_append_drop count units, leUnits_append]
    rw [← front, List.take_left]
  · rw [List.take_of_length_le (by rw [leUnits_length]; omega),
      List.take_of_length_le (by omega)]

end ByteString
