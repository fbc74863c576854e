import Mathlib.Data.Nat.Size
import Mathlib.NumberTheory.LucasPrimality
import Mathlib.Data.List.Prime

/-!
# Modular powers and certified primes

Powers modulo a number, computed by repeated squaring so that large exponents
can be evaluated, and the primality of large numbers read off such powers.
-/

namespace ModularPower

/-- `base ^ exponent` modulo `modulus`, for exponents of `width` bits. -/
def powerWidth (modulus : Nat) : Nat → Nat → Nat → Nat
  | 0, _, _ => 1 % modulus
  | width + 1, base, exponent =>
      let squares := powerWidth modulus width (base * base % modulus) (exponent / 2)
      if exponent % 2 = 0 then squares else base * squares % modulus

/-- `base ^ exponent` modulo `modulus`. -/
def power (base exponent modulus : Nat) : Nat :=
  powerWidth modulus exponent.size base exponent

theorem powerWidth_eq (modulus : Nat) {width exponent : Nat} (base : Nat)
    (fits : exponent < 2 ^ width) :
    powerWidth modulus width base exponent = base ^ exponent % modulus := by
  induction width generalizing base exponent with
  | zero =>
      obtain rfl : exponent = 0 := by simpa using fits
      simp [powerWidth]
  | succ width ih =>
      have half : exponent / 2 < 2 ^ width := by
        rw [pow_succ] at fits
        omega
      have squares : (base * base % modulus) ^ (exponent / 2) % modulus =
          base ^ (2 * (exponent / 2)) % modulus := by
        rw [← Nat.pow_mod, ← pow_two, ← pow_mul]
      rw [powerWidth]
      simp only [ih _ half, squares]
      split_ifs with even
      · rw [Nat.mul_div_cancel' (Nat.dvd_of_mod_eq_zero even)]
      · have odd : exponent = 2 * (exponent / 2) + 1 := by omega
        rw [Nat.mul_mod_mod, ← pow_succ', ← odd]

@[simp]
theorem power_eq (base exponent modulus : Nat) :
    power base exponent modulus = base ^ exponent % modulus :=
  powerWidth_eq modulus base (Nat.lt_size_self exponent)

/-- Lucas's test, with the prime factors of `number - 1` and their exponents. -/
theorem prime_of_power {number : Nat} (base : Nat) (factors : List (Nat × Nat)) (large : 1 < number)
    (product : (factors.map fun factor => factor.1 ^ factor.2).prod = number - 1)
    (primes : ∀ factor ∈ factors, factor.1.Prime)
    (unit : power base (number - 1) number = 1)
    (order : ∀ factor ∈ factors, power base ((number - 1) / factor.1) number ≠ 1) :
    number.Prime := by
  have one_iff (exponent : Nat) :
      (base : ZMod number) ^ exponent = 1 ↔ power base exponent number = 1 := by
    rw [power_eq, ← Nat.cast_pow, ← Nat.cast_one, ZMod.natCast_eq_natCast_iff',
      Nat.mod_eq_of_lt large]
  apply lucas_primality number (base : ZMod number) ((one_iff _).mpr unit)
  intro divisor divisorPrime divides
  rw [← product] at divides
  obtain ⟨term, member, dividesTerm⟩ := (Prime.dvd_prod_iff divisorPrime.prime).mp divides
  obtain ⟨factor, factorMem, rfl⟩ := List.mem_map.mp member
  have dividesFactor := divisorPrime.dvd_of_dvd_pow dividesTerm
  have same : divisor = factor.1 :=
    (Nat.prime_dvd_prime_iff_eq divisorPrime (primes factor factorMem)).mp dividesFactor
  rw [same, ne_eq, one_iff]
  exact order factor factorMem

end ModularPower
