import Mathlib.Data.List.Basic

/-!
# Base64

Byte strings as text, three bytes in four characters, with `=` in the places
that the last group leaves open.  Decoding undoes encoding.
-/

namespace Base64

def alphabet : List Char :=
  "ABCDEFGHIJKLMNOPQRSTUVWXYZabcdefghijklmnopqrstuvwxyz0123456789+/".toList

def padding : Char := '='

/-- The character of a number below 64. -/
def symbol (sextet : Nat) : Char :=
  alphabet.getD sextet padding

/-- The number a character stands for. -/
def sextet (character : Char) : Option Nat :=
  if character ∈ alphabet then some (alphabet.idxOf character) else none

theorem sextet_symbol_of_lt : ∀ number < 64, sextet (symbol number) = some number := by
  decide +kernel

theorem symbol_ne_padding_of_lt : ∀ number < 64, symbol number ≠ padding := by
  decide +kernel

/-- Encode group by group. -/
def encode : List UInt8 → List Char
  | [] => []
  | [a] =>
      let bits := a.toNat * 16
      [symbol (bits / 64), symbol (bits % 64), padding, padding]
  | [a, b] =>
      let bits := (a.toNat * 256 + b.toNat) * 4
      [symbol (bits / 4096), symbol (bits / 64 % 64), symbol (bits % 64), padding]
  | a :: b :: c :: rest =>
      let bits := (a.toNat * 256 + b.toNat) * 256 + c.toNat
      symbol (bits / 262144) :: symbol (bits / 4096 % 64) :: symbol (bits / 64 % 64) ::
        symbol (bits % 64) :: encode rest

/-- The one or two bytes of a padded group. -/
def decodeLast (w x y : Char) : Option (List UInt8) :=
  if y = padding then do
    let bits := (← sextet w) * 64 + (← sextet x)
    return [.ofNat (bits / 16)]
  else do
    let bits := ((← sextet w) * 64 + (← sextet x)) * 64 + (← sextet y)
    return [.ofNat (bits / 1024), .ofNat (bits / 4 % 256)]

/-- Decode group by group; only the last one may be padded. -/
def decode : List Char → Option (List UInt8)
  | [] => some []
  | w :: x :: y :: z :: rest =>
      if z = padding ∧ rest = [] then
        decodeLast w x y
      else do
        let bits := (((← sextet w) * 64 + (← sextet x)) * 64 + (← sextet y)) * 64 + (← sextet z)
        let bytes ← decode rest
        return .ofNat (bits / 65536) :: .ofNat (bits / 256 % 256) :: .ofNat (bits % 256) :: bytes
  | _ => none

@[simp]
theorem sextet_symbol {number : Nat} (small : number < 64) :
    sextet (symbol number) = some number :=
  sextet_symbol_of_lt number small

@[simp]
theorem symbol_eq_padding {number : Nat} (small : number < 64) :
    symbol number = padding ↔ False :=
  iff_false_intro (symbol_ne_padding_of_lt number small)

theorem decode_encode (bytes : List UInt8) : decode (encode bytes) = some bytes := by
  fun_induction encode bytes with
  | case1 => rfl
  | case2 a bits =>
      have := a.toNat_lt
      have joined : (bits / 64 * 64 + bits % 64) / 16 = a.toNat := by omega
      simp (disch := omega) [decode, decodeLast, joined]
  | case3 a b bits =>
      have := a.toNat_lt
      have := b.toNat_lt
      have first : ((bits / 4096 * 64 + bits / 64 % 64) * 64 + bits % 64) / 1024 = a.toNat := by
        omega
      have second : ((bits / 4096 * 64 + bits / 64 % 64) * 64 + bits % 64) / 4 % 256 =
          b.toNat := by omega
      simp (disch := omega) [decode, decodeLast, first, second]
  | case4 a b c rest bits ih =>
      have := a.toNat_lt
      have := b.toNat_lt
      have := c.toNat_lt
      have joined : ((bits / 262144 * 64 + bits / 4096 % 64) * 64 + bits / 64 % 64) * 64 +
          bits % 64 = bits := by omega
      have first : bits / 65536 = a.toNat := by omega
      have second : bits / 256 % 256 = b.toNat := by omega
      have third : bits % 256 = c.toNat := by omega
      simp (disch := omega) [decode, ih, joined, first, second, third]

theorem mem_symbol (number : Nat) : symbol number ∈ padding :: alphabet := by
  rw [symbol, List.getD_eq_getElem?_getD]
  cases found : alphabet[number]? with
  | none => exact List.mem_cons_self
  | some character => exact List.mem_cons_of_mem _ (List.mem_of_getElem? found)

/-- An encoded text consists of the symbols and the padding. -/
theorem mem_encode {bytes : List UInt8} {character : Char} (member : character ∈ encode bytes) :
    character ∈ padding :: alphabet := by
  fun_induction encode bytes with
  | case1 => cases member
  | case2 a bits =>
      simp only [List.mem_cons, List.not_mem_nil, or_false] at member
      rcases member with rfl | rfl | rfl | rfl
      · exact mem_symbol _
      · exact mem_symbol _
      · exact List.mem_cons_self
      · exact List.mem_cons_self
  | case3 a b bits =>
      simp only [List.mem_cons, List.not_mem_nil, or_false] at member
      rcases member with rfl | rfl | rfl | rfl
      · exact mem_symbol _
      · exact mem_symbol _
      · exact mem_symbol _
      · exact List.mem_cons_self
  | case4 a b c rest bits ih =>
      simp only [List.mem_cons] at member
      rcases member with rfl | rfl | rfl | rfl | later
      · exact mem_symbol _
      · exact mem_symbol _
      · exact mem_symbol _
      · exact mem_symbol _
      · exact ih later

end Base64
