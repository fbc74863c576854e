import ThemeSrv.ConfigLines
import ThemeSrv.ConfigTables

/-!
# Typed values of a configuration

`get<T>` for the types the daemon asks for.  A number is read as `strtoul`
reads it, with the base its prefix names, and cut to the width of the type.  So
what `set<unsigned int>` stores comes back, and what a file holds may be
hexadecimal, octal or negative.
-/

namespace ThemeSrv

/-! ### Numerals -/

/-- The value of a digit of a base up to 16. -/
def digitValue (c : Char) : Option Nat :=
  if c.isDigit then some (c.toNat - '0'.toNat)
  else if 'a' ≤ c ∧ c ≤ 'f' then some (c.toNat - 'a'.toNat + 10)
  else if 'A' ≤ c ∧ c ≤ 'F' then some (c.toNat - 'A'.toNat + 10)
  else none

/-- The digits a text starts with. -/
def leadingDigits (base : Nat) : Text → List Nat
  | [] => []
  | c :: rest =>
      match digitValue c with
      | none => []
      | some digit => if digit < base then digit :: leadingDigits base rest else []

def numeral (base : Nat) (text : Text) : Nat :=
  (leadingDigits base text).foldl (fun number digit => base * number + digit) 0

/-- The number behind the sign, whose base is 16 behind `0x`, 8 behind `0`, and
otherwise 10. -/
def magnitude (text : Text) : Nat :=
  match text with
  | '0' :: 'x' :: rest => numeral 16 rest
  | '0' :: 'X' :: rest => numeral 16 rest
  | '0' :: rest => numeral 8 rest
  | _ => numeral 10 text

def ulongMax : Nat := 2 ^ 64 - 1

/-- `strtoul` with base 0. -/
def strtoul (text : Text) : Nat :=
  let shown := (cStr text).dropWhile isSpace
  let (negative, digits) :=
    match shown with
    | '-' :: rest => (true, rest)
    | '+' :: rest => (false, rest)
    | _ => (false, shown)
  let number := magnitude digits
  if ulongMax < number then ulongMax
  else if negative then (2 ^ 64 - number) % 2 ^ 64
  else number

/-- `ST::string::to_uint`. -/
def toUint (text : Text) : UInt32 :=
  UInt32.ofNat (strtoul text)

/-- The code units of `ST::string::to_utf16`. -/
def toUtf16 (text : Text) : List UInt16 :=
  text.flatMap fun c =>
    if c.toNat < 0x10000 then [UInt16.ofNat c.toNat]
    else
      let rest := c.toNat - 0x10000
      [UInt16.ofNat (0xd800 + rest / 0x400), UInt16.ofNat (0xdc00 + rest % 0x400)]

/-! ### What was printed is read -/

theorem digitValue_digitChar {digit : Nat} (small : digit < 10) :
    digitValue digit.digitChar = some digit := by
  have all : ∀ digit < 10, digitValue (Nat.digitChar digit) = some digit := by decide
  exact all digit small

theorem leadingDigits_printed {digits : List Nat} (small : ∀ digit ∈ digits, digit < 10) :
    leadingDigits 10 (digits.map Nat.digitChar) = digits := by
  induction digits with
  | nil => rfl
  | cons digit digits ih =>
      obtain ⟨first, others⟩ := List.forall_mem_cons.1 small
      simp [leadingDigits, digitValue_digitChar first, first, ih others]

/-- A printed number is its digits, of which the first is not zero. -/
theorem toDigits_digits (number : Nat) :
    ∃ digits : List Nat, (∀ digit ∈ digits, digit < 10) ∧
      Nat.toDigits 10 number = digits.map Nat.digitChar ∧
      digits.foldl (fun number digit => 10 * number + digit) 0 = number ∧
      (0 < number → ∃ first others, digits = first :: others ∧ first ≠ 0) := by
  induction number using Nat.strong_induction_on with
  | _ number ih =>
      by_cases small : number < 10
      · refine ⟨[number], by simpa using small, ?_, by simp, ?_⟩
        · rw [Nat.toDigits_of_lt_base small]
          rfl
        · intro positive
          exact ⟨number, [], rfl, positive.ne'⟩
      · have positive : 0 < number / 10 := by omega
        have smaller : number / 10 < number := by omega
        obtain ⟨digits, below, printed, value, starts⟩ := ih (number / 10) smaller
        refine ⟨digits ++ [number % 10], ?_, ?_, ?_, ?_⟩
        · intro digit member
          rcases List.mem_append.1 member with front | last
          · exact below digit front
          · rw [List.mem_singleton.1 last]
            omega
        · rw [Nat.toDigits_of_base_le (by decide) (by omega), printed]
          simp
        · rw [List.foldl_append, value]
          change 10 * (number / 10) + number % 10 = number
          omega
        · intro _
          obtain ⟨first, others, rfl, nonzero⟩ := starts positive
          exact ⟨first, others ++ [number % 10], rfl, nonzero⟩

theorem isDigit_toDigits {number : Nat} {c : Char} (member : c ∈ Nat.toDigits 10 number) :
    c.isDigit :=
  Nat.isDigit_of_mem_toDigits (by decide) (by decide) member

theorem digit_ne {c other : Char} (digit : c.isDigit) (refused : other.isDigit = false) :
    c ≠ other := by
  rintro rfl
  rw [refused] at digit
  cases digit

theorem digit_not_space {c : Char} (digit : c.isDigit) : isSpace c = false := by
  have blank := digit_ne digit (by decide : ' '.isDigit = false)
  have tab := digit_ne digit (by decide : '\t'.isDigit = false)
  have cr := digit_ne digit (by decide : '\r'.isDigit = false)
  have lf := digit_ne digit (by decide : '\n'.isDigit = false)
  have vt := digit_ne digit (by decide : '\x0b'.isDigit = false)
  have ff := digit_ne digit (by decide : '\x0c'.isDigit = false)
  simp [isSpace, isBlank, blank, tab, cr, lf, vt, ff]

/-- `strtoul` reads a number that was printed, up to its largest. -/
theorem strtoul_toDigits {number : Nat} (fits : number ≤ ulongMax) :
    strtoul (Nat.toDigits 10 number) = number := by
  obtain ⟨digits, below, printed, value, starts⟩ := toDigits_digits number
  have noNul : nul ∉ Nat.toDigits 10 number := by
    intro member
    exact digit_ne (isDigit_toDigits member) (by decide) rfl
  have size : magnitude (Nat.toDigits 10 number) = number := by
    rcases Nat.eq_zero_or_pos number with rfl | positive
    · rfl
    · obtain ⟨first, others, rfl, nonzero⟩ := starts positive
      have firstSmall : first < 10 := below first List.mem_cons_self
      have notZero : first.digitChar ≠ '0' := by
        have all : ∀ digit < 10, digit ≠ 0 → Nat.digitChar digit ≠ '0' := by decide
        exact all first firstSmall nonzero
      have decimal : magnitude (Nat.toDigits 10 number) = numeral 10 (Nat.toDigits 10 number) := by
        rw [printed, List.map_cons, magnitude]
        · intro rest same
          exact notZero (List.cons.inj same).1
        · intro rest same
          exact notZero (List.cons.inj same).1
        · intro rest same
          exact notZero (List.cons.inj same).1
      rw [decimal, numeral, printed, leadingDigits_printed below, value]
  have nonempty : Nat.toDigits 10 number ≠ [] := Nat.toDigits_ne_nil
  obtain ⟨c, rest, split⟩ := List.exists_cons_of_ne_nil nonempty
  have digit : c.isDigit := isDigit_toDigits (split ▸ List.mem_cons_self)
  have shown : (cStr (Nat.toDigits 10 number)).dropWhile isSpace = Nat.toDigits 10 number := by
    rw [cStr_eq noNul, split, List.dropWhile_cons_of_neg]
    simp [digit_not_space digit]
  have unsigned : (match Nat.toDigits 10 number with
      | '-' :: rest => (true, rest)
      | '+' :: rest => (false, rest)
      | _ => (false, Nat.toDigits 10 number)) = (false, Nat.toDigits 10 number) := by
    rw [split]
    split
    case h_1 same => exact absurd (List.cons.inj same).1 (digit_ne digit (by decide))
    case h_2 same => exact absurd (List.cons.inj same).1 (digit_ne digit (by decide))
    case h_3 => rfl
  rw [strtoul, shown]
  simp only [unsigned, size, Nat.not_lt.2 fits, Bool.false_eq_true, if_false]

/-- What `from_uint` prints, `to_uint` reads. -/
theorem toUint_toString (value : UInt32) : toUint (toString value.toNat).toList = value := by
  have fits : value.toNat ≤ ulongMax := by
    have small := value.toNat_lt
    rw [ulongMax]
    omega
  have printed : (toString value.toNat).toList = Nat.toDigits 10 value.toNat := by
    rw [Nat.toString_eq_repr, Nat.toList_repr]
  rw [toUint, printed, strtoul_toDigits fits, UInt32.ofNat_toNat]

namespace ConfigParser

/-! ### Getting values -/

/-- `get<T>`, for the type of the item: its text. -/
def getAs (build : Build) (valueType : ValueType) (parser : ConfigParser) (name key : Text) :
    Except Stop Text :=
  match parser.findItem name key with
  | none => do
      build.assertD false
      .error .load
  | some entry => do
      build.assertD (entry.item.valueType == valueType)
      return entry.value

/-- `get<const ST::string&>`. -/
def getString (build : Build) (parser : ConfigParser) (name key : Text) : Except Stop Text :=
  getAs build .string parser name key

/-- `get<const char*>`. -/
def getCStr (build : Build) (parser : ConfigParser) (name key : Text) : Except Stop Text :=
  return cStr (← getAs build .string parser name key)

/-- `get<std::u16string>`. -/
def getU16 (build : Build) (parser : ConfigParser) (name key : Text) :
    Except Stop (List UInt16) :=
  return toUtf16 (← getAs build .string parser name key)

/-- `get<unsigned int>`. -/
def getUnsigned (build : Build) (parser : ConfigParser) (name key : Text) :
    Except Stop UInt32 :=
  return toUint (← getAs build .integer parser name key)

/-- Every item has the same value in both. -/
def SameValues (parser other : ConfigParser) : Prop :=
  ∀ name key, (parser.findItem name key).map ConfigEntry.value =
    (other.findItem name key).map ConfigEntry.value

/-- The value of an item. -/
def value (parser : ConfigParser) (name key : Text) : Text :=
  ((parser.findItem name key).map ConfigEntry.value).getD []

variable {table : List ConfigItem} {parser other : ConfigParser} {name key : Text}

theorem SameValues.trans {third : ConfigParser} (first : parser.SameValues other)
    (second : other.SameValues third) : parser.SameValues third :=
  fun name key => (first name key).trans (second name key)

theorem SameValues.value_eq (same : parser.SameValues other) (name key : Text) :
    parser.value name key = other.value name key := by
  rw [value, same, value]

/-- What is defined is got by its type. -/
theorem Over.getAs (overTable : parser.Over table) (build : Build) {valueType : ValueType}
    (typed : (definition table name key).map ConfigItem.valueType = some valueType) :
    parser.getAs build valueType name key = .ok (parser.value name key) := by
  rw [← overTable.defined, Option.map_map] at typed
  obtain ⟨entry, found, hasType⟩ := Option.map_eq_some_iff.1 typed
  have same : (entry.item.valueType == valueType) = true := by simpa using hasType
  unfold ConfigParser.getAs
  rw [found]
  simp only [same, value, found]
  cases build <;> rfl

/-- What is defined is set by its type. -/
theorem Over.setAs_eq (overTable : parser.Over table) (build : Build) {valueType : ValueType}
    (typed : (definition table name key).map ConfigItem.valueType = some valueType)
    (text : Text) :
    ConfigParser.setAs build valueType parser name key text =
      .ok (parser.store name key fun _ => text) := by
  rw [← overTable.defined, Option.map_map] at typed
  obtain ⟨entry, found, hasType⟩ := Option.map_eq_some_iff.1 typed
  have same : (entry.item.valueType == valueType) = true := by simpa using hasType
  unfold ConfigParser.setAs
  rw [found]
  simp only [same]
  cases build <;> rfl

theorem Over.value_store (overTable : parser.Over table)
    (defined : (definition table name key).isSome) (text : Text) :
    (parser.store name key fun _ => text).value name key = text := by
  rw [← overTable.defined, Option.isSome_map] at defined
  obtain ⟨entry, found⟩ := Option.isSome_iff_exists.1 defined
  simp [value, findItem_store, found]

theorem value_store_other {otherName otherKey : Text} (text : Text)
    (apart : (foldCase name, foldCase key) ≠ (foldCase otherName, foldCase otherKey)) :
    (parser.store name key fun _ => text).value otherName otherKey =
      parser.value otherName otherKey := by
  rw [value, findItem_store]
  simp only [apart, if_false, Option.map_map]
  rfl

end ConfigParser

end ThemeSrv
