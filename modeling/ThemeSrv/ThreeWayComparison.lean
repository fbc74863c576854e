import Mathlib.Data.List.Lex
import Mathlib.Algebra.Order.Group.Int
import Mathlib.Order.Monotone.Basic

/-!
# Three-way comparison

Functions that report how two keys are ordered by an integer, as the
comparison functions of the C library do.  The sign of the integer is all that
such a function promises.  This file relates the order on the keys to tests of
the sign, and to tests for one particular negative result.
-/

namespace ThreeWayComparison

/-- The sign of `compare first second` tells how the two keys are ordered. -/
structure SignOrders {Key : Type*} [LinearOrder Key] (compare : Key → Key → ℤ) : Prop where
  less : ∀ {first second : Key}, first < second → compare first second < 0
  equal : ∀ key : Key, compare key key = 0
  greater : ∀ {first second : Key}, second < first → 0 < compare first second

/-- Of `less`, `equal` and `less` the other way round exactly one holds, and
`less` is transitive. -/
structure StrictlyTotal {Key : Type*} (less equal : Key → Key → Bool) : Prop where
  exactlyOne : ∀ first second : Key,
    [less first second, equal first second, less second first].count true = 1
  trans : ∀ {first second third : Key},
    less first second = true → less second third = true → less first third = true

namespace SignOrders

variable {Key : Type*} [LinearOrder Key] {compare : Key → Key → ℤ}

theorem neg_iff (orders : SignOrders compare) (first second : Key) :
    compare first second < 0 ↔ first < second := by
  rcases lt_trichotomy first second with before | rfl | after
  · simp [before, orders.less before]
  · simp [orders.equal]
  · have positive := orders.greater after
    simp only [after.not_gt, iff_false]
    omega

theorem zero_iff (orders : SignOrders compare) (first second : Key) :
    compare first second = 0 ↔ first = second := by
  rcases lt_trichotomy first second with before | rfl | after
  · simp [before.ne, (orders.less before).ne]
  · simp [orders.equal]
  · simp [after.ne', (orders.greater after).ne']

/-! ### Comparison functions from others -/

/-- The difference of two values that grow with the key. -/
theorem difference {value : Key → ℤ}
    (grows : ∀ {first second : Key}, first < second → value first < value second) :
    SignOrders fun first second => value first - value second where
  less := by
    intro first second before
    have := grows before
    omega
  equal := fun key => Int.sub_self (value key)
  greater := by
    intro first second after
    have := grows after
    omega

/-- The result reduced to its sign. -/
theorem sign (orders : SignOrders compare) :
    SignOrders fun first second => (compare first second).sign where
  less := fun before => Int.sign_neg_iff.mpr (orders.less before)
  equal := fun key => by rw [orders.equal, Int.sign_zero]
  greater := fun after => Int.sign_pos_iff.mpr (orders.greater after)

/-- Keys compared through an image in the same order. -/
theorem comap {Source : Type*} [LinearOrder Source] {image : Source → Key}
    (orders : SignOrders compare) (grows : StrictMono image) :
    SignOrders fun first second => compare (image first) (image second) where
  less := fun before => orders.less (grows before)
  equal := fun key => orders.equal (image key)
  greater := fun after => orders.greater (grows after)

end SignOrders

/-! ### Lists -/

/-- The result for the first entries that differ. -/
def lexically {Key : Type*} (compare : Key → Key → ℤ) : List Key → List Key → ℤ
  | [], [] => 0
  | [], _ :: _ => -1
  | _ :: _, [] => 1
  | first :: firsts, second :: seconds =>
      if compare first second = 0 then lexically compare firsts seconds
      else compare first second

/-- The first `count` entries compared in one way, and the others in another
way where the first ones are equal. -/
def inParts {Key : Type*} (count : ℕ) (front rest : List Key → List Key → ℤ)
    (firsts seconds : List Key) : ℤ :=
  if front (firsts.take count) (seconds.take count) = 0 then
    rest (firsts.drop count) (seconds.drop count)
  else
    front (firsts.take count) (seconds.take count)

section Lists

variable {Key : Type*} [LinearOrder Key]

theorem lexically_of_lt {compare : Key → Key → ℤ} (orders : SignOrders compare)
    {firsts seconds : List Key} (before : firsts < seconds) :
    lexically compare firsts seconds < 0 ∧ 0 < lexically compare seconds firsts := by
  induction before with
  | nil => simp [lexically]
  | rel less =>
      have negative := orders.less less
      have positive := orders.greater less
      simp [lexically, negative, negative.ne, positive, positive.ne']
  | cons later ih => simpa [lexically, orders.equal] using ih

/-- Lists are compared in lexical order. -/
theorem SignOrders.lexically {compare : Key → Key → ℤ} (orders : SignOrders compare) :
    SignOrders (lexically compare) where
  less := fun before => (lexically_of_lt orders before).1
  equal := by
    intro keys
    induction keys with
    | nil => rfl
    | cons key keys ih => simpa [ThreeWayComparison.lexically, orders.equal] using ih
  greater := fun after => (lexically_of_lt orders after).2

/-- The first entries decide the order of two lists, or the others do. -/
theorem take_lt_or_eq (count : ℕ) {firsts seconds : List Key} (before : firsts < seconds) :
    firsts.take count < seconds.take count ∨
      firsts.take count = seconds.take count ∧ firsts.drop count < seconds.drop count := by
  induction before generalizing count with
  | nil =>
      cases count with
      | zero => exact .inr ⟨rfl, List.nil_lt_cons _ _⟩
      | succ count => exact .inl (List.nil_lt_cons _ _)
  | rel less =>
      cases count with
      | zero => exact .inr ⟨rfl, List.Lex.rel less⟩
      | succ count => exact .inl (List.Lex.rel less)
  | cons later ih =>
      cases count with
      | zero => exact .inr ⟨rfl, List.Lex.cons later⟩
      | succ count =>
          rcases ih count with front | ⟨same, rest⟩
          · exact .inl (List.Lex.cons front)
          · exact .inr ⟨congrArg (List.cons _) same, rest⟩

theorem inParts_of_lt {front rest : List Key → List Key → ℤ} (frontOrders : SignOrders front)
    (restOrders : SignOrders rest) (count : ℕ) {firsts seconds : List Key}
    (before : firsts < seconds) :
    inParts count front rest firsts seconds < 0 ∧ 0 < inParts count front rest seconds firsts := by
  unfold inParts
  rcases take_lt_or_eq count before with first | ⟨same, later⟩
  · have negative := frontOrders.less first
    have positive := frontOrders.greater first
    rw [if_neg negative.ne, if_neg positive.ne']
    exact ⟨negative, positive⟩
  · rw [same, if_pos (frontOrders.equal _), if_pos (frontOrders.equal _)]
    exact ⟨restOrders.less later, restOrders.greater later⟩

theorem SignOrders.inParts {front rest : List Key → List Key → ℤ}
    (frontOrders : SignOrders front) (restOrders : SignOrders rest) (count : ℕ) :
    SignOrders (inParts count front rest) where
  less := fun before => (inParts_of_lt frontOrders restOrders count before).1
  equal := by
    intro keys
    unfold ThreeWayComparison.inParts
    rw [if_pos (frontOrders.equal _), restOrders.equal]
  greater := fun after => (inParts_of_lt frontOrders restOrders count after).2

end Lists

/-! ### Tests for one negative result -/

section Markers

variable {Key : Type*} [LinearOrder Key] {compare : Key → Key → ℤ} {marker : ℤ}

/-- A test for a negative result only ever finds pairs in order. -/
theorem SignOrders.lt_of_eq (orders : SignOrders compare) (negative : marker < 0)
    {first second : Key} (found : compare first second = marker) : first < second := by
  rw [← orders.neg_iff, found]
  exact negative

/-- For two keys, exactly one of the tests succeeds unless they are in order
and the comparison function reports that by another number. -/
theorem SignOrders.exactlyOne_iff (orders : SignOrders compare) (negative : marker < 0)
    (first second : Key) :
    [compare first second == marker, compare first second == 0,
        compare second first == marker].count true = 1 ↔
      (first < second → compare first second = marker) ∧
        (second < first → compare second first = marker) := by
  have missed {lower upper : Key} (before : lower < upper) : compare upper lower ≠ marker :=
    fun found => before.asymm (orders.lt_of_eq negative found)
  rcases lt_trichotomy first second with before | rfl | after
  · by_cases found : compare first second = marker <;>
      simp [before, before.asymm, found, missed before, (orders.less before).ne, negative.ne]
  · simp [orders.equal, negative.ne']
  · by_cases found : compare second first = marker <;>
      simp [after, after.asymm, found, missed after, (orders.greater after).ne']

/-- The tests make a strict total order exactly when the comparison function
has only one negative result. -/
theorem SignOrders.strictlyTotal_iff (orders : SignOrders compare) (negative : marker < 0) :
    StrictlyTotal (fun first second => compare first second == marker)
        (fun first second => compare first second == 0) ↔
      ∀ first second, first < second → compare first second = marker := by
  constructor
  · intro total first second before
    exact ((orders.exactlyOne_iff negative first second).mp
      (total.exactlyOne first second)).1 before
  · intro marked
    refine ⟨fun first second => ?_, fun {first second third} => ?_⟩
    · exact (orders.exactlyOne_iff negative first second).mpr
        ⟨marked first second, marked second first⟩
    · simp only [beq_iff_eq]
      intro firstLess secondLess
      exact marked first third
        ((orders.lt_of_eq negative firstLess).trans (orders.lt_of_eq negative secondLess))

end Markers

end ThreeWayComparison
