import Mathlib.Data.List.Infix

/-!
# Self-delimiting codes

Where no code word starts with another one, a stream of code words is read in
only one way, also when it breaks off.  A code word may leave parts of its item
unsaid: what it tells of the item is read off the stream all the same.
-/

namespace SelfDelimiting

variable {Item Cell Seen : Type*}

/-- A code word starts with another one only if it is that one, and then the
two items look the same. -/
def Tells (code : Item → List Cell) (seen : Item → Seen) : Prop :=
  ∀ first second, code first <+: code second →
    code first = code second ∧ seen first = seen second

variable {code : Item → List Cell} {seen : Item → Seen}

/-- An injective code needs only the comparison of its items. -/
theorem tells_of_eq {code : Item → List Cell}
    (same : ∀ first second, code first <+: code second → first = second) : Tells code id :=
  fun first second front => ⟨congrArg code (same first second front), same first second front⟩

/-- One of two code words at the same place of a stream starts with the other. -/
theorem Tells.of_stream (tells : Tells code seen) {first second : Item} {stream : List Cell}
    (front : code first <+: stream) (other : code second <+: stream) :
    code first = code second ∧ seen first = seen second := by
  rcases List.prefix_or_prefix_of_prefix front other with below | above
  · exact tells first second below
  · obtain ⟨sameWord, sameItem⟩ := tells second first above
    exact ⟨sameWord.symm, sameItem.symm⟩

/-- A stream tells its items in order. -/
theorem Tells.told_in_order (tells : Tells code seen) (nonempty : ∀ item, code item ≠ [])
    {first second : List Item} (front : first.flatMap code <+: second.flatMap code) :
    first.map seen <+: second.map seen := by
  induction first generalizing second with
  | nil => exact List.nil_prefix
  | cons item items ih =>
      cases second with
      | nil =>
          have empty := List.prefix_nil.mp front
          rw [List.flatMap_cons, List.append_eq_nil_iff] at empty
          exact absurd empty.1 (nonempty item)
      | cons other others =>
          rw [List.flatMap_cons, List.flatMap_cons] at front
          obtain ⟨sameWord, sameItem⟩ := tells.of_stream
            ((List.prefix_append _ _).trans front) (List.prefix_append (code other) _)
          rw [sameWord, List.prefix_append_right_inj] at front
          rw [List.map_cons, List.map_cons, sameItem, List.prefix_cons_inj]
          exact ih front

/-- Parts whose lengths follow from the parts in front of them. -/
theorem eq_of_flatten_prefix {first second : List (List Cell)}
    (sameCount : first.length = second.length)
    (sizes : ∀ index part other, first[index]? = some part → second[index]? = some other →
      first.take index = second.take index → part.length = other.length)
    (front : first.flatten <+: second.flatten) : first = second := by
  induction first generalizing second with
  | nil => exact (List.length_eq_zero_iff.mp sameCount.symm).symm
  | cons part parts ih =>
      cases second with
      | nil => cases sameCount
      | cons other others =>
          obtain ⟨rest, whole⟩ := front
          rw [List.flatten_cons, List.flatten_cons, List.append_assoc] at whole
          obtain ⟨rfl, behind⟩ := List.append_inj whole (sizes 0 part other rfl rfl rfl)
          have later := ih (Nat.succ.inj sameCount)
            (fun index inner innerOther found foundOther same =>
              sizes (index + 1) inner innerOther found foundOther
                (by rw [List.take_succ_cons, List.take_succ_cons, same]))
            ⟨rest, behind⟩
          rw [later]

end SelfDelimiting
