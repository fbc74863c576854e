import Mathlib.Algebra.Order.BigOperators.Group.List
import Mathlib.Tactic.Ring
import Mathlib.Tactic.Linarith

/-!
# Concatenations and the places where their parts meet

A list of parts is laid out one part behind the other.  Part `index` starts
at `boundary parts index`; no boundary lies strictly inside a part.
-/

namespace ConcatenatedParts

variable {Cell : Type*} {parts : List (List Cell)} {index : Nat} {part : List Cell}

/-- Where a part starts in the concatenation, and where the last one ends. -/
def boundary (parts : List (List Cell)) (index : Nat) : Nat :=
  (parts.take index).flatten.length

@[simp]
theorem boundary_zero (parts : List (List Cell)) : boundary parts 0 = 0 := by
  simp [boundary]

theorem boundary_length (parts : List (List Cell)) :
    boundary parts parts.length = parts.flatten.length := by
  simp [boundary]

theorem boundary_succ (found : parts[index]? = some part) :
    boundary parts (index + 1) = boundary parts index + part.length := by
  simp [boundary, List.take_add_one, found]

theorem boundary_mono (parts : List (List Cell)) {first second : Nat} (le : first ≤ second) :
    boundary parts first ≤ boundary parts second := by
  obtain ⟨step, rfl⟩ := Nat.exists_eq_add_of_le le
  simp [boundary, List.take_add]

theorem boundary_le (parts : List (List Cell)) (index : Nat) :
    boundary parts index ≤ parts.flatten.length := by
  calc boundary parts index ≤ boundary parts (max index parts.length) :=
        boundary_mono parts (Nat.le_max_left _ _)
    _ = parts.flatten.length := by
        rw [boundary, List.take_of_length_le (Nat.le_max_right _ _)]

theorem flatten_eq_append (parts : List (List Cell)) (index : Nat) :
    parts.flatten = (parts.take index).flatten ++ (parts.drop index).flatten := by
  rw [← List.flatten_append, List.take_append_drop]

theorem flatten_take (parts : List (List Cell)) (index : Nat) :
    parts.flatten.take (boundary parts index) = (parts.take index).flatten := by
  rw [flatten_eq_append parts index, boundary, List.take_left]

theorem flatten_drop (parts : List (List Cell)) (index : Nat) :
    parts.flatten.drop (boundary parts index) = (parts.drop index).flatten := by
  rw [flatten_eq_append parts index, boundary, List.drop_left]

theorem flatten_drop_cons (found : parts[index]? = some part) :
    parts.flatten.drop (boundary parts index) =
      part ++ parts.flatten.drop (boundary parts (index + 1)) := by
  obtain ⟨inside, rfl⟩ := List.getElem?_eq_some_iff.mp found
  rw [flatten_drop, flatten_drop, List.drop_eq_getElem_cons inside, List.flatten_cons]

/-- No part starts or ends strictly inside another one. -/
theorem no_boundary_inside {position : Nat} (found : parts[index]? = some part)
    (behind : boundary parts index < position)
    (before : position < boundary parts index + part.length) (other : Nat) :
    position ≠ boundary parts other := by
  intro same
  rcases Nat.lt_or_ge index other with later | earlier
  · have next := boundary_mono parts (Nat.succ_le_of_lt later)
    have step := boundary_succ found
    rw [Nat.succ_eq_add_one] at next
    omega
  · have prior := boundary_mono parts earlier
    omega

/-- Parts that are all of the given sizes end where the sizes add up to. -/
theorem boundary_add {first last : Nat} {size : Nat → Nat} (le : first ≤ last)
    (sizes : ∀ index, first ≤ index → index < last →
      ∃ part, parts[index]? = some part ∧ part.length = size (index + 1) - size index)
    (mono : ∀ index, first ≤ index → index < last → size index ≤ size (index + 1)) :
    boundary parts last + size first = boundary parts first + size last := by
  induction le with
  | refl => rfl
  | @step last le ih =>
      obtain ⟨part, found, length⟩ := sizes last le (Nat.lt_succ_self last)
      have grows := mono last le (Nat.lt_succ_self last)
      have prior := ih (fun index ge lt => sizes index ge (by omega))
        (fun index ge lt => mono index ge (by omega))
      rw [Nat.succ_eq_add_one, boundary_succ found]
      omega

/-- A boundary that falls on a run of parts is one of the run's own. -/
theorem boundary_inside {before run after : List (List Cell)}
    (behind : before.flatten.length ≤ boundary (before ++ run ++ after) index)
    (within : boundary (before ++ run ++ after) index ≤
      before.flatten.length + run.flatten.length) :
    ∃ inner, boundary (before ++ run ++ after) index =
      before.flatten.length + boundary run inner := by
  have place {count : Nat} (start : before.length ≤ count) (stop : count ≤ before.length + run.length) :
      boundary (before ++ run ++ after) count =
        before.flatten.length + boundary run (count - before.length) := by
    have inside : count - before.length - run.length = 0 := by omega
    simp [boundary, List.take_append, List.take_of_length_le start, inside]
  rcases Nat.lt_or_ge index before.length with early | start
  · have first := boundary_mono (before ++ run ++ after) early.le
    rw [place (le_refl _) (Nat.le_add_right _ _), Nat.sub_self, boundary_zero] at first
    exact ⟨0, by rw [boundary_zero]; omega⟩
  rcases Nat.lt_or_ge (before.length + run.length) index with late | stop
  · have last := boundary_mono (before ++ run ++ after) late.le
    rw [place (Nat.le_add_right _ _) (le_refl _), Nat.add_sub_cancel_left, boundary_length] at last
    exact ⟨run.length, by rw [boundary_length]; omega⟩
  · exact ⟨_, place start stop⟩

end ConcatenatedParts
