import Mathlib.Data.List.Basic
import Mathlib.Tactic.Ring
import Mathlib.Tactic.Linarith

/-!
# Allocated memory blocks

An allocation is the list of its cells.  Accesses outside of it have no
result.  A store replaces a range of cells; cells outside of the range keep
their value, and adjacent stores join.
-/

namespace AllocatedBlock

variable {Cell : Type*}

/-- The `count` cells of a block from `position` on, if the block has them. -/
def load (block : List Cell) (position count : Nat) : Option (List Cell) :=
  if position + count ≤ block.length then
    some ((block.drop position).take count)
  else
    none

/-- Replace the cells from `position` on, if the block has them.  An empty
store touches no cell. -/
def store (block : List Cell) (position : Nat) (cells : List Cell) : Option (List Cell) :=
  if cells = [] then
    some block
  else if position + cells.length ≤ block.length then
    some (block.take position ++ cells ++ block.drop (position + cells.length))
  else
    none

theorem load_eq_some {block : List Cell} {position count : Nat}
    (inside : position + count ≤ block.length) :
    load block position count = some ((block.drop position).take count) := by
  rw [load, if_pos inside]

theorem load_length {block cells : List Cell} {position count : Nat}
    (loaded : load block position count = some cells) : cells.length = count := by
  unfold load at loaded
  split at loaded
  · cases loaded
    rw [List.length_take, List.length_drop]
    omega
  · cases loaded

theorem load_inside {block cells : List Cell} {position count : Nat}
    (loaded : load block position count = some cells) :
    position + count ≤ block.length := by
  unfold load at loaded
  split at loaded
  · assumption
  · cases loaded

theorem load_append {block first second : List Cell} {position : Nat}
    (loaded : load block position (first.length + second.length) = some (first ++ second)) :
    load block position first.length = some first ∧
      ∀ count ≤ second.length,
        load block (position + first.length) count = some (second.take count) := by
  have inside := load_inside loaded
  rw [load_eq_some inside] at loaded
  have whole : (block.drop position).take (first.length + second.length) = first ++ second :=
    Option.some.inj loaded
  have front : (block.drop position).take first.length = first := by
    have cut := congrArg (List.take first.length) whole
    rwa [List.take_take, min_eq_left (by omega), List.take_left] at cut
  have behind : ((block.drop position).drop first.length).take second.length = second := by
    have cut := congrArg (List.drop first.length) whole
    rwa [List.drop_take, Nat.add_sub_cancel_left, List.drop_left] at cut
  constructor
  · rw [load_eq_some (by omega), front]
  · intro count le
    rw [load_eq_some (by omega), ← List.drop_drop]
    have shorter := congrArg (List.take count) behind
    rw [List.take_take, min_eq_left le] at shorter
    rw [shorter]

/-- Loading depends on no cell at or behind the end of the range. -/
theorem load_congr_take {first second : List Cell} {position count bound : Nat}
    (same : first.take bound = second.take bound)
    (below : position + count ≤ bound)
    (insideFirst : bound ≤ first.length) (insideSecond : bound ≤ second.length) :
    load first position count = load second position count := by
  have window (block : List Cell) :
      (block.drop position).take count = ((block.take bound).drop position).take count := by
    rw [List.drop_take, List.take_take, min_eq_left (by omega)]
  rw [load_eq_some (by omega), load_eq_some (by omega), window first, window second, same]

@[simp]
theorem store_nil (block : List Cell) (position : Nat) : store block position [] = some block := by
  simp [store]

theorem store_of_inside {block cells : List Cell} {position : Nat}
    (inside : position + cells.length ≤ block.length) :
    store block position cells =
      some (block.take position ++ cells ++ block.drop (position + cells.length)) := by
  unfold store
  by_cases empty : cells = []
  · simp [empty]
  · simp [empty, inside]

theorem exists_store {block : List Cell} {position : Nat} (cells : List Cell)
    (inside : position + cells.length ≤ block.length) :
    ∃ stored, store block position cells = some stored :=
  ⟨_, store_of_inside inside⟩

theorem store_of_outside {block cells : List Cell} {position : Nat}
    (nonempty : cells ≠ []) (outside : block.length < position + cells.length) :
    store block position cells = none := by
  unfold store
  rw [if_neg nonempty, if_neg (by omega)]

theorem store_inside {block stored cells : List Cell} {position : Nat}
    (nonempty : cells ≠ []) (done : store block position cells = some stored) :
    position + cells.length ≤ block.length := by
  by_contra outside
  rw [store_of_outside nonempty (by omega)] at done
  cases done

theorem store_length {block stored cells : List Cell} {position : Nat}
    (done : store block position cells = some stored) : stored.length = block.length := by
  by_cases empty : cells = []
  · subst empty
    simp at done
    rw [done]
  · have inside := store_inside empty done
    rw [store_of_inside inside] at done
    cases done
    simp only [List.length_append, List.length_take, List.length_drop]
    omega

theorem store_take {block stored cells : List Cell} {position bound : Nat}
    (done : store block position cells = some stored) (before : bound ≤ position) :
    stored.take bound = block.take bound := by
  by_cases empty : cells = []
  · subst empty
    simp at done
    rw [done]
  · have inside := store_inside empty done
    rw [store_of_inside inside] at done
    cases done
    rw [List.append_assoc, List.take_append_of_le_length (by rw [List.length_take]; omega),
      List.take_take, min_eq_left before]

theorem store_behind {front back cells : List Cell} (room : cells.length ≤ back.length) :
    store (front ++ back) front.length cells =
      some (front ++ cells ++ back.drop cells.length) := by
  rw [store_of_inside (by rw [List.length_append]; omega), List.take_left,
    List.drop_length_add_append]

theorem store_append {block middle first : List Cell} {position : Nat} (second : List Cell)
    (done : store block position first = some middle)
    (inside : position + (first ++ second).length ≤ block.length) :
    store middle (position + first.length) second = store block position (first ++ second) := by
  rw [List.length_append] at inside
  have sameLength := store_length done
  rw [store_of_inside (by omega)] at done
  have shape : block.take position ++ first ++ block.drop (position + first.length) = middle :=
    Option.some.inj done
  have front : (block.take position ++ first).length = position + first.length := by
    rw [List.length_append, List.length_take]
    omega
  have kept : middle.take (position + first.length) = block.take position ++ first := by
    rw [← shape, ← front, List.take_left]
  have rest : middle.drop (position + first.length + second.length) =
      block.drop (position + first.length + second.length) := by
    rw [← shape, List.drop_append, List.drop_of_length_le (by omega), front, List.drop_drop,
      List.nil_append]
    congr 1
    omega
  rw [store_of_inside (by omega), store_of_inside (by rw [List.length_append]; omega), kept, rest,
    List.length_append, List.append_assoc _ first, Nat.add_assoc]

theorem load_store_within {block stored cells : List Cell} {position : Nat} (start count : Nat)
    (done : store block position cells = some stored)
    (inside : position + cells.length ≤ block.length) (within : start + count ≤ cells.length) :
    load stored (position + start) count = some ((cells.drop start).take count) := by
  have sameLength := store_length done
  rw [load_eq_some (by omega)]
  rw [store_of_inside inside] at done
  cases done
  have front : (block.take position).length = position := by
    rw [List.length_take]
    omega
  have behind : position + start - (block.take position).length = start := by omega
  rw [List.append_assoc, List.drop_append, List.drop_of_length_le (by omega), List.nil_append,
    behind, List.drop_append_of_le_length (by omega), List.take_append_of_le_length
      (by rw [List.length_drop]; omega)]

theorem load_store_same {block stored cells : List Cell} {position : Nat}
    (done : store block position cells = some stored)
    (inside : position + cells.length ≤ block.length) :
    load stored position cells.length = some cells := by
  simpa using load_store_within 0 cells.length done inside (by omega)

end AllocatedBlock
