import Mathlib.Data.List.Basic
import Mathlib.Logic.Relation

/-!
# Buffered streams

What a sender owes to the other side of a channel: everything posted to it,
in the order it was posted, the part the channel has accepted first and the
part still pending behind it.  A value that lost, repeated or reordered a cell
cannot be built.
-/

namespace BufferedStream

variable {Cell : Type*}

/-- A stream with its unsent end. -/
structure Stream (Cell : Type*) where
  posted : List Cell
  accepted : List Cell
  pending : List Cell
  conserved : accepted ++ pending = posted

namespace Stream

/-- Queue a message behind everything posted before. -/
def post (stream : Stream Cell) (message : List Cell) : Stream Cell where
  posted := stream.posted ++ message
  accepted := stream.accepted
  pending := stream.pending ++ message
  conserved := by rw [← List.append_assoc, stream.conserved]

/-- The channel accepts up to `count` of the pending cells. -/
def accept (stream : Stream Cell) (count : Nat) : Stream Cell where
  posted := stream.posted
  accepted := stream.accepted ++ stream.pending.take count
  pending := stream.pending.drop count
  conserved := by rw [List.append_assoc, List.take_append_drop, stream.conserved]

@[simp]
theorem post_posted (stream : Stream Cell) (message : List Cell) :
    (stream.post message).posted = stream.posted ++ message :=
  rfl

@[simp]
theorem post_accepted (stream : Stream Cell) (message : List Cell) :
    (stream.post message).accepted = stream.accepted :=
  rfl

@[simp]
theorem post_pending (stream : Stream Cell) (message : List Cell) :
    (stream.post message).pending = stream.pending ++ message :=
  rfl

@[simp]
theorem accept_posted (stream : Stream Cell) (count : Nat) :
    (stream.accept count).posted = stream.posted :=
  rfl

@[simp]
theorem accept_accepted (stream : Stream Cell) (count : Nat) :
    (stream.accept count).accepted = stream.accepted ++ stream.pending.take count :=
  rfl

@[simp]
theorem accept_pending (stream : Stream Cell) (count : Nat) :
    (stream.accept count).pending = stream.pending.drop count :=
  rfl

end Stream

/-- The two operations. -/
inductive Step : Stream Cell → Stream Cell → Prop
  | post (stream : Stream Cell) (message : List Cell) : Step stream (stream.post message)
  | accept (stream : Stream Cell) (count : Nat) : Step stream (stream.accept count)

end BufferedStream
