import Mathlib.Tactic.Ring
import Mathlib.Tactic.Linarith

/-!
# Additive stream ciphers

A stream cipher context is a keystream together with the input it has been
given so far; each further byte is combined with the keystream byte at its own
position.  Two contexts with one keystream and one position are inverse to
each other, however the input is cut into calls.
-/

namespace KeystreamCipher

/-- Combine a byte string with the keystream from a position on. -/
def combine (keystream : Nat → UInt8) : Nat → List UInt8 → List UInt8
  | _, [] => []
  | position, byte :: bytes =>
      (byte ^^^ keystream position) :: combine keystream (position + 1) bytes

/-- A cipher context: its keystream and everything passed to it since it was
keyed. -/
structure Context where
  keystream : Nat → UInt8
  fed : List UInt8

namespace Context

/-- A freshly keyed context. -/
def keyed (keystream : Nat → UInt8) : Context :=
  ⟨keystream, []⟩

/-- The output for one further piece of input. -/
def output (context : Context) (input : List UInt8) : List UInt8 :=
  combine context.keystream context.fed.length input

/-- The context after one further piece of input. -/
def feed (context : Context) (input : List UInt8) : Context :=
  { context with fed := context.fed ++ input }

end Context

@[simp]
theorem combine_nil (keystream : Nat → UInt8) (position : Nat) :
    combine keystream position [] = [] :=
  rfl

@[simp]
theorem combine_length (keystream : Nat → UInt8) (position : Nat) (input : List UInt8) :
    (combine keystream position input).length = input.length := by
  induction input generalizing position with
  | nil => rfl
  | cons byte input ih => simp [combine, ih]

theorem combine_append (keystream : Nat → UInt8) (position : Nat) (first second : List UInt8) :
    combine keystream position (first ++ second) =
      combine keystream position first ++
        combine keystream (position + first.length) second := by
  induction first generalizing position with
  | nil => simp
  | cons byte first ih =>
      have address : position + 1 + first.length = position + (first.length + 1) := by omega
      simp [combine, ih, address]

theorem combine_combine (keystream : Nat → UInt8) (position : Nat) (input : List UInt8) :
    combine keystream position (combine keystream position input) = input := by
  induction input generalizing position with
  | nil => rfl
  | cons byte input ih =>
      rw [combine, combine, ih, UInt8.xor_assoc, UInt8.xor_self, UInt8.xor_zero]

theorem combine_take (keystream : Nat → UInt8) (position count : Nat) (input : List UInt8) :
    combine keystream position (input.take count) =
      (combine keystream position input).take count := by
  induction input generalizing position count with
  | nil => simp
  | cons byte input ih =>
      cases count with
      | zero => rfl
      | succ count => simp [combine, ih]

theorem combine_drop (keystream : Nat → UInt8) (position count : Nat) (input : List UInt8) :
    combine keystream (position + count) (input.drop count) =
      (combine keystream position input).drop count := by
  induction input generalizing position count with
  | nil => simp
  | cons byte input ih =>
      cases count with
      | zero => rfl
      | succ count =>
          have address : position + (count + 1) = position + 1 + count := by omega
          simp [combine, address, ih]

/-- The zero keystream, that of the null cipher, changes nothing. -/
theorem combine_zero (position : Nat) (input : List UInt8) :
    combine (fun _ => 0) position input = input := by
  induction input generalizing position with
  | nil => rfl
  | cons byte input ih => rw [combine, ih, UInt8.xor_zero]

namespace Context

@[simp]
theorem output_nil (context : Context) : context.output [] = [] :=
  rfl

@[simp]
theorem output_length (context : Context) (input : List UInt8) :
    (context.output input).length = input.length := by
  simp [output]

@[simp]
theorem feed_keystream (context : Context) (input : List UInt8) :
    (context.feed input).keystream = context.keystream :=
  rfl

@[simp]
theorem feed_fed (context : Context) (input : List UInt8) :
    (context.feed input).fed = context.fed ++ input :=
  rfl

@[simp]
theorem feed_nil (context : Context) : context.feed [] = context := by
  simp [feed]

theorem feed_append (context : Context) (first second : List UInt8) :
    context.feed (first ++ second) = (context.feed first).feed second := by
  simp [feed]

/-- Output does not depend on how the input is cut into calls. -/
theorem output_append (context : Context) (first second : List UInt8) :
    context.output (first ++ second) =
      context.output first ++ (context.feed first).output second := by
  simp [output, combine_append]

/-- The input is read off the output, as far as it goes. -/
theorem prefix_of_output {context : Context} {first second : List UInt8}
    (front : context.output first <+: context.output second) : first <+: second := by
  obtain ⟨rest, whole⟩ := front
  have plain := congrArg (combine context.keystream context.fed.length) whole
  rw [output, output, combine_append, combine_combine, combine_combine] at plain
  exact ⟨_, plain⟩

/-- Two contexts agree when they hold one keystream at one position, as the
two ends of a connection do. -/
def Synchronized (sender receiver : Context) : Prop :=
  sender.keystream = receiver.keystream ∧ sender.fed.length = receiver.fed.length

/-- A receiver that is `start` bytes behind the sender recovers the segment of
the sender's input at `start`. -/
theorem output_segment {sender receiver : Context} {start : Nat}
    (sameKeystream : receiver.keystream = sender.keystream)
    (position : receiver.fed.length = sender.fed.length + start) (input : List UInt8)
    (count : Nat) :
    receiver.output (((sender.output input).drop start).take count) =
      (input.drop start).take count := by
  rw [output, output, sameKeystream, position, ← combine_drop, ← combine_take, combine_combine]

/-- Both ends stay synchronized after the receiver has taken in what the
sender has put out. -/
theorem Synchronized.feed {sender receiver : Context}
    (synchronized : Synchronized sender receiver) (input : List UInt8) :
    Synchronized (sender.feed input) (receiver.feed (sender.output input)) := by
  obtain ⟨sameKeystream, samePosition⟩ := synchronized
  exact ⟨sameKeystream, by simp [samePosition]⟩

end Context

/-! ### RC4 -/

/-- The permutation of RC4, packed into a number with one byte for each cell,
and the two indices. -/
structure Rc4State where
  i : Nat
  j : Nat
  cells : Nat

namespace Rc4State

/-- The cell at an index. -/
def cell (state : Rc4State) (index : Nat) : Nat :=
  state.cells / 256 ^ index % 256

/-- Move on to a pair of indices and exchange their cells. -/
def exchange (state : Rc4State) (i j : Nat) : Rc4State where
  i := i
  j := j
  cells := state.cells + state.cell j * 256 ^ i + state.cell i * 256 ^ j -
    state.cell i * 256 ^ i - state.cell j * 256 ^ j

/-- Every cell holds its own index. -/
def identity : Nat → Nat
  | 0 => 0
  | count + 1 => identity count + count * 256 ^ count

/-- The key schedule after a number of rounds. -/
def scheduled (key : List UInt8) : Nat → Rc4State
  | 0 => ⟨0, 0, identity 256⟩
  | round + 1 =>
      let state := scheduled key round
      state.exchange round
        ((state.j + state.cell round + (key.getD (round % key.length) 0).toNat) % 256)

/-- The state behind a number of output bytes. -/
def advanced (key : List UInt8) : Nat → Rc4State
  | 0 => { scheduled key 256 with i := 0, j := 0 }
  | count + 1 =>
      let state := advanced key count
      let i := (state.i + 1) % 256
      state.exchange i ((state.j + state.cell i) % 256)

end Rc4State

/-- The keystream of RC4. -/
def rc4 (key : List UInt8) (position : Nat) : UInt8 :=
  let state := Rc4State.advanced key (position + 1)
  UInt8.ofNat (state.cell ((state.cell state.i + state.cell state.j) % 256))

example : combine (rc4 [0x4b, 0x65, 0x79]) 0 [0x50, 0x6c, 0x61] = [0xbb, 0xf3, 0x16] := by
  decide +kernel

end KeystreamCipher
