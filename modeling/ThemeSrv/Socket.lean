import Mathlib.Data.List.Basic
import Mathlib.Tactic.Ring
import Mathlib.Tactic.Linarith

/-!
# Non-blocking sockets

`socket::read` and `socket::write` fold the outcomes of the system calls into
three answers: some bytes went through, the call would block, or it failed.
A write to a peer that has closed is one more case, for the signal it raises.
A `Socket` carries a script of what the peer and the kernel are going to do,
and the record of the calls made so far.
-/

namespace ThemeSrv

abbrev Bytes := List UInt8

/-- One answer of `socket::read`: `(true, n)`, `(false, 0)` or `(false, -1)`.
End of file is a successful read of no bytes. -/
inductive ReadAnswer
  | data (bytes : Bytes)
  | wouldBlock
  | failure
  deriving DecidableEq, Repr

/-- One answer of `socket::write`.  A broken pipe is a failure that comes with
`SIGPIPE`. -/
inductive WriteAnswer
  | accepted (count : Nat)
  | wouldBlock
  | failure
  | brokenPipe
  deriving DecidableEq, Repr

/-- Whether `write` returned -1 for another reason than a full buffer. -/
def WriteAnswer.isError : WriteAnswer → Bool
  | .failure | .brokenPipe => true
  | .accepted _ | .wouldBlock => false

/-- The answer to a write of `count` bytes: no more of them are accepted. -/
def WriteAnswer.limit (count : Nat) : WriteAnswer → WriteAnswer
  | .accepted taken => .accepted (min taken count)
  | .wouldBlock => .wouldBlock
  | .failure => .failure
  | .brokenPipe => .brokenPipe

/-- What the socket answers once the scripted deliveries are used up. -/
inductive Idle
  | wouldBlock
  | failure
  | endOfFile
  deriving DecidableEq, Repr

def Idle.answer : Idle → ReadAnswer
  | .wouldBlock => .wouldBlock
  | .failure => .failure
  | .endOfFile => .data []

/-- The bytes a delivery brings. -/
def ReadAnswer.bytes : ReadAnswer → Bytes
  | .data bytes => bytes
  | .wouldBlock | .failure => []

/-- System calls made on a socket, with their arguments and answers. -/
inductive SocketCall
  | read (asked : Nat) (answer : ReadAnswer)
  | write (offered : Bytes) (answer : WriteAnswer)
  | shutdown
  deriving DecidableEq, Repr

/-- Whether a call has raised `SIGPIPE`. -/
def SocketCall.isBrokenPipe : SocketCall → Bool
  | .write _ .brokenPipe => true
  | _ => false

structure Socket where
  /-- Deliveries to come; a piece longer than a request is split. -/
  inbound : List ReadAnswer
  idle : Idle
  /-- Answers to the writes to come; would-block when used up. -/
  outbound : List WriteAnswer
  calls : List SocketCall
  deriving DecidableEq, Repr

namespace Socket

/-- `socket::read`: at most `bufsz` bytes of the delivery in front. -/
def read (sock : Socket) (bufsz : Nat) : ReadAnswer × Socket :=
  match sock.inbound with
  | [] =>
      (sock.idle.answer, { sock with calls := sock.calls ++ [.read bufsz sock.idle.answer] })
  | .data bytes :: rest =>
      if bytes.length ≤ bufsz then
        (.data bytes,
          { sock with inbound := rest, calls := sock.calls ++ [.read bufsz (.data bytes)] })
      else
        (.data (bytes.take bufsz),
          { sock with
            inbound := .data (bytes.drop bufsz) :: rest
            calls := sock.calls ++ [.read bufsz (.data (bytes.take bufsz))] })
  | answer :: rest =>
      (answer, { sock with inbound := rest, calls := sock.calls ++ [.read bufsz answer] })

/-- `socket::write`. -/
def write (sock : Socket) (offered : Bytes) : WriteAnswer × Socket :=
  let answer := (sock.outbound.headD .wouldBlock).limit offered.length
  (answer,
    { sock with
      outbound := sock.outbound.tail
      calls := sock.calls ++ [.write offered answer] })

/-- `socket::shutdown`. -/
def shutdown (sock : Socket) : Socket :=
  { sock with calls := sock.calls ++ [.shutdown] }

/-- Whether `shutdown` has been called. -/
def isDown (sock : Socket) : Bool :=
  sock.calls.contains .shutdown

/-- Whether a write has raised `SIGPIPE`. -/
def brokenPipe (sock : Socket) : Bool :=
  sock.calls.any SocketCall.isBrokenPipe

/-- A socket that is not shut down, and whose writes have raised no signal. -/
structure Usable (sock : Socket) : Prop where
  up : sock.isDown = false
  intact : sock.brokenPipe = false

end Socket

/-- The bytes one call got accepted by the socket. -/
def SocketCall.sent : SocketCall → Bytes
  | .write offered (.accepted count) => offered.take count
  | _ => []

/-- The bytes one call received from the socket. -/
def SocketCall.received : SocketCall → Bytes
  | .read _ (.data bytes) => bytes
  | _ => []

namespace Socket

/-- All bytes the socket has accepted so far. -/
def sent (sock : Socket) : Bytes :=
  sock.calls.flatMap SocketCall.sent

/-- All bytes the socket has delivered so far. -/
def received (sock : Socket) : Bytes :=
  sock.calls.flatMap SocketCall.received

end Socket

/-! ### Sockets that are only read from -/

/-- Whether a call offers bytes to the socket. -/
def SocketCall.isWrite : SocketCall → Bool
  | .write _ _ => true
  | .read _ _ | .shutdown => false

/-- The socket was used, but not written to. -/
def Socket.ReadOnly (sock sock' : Socket) : Prop :=
  ∃ calls, sock'.calls = sock.calls ++ calls ∧ ∀ call ∈ calls, call.isWrite = false

namespace Socket

theorem ReadOnly.refl (sock : Socket) : sock.ReadOnly sock :=
  ⟨[], by simp, by simp⟩

theorem ReadOnly.trans {first second third : Socket} (before : first.ReadOnly second)
    (after : second.ReadOnly third) : first.ReadOnly third := by
  obtain ⟨calls, sameCalls, reads⟩ := before
  obtain ⟨more, sameMore, moreReads⟩ := after
  refine ⟨calls ++ more, by rw [sameMore, sameCalls, List.append_assoc], ?_⟩
  intro call member
  rcases List.mem_append.mp member with earlier | later
  · exact reads call earlier
  · exact moreReads call later

theorem readOnly_shutdown (sock : Socket) : sock.ReadOnly sock.shutdown :=
  ⟨[.shutdown], rfl, by simp [SocketCall.isWrite]⟩

theorem read_calls {sock sock' : Socket} {bufsz : Nat} {answer : ReadAnswer}
    (answered : sock.read bufsz = (answer, sock')) :
    sock'.calls = sock.calls ++ [.read bufsz answer] := by
  unfold Socket.read at answered
  split at answered
  · cases answered
    rfl
  · split at answered <;> cases answered <;> rfl
  · cases answered
    rfl

@[simp]
theorem idle_bytes (idle : Idle) : idle.answer.bytes = [] := by
  cases idle <;> rfl

/-- A read finds nothing to come, takes the delivery in front, or its first
part when it is longer than the request. -/
theorem read_cases {sock sock' : Socket} {bufsz : Nat} {answer : ReadAnswer}
    (answered : sock.read bufsz = (answer, sock')) :
    (sock.inbound = [] ∧ answer = sock.idle.answer ∧ sock'.inbound = []) ∨
      (∃ rest, sock.inbound = answer :: rest ∧ answer.bytes.length ≤ bufsz ∧
        sock'.inbound = rest) ∨
      ∃ piece rest, sock.inbound = .data piece :: rest ∧ bufsz < piece.length ∧
        answer = .data (piece.take bufsz) ∧ sock'.inbound = .data (piece.drop bufsz) :: rest := by
  unfold Socket.read at answered
  split at answered
  case h_1 empty =>
    cases answered
    exact .inl ⟨empty, rfl, empty⟩
  case h_2 piece rest front =>
    split_ifs at answered with fits
    · cases answered
      exact .inr (.inl ⟨rest, front, fits, rfl⟩)
    · cases answered
      exact .inr (.inr ⟨piece, rest, front, not_le.mp fits, rfl, rfl⟩)
  case h_3 delivery rest noData front =>
    cases answered
    cases answer with
    | data piece => exact absurd rfl (noData piece)
    | wouldBlock | failure => exact .inr (.inl ⟨rest, front, Nat.zero_le _, rfl⟩)

theorem readOnly_read {sock sock' : Socket} {bufsz : Nat} {answer : ReadAnswer}
    (answered : sock.read bufsz = (answer, sock')) : sock.ReadOnly sock' :=
  ⟨[.read bufsz answer], read_calls answered, by simp [SocketCall.isWrite]⟩

theorem ReadOnly.sent_eq {sock sock' : Socket} (readOnly : sock.ReadOnly sock') :
    sock'.sent = sock.sent := by
  obtain ⟨calls, sameCalls, reads⟩ := readOnly
  have nothing : calls.flatMap SocketCall.sent = [] := by
    rw [List.flatMap_eq_nil_iff]
    intro call member
    have noWrite := reads call member
    cases call with
    | write offered answer => cases noWrite
    | read asked answer | shutdown => rfl
  rw [sent, sent, sameCalls, List.flatMap_append, nothing, List.append_nil]

theorem ReadOnly.isDown {sock sock' : Socket} (readOnly : sock.ReadOnly sock')
    (down : sock.isDown = true) : sock'.isDown = true := by
  obtain ⟨calls, sameCalls, -⟩ := readOnly
  simp only [Socket.isDown, List.contains_iff_mem] at down ⊢
  rw [sameCalls]
  exact List.mem_append_left _ down

end Socket

end ThemeSrv
