import ThemeSrv.ReaderCalls
import ThemeSrv.WriterQueue

/-!
# The bytes a socket is offered

A partly accepted message is offered again from where it was left, so the
offers of a connection overlap.  Laid over the accepted bytes they all stay
inside one stream: that of the encoded messages.
-/

namespace ThemeSrv

open BufferedStream KeystreamCipher

/-- Each offer continues the bytes accepted before it along one stream. -/
def Socket.OffersWithin (sock : Socket) (stream : Bytes) : Prop :=
  ∀ before offered answer after, sock.calls = before ++ .write offered answer :: after →
    before.flatMap SocketCall.sent ++ offered <+: stream

namespace Socket

variable {sock sock' : Socket} {stream : Bytes}

theorem OffersWithin.mono (within : sock.OffersWithin stream) {longer : Bytes}
    (extended : stream <+: longer) : sock.OffersWithin longer :=
  fun before offered answer after calls =>
    (within before offered answer after calls).trans extended

theorem OffersWithin.readOnly (within : sock.OffersWithin stream)
    (readOnly : sock.ReadOnly sock') : sock'.OffersWithin stream := by
  obtain ⟨calls, sameCalls, reads⟩ := readOnly
  intro before offered answer after split
  rw [sameCalls] at split
  rcases List.append_eq_append_iff.mp split with ⟨between, rfl, rest⟩ | ⟨between, front, rest⟩
  · have member : SocketCall.write offered answer ∈ calls := by
      rw [rest]
      simp
    cases reads _ member
  · cases between with
    | nil =>
        have member : SocketCall.write offered answer ∈ calls := by
          rw [List.nil_append] at rest
          rw [← rest]
          simp
        cases reads _ member
    | cons call between =>
        cases rest
        exact within before offered answer between front

theorem OffersWithin.write (within : sock.OffersWithin stream) {offered : Bytes}
    {answer : WriteAnswer} (calls : sock'.calls = sock.calls ++ [.write offered answer])
    (continues : sock.sent ++ offered <+: stream) : sock'.OffersWithin stream := by
  intro before other otherAnswer after split
  rw [calls] at split
  cases after using List.reverseRecOn with
  | nil =>
      obtain ⟨rfl, same⟩ := List.append_inj' split rfl
      cases same
      exact continues
  | append_singleton after last =>
      rw [← List.cons_append, ← List.append_assoc] at split
      exact within before other otherAnswer after (List.append_inj' split rfl).1

end Socket

/-- The outgoing side of a connection is in order: it stands for a buffered
stream, and all it ever offered lies inside the encoded messages. -/
structure Sending (c : ClientBase) : Prop where
  represented : Represented c
  offers : c.sock.OffersWithin c.encoded

theorem Represented.conserved {c : ClientBase} (represented : Represented c) :
    c.sock.sent ++ c.unsent = c.encoded := by
  obtain ⟨stream, represents⟩ := represented
  rw [← represents.posted, ← represents.accepted, ← represents.pending, stream.conserved]

theorem Sending.readOnly {c c' : ClientBase} (sending : Sending c) (writes : c'.writes = c.writes)
    (posted : c'.posted = c.posted) (readOnly : c.sock.ReadOnly c'.sock) : Sending c' := by
  have encoded : c'.encoded = c.encoded := by rw [ClientBase.encoded, ClientBase.encoded, posted]
  have unsent : c'.unsent = c.unsent := by rw [ClientBase.unsent, ClientBase.unsent, writes]
  constructor
  · obtain ⟨stream, represents⟩ := sending.represented
    exact ⟨stream, represents.posted.trans encoded.symm,
      represents.accepted.trans readOnly.sent_eq.symm, represents.pending.trans unsent.symm⟩
  · rw [encoded]
    exact sending.offers.readOnly readOnly

theorem ResumedWrite.offersWithin {c c' : ClientBase} {state state' : WriteState} {done : Bool}
    (resumed : ResumedWrite state c done state' c') {stream : Bytes}
    (offers : c.sock.OffersWithin stream) (continues : c.sock.sent ++ state.unsent <+: stream) :
    c'.sock.OffersWithin stream := by
  obtain ⟨answer, more, calls, reads⟩ := resumed.offered
  have written : ({ c.sock with calls := c.sock.calls ++ [.write state.unsent answer] } :
      Socket).OffersWithin stream :=
    offers.write rfl continues
  exact written.readOnly ⟨more, by rw [calls]; simp, reads⟩

theorem Sending.enqueueWrite {ns : NetStruct} {image : Bytes} {c c' : ClientBase}
    (sending : Sending c) (done : enqueueWrite ns image c = .done () c') : Sending c' := by
  have case := enqueueCase ns image c
  rw [done] at case
  obtain ⟨stream, represents⟩ := sending.represented
  obtain ⟨stream', -, represents'⟩ := case.refines represents
  refine ⟨⟨stream', represents'⟩, ?_⟩
  have conserved := sending.represented.conserved
  have kept (wire : Bytes) (encrypt : Context) :
      (c.encodedMessage ns wire encrypt).sock.OffersWithin (c.encoded ++ wire) :=
    sending.offers.mono (List.prefix_append _ _)
  have continues (wire : Bytes) (idle : c.writes = []) :
      c.sock.sent ++ (WriteState.mk 0 wire).unsent <+: c.encoded ++ wire := by
    rw [← conserved, ClientBase.unsent, idle]
    simp [WriteState.unsent]
  cases case with
  | queued wire encrypt encoded waiting =>
      have grown := encoded_encodedMessage c ns wire encrypt
      change Socket.OffersWithin c.sock (c.encodedMessage ns wire encrypt).encoded
      rw [grown]
      exact kept wire encrypt
  | sent wire encrypt encoded idle state _ resumed =>
      have grown : c'.encoded = c.encoded ++ wire := by
        rw [← encoded_encodedMessage c ns wire encrypt, ClientBase.encoded, ClientBase.encoded,
          resumed.posted]
      rw [grown]
      exact resumed.offersWithin (kept wire encrypt) (continues wire idle)
  | partly wire encrypt encoded idle state c₁ resumed =>
      have grown : c₁.encoded = c.encoded ++ wire := by
        rw [← encoded_encodedMessage c ns wire encrypt, ClientBase.encoded, ClientBase.encoded,
          resumed.posted]
      change Socket.OffersWithin c₁.sock c₁.encoded
      rw [grown]
      exact resumed.offersWithin (kept wire encrypt) (continues wire idle)

theorem Sending.handleWrite {c : ClientBase} (sending : Sending c) :
    Sending (handleWrite c).2 := by
  have case := handleWriteCase c
  obtain ⟨stream, represents⟩ := sending.represented
  obtain ⟨stream', -, represents'⟩ := case.refines represents
  refine ⟨⟨stream', represents'⟩, ?_⟩
  have continues {front : WriteState} {rest : List WriteState} (queue : c.writes = front :: rest) :
      c.sock.sent ++ front.unsent <+: c.encoded := by
    rw [← sending.represented.conserved, ClientBase.unsent, queue, List.flatMap_cons,
      ← List.append_assoc]
    exact List.prefix_append _ _
  generalize ThemeSrv.handleWrite c = result at case
  cases case with
  | idle nothing => exact sending.offers
  | sent front rest queue state c' resumed | partly front rest queue state c' resumed =>
      have same : c'.encoded = c.encoded := by
        rw [ClientBase.encoded, ClientBase.encoded, resumed.posted]
      change Socket.OffersWithin c'.sock c'.encoded
      rw [same]
      exact resumed.offersWithin sending.offers (continues queue)

end ThemeSrv
