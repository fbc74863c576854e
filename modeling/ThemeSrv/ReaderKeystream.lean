import ThemeSrv.ReaderBounds

/-!
# The reader and its keystream

The number of bytes a turn asks for is added up by one loop, and the bytes it
receives are used up by another.  They agree: whenever `resume_read` returns
it has passed everything it received to the cipher, in the order of arrival.
-/

namespace ThemeSrv

open KeystreamCipher TransitionSystem

variable {ns : NetStruct}

/-- What was received meanwhile has been passed to the cipher. -/
def Deciphers (c c' : ClientBase) : Prop :=
  ∃ bytes, c'.decrypt = c.decrypt.feed bytes ∧ c'.sock.received = c.sock.received ++ bytes

theorem Deciphers.trans {first second third : ClientBase} (before : Deciphers first second)
    (after : Deciphers second third) : Deciphers first third := by
  obtain ⟨bytes, fed, received⟩ := before
  obtain ⟨more, fedMore, receivedMore⟩ := after
  refine ⟨bytes ++ more, ?_, ?_⟩
  · rw [fedMore, fed, Context.feed_append]
  · rw [receivedMore, received, List.append_assoc]

theorem Deciphers.of_turn {c c' : ClientBase} {turn : Turn}
    (case : TurnCase ns c (.done turn c')) : Deciphers c c' := by
  obtain ⟨bytes, fed, received, -⟩ := (turnFrame case).fed
  exact ⟨bytes, fed, received⟩

/-- No turn fails an assertion. -/
theorem TurnCase.no_assertion {c c' : ClientBase} {stop : Stop}
    (case : TurnCase ns c (.stopped stop c')) : stop ≠ .assertion := by
  cases case with
  | badAlloc | overrun => simp

/-- How a `resume_read` call ends in the middle of a message. -/
theorem resumeRead_deciphers (wellFormed : ns.WellFormed) (fuel : Nat) {c : ClientBase}
    (standing : c.read.Standing ns) :
    (∀ complete c', resumeRead fuel c = .done complete c' → Deciphers c c') ∧
      ∀ c', resumeRead fuel c ≠ .stopped .assertion c' := by
  induction fuel generalizing c with
  | zero => simp [resumeRead]
  | succ fuel ih =>
      have case := turnCase wellFormed standing
      rw [resumeRead]
      cases turn : resumeReadTurn c with
      | stopped stop c' =>
          rw [turn] at case
          have noAssertion := case.no_assertion
          simp [noAssertion]
      | done result c' =>
          rw [turn] at case
          have deciphers := Deciphers.of_turn case
          cases result with
          | returned complete =>
              constructor
              · intro complete' last returned
                cases returned
                exact deciphers
              · simp
          | again =>
              obtain ⟨later, noAssertion⟩ := ih (standing_of_turn standing case (by simp))
              constructor
              · intro complete last returned
                exact deciphers.trans (later complete last returned)
              · exact noAssertion

/-- A reader in the middle of a message, after any earlier calls and whatever
the socket is going to answer: a returning call has passed to the cipher what
it received, byte for byte; its assertions hold; and a key installed in front
of the call is used for the bytes received behind it, and for no others. -/
theorem receiver_synchronized (wellFormed : ns.WellFormed) {c : ClientBase}
    (reached : Reachable (ReaderStart ns) ReaderStep c) (fuel : Nat) :
    (∀ complete c', resumeRead fuel c = .done complete c' → Deciphers c c') ∧
      (∀ c', resumeRead fuel c ≠ .stopped .assertion c') ∧
      ∀ rc4 key complete c', resumeRead fuel (c.setCryptKey rc4 key) = .done complete c' →
        c'.decrypt.keystream = rc4 key ∧
          c'.decrypt.fed = c'.sock.received.drop c.sock.received.length := by
  have standing := (readerInvariant_of_reachable wellFormed reached).standing
  obtain ⟨deciphers, noAssertion⟩ := resumeRead_deciphers wellFormed fuel standing
  refine ⟨deciphers, noAssertion, ?_⟩
  intro rc4 key complete c' returned
  have keyed : (c.setCryptKey rc4 key).read.Standing ns := standing
  obtain ⟨bytes, fed, received⟩ :=
    (resumeRead_deciphers wellFormed fuel keyed).1 complete c' returned
  have before : c'.sock.received = c.sock.received ++ bytes := received
  rw [fed, before, List.drop_left]
  exact ⟨rfl, rfl⟩

/-- A ping in two pieces. -/
theorem receiver_synchronized_ping :
    ∃ c', resumeRead 3 (pingReader 2 [5, 6]) = .done true c' ∧
      c'.sock.received = pingFront 2 ++ [5, 6] ∧ Deciphers (pingReader 2 [5, 6]) c' := by
  obtain ⟨c', returned, received⟩ : ∃ c', resumeRead 3 (pingReader 2 [5, 6]) = .done true c' ∧
      c'.sock.received = pingFront 2 ++ [5, 6] := ⟨_, rfl, rfl⟩
  have wellFormed : pingRequest.WellFormed := by decide
  have synchronized := receiver_synchronized wellFormed
    (reachable_start (pingReader_start 2 [5, 6])) 3
  exact ⟨c', returned, received, synchronized.1 true c' returned⟩

end ThemeSrv
