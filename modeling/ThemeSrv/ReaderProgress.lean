import ThemeSrv.ReaderBounds

/-!
# Whether the reader comes back

`resume_read` loops until it returns from the middle of its body.  A turn that
neither returns nor takes a byte off the socket happens when the window is
already behind the offset, and at the end of file; then the next turn is like
it.  `CanProgress` excludes these states and the two in which the turn stops.
-/

namespace ThemeSrv

open AllocatedBlock ByteString KeystreamCipher TransitionSystem

variable {ns : NetStruct}

/-- `resume_read` returns. -/
def Returns (c : ClientBase) : Prop :=
  ∃ fuel complete c', resumeRead fuel c = .done complete c'

/-- Turns of one `resume_read` call. -/
def Iterates : ClientBase → ClientBase → Prop :=
  Relation.ReflTransGen fun c c' => resumeReadTurn c = .done .again c'

/-- A turn returns or has consumed a byte from the socket. -/
def Progresses (c : ClientBase) : Prop :=
  ∃ turn c', resumeReadTurn c = .done turn c' ∧
    (turn = .again → c.sock.received.length < c'.sock.received.length)

/-- What the state in front of a turn and the next answer of the socket have
to be: the request is rejected as too large; or it is not exhausted by the
offset, it is the size of an object, and the answer is no end of file and no
more bytes for the field than the allocation has room for. -/
def CanProgress (ns : NetStruct) (c : ClientBase) : Prop :=
  ns.wireSz c.read.memory c.read.field = sizeMax ∨
    c.Asks ns ∧ ∀ bytes sock, c.sock.read (c.request ns) = (.data bytes, sock) →
      bytes ≠ [] ∧ ns.memOffset c.read.field + c.read.offset +
        min bytes.length (ns.wireSz c.read.memory c.read.field) ≤ (ns.memTotal / 8 + 4) * 8

theorem canProgress_of_data {c : ClientBase} {bytes : Bytes} {sock : Socket} (asks : c.Asks ns)
    (answered : c.sock.read (c.request ns) = (.data bytes, sock)) (nonempty : bytes ≠ [])
    (inside : ns.memOffset c.read.field + c.read.offset +
      min bytes.length (ns.wireSz c.read.memory c.read.field) ≤ ns.allocation) :
    CanProgress ns c := by
  refine Or.inr ⟨asks, fun other otherSock otherAnswer => ?_⟩
  cases answered.symm.trans otherAnswer
  exact ⟨nonempty, inside⟩

theorem across_nothing_incomplete (wellFormed : ns.WellFormed) {c : ClientBase}
    {rest place : Nat} (stored : Bytes) (decrypt : Context) (asks : c.Asks ns)
    (empty : ns.wireSz c.read.memory c.read.field = 0) (restingAt : RestingPlace ns rest place)
    (further : c.read.field + 1 ≤ rest)
    (position : ns.memOffset rest + place = ns.memOffset (c.read.field + 1))
    (between : ns.FixedBetween (c.read.field + 1) rest) :
    ¬ (resting ns rest place stored decrypt).complete = true := by
  have wanting := asks.wanting
  have window := ns.window_le c.read.memory c.read.field
  have runs := between.memOffset_add_fixedRun further restingAt.le_size
  intro complete
  unfold resting at complete
  split_ifs at complete with last passed
  · rw [last] at position runs
    rw [ns.fixedRun_size] at runs
    omega
  · obtain ⟨field, found⟩ := ns.exists_field (show rest < ns.size by
      have := restingAt.le_size
      omega)
    cases kind : field.type.isVariable with
    | true =>
        rw [ns.fixedRun_of_variable found kind] at runs
        omega
    | false =>
        have positive := wellFormed.fixed_pos found kind
        have size : ns.wireSz stored rest = field.memSize := NetStruct.wireSz_of_fixed found kind
        omega

theorem received_lt_iff {sock sock' : Socket} {bufsz : Nat} {bytes : Bytes}
    (answered : sock.read bufsz = (.data bytes, sock')) :
    sock.received.length < sock'.received.length ↔ bytes ≠ [] := by
  rw [Socket.read_received answered, List.length_append, ← List.length_pos_iff]
  exact Nat.lt_add_right_iff_pos

/-- A turn makes progress exactly when it can. -/
theorem progresses_iff (wellFormed : ns.WellFormed) {c : ClientBase}
    (invariant : ReaderInvariant ns c) : Progresses c ↔ CanProgress ns c := by
  have standing := invariant.standing
  have grownLength := ReadState.grown_length standing.capacity
  have case := turnCase wellFormed standing
  have progress {turn : Turn} {c' : ClientBase} (done : resumeReadTurn c = .done turn c') :
      Progresses c ↔ (turn = .again → c.sock.received.length < c'.sock.received.length) := by
    constructor
    · rintro ⟨otherTurn, other, otherDone, consumed⟩
      cases done.symm.trans otherDone
      exact consumed
    · exact fun consumed => ⟨turn, c', done, consumed⟩
  have stops {stop : Stop} {c' : ClientBase} (stopped : resumeReadTurn c = .stopped stop c') :
      ¬ Progresses c := by
    rintro ⟨turn, other, done, -⟩
    cases stopped.symm.trans done
  generalize outcomeEq : resumeReadTurn c = outcome at case
  cases case with
  | tooLarge oversized =>
      rw [progress outcomeEq]
      exact ⟨fun _ => Or.inl oversized, fun _ again => by cases again⟩
  | stuck accepted exhausted =>
      rw [progress outcomeEq]
      refine ⟨fun consumed => absurd (consumed rfl) (lt_irrefl _), ?_⟩
      rintro (oversized | ⟨asks, -⟩)
      · exact absurd oversized accepted
      · exact absurd asks.wanting (Nat.not_lt.mpr exhausted)
  | badAlloc accepted wanting huge =>
      refine ⟨fun progresses => absurd progresses (stops outcomeEq), ?_⟩
      rintro (oversized | ⟨asks, -⟩)
      · exact absurd oversized accepted
      · exact absurd asks.allocatable (Nat.not_lt.mpr huge)
  | failure asks sock answered | wouldBlock asks sock answered =>
      rw [progress outcomeEq]
      refine ⟨fun _ => Or.inr ⟨asks, fun bytes other otherAnswer => ?_⟩, fun _ again => by cases again⟩
      cases answered.symm.trans otherAnswer
  | overrun asks bytes sock answered outside =>
      refine ⟨fun progresses => absurd progresses (stops outcomeEq), ?_⟩
      rintro (oversized | ⟨-, room⟩)
      · exact absurd oversized asks.accepted
      · obtain ⟨-, ends⟩ := room bytes sock answered
        obtain ⟨stored, done⟩ := exists_store_grown standing bytes (by rwa [Nat.min_comm])
        rw [done] at outside
        cases outside
  | inside asks bytes sock answered short stored done =>
      rw [progress outcomeEq]
      constructor
      · intro consumed
        have nonempty := (received_lt_iff answered).mp (consumed rfl)
        have plain : c.decrypt.output bytes ≠ [] := by
          rw [← List.length_pos_iff, Context.output_length]
          exact List.length_pos_iff.mpr nonempty
        have ends := store_inside plain done
        rw [Context.output_length, grownLength] at ends
        exact canProgress_of_data asks answered nonempty (by omega)
      · rintro (oversized | ⟨-, room⟩)
        · exact absurd oversized asks.accepted
        · intro _
          exact (received_lt_iff answered).mpr (room bytes sock answered).1
  | across asks bytes sock answered full first stored rest place firstDone done restingAt further
      position between =>
      rw [progress outcomeEq]
      constructor
      · intro consumed
        have nonempty : bytes ≠ [] := by
          rintro rfl
          have empty : ns.wireSz c.read.memory c.read.field = 0 := Nat.le_zero.mp full
          have incomplete := across_nothing_incomplete wellFormed stored (c.decrypt.feed []) asks
            empty restingAt further (by simpa using position) between
          exact (received_lt_iff answered).mp (consumed (if_neg incomplete)) rfl
        refine canProgress_of_data asks answered nonempty ?_
        by_cases nothing : c.decrypt.output
            (bytes.take (ns.wireSz c.read.memory c.read.field)) = []
        · have empty := congrArg List.length nothing
          rw [Context.output_length, List.length_take, List.length_nil] at empty
          have inside := invariant.inside
          omega
        · have ends := store_inside nothing firstDone
          rw [Context.output_length, List.length_take, grownLength] at ends
          omega
      · rintro (oversized | ⟨-, room⟩)
        · exact absurd oversized asks.accepted
        · intro _
          exact (received_lt_iff answered).mpr (room bytes sock answered).1

/-! ### The whole call -/

theorem Returns.of_again {c c' : ClientBase} (turn : resumeReadTurn c = .done .again c')
    (returns : Returns c') : Returns c := by
  obtain ⟨fuel, complete, last, done⟩ := returns
  exact ⟨fuel + 1, complete, last, by rw [resumeRead, turn]; exact done⟩

/-- When every turn makes progress the call returns: the socket has finitely
many bytes to deliver. -/
theorem returns_of_progresses (wellFormed : ns.WellFormed) (pending : Nat) {c : ClientBase}
    (invariant : ReaderInvariant ns c) (bound : c.sock.pending = pending)
    (progresses : ∀ c', Iterates c c' → Progresses c') : Returns c := by
  induction pending using Nat.strong_induction_on generalizing c with
  | _ pending ih =>
      obtain ⟨turn, c', done, consumed⟩ := progresses c .refl
      cases turn with
      | returned complete => exact ⟨1, complete, c', by rw [resumeRead, done]⟩
      | again =>
          have case := turnCase wellFormed invariant.standing
          rw [done] at case
          obtain ⟨bytes, -, received, moved⟩ := (turnFrame case).fed
          have grows := consumed rfl
          rw [received, List.length_append] at grows
          have next : ReaderInvariant ns c' := invariant.step wellFormed (.turn done (by simp))
          exact .of_again done (ih c'.sock.pending (by omega) next rfl
            fun last iterates => progresses last (.head done iterates))

theorem ReaderInvariant.iterates (wellFormed : ns.WellFormed) {c c' : ClientBase}
    (invariant : ReaderInvariant ns c) (iterates : Iterates c c') : ReaderInvariant ns c' :=
  kept_of_steps (fun _ _ kept turn => kept.step wellFormed (.turn turn (by simp))) iterates
    invariant

/-- `resume_read` returns with progress in every turn exactly when every turn
it takes starts where progress is possible. -/
theorem resumeRead_progress_iff (wellFormed : ns.WellFormed) {c : ClientBase}
    (reached : Reachable (ReaderStart ns) ReaderStep c) :
    (Returns c ∧ ∀ c', Iterates c c' → Progresses c') ↔
      ∀ c', Iterates c c' → CanProgress ns c' := by
  have invariant := readerInvariant_of_reachable wellFormed reached
  have turns (c' : ClientBase) (iterates : Iterates c c') : Progresses c' ↔ CanProgress ns c' :=
    progresses_iff wellFormed (invariant.iterates wellFormed iterates)
  constructor
  · exact fun ⟨_, progresses⟩ c' iterates => (turns c' iterates).mp (progresses c' iterates)
  · intro canProgress
    have progresses (c' : ClientBase) (iterates : Iterates c c') : Progresses c' :=
      (turns c' iterates).mpr (canProgress c' iterates)
    exact ⟨returns_of_progresses wellFormed _ invariant rfl progresses, progresses⟩

/-! ### The loop that does not end -/

/-- Once the offset has used up the window no turn changes that. -/
theorem not_returns_of_exhausted (wellFormed : ns.WellFormed) {c : ClientBase}
    (standing : c.read.Standing ns)
    (accepted : ns.wireSz c.read.memory c.read.field ≠ sizeMax)
    (exhausted : ns.window c.read.memory c.read.field ≤ c.read.offset) : ¬ Returns c := by
  rintro ⟨fuel, complete, last, done⟩
  induction fuel generalizing c with
  | zero => cases done
  | succ fuel ih =>
      have turn : resumeReadTurn c = .done .again (c.allocated ns) := by
        rw [resumeReadTurn_eq wellFormed c standing, if_neg accepted, if_pos exhausted]
      have same : ns.wireSz (c.read.grown ns) c.read.field =
          ns.wireSz c.read.memory c.read.field := wellFormed.wireSz_grown standing
      have sameWindow : ns.window (c.read.grown ns) c.read.field =
          ns.window c.read.memory c.read.field := by rw [NetStruct.window, same, NetStruct.window]
      rw [resumeRead, turn] at done
      exact ih standing.allocated (by rw [← same] at accepted; exact accepted)
        (by rw [← sameWindow] at exhausted; exact exhausted) done

theorem Returns.again {c c' : ClientBase} (returns : Returns c)
    (turn : resumeReadTurn c = .done .again c') : Returns c' := by
  obtain ⟨fuel, complete, last, done⟩ := returns
  cases fuel with
  | zero => cases done
  | succ fuel =>
      rw [resumeRead, turn] at done
      exact ⟨fuel, complete, last, done⟩

/-! ### A message number in one piece and in two -/

theorem resumeRead_progress_whole_header :
    Returns (freshReader msgStdHeader [.data [1, 0]]) ∧
      ∀ c', Iterates (freshReader msgStdHeader [.data [1, 0]]) c' → Progresses c' := by
  have wellFormed : msgStdHeader.WellFormed := by decide
  obtain ⟨after, turn⟩ : ∃ after,
      resumeReadTurn (freshReader msgStdHeader [.data [1, 0]]) = .done (.returned true) after := ⟨_, rfl⟩
  refine (resumeRead_progress_iff wellFormed (reachable_start (freshReader_start (by decide) _))).mpr
    fun c' iterates => ?_
  obtain rfl | ⟨next, again, -⟩ := iterates.cases_head
  · have asks : (freshReader msgStdHeader [.data [1, 0]]).Asks msgStdHeader :=
      ⟨by decide, by decide, by decide⟩
    exact canProgress_of_data asks rfl (by decide) (by decide)
  · cases turn.symm.trans again

/-- Received one byte at a time the same header never lets `resume_read`
return. -/
theorem not_returns_every_state :
    ¬ ∀ (ns : NetStruct) (_ : ns.WellFormed) (c : ClientBase)
      (_ : Reachable (ReaderStart ns) ReaderStep c), Returns c := by
  intro claimed
  have wellFormed : msgStdHeader.WellFormed := by decide
  have starts := freshReader_start (show 0 < msgStdHeader.size by decide) [.data [1], .data [0]]
  obtain ⟨c₁, first⟩ : ∃ c₁,
      resumeReadTurn (freshReader msgStdHeader [.data [1], .data [0]]) = .done .again c₁ := ⟨_, rfl⟩
  obtain ⟨c₂, second, exhausted⟩ : ∃ c₂, resumeReadTurn c₁ = .done .again c₂ ∧
      c₂.read.offset = 2 ∧ c₂.read.field = 0 := by
    cases first
    exact ⟨_, rfl, rfl, rfl⟩
  have reached : Reachable (ReaderStart msgStdHeader) ReaderStep c₂ :=
    ((reachable_start starts).tail (.turn first (by decide))).tail (.turn second (by decide))
  have standing := (readerInvariant_of_reachable wellFormed reached).standing
  have returns := ((claimed msgStdHeader wellFormed _ (reachable_start starts)).again first).again
    second
  have found : msgStdHeader.fields[c₂.read.field]? = some ⟨.integer, "type", 2, 1⟩ := by
    rw [exhausted.2]
    rfl
  have size : msgStdHeader.wireSz c₂.read.memory c₂.read.field = 2 :=
    NetStruct.wireSz_of_fixed found rfl
  have window := msgStdHeader.window_le c₂.read.memory c₂.read.field
  have noRun : msgStdHeader.fixedRun (c₂.read.field + 1) = 0 := by
    rw [exhausted.2]
    rfl
  exact not_returns_of_exhausted wellFormed standing (by rw [size]; decide)
    (by rw [exhausted.1]; omega) returns

end ThemeSrv
