import ThemeSrv.ConnectionRuns

/-!
# What the handlers leave alone

Whatever a client does it forgets no call on its socket, and only a hang-up
clears the flag of the dispatcher.  Every primitive of a program keeps to
this, and so does the program.
-/

namespace ThemeSrv

open Client Gatekeeper

/-- The client has the same `e_polling`, and has at most gone on with calls. -/
structure ClientFrame (cli cli' : Client) : Prop where
  polling : cli'.flags.polling = cli.flags.polling
  continues : Continues cli.base cli'.base

theorem ClientFrame.refl (cli : Client) : ClientFrame cli cli :=
  ⟨rfl, List.prefix_refl _⟩

theorem ClientFrame.trans {first second third : Client} (before : ClientFrame first second)
    (behind : ClientFrame second third) : ClientFrame first third :=
  ⟨behind.polling.trans before.polling, before.continues.trans behind.continues⟩

/-! ### The codec -/

theorem continues_handleRead (fuel : Nat) (c : ClientBase) :
    Continues c (handleRead fuel c).state := by
  have resumed := continues_resumeRead fuel c
  rw [handleRead]
  cases outcome : resumeRead fuel c with
  | stopped stop c' =>
      rw [outcome] at resumed
      exact resumed
  | done complete c' =>
      rw [outcome] at resumed
      cases complete <;> exact resumed

theorem ResumedWrite.continues {c c' : ClientBase} {state state' : WriteState} {done : Bool}
    (resumed : ResumedWrite state c done state' c') : Continues c c' := by
  obtain ⟨answer, more, calls, -⟩ := resumed.offered
  exact .of_calls calls

theorem continues_enqueueWrite (ns : NetStruct) (image : Bytes) (c : ClientBase) :
    Continues c (enqueueWrite ns image c).state := by
  have case := enqueueCase ns image c
  generalize enqueueWrite ns image c = outcome at case
  cases case with
  | stopped | queued => exact List.prefix_refl _
  | sent wire encrypt encoded idle state c' resumed
  | partly wire encrypt encoded idle state c' resumed => exact resumed.continues

theorem continues_pumpWrite (c : ClientBase) : Continues c (pumpWrite c) := by
  apply pumpWrite_keeps fun c' => Continues c c'
  · intro c' continues
    apply continues.trans
    have case := handleWriteCase c'
    generalize handleWrite c' = result at case
    cases case with
    | idle => exact List.prefix_refl _
    | sent front rest queue state c'' resumed | partly front rest queue state c'' resumed =>
        exact resumed.continues
  · exact List.prefix_refl _

/-! ### Programs -/

namespace Action

variable {First Second : Type}

/-- The program keeps to the frame, even if it stops. -/
def Framed (action : Action First) : Prop :=
  ∀ cli, ClientFrame cli (action cli).state

theorem framed_pure (value : First) : Framed (Pure.pure value : Action First) :=
  ClientFrame.refl

theorem Framed.bind {first : Action First} {next : First → Action Second} (head : Framed first)
    (tail : ∀ value, Framed (next value)) : Framed (first >>= next) := by
  intro cli
  have before := head cli
  rw [bind_apply]
  cases outcome : first cli with
  | stopped stop cli' =>
      rw [outcome] at before
      exact before
  | done value cli' =>
      rw [outcome] at before
      exact before.trans (tail value cli')

end Action

open ThemeSrv.Action

section Primitives

theorem framed_visit (point : Point) (buf : Bytes) : Action.Framed (visit point buf) := by
  intro cli
  exact ⟨rfl, List.prefix_refl _⟩

theorem framed_peek {Value : Type} (part : Client → Value) : Action.Framed (peek part) := by
  intro cli
  exact ⟨rfl, List.prefix_refl _⟩

theorem framed_modifyFlags {change : ClientFlags → ClientFlags}
    (kept : ∀ flags, (change flags).polling = flags.polling) :
    Action.Framed (modifyFlags change) := by
  intro cli
  exact ⟨kept cli.flags, List.prefix_refl _⟩

theorem framed_setHandler (handler : ClientHandler) : Action.Framed (setHandler handler) := by
  intro cli
  exact ⟨rfl, List.prefix_refl _⟩

theorem framed_assertD (condition : Bool) : Action.Framed (Client.assertD condition) := by
  intro cli
  cases condition <;> exact ClientFrame.refl cli

theorem framed_getInteger (buf : Bytes) (offset width : Nat) :
    Action.Framed (getInteger buf offset width) := by
  intro cli
  unfold getInteger
  split <;> exact ClientFrame.refl cli

theorem framed_readStruct (ns : NetStruct) : Action.Framed (readStruct ns) := by
  intro cli
  exact ⟨rfl, List.prefix_refl _⟩

theorem framed_readFrom (ns : NetStruct) (field : Nat) (buf : Bytes) :
    Action.Framed (readFrom ns field buf) := by
  intro cli
  exact ⟨rfl, List.prefix_refl _⟩

theorem framed_write (ns : NetStruct) (image : Bytes) :
    Action.Framed (Client.write ns image) := by
  intro cli
  have enqueued := continues_enqueueWrite ns image cli.base
  rw [write_apply]
  cases outcome : enqueueWrite ns image cli.base with
  | stopped stop base | done value base =>
      rw [outcome] at enqueued
      exact ⟨rfl, enqueued⟩

theorem framed_setCryptKey (rc4 : Bytes → Nat → UInt8) (key : Bytes) :
    Action.Framed (setCryptKey rc4 key) := by
  intro cli
  exact ⟨rfl, List.prefix_refl _⟩

end Primitives

section Handlers

variable (server : Server) (buf : Bytes)

theorem framed_createGate : Action.Framed createGate := by
  apply (framed_readStruct encryptHeader).bind
  intro done
  apply framed_pure

theorem framed_incomingRead : Action.Framed (incomingRead buf) := by
  apply (framed_visit .incomingRead buf).bind
  intro done
  apply (framed_getInteger buf 0 1).bind
  intro connType
  split
  · apply framed_createGate.bind
    intro handler
    apply (framed_setHandler handler).bind
    intro done
    apply framed_pure
  · apply framed_pure

theorem framed_handleHandshake : Action.Framed (handleHandshake server buf) := by
  apply (framed_visit .handleHandshake buf).bind
  intro done
  apply (framed_getInteger buf 0 1).bind
  intro msgId
  split
  · apply framed_pure
  apply (framed_getInteger buf 1 1).bind
  intro bufsz
  split
  · apply framed_pure
  split
  · split
    · refine Framed.bind (framed_modifyFlags fun flags => rfl) ?_
      intro done
      apply (framed_visit .setEncrypted buf).bind
      intro done
      apply framed_pure
    · apply framed_pure
  · apply (framed_setHandler _).bind
    intro done
    apply (framed_readStruct _).bind
    intro done
    refine Framed.bind (framed_modifyFlags fun flags => rfl) ?_
    intro done
    apply framed_pure

theorem framed_handleEncryption : Action.Framed handleEncryption := by
  refine Framed.bind (framed_modifyFlags fun flags => rfl) ?_
  intro done
  apply (framed_readStruct msgStdHeader).bind
  intro done
  apply framed_pure

theorem framed_handleYdata : Action.Framed (handleYdata server buf) := by
  apply (framed_visit .handleYdata buf).bind
  intro done
  apply (framed_peek _).bind
  intro count
  apply (framed_peek _).bind
  intro posted
  split
  · apply framed_pure
  · apply (framed_write _ _).bind
    intro done
    apply (framed_setCryptKey _ _).bind
    intro done
    refine Framed.bind (framed_modifyFlags fun flags => rfl) ?_
    intro done
    apply (framed_visit .setEncrypted buf).bind
    intro done
    exact framed_handleEncryption

theorem framed_encryptedRead : Action.Framed (encryptedRead server buf) := by
  apply (framed_peek _).bind
  intro flags
  apply (framed_assertD _).bind
  intro done
  split
  · exact framed_handleHandshake server buf
  · refine Framed.bind (framed_modifyFlags fun flags => rfl) ?_
    intro done
    exact framed_handleYdata server buf

theorem framed_handlePing : Action.Framed (handlePing buf) := by
  apply (framed_visit .handlePing buf).bind
  intro done
  apply (framed_write pingReply buf).bind
  intro done
  apply framed_pure

theorem framed_handleFileSrvReq : Action.Framed (handleFileSrvReq server buf) := by
  apply (framed_visit .handleFileSrvReq buf).bind
  intro done
  apply (framed_peek _).bind
  intro posted
  apply (framed_getInteger buf 2 4).bind
  intro transId
  apply (framed_write _ _).bind
  intro done
  apply framed_pure

theorem framed_handleAuthSrvReq : Action.Framed (handleAuthSrvReq server buf) := by
  apply (framed_visit .handleAuthSrvReq buf).bind
  intro done
  apply (framed_peek _).bind
  intro posted
  apply (framed_getInteger buf 2 4).bind
  intro transId
  apply (framed_write _ _).bind
  intro done
  apply framed_pure

theorem framed_dispatchMsg : Action.Framed (dispatchMsg server buf) := by
  apply (framed_visit .dispatchMsg buf).bind
  intro done
  apply (framed_getInteger buf 0 2).bind
  intro type
  split
  · exact framed_handlePing buf
  · exact framed_handleFileSrvReq server buf
  · exact framed_handleAuthSrvReq server buf
  · apply (framed_visit .noDispatcher buf).bind
    intro done
    apply framed_pure

theorem framed_readMsg : Action.Framed (readMsg buf) := by
  apply (framed_visit .readMsg buf).bind
  intro done
  apply (framed_getInteger buf 0 2).bind
  intro type
  split
  · apply framed_pure
  · apply (framed_readFrom _ 1 buf).bind
    intro done
    apply framed_pure

theorem framed_gatekeeperRead : Action.Framed (gatekeeperRead server buf) := by
  apply (framed_peek _).bind
  intro flags
  split
  · exact framed_encryptedRead server buf
  split
  · refine Framed.bind (framed_modifyFlags fun flags => rfl) ?_
    intro done
    exact framed_readMsg buf
  · refine Framed.bind (framed_modifyFlags fun flags => rfl) ?_
    intro done
    apply (framed_readStruct msgStdHeader).bind
    intro done
    exact framed_dispatchMsg server buf

theorem framed_handlerRead : Action.Framed (handlerRead server buf) := by
  apply (framed_peek _).bind
  intro handler
  split
  · exact framed_incomingRead buf
  · exact framed_gatekeeperRead server buf

end Handlers

/-! ### Events -/

theorem framed_pumpRead (server : Server) (fuel turns : Nat) (cli : Client) :
    ClientFrame cli (ThemeSrv.pumpRead server fuel turns cli).state := by
  induction turns generalizing cli with
  | zero => exact ClientFrame.refl cli
  | succ turns ih =>
      have received := continues_handleRead fuel cli.base
      rw [ThemeSrv.pumpRead]
      simp only [visited_base]
      cases outcome : handleRead fuel cli.base with
      | stopped stop base =>
          rw [outcome] at received
          exact ⟨rfl, received⟩
      | done handedOut base =>
          rw [outcome] at received
          cases handedOut with
          | none => exact ⟨rfl, received⟩
          | some buf =>
              have before : ClientFrame cli { cli.visited .resumeRead [] with
                  base := base, completed := cli.base.read.struct } := ⟨rfl, received⟩
              have handled := before.trans (framed_handlerRead server buf
                { cli.visited .resumeRead [] with
                  base := base, completed := cli.base.read.struct })
              simp only
              cases handler : handlerRead server buf { cli.visited .resumeRead [] with
                  base := base, completed := cli.base.read.struct } with
              | stopped stop cli' =>
                  rw [handler] at handled
                  exact handled
              | done result cli' =>
                  rw [handler] at handled
                  have closed : ClientFrame cli cli'.shutdown :=
                    handled.trans ⟨rfl, List.prefix_append _ _⟩
                  simp only
                  split
                  · exact handled
                  split
                  · split
                    · exact handled.trans (ih cli')
                    · exact closed
                  · exact closed

theorem framed_polledWrite (event : PollEvent) (cli : Client) :
    ClientFrame cli (if event.write then { cli with base := pumpWrite cli.base } else cli) := by
  split
  · exact ⟨rfl, continues_pumpWrite cli.base⟩
  · exact ClientFrame.refl cli

theorem continues_handleDispatch (server : Server) (event : PollEvent) (cli : Client) :
    Continues cli.base (handleDispatch server event cli).client.base := by
  have pumped := framed_polledWrite event cli
  rw [handleDispatch]
  generalize (if event.write then { cli with base := pumpWrite cli.base } else cli) = cli'
    at pumped ⊢
  split
  · exact List.prefix_refl _
  simp only
  split
  · exact pumped.continues
  split
  · have read := pumped.trans (framed_pumpRead server event.fuel event.fuel cli')
    generalize pumpRead server event.fuel event.fuel cli' = outcome at read ⊢
    cases outcome with
    | stopped stop cli' => exact read.continues
    | done value cli' => exact read.continues
  · exact pumped.continues

/-- A client that survives an event has kept its `e_polling`. -/
theorem handleDispatch_polling {server : Server} {event : PollEvent} {cli cli' : Client}
    (survives : handleDispatch server event cli = .alive cli') :
    cli'.flags.polling = cli.flags.polling := by
  have pumped := framed_polledWrite event cli
  unfold handleDispatch at survives
  generalize (if event.write then { cli with base := pumpWrite cli.base } else cli) = written
    at pumped survives
  split at survives
  · cases survives
  dsimp only at survives
  split at survives
  · cases survives
  split at survives
  · have read := pumped.trans (framed_pumpRead server event.fuel event.fuel written)
    generalize pumpRead server event.fuel event.fuel written = outcome at read survives
    cases outcome with
    | stopped stop cli' => cases survives
    | done value cli' =>
        cases survives
        exact read.polling
  · cases survives
    exact pumped.polling

end ThemeSrv
