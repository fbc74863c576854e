import ThemeSrv.Dispatcher

/-!
# Draining the listen socket

The listen socket is registered edge-triggered, so `accept_cb` has to go on
until `accept4` would block.  It stops as well at a connection that `accept4`
reports a failure of.
-/

namespace ThemeSrv

/-- The descriptor of a connection that can be accepted. -/
def Pending.fd? : Pending → Option Nat
  | .connection fd _ => some fd
  | .failed => none

/-- One call of `accept_cb` adds a client for every connection that can be
accepted, leaves none in the queue, and ends because accepting would block. -/
structure Drains (event : EpollEvent) (d : Daemon) : Prop where
  added : (d.acceptCb event).clients.map ClientNode.fd =
    d.clients.map ClientNode.fd ++ event.queue.filterMap Pending.fd?
  waiting : (acceptLoop d event.queue).waiting = []
  error : (acceptLoop d event.queue).error = .wouldBlock

theorem emplaceBack_fds (d : Daemon) (fd : Nat) (registers : Bool) :
    (d.emplaceBack fd registers).clients.map ClientNode.fd =
      d.clients.map ClientNode.fd ++ [fd] := by
  unfold Daemon.emplaceBack
  rw [List.map_append]
  rfl

theorem acceptLoop_drains {queue : List Pending} (healthy : .failed ∉ queue) (d : Daemon) :
    (acceptLoop d queue).daemon.clients.map ClientNode.fd =
        d.clients.map ClientNode.fd ++ queue.filterMap Pending.fd? ∧
      (acceptLoop d queue).waiting = [] ∧ (acceptLoop d queue).error = .wouldBlock := by
  induction queue generalizing d with
  | nil => simp [acceptLoop]
  | cons pending queue ih =>
      have rest : .failed ∉ queue := fun member => healthy (List.mem_cons_of_mem _ member)
      cases pending with
      | failed => exact absurd List.mem_cons_self healthy
      | connection fd registers =>
          obtain ⟨added, waiting, error⟩ := ih rest (d.emplaceBack fd registers)
          rw [acceptLoop]
          refine ⟨?_, waiting, error⟩
          rw [added, emplaceBack_fds]
          simp [Pending.fd?]

theorem acceptLoop_stops {queue : List Pending} (broken : .failed ∈ queue) (d : Daemon) :
    (acceptLoop d queue).error = .other := by
  induction queue generalizing d with
  | nil => cases broken
  | cons pending queue ih =>
      cases pending with
      | failed => rfl
      | connection fd registers =>
          rw [acceptLoop]
          apply ih
          rcases List.mem_cons.1 broken with same | rest
          · cases same
          · exact rest

/-- `accept_cb` drains the queue exactly when `accept4` fails for none of its
connections. -/
theorem drains_iff (event : EpollEvent) (d : Daemon) (readable : event.event.read = true) :
    Drains event d ↔ .failed ∉ event.queue := by
  constructor
  · intro drains broken
    have stops := acceptLoop_stops broken d
    rw [drains.error] at stops
    cases stops
  · intro healthy
    obtain ⟨added, waiting, error⟩ := acceptLoop_drains healthy d
    have accepts : d.acceptCb event = (acceptLoop d event.queue).daemon := by
      rw [Daemon.acceptCb, if_pos readable]
    exact ⟨by rw [accepts, added], waiting, error⟩

/-- Two connections are waiting; the first of them may have been aborted. -/
def twoWaiting (first : Pending) : EpollEvent :=
  ⟨3, 0, ⟨false, true, false, [], .wouldBlock, [], 0⟩, [first, .connection 4 true]⟩

theorem drains_two_connections :
    Drains (twoWaiting (.connection 5 true)) (Daemon.init 3 fun _ => false) :=
  (drains_iff (twoWaiting (.connection 5 true)) (Daemon.init 3 fun _ => false) rfl).2 (by decide)

/-- Behind an aborted connection the other one is left waiting. -/
theorem not_drains_every_queue :
    ¬ ∀ (event : EpollEvent) (d : Daemon), event.event.read = true → Drains event d := by
  intro drains
  have stops := (drains (twoWaiting .failed) (Daemon.init 3 fun _ => false) rfl).error
  have other : (acceptLoop (Daemon.init 3 fun _ => false) (twoWaiting .failed).queue).error =
      .other := rfl
  rw [other] at stops
  cases stops

end ThemeSrv
