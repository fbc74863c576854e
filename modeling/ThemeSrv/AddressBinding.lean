import Mathlib.Data.List.Basic
import Mathlib.Data.List.Infix

/-!
# Binding the listen socket

The walk of `socket::bind` over the addresses that `getaddrinfo` returned.
Its cursor is always set to the second address of the list, so the walk is as
it should be only where it is over by then.
-/

namespace ThemeSrv

/-- What `socket` and `bind` do for an address. -/
inductive BindAttempt
  | noSocket
  | refused
  | bound
  deriving DecidableEq, Repr

/-- The addresses tried so far, by their position in the list, and the
descriptors that are open; a descriptor is named by the number of the attempt
that opened it. -/
structure BindState where
  tried : List Nat
  openFds : List Nat
  deriving DecidableEq, Repr

/-- What `socket::bind` returns, and the address of the socket that has been
set. -/
structure BindResult where
  success : Bool
  sock : Option Nat
  state : BindState
  deriving DecidableEq, Repr

section Walk

variable {Address : Type*}

/-- `ai_next` of the element at a position. -/
def aiNext (addrList : List Address) (it : Nat) : Option Nat :=
  if it + 1 < addrList.length then some (it + 1) else none

/-- Loop of `socket::bind`.  The outcome of an attempt depends on the address
and on how often it has been tried; `fuel` bounds the number of attempts. -/
def bindLoop (addrList : List Address) (outcome : Nat → Nat → BindAttempt) :
    Nat → Option Nat → BindState → Option BindResult
  | 0, _, _ => none
  | _ + 1, none, state => some ⟨false, none, state⟩
  | fuel + 1, some it, state =>
      let fd := state.tried.length
      let tried := state.tried ++ [it]
      match outcome it (state.tried.count it) with
      | .noSocket => bindLoop addrList outcome fuel (aiNext addrList 0) ⟨tried, state.openFds⟩
      | .bound => some ⟨true, some it, ⟨tried, state.openFds ++ [fd]⟩⟩
      | .refused =>
          bindLoop addrList outcome fuel (aiNext addrList 0)
            ⟨tried, (state.openFds ++ [fd]).erase fd⟩

/-- The part of `socket::bind` behind `getaddrinfo`. -/
def socketBind (addrList : List Address) (outcome : Nat → Nat → BindAttempt) (fuel : Nat) :
    Option BindResult :=
  bindLoop addrList outcome fuel (if addrList = [] then none else some 0) ⟨[], []⟩

/-- The addresses have been tried in order, each once, up to the first that can
be bound; none of the others has kept a descriptor. -/
structure BindResult.InOrder (result : BindResult) (addrList : List Address)
    (outcome : Nat → Nat → BindAttempt) : Prop where
  inOrder : result.state.tried = List.range result.state.tried.length
  inList : result.state.tried.length ≤ addrList.length
  first : result.success = true → ∃ it, result.sock = some it ∧ outcome it 0 = .bound ∧
    (∀ earlier < it, outcome earlier 0 ≠ .bound) ∧ result.state.tried.length = it + 1
  failed : result.success = false ↔
    ∀ it < addrList.length, it ∈ result.state.tried ∧ outcome it 0 ≠ .bound
  closed : result.state.openFds =
    if result.success then [result.state.tried.length - 1] else []

/-- `socket::bind` returns, and has tried the addresses in order. -/
def BindsInOrder (addrList : List Address) (outcome : Nat → Nat → BindAttempt) : Prop :=
  ∃ fuel result, socketBind addrList outcome fuel = some result ∧
    result.InOrder addrList outcome

variable {addrList : List Address} {outcome : Nat → Nat → BindAttempt}

theorem bindLoop_tried {fuel : Nat} {it : Option Nat} {state : BindState} {result : BindResult}
    (returns : bindLoop addrList outcome fuel it state = some result) :
    state.tried ++ it.toList <+: result.state.tried := by
  induction fuel generalizing it state with
  | zero => cases returns
  | succ fuel ih =>
      cases it with
      | none =>
          cases returns
          simp
      | some it =>
          rw [bindLoop] at returns
          split at returns
          · exact (List.prefix_append _ _).trans (ih returns)
          · cases returns
            exact List.prefix_rfl
          · exact (List.prefix_append _ _).trans (ih returns)

theorem bindLoop_bound {fuel it : Nat} {tried : List Nat}
    (binds : outcome it (tried.count it) = .bound) :
    bindLoop addrList outcome (fuel + 1) (some it) ⟨tried, []⟩ =
      some ⟨true, some it, ⟨tried ++ [it], [tried.length]⟩⟩ := by
  simp [bindLoop, binds]

theorem bindLoop_failed {fuel it : Nat} {tried : List Nat}
    (fails : outcome it (tried.count it) ≠ .bound) :
    bindLoop addrList outcome (fuel + 1) (some it) ⟨tried, []⟩ =
      bindLoop addrList outcome fuel (aiNext addrList 0) ⟨tried ++ [it], []⟩ := by
  cases attempt : outcome it (tried.count it) with
  | noSocket => simp [bindLoop, attempt]
  | refused => simp [bindLoop, attempt]
  | bound => exact absurd attempt fails

/-! ### The three good ends of the walk -/

theorem inOrder_first (nonempty : 0 < addrList.length) (binds : outcome 0 0 = .bound) :
    BindResult.InOrder ⟨true, some 0, ⟨[0], [0]⟩⟩ addrList outcome where
  inOrder := rfl
  inList := nonempty
  first := fun _ => ⟨0, rfl, binds, fun _ before => absurd before (Nat.not_lt_zero _), rfl⟩
  failed := by
    refine iff_of_false Bool.noConfusion ?_
    intro all
    exact (all 0 nonempty).2 binds
  closed := rfl

theorem inOrder_single (single : addrList.length = 1) (fails : outcome 0 0 ≠ .bound) :
    BindResult.InOrder ⟨false, none, ⟨[0], []⟩⟩ addrList outcome where
  inOrder := rfl
  inList := single.ge
  first := Bool.noConfusion
  failed := by
    refine iff_of_true rfl ?_
    intro it inside
    obtain rfl : it = 0 := by omega
    exact ⟨List.mem_singleton_self _, fails⟩
  closed := rfl

theorem inOrder_second (two : 2 ≤ addrList.length) (fails : outcome 0 0 ≠ .bound)
    (binds : outcome 1 0 = .bound) :
    BindResult.InOrder ⟨true, some 1, ⟨[0, 1], [1]⟩⟩ addrList outcome where
  inOrder := rfl
  inList := two
  first := by
    intro succeeds
    refine ⟨1, rfl, binds, ?_, rfl⟩
    intro earlier before
    obtain rfl : earlier = 0 := by omega
    exact fails
  failed := by
    refine iff_of_false Bool.noConfusion ?_
    intro all
    exact (all 1 two).2 binds
  closed := rfl

/-- The second address is tried again when it has failed. -/
theorem not_inOrder_third {result : BindResult} (again : [0, 1, 1] <+: result.state.tried) :
    ¬ result.InOrder addrList outcome := by
  intro inOrder
  obtain ⟨rest, tried⟩ := again
  have third : result.state.tried[2]? = some 1 := by
    rw [← tried]
    rfl
  rw [inOrder.inOrder, List.getElem?_range (by rw [← tried]; simp)] at third
  cases third

/-- An address list whose second address is never bound is walked for ever. -/
theorem bindLoop_endless (two : 2 ≤ addrList.length) (fails : ∀ tries, outcome 1 tries ≠ .bound)
    (fuel : Nat) (tried : List Nat) :
    bindLoop addrList outcome fuel (some 1) ⟨tried, []⟩ = none := by
  induction fuel generalizing tried with
  | zero => rfl
  | succ fuel ih =>
      have second : aiNext addrList 0 = some 1 := if_pos (by omega)
      rw [bindLoop_failed (fails _), second]
      exact ih (tried ++ [1])

/-- The walk is in order exactly when it is over with the first two
addresses. -/
theorem bindsInOrder_iff (nonempty : addrList ≠ []) :
    BindsInOrder addrList outcome ↔
      addrList.length = 1 ∨ outcome 0 0 = .bound ∨ outcome 1 0 = .bound := by
  have positive : 0 < addrList.length := List.length_pos_iff.2 nonempty
  have starts (fuel : Nat) : socketBind addrList outcome fuel =
      bindLoop addrList outcome fuel (some 0) ⟨[], []⟩ := by
    rw [socketBind, if_neg nonempty]
  by_cases first : outcome 0 0 = .bound
  · refine iff_of_true ⟨1, _, ?_, inOrder_first positive first⟩ (Or.inr (Or.inl first))
    rw [starts]
    exact bindLoop_bound first
  · have next (fuel : Nat) : socketBind addrList outcome (fuel + 1) =
        bindLoop addrList outcome fuel (aiNext addrList 0) ⟨[0], []⟩ := by
      rw [starts]
      exact bindLoop_failed first
    by_cases single : addrList.length = 1
    · refine iff_of_true ⟨2, _, ?_, inOrder_single single first⟩ (Or.inl single)
      rw [next, aiNext, if_neg (by omega)]
      rfl
    · have second : aiNext addrList 0 = some 1 := if_pos (by omega)
      by_cases binds : outcome 1 0 = .bound
      · refine iff_of_true ⟨2, _, ?_, inOrder_second (by omega) first binds⟩
          (Or.inr (Or.inr binds))
        rw [next, second]
        exact bindLoop_bound binds
      · refine iff_of_false ?_ (by tauto)
        rintro ⟨fuel, result, returns, inOrder⟩
        rcases fuel with _ | _ | fuel
        · rw [starts] at returns
          cases returns
        · rw [next, second] at returns
          cases returns
        · have loops : bindLoop addrList outcome (fuel + 1) (some 1) ⟨[0], []⟩ =
              bindLoop addrList outcome fuel (aiNext addrList 0) ⟨[0, 1], []⟩ :=
            bindLoop_failed binds
          rw [next, second, loops, second] at returns
          exact not_inOrder_third (bindLoop_tried returns) inOrder

end Walk

/-! ### Two addresses -/

/-- The outcome when only one address can be bound. -/
def onlyBinds (usable : Nat) (it _ : Nat) : BindAttempt :=
  if it = usable then .bound else .refused

theorem bindsInOrder_second_usable :
    BindsInOrder ["127.0.0.1", "10.0.0.1"] (onlyBinds 1) :=
  (bindsInOrder_iff (by decide)).2 (Or.inr (Or.inr rfl))

/-- Where only the third address can be bound, it is never tried. -/
theorem not_bindsInOrder_every_outcome :
    ¬ ∀ (addrList : List String) (outcome : Nat → Nat → BindAttempt), addrList ≠ [] →
      BindsInOrder addrList outcome := by
  intro binds
  obtain ⟨fuel, result, returns, -⟩ :=
    binds ["127.0.0.1", "10.0.0.1", "10.0.0.2"] (onlyBinds 2) (by decide)
  cases fuel with
  | zero => cases returns
  | succ fuel =>
      have next : socketBind ["127.0.0.1", "10.0.0.1", "10.0.0.2"] (onlyBinds 2) (fuel + 1) =
          bindLoop ["127.0.0.1", "10.0.0.1", "10.0.0.2"] (onlyBinds 2) fuel (some 1) ⟨[0], []⟩ :=
        bindLoop_failed (by decide)
      rw [next, bindLoop_endless (by decide) (fun _ => by simp [onlyBinds])] at returns
      cases returns

end ThemeSrv
