import Ensemble.Proofs.Network.Broadcast
import Ensemble.Settings.Basic

/-!
# Default timeouts

A network keeps its default timeout as a count of milliseconds in a word of 64 bits. Up to the size
of the word the timeout that a request without its own gets is the duration that was set, cut to
whole milliseconds; beyond it the count wraps around, and a long timeout turns into a short one
(`Network.default_timeout_fits_a_word`). What engine settings say always fits.
-/

namespace Ensemble

/-! ## Whole milliseconds in a word -/

namespace Duration

/-- The duration cut to whole milliseconds. -/
def cut (d : Duration) : Duration :=
  ⟨d.secs, d.nanos / 1000000 * 1000000, by have := d.nanos_lt; omega⟩

theorem eq_of_toNanos_eq {d e : Duration} (h : d.toNanos = e.toNanos) : d = e := by
  obtain ⟨ds, dn, hd⟩ := d
  obtain ⟨es, en, he⟩ := e
  simp only [toNanos] at h
  have hsecs : ds = es := UInt64.toNat_inj.mp (by omega)
  have hnanos : dn = en := by omega
  subst hsecs hnanos
  rfl

theorem toNanos_cut (d : Duration) : d.cut.toNanos = d.toMillis * 1000000 := by
  simp only [cut, toMillis, toNanos]
  omega

theorem toNanos_ofMillis (ms : UInt64) : (ofMillis ms).toNanos = ms.toNat * 1000000 := by
  simp only [toNanos, ofMillis, UInt64.toNat_div, UInt64.toNat_mod, UInt64.reduceToNat]
  omega

theorem toNat_millisWord (d : Duration) : d.millisWord.toNat = d.toMillis % 2 ^ 64 :=
  UInt64.toNat_ofNat'

/-- Whole milliseconds lose less than one of them. -/
theorem toNanos_lt (d : Duration) : d.toNanos < (d.toMillis + 1) * 1000000 := by
  simp only [toMillis]
  omega

theorem toMillis_mono {d e : Duration} (h : d.toNanos ≤ e.toNanos) : d.toMillis ≤ e.toMillis :=
  Nat.div_le_div_right h

end Duration

namespace NetworkConfig

variable (c : NetworkConfig) (t : Duration)

/-- The count of milliseconds wraps around at the size of its word. -/
theorem toNanos_defaultTimeout :
    (c.withDefaultTimeout t).defaultTimeout.toNanos = t.toMillis % 2 ^ 64 * 1000000 := by
  rw [defaultTimeout, Duration.toNanos_ofMillis]
  exact congrArg (· * 1000000) t.toNat_millisWord

variable {t}

theorem defaultTimeout_eq_cut_iff :
    (c.withDefaultTimeout t).defaultTimeout = t.cut ↔ t.toMillis < 2 ^ 64 := by
  constructor
  · intro h
    have hnanos := congrArg Duration.toNanos h
    rw [toNanos_defaultTimeout, Duration.toNanos_cut] at hnanos
    omega
  · intro h
    apply Duration.eq_of_toNanos_eq
    rw [toNanos_defaultTimeout, Duration.toNanos_cut, Nat.mod_eq_of_lt h]

theorem lt_defaultTimeout_iff :
    t.toNanos < (c.withDefaultTimeout t).defaultTimeout.toNanos + 1000000 ↔
      t.toMillis < 2 ^ 64 := by
  have hlt := t.toNanos_lt
  have hle : t.toMillis * 1000000 ≤ t.toNanos := Nat.div_mul_le_self _ _
  rw [toNanos_defaultTimeout]
  omega

/-- Durations that fit the word keep their order. -/
theorem defaultTimeout_mono {t' : Duration} (h : t.toNanos ≤ t'.toNanos)
    (hfits : t'.toMillis < 2 ^ 64) :
    (c.withDefaultTimeout t).defaultTimeout.toNanos ≤
      (c.withDefaultTimeout t').defaultTimeout.toNanos := by
  have hle := Duration.toMillis_mono h
  rw [toNanos_defaultTimeout, toNanos_defaultTimeout, Nat.mod_eq_of_lt hfits,
    Nat.mod_eq_of_lt (Nat.lt_of_le_of_lt hle hfits)]
  exact Nat.mul_le_mul_right _ hle

end NetworkConfig

/-! ## Requests without a timeout of their own -/

namespace Network

variable {n : Network} {r : DelegationRequest}

theorem timeoutOf_of_none (h : r.timeout = none) : n.timeoutOf r = n.config.defaultTimeout := by
  rw [timeoutOf, h]
  rfl

/-- A handler is granted the milliseconds in the word of the configuration. -/
theorem tells_delegate_of_default {agent : NetworkAgent} {x : Moment NetworkState}
    (h : r.timeout = none) (hfind : x.2.registry.find? r.target = some agent)
    (hallows : n.config.topology.Allows r) :
    ((n.delegate r).runFrom x).1.Tells r.target
      (((n.handler x.2.calls agent r).answerWithin n.config.defaultTimeoutMs.toNat).getD
        (.error (DelegationFault.timedOut r.target n.config.defaultTimeoutMs).message)) := by
  let noted : NetworkState := { x.2 with calls := x.2.calls ++ [⟨agent, r⟩] }
  obtain ⟨htells, -⟩ :=
    (takes_attend agent (n.timeoutOf r) (n.handler x.2.calls agent r)).runFrom (x.1, noted)
  rw [← runFrom_delegate_dispatch hfind hallows, Registry.name_of_find? hfind, verdict,
    timeoutOf_of_none h, NetworkConfig.defaultTimeout, Duration.ceilMillis_ofMillis,
    millisWord_ofMillis, Registry.name_of_find? hfind] at htells
  exact htells

theorem defaultTimeoutMs_networkConfig (s : EngineSettings) (topology : Topology) :
    (s.networkConfig topology).defaultTimeoutMs = s.delegationTimeoutMs :=
  millisWord_ofMillis s.delegationTimeoutMs

/-- **A default timeout is kept as far as a word of milliseconds reaches.** A request without a
timeout of its own gets the milliseconds of the default, modulo the size of the word, and its
handler is granted just these. They are the duration that was set, cut to whole milliseconds, and
less than a millisecond short of it, exactly if they fit the word; among the durations that fit, a
longer one is not cut to a shorter one. The timeout of engine settings is handed on as it is. -/
theorem default_timeout_fits_a_word (c : NetworkConfig) (handler : DelegationHandler)
    (t : Duration) (r : DelegationRequest) (h : r.timeout = none) :
    let n : Network := ⟨c.withDefaultTimeout t, handler⟩
    (n.timeoutOf r).toNanos = t.toMillis % 2 ^ 64 * 1000000 ∧
    (n.timeoutOf r = t.cut ↔ t.toMillis < 2 ^ 64) ∧
    (t.toNanos < (n.timeoutOf r).toNanos + 1000000 ↔ t.toMillis < 2 ^ 64) ∧
    (∀ t' : Duration, t.toNanos ≤ t'.toNanos → t'.toMillis < 2 ^ 64 →
      (n.timeoutOf r).toNanos ≤
        ((⟨c.withDefaultTimeout t', handler⟩ : Network).timeoutOf r).toNanos) ∧
    (∀ (x : Moment NetworkState) agent, x.2.registry.find? r.target = some agent →
      n.config.topology.Allows r →
      ((n.delegate r).runFrom x).1.Tells r.target
        (((n.handler x.2.calls agent r).answerWithin (t.toMillis % 2 ^ 64)).getD
          (.error (DelegationFault.timedOut r.target t.millisWord).message))) ∧
    ∀ (s : EngineSettings) (topology : Topology),
      (s.networkConfig topology).defaultTimeoutMs = s.delegationTimeoutMs ∧
      (⟨s.networkConfig topology, handler⟩ : Network).timeoutOf r = s.delegationTimeout := by
  intro n
  have htimeout : n.timeoutOf r = (c.withDefaultTimeout t).defaultTimeout := timeoutOf_of_none h
  refine ⟨?_, ?_, ?_, ?_, ?_, ?_⟩
  · rw [htimeout, c.toNanos_defaultTimeout]
  · rw [htimeout, c.defaultTimeout_eq_cut_iff]
  · rw [htimeout, c.lt_defaultTimeout_iff]
  · intro t' hle hfits
    rw [htimeout, timeoutOf_of_none h]
    exact c.defaultTimeout_mono hle hfits
  · intro x agent hfind hallows
    have hword : n.config.defaultTimeoutMs = t.millisWord := rfl
    have htells := tells_delegate_of_default h hfind hallows
    rwa [hword, t.toNat_millisWord] at htells
  · intro s topology
    refine ⟨defaultTimeoutMs_networkConfig s topology, ?_⟩
    rw [timeoutOf_of_none h, NetworkConfig.defaultTimeout, defaultTimeoutMs_networkConfig]
    rfl

/-- A second and a half, and the longest word of milliseconds and a nanosecond more: both are cut to
their milliseconds. -/
theorem default_timeout_fits_a_word_longest :
    let r : DelegationRequest := { sender := "a", target := "mule", task := "t" }
    let short : Duration := { secs := 1, nanos := 500000000 }
    let long : Duration := { secs := 18446744073709551, nanos := 615000001 }
    let n (t : Duration) : Network :=
      { config := ({} : NetworkConfig).withDefaultTimeout t, handler := fun _ _ _ => .hang }
    r.timeout = none ∧ (n short).timeoutOf r = short.cut ∧ (n long).timeoutOf r = long.cut ∧
      ((n short).timeoutOf r).toNanos ≤ ((n long).timeoutOf r).toNanos := by
  intro r short long n
  have hnone : r.timeout = none := rfl
  obtain ⟨-, hshort, -, hmono, -⟩ :=
    default_timeout_fits_a_word {} (fun _ _ _ => .hang) short r hnone
  obtain ⟨-, hlong, -⟩ := default_timeout_fits_a_word {} (fun _ _ _ => .hang) long r hnone
  have hfits : long.toMillis < 2 ^ 64 := by decide
  exact ⟨hnone, hshort.mpr (by decide), hlong.mpr hfits, hmono long (by decide) hfits⟩

/-- A default of more than five hundred million years, 385 milliseconds too long for the word: it is
over before a handler that waits a second has its answer, and before a default of one second would
be, while the same timeout in the request itself lets the handler answer. -/
theorem long_default_timeout_wraps_around :
    let mule : NetworkAgent := { name := "mule", capabilities := [] }
    let t : Duration := { secs := 18446744073709552, nanos := 0 }
    let second : Duration := { secs := 1, nanos := 0 }
    let n (t : Duration) : Network :=
      { config := ({} : NetworkConfig).withDefaultTimeout t
        handler := fun _ _ _ => .wait 1000 (.answer (.ok "mule did t")) }
    let r : DelegationRequest := { sender := "a", target := "mule", task := "t" }
    let d (n : Network) (r : DelegationRequest) : DelegationResult :=
      ((n.delegate r).runFrom (.start, ⟨Registry.empty.register mule, []⟩)).1
    (n t).timeoutOf r ≠ t.cut ∧
      ((n t).timeoutOf r).toNanos + 1000000 ≤ t.toNanos ∧
      second.toNanos ≤ t.toNanos ∧
      ((n t).timeoutOf r).toNanos < ((n second).timeoutOf r).toNanos ∧
      (d (n t) r).error = some "delegation to 'mule' exceeded 384ms timeout" ∧
      (d (n t) { r with timeout := some t }).result = some "mule did t" := by
  decide +kernel

end Network

end Ensemble
