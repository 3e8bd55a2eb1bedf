import Ensemble.Proofs.Run.Drive

/-!
# Time and cancellation only advance

An `Instant` is what decides whether a run has to stop: the moment of the clock and the
cancellation. `Regime.advances` says that instants never go back, neither along the steps of a run
nor along its journal, so that a run that had to stop at one of them has to stop at all later ones.
-/

namespace Ensemble

namespace Deadline

theorem passed_some {due now : Nat} : passed (some due) now = true ↔ due ≤ now * 1000000 :=
  decide_eq_true_iff

theorem after_some {started due : Nat} {t : Duration} (h : due = started * 1000000 + t.toNanos) :
    after started (some t) = if due < horizon then some due else none := by
  subst h
  unfold after
  rw [Option.bind_some]

/-- A deadline has passed from the end of the timeout on, if that lies within reach of the clock. -/
theorem passed_after {started now : Nat} {timeout : Option Duration} :
    (after started timeout).passed now = true ↔ ∃ t due, timeout = some t ∧
      due = started * 1000000 + t.toNanos ∧ due < horizon ∧ due ≤ now * 1000000 := by
  cases timeout with
  | none => simp [after, passed]
  | some t =>
    constructor
    · intro h
      obtain ⟨due, hdue⟩ : ∃ due, due = started * 1000000 + t.toNanos := ⟨_, rfl⟩
      rw [after_some hdue] at h
      split at h
      · next hreach => exact ⟨t, due, rfl, hdue, hreach, passed_some.mp h⟩
      · cases h
    · rintro ⟨_, due, ⟨⟩, hdue, hreach, hle⟩
      rw [after_some hdue, if_pos hreach]
      exact passed_some.mpr hle

theorem passed_mono {deadline : Deadline} {now later : Nat} (hle : now ≤ later)
    (h : deadline.passed now = true) : deadline.passed later = true := by
  cases deadline with
  | none => exact h
  | some due =>
    exact passed_some.mpr (Nat.le_trans (passed_some.mp h) (Nat.mul_le_mul_right 1000000 hle))

end Deadline

/-- A moment, and whether the orchestration was cancelled then. -/
structure Instant where
  moment : Nat
  cancelled : Bool

namespace Instant

/-- Time has not gone back, nor has a cancellation been undone. -/
structure Before (i j : Instant) : Prop where
  moment : i.moment ≤ j.moment
  cancelled : i.cancelled = true → j.cancelled = true

theorem Before.refl (i : Instant) : i.Before i := ⟨Nat.le_refl _, id⟩

theorem Before.trans {i j k : Instant} (h : i.Before j) (h' : j.Before k) : i.Before k :=
  ⟨Nat.le_trans h.moment h'.moment, fun hi => h'.cancelled (h.cancelled hi)⟩

/-- Whether a run has to stop. -/
def stopped (deadline : Deadline) (i : Instant) : Bool :=
  i.cancelled || deadline.passed i.moment

/-- A run that had to stop has to stop from then on. -/
theorem Before.stopped {deadline : Deadline} {i j : Instant} (h : i.Before j)
    (hi : i.stopped deadline = true) : j.stopped deadline = true := by
  rcases Bool.or_eq_true_iff.mp hi with hi | hi
  · exact Bool.or_eq_true_iff.mpr (.inl (h.cancelled hi))
  · exact Bool.or_eq_true_iff.mpr (.inr (Deadline.passed_mono h.moment hi))

end Instant

/-- The instant of an entry. -/
def Entry.instant (e : Entry) : Instant := ⟨e.moment, e.cancelled⟩

/-- A stretch of a journal that was written between two instants. -/
structure Stretch (deadline : Deadline) (i j : Instant) (entries : List Entry) : Prop where
  before : i.Before j
  permitted : ∀ e ∈ entries, e.Permitted deadline
  within : ∀ e ∈ entries, i.Before e.instant ∧ e.instant.Before j
  ordered : entries.Pairwise fun e e' => e.instant.Before e'.instant

namespace Stretch

variable {deadline : Deadline} {i j k : Instant} {entries entries' : List Entry}

theorem nil (h : i.Before j) : Stretch deadline i j [] :=
  ⟨h, by simp, by simp, .nil⟩

theorem append (h : Stretch deadline i j entries) (h' : Stretch deadline j k entries') :
    Stretch deadline i k (entries ++ entries') where
  before := h.before.trans h'.before
  permitted e he := (List.mem_append.mp he).elim (h.permitted e) (h'.permitted e)
  within e he := by
    rcases List.mem_append.mp he with he | he
    · exact ⟨(h.within e he).1, (h.within e he).2.trans h'.before⟩
    · exact ⟨h.before.trans (h'.within e he).1, (h'.within e he).2⟩
  ordered := List.pairwise_append.mpr ⟨h.ordered, h'.ordered, fun e he e' he' =>
    (h.within e he).2.trans (h'.within e' he').1⟩

theorem entry {e : Entry} (he : e.Permitted deadline) :
    Stretch deadline e.instant e.instant [e] where
  before := .refl _
  permitted e' he' := by rwa [List.mem_singleton.mp he']
  within e' he' := by
    rw [List.mem_singleton.mp he']
    exact ⟨.refl _, .refl _⟩
  ordered := List.pairwise_singleton _ _

end Stretch

namespace Run

/-- The instant of a run. -/
def instant (c : Clock) (m : Memory) : Instant := ⟨c.now, m.cancelled⟩

theorem before_advance (c : Clock) (m : Memory) (due : Nat) :
    (instant c m).Before (instant (c.advance due) m) where
  moment := by
    simp only [instant, Clock.now, Clock.advance]
    omega
  cancelled h := h

theorem before_cancel (c : Clock) (m : Memory) : (instant c m).Before (instant c m.cancel) where
  moment := Nat.le_refl _
  cancelled _ := Memory.cancelled_cancel m

/-- Instants never go back, and every step adds a stretch to the journal. -/
def Regime.advances (deadline : Deadline) : Regime deadline where
  step c s c' s' := ∃ entries, s'.2.journal.toList = s.2.journal.toList ++ entries ∧
    Stretch deadline (instant c s.1) (instant c' s'.1) entries
  refl c s := ⟨[], (List.append_nil _).symm, .nil (.refl _)⟩
  trans := by
    rintro c s c' s' c'' s'' ⟨entries, hjournal, h⟩ ⟨entries', hjournal', h'⟩
    refine ⟨entries ++ entries', ?_, h.append h'⟩
    rw [hjournal', hjournal, List.append_assoc]
  note he := ⟨[_], Array.toList_push, .entry he⟩
  gather {c m r r'} hjournal := ⟨[], by rw [hjournal, List.append_nil], .nil (.refl _)⟩
  elapse c s due := ⟨[], (List.append_nil _).symm, .nil (before_advance c s.1 due)⟩

instance (deadline : Deadline) : (Regime.advances deadline).Open :=
  ⟨fun c m _ => ⟨[], (List.append_nil _).symm, .nil (before_cancel c m)⟩⟩

/-- What is left of the regime for work on the memory alone. -/
def forward : Guarantee Memory where
  step c m c' m' := (instant c m).Before (instant c' m')
  refl _ _ := .refl _
  trans h h' := h.trans h'

theorem advances_of_forward (deadline : Deadline) {c c' : Clock} {m m' : Memory}
    (h : forward.step c m c' m') : (Regime.advances deadline).memory.step c m c' m' :=
  fun _ => ⟨[], (List.append_nil _).symm, .nil h⟩

end Run

end Ensemble
