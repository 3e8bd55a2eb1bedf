import Ensemble.Proofs.Routine.Excerpt
import Ensemble.Proofs.Routine.Line
import Mathlib.Data.List.TakeWhile
import Mathlib.Data.Multiset.Lattice
import Mathlib.Order.Lattice.Nat

/-!
# Routines of which it is known how long they take

A routine that leaves the shared state alone and always waits for the same time in all takes that
time, whatever else goes on. One routine after another takes the sum of the times (`Takes.bind`),
and all at once take the longest (`Pool.Punctual.timer_run`). `runFrom_together` puts this beside
what becomes of the values and of the state, for tasks that touch the state only as they begin.
-/

namespace Ensemble

open List (Forall₂)

/-! ## One routine -/

namespace Progress

variable {σ α β : Type}

/-- From a moment of the timer on, the progress waits for `ms` milliseconds in all and ends with a
value as required. It stops with the state given, and later with the state that it finds when it
goes on. -/
def Takes (V : α → Prop) (ms timer : Nat) (s₀ : σ) : Progress σ α → Prop
  | done c s a => c.timer = timer ∧ s = s₀ ∧ ms = 0 ∧ V a
  | waiting w c s k => c.timer = timer ∧ s = s₀ ∧ timer < w.due ∧
      ∃ rest, w.due + rest = timer + ms ∧ ∀ c' s', (k c' s').Takes V rest c'.timer s'

variable {V : α → Prop} {ms timer : Nat} {s₀ : σ} {p : Progress σ α}

theorem Takes.mono {W : α → Prop} (h : p.Takes V ms timer s₀) (hv : ∀ a, V a → W a) :
    p.Takes W ms timer s₀ := by
  induction p generalizing ms timer s₀ with
  | done c s a => exact ⟨h.1, h.2.1, h.2.2.1, hv a h.2.2.2⟩
  | waiting w c s k ih =>
    obtain ⟨hc, hs, hdue, rest, hrest, hk⟩ := h
    exact ⟨hc, hs, hdue, rest, hrest, fun c' s' => ih c' s' (hk c' s')⟩

/-- The second routine goes on at the moment at which the first one is done. -/
theorem Takes.andThen {W : β → Prop} {ms' : Nat} {f : α → Routine σ β}
    (h : p.Takes V ms timer s₀) (hf : ∀ a c s, V a → (f a c s).Takes W ms' c.timer s) :
    (p.andThen f).Takes W (ms + ms') timer s₀ := by
  induction p generalizing ms timer s₀ with
  | done c s a =>
    obtain ⟨rfl, rfl, rfl, hv⟩ := h
    rw [Nat.zero_add]
    exact hf a c s hv
  | waiting w c s k ih =>
    obtain ⟨hc, hs, hdue, rest, hrest, hk⟩ := h
    exact ⟨hc, hs, hdue, rest + ms', by omega, fun c' s' => ih c' s' (hk c' s')⟩

/-- Left to itself, the progress is done when its time is over. -/
theorem Takes.finish (h : p.Takes V ms timer s₀) :
    p.finish.1.timer = timer + ms ∧ p.finish.2.1 = s₀ ∧ V p.finish.2.2 := by
  induction p generalizing ms timer s₀ with
  | done c s a =>
    obtain ⟨hc, hs, rfl, hv⟩ := h
    exact ⟨hc, hs, hv⟩
  | waiting w c s k ih =>
    obtain ⟨rfl, rfl, hdue, rest, hrest, hk⟩ := h
    obtain ⟨htimer, hstate, hvalue⟩ := ih (c.advance w.due) s (hk (c.advance w.due) s)
    refine ⟨?_, hstate, hvalue⟩
    have hadvance : (c.advance w.due).timer = w.due := Nat.max_eq_right hdue.le
    rw [finish, htimer, hadvance, hrest]

end Progress

namespace Routine

variable {σ α β : Type}

/-- The routine leaves the state alone, waits for `ms` milliseconds in all and ends with a value as
required. -/
def Takes (ms : Nat) (V : α → Prop) (r : Routine σ α) : Prop :=
  ∀ c s, (r c s).Takes V ms c.timer s

variable {ms ms' : Nat} {V : α → Prop} {W : β → Prop}

theorem takes_pure {a : α} (h : V a) : (pure a : Routine σ α).Takes 0 V :=
  fun _ _ => ⟨rfl, rfl, rfl, h⟩

/-- One routine after another. -/
theorem Takes.bind {r : Routine σ α} {f : α → Routine σ β} (hr : r.Takes ms V)
    (hf : ∀ a, V a → (f a).Takes ms' W) : (r >>= f).Takes (ms + ms') W :=
  fun c s => (hr c s).andThen fun a c' s' ha => hf a ha c' s'

/-- What takes no time may come first. -/
theorem Takes.at_once {r : Routine σ α} {f : α → Routine σ β} (hr : r.Takes 0 V)
    (hf : ∀ a, V a → (f a).Takes ms W) : (r >>= f).Takes ms W :=
  Nat.zero_add ms ▸ hr.bind hf

/-- What takes no time may come last. -/
theorem Takes.lastly {r : Routine σ α} {f : α → Routine σ β} (hr : r.Takes ms V)
    (hf : ∀ a, V a → (f a).Takes 0 W) : (r >>= f).Takes ms W :=
  hr.bind hf

theorem takes_clock : (Routine.clock : Routine σ Clock).Takes 0 fun _ => True :=
  fun _ _ => ⟨rfl, rfl, rfl, trivial⟩

/-- Time that is lost is no time of the timer. -/
theorem takes_stall (ms : Nat) : (Routine.stall ms : Routine σ Unit).Takes 0 fun _ => True :=
  fun _ _ => ⟨rfl, rfl, rfl, trivial⟩

theorem Takes.ite {b : Prop} [Decidable b] {r t : Routine σ α} (hr : b → r.Takes ms V)
    (ht : ¬b → t.Takes ms V) : (if b then r else t).Takes ms V := by
  split
  · next h => exact hr h
  · next h => exact ht h

theorem takes_delay (ms : Nat) : (Routine.delay ms : Routine σ Unit).Takes ms fun _ => True := by
  refine Takes.ite (fun h => h ▸ takes_pure trivial) fun h c s => ?_
  have hlater : c.timer < c.timer + ms := Nat.lt_add_of_pos_right (Nat.pos_of_ne_zero h)
  exact ⟨rfl, rfl, hlater, 0, rfl, fun _ _ => ⟨rfl, rfl, rfl, trivial⟩⟩

theorem Takes.runFrom {r : Routine σ α} (h : r.Takes ms V) (x : Moment σ) :
    V (r.runFrom x).1 ∧ (r.runFrom x).2.1.timer = x.1.timer + ms ∧ (r.runFrom x).2.2 = x.2 := by
  obtain ⟨htimer, hstate, hvalue⟩ := (h x.1 x.2).finish
  exact ⟨hvalue, htimer, hstate⟩

/-! ## All at once -/

namespace Pool

/-- A routine that is ready at a moment of the timer will be done at another. -/
def DoneAt (timer fin : Nat) (r : Routine σ α) : Prop :=
  ∃ ms, timer + ms = fin ∧
    ∀ c s, c.timer = timer → ∃ s', (r c s).Takes (fun _ => True) ms timer s'

/-- A routine that waits at a moment of the timer will be done at another. -/
def WaitsUntil (timer fin : Nat) (m : Suspended σ α) : Prop :=
  timer < m.wake.due ∧ DoneAt m.wake.due fin m.resume

/-- A pool that has started all its routines, and the moments at which they will be done: those that
are ready, and those that wait. -/
structure Punctual (p : Pool σ α) (timer : Nat) (now later : Multiset Nat) : Prop where
  ready : Multiset.Rel (DoneAt timer) now (p.ready : Multiset (Routine σ α))
  waiting : Multiset.Rel (WaitsUntil timer) later (p.waiting : Multiset (Suspended σ α))
  ordered : Suspended.Ordered p.waiting
  queue : p.queue = []

section

variable {timer : Nat} {now later : Multiset Nat} {r : Routine σ α}
  {ready queue : List (Routine σ α)} {waiting : List (Suspended σ α)} {c c' : Clock} {s s' : σ}

theorem Punctual.head (h : Punctual ⟨r :: ready, waiting, queue⟩ timer now later) :
    ∃ fin now', now = fin ::ₘ now' ∧ DoneAt timer fin r ∧
      Punctual ⟨ready, waiting, queue⟩ timer now' later := by
  have hready : Multiset.Rel (DoneAt timer) now (r ::ₘ (ready : Multiset (Routine σ α))) := h.ready
  obtain ⟨fin, now', hfin, hready', rfl⟩ := Multiset.rel_cons_right.mp hready
  exact ⟨fin, now', rfl, hfin, hready', h.waiting, h.ordered, h.queue⟩

/-- Who is done is done now. -/
theorem Punctual.leave (h : Punctual ⟨r :: ready, waiting, queue⟩ c.timer now later) {a : α}
    (hr : r c s = .done c' s' a) :
    ∃ now', now = c.timer ::ₘ now' ∧ c'.timer = c.timer ∧
      Punctual (refill ready waiting queue) c.timer now' later := by
  obtain ⟨fin, now', rfl, ⟨ms, rfl, hdone⟩, hrest⟩ := h.head
  obtain ⟨s₁, htakes⟩ := hdone c s rfl
  rw [hr] at htakes
  obtain ⟨htimer, -, rfl, -⟩ := htakes
  have hqueue : queue = [] := h.queue
  subst hqueue
  exact ⟨now', rfl, htimer, hrest⟩

/-- Who begins to wait will be done when it would have been done before. -/
theorem Punctual.wait (h : Punctual ⟨r :: ready, waiting, queue⟩ c.timer now later) {w : Wake}
    {k : Routine σ α} (hr : r c s = .waiting w c' s' k) :
    ∃ fin now', now = fin ::ₘ now' ∧ c'.timer = c.timer ∧
      Punctual ⟨ready, Suspended.insert ⟨w, k⟩ waiting, queue⟩ c.timer now' (fin ::ₘ later) := by
  obtain ⟨fin, now', rfl, ⟨ms, rfl, hdone⟩, hrest⟩ := h.head
  obtain ⟨s₁, htakes⟩ := hdone c s rfl
  rw [hr] at htakes
  obtain ⟨htimer, -, hdue, rest, hsum, hk⟩ := htakes
  have hwaits : WaitsUntil c.timer (c.timer + ms) ⟨w, k⟩ :=
    ⟨hdue, rest, hsum, fun c₁ s₁ hc₁ => ⟨s₁, hc₁ ▸ hk c₁ s₁⟩⟩
  have hinsert : (Suspended.insert ⟨w, k⟩ waiting : Multiset (Suspended σ α)) =
      ⟨w, k⟩ ::ₘ (waiting : Multiset (Suspended σ α)) :=
    Multiset.coe_eq_coe.mpr (Suspended.insert_perm _ _)
  refine ⟨_, now', rfl, htimer, hrest.ready, ?_, Suspended.ordered_insert _ h.ordered, h.queue⟩
  exact hinsert ▸ Multiset.Rel.cons hwaits h.waiting

/-- Those that are due with the first of all wait for the same moment. -/
theorem WaitsUntil.woken {first m : Suspended σ α} {rest : List (Suspended σ α)} {fin : Nat}
    (h : WaitsUntil timer fin m) (hordered : Suspended.Ordered (first :: rest))
    (hm : m ∈ Suspended.due first.wake.due (first :: rest)) :
    DoneAt first.wake.due fin m.resume := by
  have hdue := List.mem_takeWhile_imp hm
  have hle : m.wake.due ≤ first.wake.due := of_decide_eq_true hdue
  have hfirst := hordered.due_le ((List.takeWhile_sublist _).subset hm)
  exact Nat.le_antisymm hle hfirst ▸ h.2

/-- When nobody is ready, time passes up to the first moment for which somebody waits, and that is
not beyond the last of the ends. -/
theorem Punctual.awaken {first : Suspended σ α} {rest : List (Suspended σ α)}
    (h : Punctual ⟨[], first :: rest, queue⟩ timer now later) :
    now = 0 ∧ timer < first.wake.due ∧ first.wake.due ≤ later.sup ∧
      ∃ now' later', later = now' + later' ∧
        Punctual (Pool.awaken first rest queue first.wake.due) first.wake.due now' later' := by
  have hnow : now = 0 := Multiset.rel_zero_right.mp h.ready
  have hwaiting : Multiset.Rel (WaitsUntil timer) later
      (first ::ₘ (rest : Multiset (Suspended σ α))) := h.waiting
  obtain ⟨fin, others, ⟨hdue, ms, hms, -⟩, -, hlater⟩ := Multiset.rel_cons_right.mp hwaiting
  have hsup : first.wake.due ≤ later.sup := by
    rw [hlater, Multiset.sup_cons]
    exact le_sup_of_le_left (by omega)
  refine ⟨hnow, hdue, hsup, ?_⟩
  have hsplit : ((first :: rest : List (Suspended σ α)) : Multiset (Suspended σ α)) =
      (Suspended.due first.wake.due (first :: rest) : Multiset (Suspended σ α)) +
        (Suspended.later first.wake.due (first :: rest) : Multiset (Suspended σ α)) := by
    rw [Multiset.coe_add, Suspended.due, Suspended.later, List.takeWhile_append_dropWhile]
  obtain ⟨now', later', hready, hrest, rfl⟩ := Multiset.rel_add_right.mp (hsplit ▸ h.waiting)
  refine ⟨now', later', rfl, ?_⟩
  rw [Suspended.awaken_eq (Nat.le_refl _)]
  refine ⟨?_, ?_, ?_, h.queue⟩
  · rw [← Multiset.map_coe, Multiset.rel_map_right]
    exact hready.mono fun fin _ m hm hwaits => hwaits.woken h.ordered hm
  · exact hrest.mono fun fin _ m hm hwaits => ⟨h.ordered.lt_of_later hm, hwaits.2⟩
  · exact List.Pairwise.sublist (List.dropWhile_sublist _) h.ordered

variable {settle : α → σ → σ}

/-- **All at once take the longest**: the timer stops when the last member is done. -/
theorem Punctual.timer_run {p : Pool σ α} {settled : List α} (h : Punctual p c.timer now later) :
    (Routine.runFrom (run settle p settled) (c, s)).2.1.timer = c.timer ⊔ (now + later).sup := by
  fun_induction run settle p settled c s generalizing now later with
  | case1 settled c s r ready waiting queue c' s' a hr ih =>
    rw [runFrom_done hr]
    obtain ⟨now', rfl, hc, h'⟩ := h.leave hr
    rw [ih (hc ▸ h'), hc, Multiset.cons_add, Multiset.sup_cons, sup_left_idem]
  | case2 settled c s r ready waiting queue w c' s' k hr ih =>
    rw [runFrom_waiting hr]
    obtain ⟨fin, now', rfl, hc, h'⟩ := h.wait hr
    rw [ih (hc ▸ h'), hc, Multiset.add_cons, Multiset.cons_add]
  | case3 settled c s first rest queue ih =>
    obtain ⟨rfl, hdue, hsup, now', later', rfl, h'⟩ := h.awaken
    have hadvance : (c.advance first.wake.due).timer = first.wake.due := Nat.max_eq_right hdue.le
    rw [runFrom_awaken, ih (c.advance first.wake.due) s (hadvance.symm ▸ h'), hadvance,
      Multiset.zero_add, sup_eq_right.mpr hsup, sup_eq_right.mpr (hdue.le.trans hsup)]
  | case4 settled c s queue =>
    have hnow : now = 0 := Multiset.rel_zero_right.mp h.ready
    have hlater : later = 0 := Multiset.rel_zero_right.mp h.waiting
    rw [runFrom_over, hnow, hlater]
    exact (Nat.max_zero _).symm

end

/-! ### What they settle -/

section

variable {δ : Type}

/-- What is left to do of a task. -/
def LeftOf (value : δ → α → Prop) (d : δ) (r : Routine σ α) : Prop :=
  ∃ ms, r.Takes ms (value d)

/-- What has been settled is of the tasks that are neither underway nor in line any more, and only
the effects of those in line are still to come. -/
def Settles (value : δ → α → Prop) (effect : σ → δ → σ) (all : List δ) (s₀ : σ)
    (line going : List δ) (settled : List α) (s : σ) : Prop :=
  ∃ done, Forall₂ value done settled ∧ (done ++ going ++ line).Perm all ∧
    line.foldl effect s = all.foldl effect s₀

variable {task : δ → Routine σ α} {span : δ → Nat} {effect : σ → δ → σ} {value : δ → α → Prop}
  {all line going : List δ} {settled : List α} {s₀ s : σ} {d : δ}

theorem Settles.start (h : Settles value effect all s₀ (d :: line) going settled s) :
    Settles value effect all s₀ line (d :: going) settled (effect s d) := by
  obtain ⟨done, hdone, hperm, hstate⟩ := h
  refine ⟨done, hdone, ?_, hstate⟩
  have hmove : (going ++ d :: line).Perm (d :: going ++ line) := List.perm_middle
  rw [List.append_assoc] at hperm ⊢
  exact (hmove.symm.append_left done).trans hperm

theorem Settles.finish {a : α} (h : Settles value effect all s₀ line (d :: going) settled s)
    (ha : value d a) : Settles value effect all s₀ line going (a :: settled) s := by
  obtain ⟨done, hdone, hperm, hstate⟩ := h
  refine ⟨d :: done, .cons ha hdone, ?_, hstate⟩
  have hmove : (done ++ d :: going).Perm (d :: done ++ going) := List.perm_middle
  exact (hmove.symm.append_right line).trans hperm

/-- A turn of a task that has had its effect. -/
theorem Settles.passes {p : Progress σ α} {ms timer : Nat}
    (h : Settles value effect all s₀ line (d :: going) settled s)
    (hp : p.Takes (value d) ms timer s) :
    Passes (fun _ s => s) (LeftOf value) (Settles value effect all s₀) line going settled p := by
  cases p with
  | done c s' a =>
    obtain ⟨-, rfl, -, ha⟩ := hp
    exact h.finish ha
  | waiting w c s' k =>
    obtain ⟨-, rfl, -, rest, -, hk⟩ := hp
    exact ⟨d, ⟨rest, hk⟩, h⟩

theorem line_settles (htask : ∀ d c s, (task d c s).Takes (value d) (span d) c.timer (effect s d))
    (all : List δ) (s₀ : σ) :
    Line (fun _ s => s) task (LeftOf value) (Settles value effect all s₀) where
  perm := by
    rintro line going going' settled s hgoing ⟨done, hdone, hperm, hstate⟩
    exact ⟨done, hdone, ((hgoing.symm.append_left done).append_right line).trans hperm, hstate⟩
  start := fun c h => h.start.passes (htask _ c _)
  resume := fun c ⟨_, hr⟩ h => h.passes (hr c _)

/-- Tasks that are started together are done one by one. -/
theorem punctual_start
    (htask : ∀ d c s, (task d c s).Takes (value d) (span d) c.timer (effect s d)) (all : List δ)
    (timer : Nat) :
    Punctual ⟨all.map task, [], []⟩ timer ((all : Multiset δ).map fun d => timer + span d) 0 := by
  refine ⟨?_, .zero, .nil, rfl⟩
  rw [← Multiset.map_coe, Multiset.rel_map]
  refine Multiset.rel_refl_of_refl_on fun d _ => ⟨span d, rfl, fun c s hc => ⟨effect s d, ?_⟩⟩
  exact hc ▸ (htask d c s).mono fun _ _ => trivial

theorem sup_map_add (timer : Nat) (all : List δ) :
    timer ⊔ ((all : Multiset δ).map fun d => timer + span d).sup =
      timer + (all.map span).foldr max 0 := by
  induction all with
  | nil => exact Nat.max_zero timer
  | cons d all ih =>
    rw [← Multiset.cons_coe, Multiset.map_cons, Multiset.sup_cons, sup_left_comm, ih]
    exact Nat.add_max_add_left ..

end

end Pool

/-- **All tasks at once.** Each has its effect on the state as it is started, in the order of the
tasks; each settles as it does alone, in whatever order; and the timer moves on by the longest of
their times. -/
theorem runFrom_together {δ : Type} {task : δ → Routine σ α} {span : δ → Nat} {effect : σ → δ → σ}
    {value : δ → α → Prop}
    (htask : ∀ d c s, (task d c s).Takes (value d) (span d) c.timer (effect s d)) (all : List δ)
    (x : Moment σ) :
    let y := (together (fun _ s => s) (all.map task)).runFrom x
    (∃ done, done.Perm all ∧ Forall₂ value done y.1) ∧ y.2.2 = all.foldl effect x.2 ∧
      y.2.1.timer = x.1.timer + (all.map span).foldr max 0 := by
  have hstart : Pool.Lined task (Pool.LeftOf value) all [] ⟨all.map task, [], []⟩ := by
    simpa using Pool.lined_start all []
  have hsettles : Pool.Settles value effect all x.2 all [] [] x.2 := ⟨[], .nil, .refl _, rfl⟩
  obtain ⟨done, hdone, hperm, hstate⟩ :=
    (Pool.line_settles htask all x.2).run hstart (fun h => absurd rfl h) (c := x.1) hsettles
  have htimer : ((together (fun _ s => s) (all.map task)).runFrom x).2.1.timer = _ :=
    (Pool.punctual_start htask all x.1.timer).timer_run
  rw [Multiset.add_zero, Pool.sup_map_add] at htimer
  rw [List.append_nil, List.append_nil] at hperm
  refine ⟨⟨done.reverse, (List.reverse_perm done).trans hperm, ?_⟩, hstate, htimer⟩
  rw [← List.forall₂_reverse_iff, List.reverse_reverse]
  exact hdone

end Routine

end Ensemble
