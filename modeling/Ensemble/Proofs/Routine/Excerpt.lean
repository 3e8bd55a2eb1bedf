import Ensemble.Proofs.Routine.Straight

/-!
# Excerpts of pools

Some of the routines of a pool may be looked at alone, as if they had a pool of their own. Such an
excerpt goes on whenever one of its routines has a turn, and stands still while any other has; its
timer moves on only to moments for which its own routines wait. `Excerpt.shows_run` says that a pool
ends with what its excerpt ends with, whatever the other routines do, as long as they leave alone
what the excerpt shows.
-/

namespace Ensemble

/-! ## Clocks and waits -/

/-- What a step may do to the clock: the timer stands still, and delays are only started. -/
structure Clock.Still (c c' : Clock) : Prop where
  timer : c'.timer = c.timer
  delays : c.delays ≤ c'.delays

namespace Clock.Still

theorem refl (c : Clock) : c.Still c := ⟨rfl, Nat.le_refl _⟩

theorem trans {c c' c'' : Clock} (h : c.Still c') (h' : c'.Still c'') : c.Still c'' :=
  ⟨h'.timer.trans h.timer, Nat.le_trans h.delays h'.delays⟩

end Clock.Still

/-- A wait that begins in a step from one clock to another: it is for a later moment, and ranks
behind all waits that have begun before the step. -/
structure Wake.Fresh (w : Wake) (c c' : Clock) : Prop where
  due : c.timer < w.due
  since : c.delays ≤ w.rank
  rank : w.rank < c'.delays

theorem Wake.before_iff (v w : Wake) :
    v.before w = true ↔ v.due < w.due ∨ v.due = w.due ∧ v.rank < w.rank := by
  simp [before]

/-- No wait comes before one that comes before it. -/
theorem Wake.before_asymm {v w : Wake} (h : v.before w = true) : w.before v = false := by
  rw [before_iff] at h
  rw [Bool.eq_false_iff, ne_eq, before_iff]
  omega

/-- What comes before a wait comes before all that the wait does not come behind. -/
theorem Wake.before_trans {v w x : Wake} (h : v.before w = true) (h' : x.before w = false) :
    v.before x = true := by
  rw [before_iff] at h ⊢
  rw [Bool.eq_false_iff, ne_eq, before_iff] at h'
  omega

/-! ## Lists -/

/-- A list whose elements are left aside or, in their order, matched by those of another list. -/
inductive Among {α β : Type} (aside : α → Prop) (matched : α → β → Prop) :
    List α → List β → Prop where
  | nil : Among aside matched [] []
  | aside {a l m} : aside a → Among aside matched l m → Among aside matched (a :: l) m
  | matched {a b l m} : matched a b → Among aside matched l m →
      Among aside matched (a :: l) (b :: m)

namespace Among

variable {α β γ δ : Type} {aside : α → Prop} {matched : α → β → Prop} {l : List α} {m : List β}

theorem map {aside' : γ → Prop} {matched' : γ → δ → Prop} {f : α → γ} {g : β → δ}
    (h : Among aside matched l m) (ha : ∀ a, aside a → aside' (f a))
    (hm : ∀ a b, matched a b → matched' (f a) (g b)) :
    Among aside' matched' (l.map f) (m.map g) := by
  induction h with
  | nil => exact .nil
  | aside haside _ ih => exact .aside (ha _ haside) ih
  | matched hmatched _ ih => exact .matched (hm _ _ hmatched) ih

/-- The elements may be known to be in the list. -/
theorem weaken {matched' : α → β → Prop} (h : Among aside matched l m)
    (hm : ∀ a ∈ l, ∀ b, matched a b → matched' a b) : Among aside matched' l m := by
  induction h with
  | nil => exact .nil
  | aside haside _ ih => exact .aside haside (ih fun a ha => hm a (List.mem_cons_of_mem _ ha))
  | matched hmatched _ ih =>
    exact .matched (hm _ List.mem_cons_self _ hmatched)
      (ih fun a ha => hm a (List.mem_cons_of_mem _ ha))

theorem head {b : β} (h : Among aside matched l (b :: m)) : ∃ a ∈ l, matched a b := by
  induction l with
  | nil => cases h
  | cons x l ih =>
    cases h with
    | aside _ h =>
      obtain ⟨a, ha, hmatched⟩ := ih h
      exact ⟨a, List.mem_cons_of_mem x ha, hmatched⟩
    | matched hmatched _ => exact ⟨x, List.mem_cons_self, hmatched⟩

/-- The lists break off together, if what is matched is kept together and nothing is kept behind
what is dropped. -/
theorem split (h : Among aside matched l m) {p : α → Bool} {q : β → Bool}
    (hpq : ∀ a b, matched a b → p a = q b)
    (hdown : l.Pairwise fun a a' => p a' = true → p a = true) :
    Among aside matched (l.takeWhile p) (m.takeWhile q) ∧
      Among aside matched (l.dropWhile p) (m.dropWhile q) := by
  induction h with
  | nil => exact ⟨.nil, .nil⟩
  | @aside a l m haside h ih =>
    obtain ⟨ha, hrest⟩ := List.pairwise_cons.mp hdown
    cases hp : p a with
    | true =>
      rw [List.takeWhile_cons_of_pos hp, List.dropWhile_cons_of_pos hp]
      exact ⟨.aside haside (ih hrest).1, (ih hrest).2⟩
    | false =>
      have hnone : m.takeWhile q = [] ∧ m.dropWhile q = m := by
        cases m with
        | nil => exact ⟨rfl, rfl⟩
        | cons b m =>
          obtain ⟨a', ha', hmatched⟩ := h.head
          have hq : ¬q b = true := by
            rw [← hpq a' b hmatched]
            intro htrue
            rw [ha a' ha' htrue] at hp
            cases hp
          exact ⟨List.takeWhile_cons_of_neg hq, List.dropWhile_cons_of_neg hq⟩
      rw [List.takeWhile_cons_of_neg (ne_true_of_eq_false hp),
        List.dropWhile_cons_of_neg (ne_true_of_eq_false hp), hnone.1, hnone.2]
      exact ⟨.nil, .aside haside h⟩
  | @matched a b l m hmatched h ih =>
    obtain ⟨-, hrest⟩ := List.pairwise_cons.mp hdown
    have hq := hpq a b hmatched
    cases hp : p a with
    | true =>
      have hq' : q b = true := hq.symm.trans hp
      rw [List.takeWhile_cons_of_pos hp, List.dropWhile_cons_of_pos hp,
        List.takeWhile_cons_of_pos hq', List.dropWhile_cons_of_pos hq']
      exact ⟨.matched hmatched (ih hrest).1, (ih hrest).2⟩
    | false =>
      have hp' : ¬p a = true := ne_true_of_eq_false hp
      have hq' : ¬q b = true := ne_true_of_eq_false (hq.symm.trans hp)
      rw [List.takeWhile_cons_of_neg hp', List.dropWhile_cons_of_neg hp',
        List.takeWhile_cons_of_neg hq', List.dropWhile_cons_of_neg hq']
      exact ⟨.nil, .matched hmatched h⟩

end Among

namespace Routine.Suspended

variable {σ τ α β : Type}

/-- Nobody in the list wakes before somebody who stands in front. -/
def Ordered (l : List (Suspended σ α)) : Prop :=
  l.Pairwise fun m n => n.wake.before m.wake = false

theorem ordered_insert (m : Suspended σ α) {l : List (Suspended σ α)} (h : Ordered l) :
    Ordered (insert m l) := by
  induction l with
  | nil => exact List.pairwise_singleton _ m
  | cons n rest ih =>
    obtain ⟨hn, hrest⟩ := List.pairwise_cons.mp h
    simp only [insert]
    split
    · next hbefore =>
      refine List.pairwise_cons.mpr ⟨fun x hx => ?_, h⟩
      rcases List.mem_cons.mp hx with rfl | hx
      · exact Wake.before_asymm hbefore
      · exact Wake.before_asymm (Wake.before_trans hbefore (hn x hx))
    · next hbehind =>
      refine List.pairwise_cons.mpr ⟨fun x hx => ?_, ih hrest⟩
      rcases List.mem_cons.mp ((insert_perm m rest).mem_iff.mp hx) with rfl | hx
      · exact eq_false_of_ne_true hbehind
      · exact hn x hx

/-- Whoever stands in front is due first. -/
theorem Ordered.due_le {m n : Suspended σ α} {rest : List (Suspended σ α)}
    (h : Ordered (m :: rest)) (hn : n ∈ m :: rest) : m.wake.due ≤ n.wake.due := by
  rcases List.mem_cons.mp hn with rfl | hn
  · exact Nat.le_refl _
  · have hbefore := List.rel_of_pairwise_cons h hn
    rw [Bool.eq_false_iff, ne_eq, Wake.before_iff] at hbefore
    omega

/-- If somebody is due, so is everybody in front. -/
theorem Ordered.down {l : List (Suspended σ α)} (h : Ordered l) (timer : Nat) :
    l.Pairwise fun m n => decide (n.wake.due ≤ timer) = true →
      decide (m.wake.due ≤ timer) = true := by
  refine List.Pairwise.imp (fun {m n} hbefore hdue => ?_) h
  have hbefore' := hbefore
  rw [Bool.eq_false_iff, ne_eq, Wake.before_iff] at hbefore'
  have hdue := of_decide_eq_true hdue
  exact decide_eq_true (by omega)

/-- Nobody who has to wait on is due. -/
theorem Ordered.lt_of_later {l : List (Suspended σ α)} (h : Ordered l) {timer : Nat}
    {m : Suspended σ α} (hm : m ∈ later timer l) : timer < m.wake.due := by
  induction l with
  | nil => cases hm
  | cons n rest ih =>
    by_cases hn : n.wake.due ≤ timer
    · rw [later, List.dropWhile_cons, if_pos (decide_eq_true hn)] at hm
      exact ih (List.pairwise_cons.mp h).2 hm
    · rw [later, List.dropWhile_cons, if_neg fun hd => hn (of_decide_eq_true hd)] at hm
      have hle := h.due_le hm
      omega

theorem awaken_eq {first : Suspended σ α} {timer : Nat} (h : first.wake.due ≤ timer)
    (rest : List (Suspended σ α)) (queue : List (Routine σ α)) :
    Pool.awaken first rest queue timer =
      ⟨(due timer (first :: rest)).map (·.resume), later timer (first :: rest), queue⟩ := by
  rw [due, later, List.takeWhile_cons, List.dropWhile_cons, if_pos (decide_eq_true h),
    if_pos (decide_eq_true h)]
  rfl

variable {aside : Suspended σ α → Prop} {matched : Suspended σ α → Suspended τ β → Prop}
  {l : List (Suspended σ α)} {l' : List (Suspended τ β)} {m : Suspended σ α} {m' : Suspended τ β}

theorem among_insert_aside (hm : aside m) (h : Among aside matched l l') :
    Among aside matched (insert m l) l' := by
  induction h with
  | nil => exact .aside hm .nil
  | aside ha h ih =>
    simp only [insert]
    split
    · exact .aside hm (.aside ha h)
    · exact .aside ha ih
  | matched hn h ih =>
    simp only [insert]
    split
    · exact .aside hm (.matched hn h)
    · exact .matched hn ih

/-- Both lists take one in at the same place, if it wakes before the same others in either. -/
theorem among_insert {matched' : Suspended σ α → Suspended τ β → Prop} (hm : matched' m m')
    (hweaken : ∀ n n', matched n n' → matched' n n') (hordered : Ordered l)
    (h : Among aside matched l l')
    (hbefore : ∀ n n', matched n n' → m.wake.before n.wake = m'.wake.before n'.wake) :
    Among aside matched' (insert m l) (insert m' l') := by
  induction h with
  | nil => exact .matched hm .nil
  | @aside n l l' hn h ih =>
    obtain ⟨hrest, hordered⟩ := List.pairwise_cons.mp hordered
    rw [insert]
    split
    · next hfirst =>
      -- whoever wakes before the one left aside wakes before all behind it
      have hhead : insert m' l' = m' :: l' := by
        cases l' with
        | nil => rfl
        | cons x' l' =>
          obtain ⟨x, hx, hmatched⟩ := h.head
          rw [insert, if_pos ((hbefore x x' hmatched).symm.trans
            (Wake.before_trans hfirst (hrest x hx)))]
      rw [hhead]
      exact .matched hm (.aside hn (h.weaken fun n _ n' => hweaken n n'))
    · exact .aside hn (ih hordered)
  | @matched n n' l l' hn h ih =>
    obtain ⟨-, hordered⟩ := List.pairwise_cons.mp hordered
    rw [insert, insert, hbefore n n' hn]
    split
    · exact .matched hm (.matched (hweaken n n' hn) (h.weaken fun n _ n' => hweaken n n'))
    · exact .matched (hweaken n n' hn) (ih hordered)

end Routine.Suspended

/-! ## Excerpts -/

/-- How a pool on states `σ` is looked at through a pool on states `τ`. -/
structure Excerpt (σ τ α β : Type) where
  /-- Whether a state of the pool shows a state of the excerpt. -/
  shows : σ → τ → Prop
  /-- What the pool does with what is done. -/
  settle : α → σ → σ
  /-- What the excerpt does with it. -/
  settleOwn : β → τ → τ
  /-- How far the timer of the pool is ahead of that of the excerpt. -/
  ahead : Nat

namespace Excerpt

open Routine

variable {σ τ α β : Type} (E : Excerpt σ τ α β)

/-- What a step may do that does not concern the excerpt. -/
def aside : Guarantee σ where
  step c s c' s' := c.Still c' ∧ ∀ t, E.shows s t → E.shows s' t
  refl c _ := ⟨.refl c, fun _ h => h⟩
  trans h h' := ⟨h.1.trans h'.1, fun t hs => h'.2 t (h.2 t hs)⟩

/-- A routine that does not concern the excerpt, neither while it goes on nor when it is done. -/
def Aside (r : Routine σ α) : Prop :=
  ∀ c s, (r c s).Keeps Anything E.aside.step
    (fun c s c' s' a => E.aside.step c s c' (E.settle a s')) c s

/-- A progress of the pool and one of the excerpt that wait for the same moments and show the same
when they are done, from the clocks given on. -/
inductive Same : Clock → Clock → Progress σ α → Progress τ β → Prop where
  | done {c₀ c s a c₀' c' t b} : c₀.Still c → c₀'.Still c' →
      E.shows (E.settle a s) (E.settleOwn b t) → Same c₀ c₀' (.done c s a) (.done c' t b)
  | waiting {c₀ w c s k c₀' w' c' t k'} : c₀.Still c → c₀'.Still c' → w.Fresh c₀ c →
      w'.Fresh c₀' c' → w.due = w'.due + E.ahead → E.shows s t →
      (∀ d u d' v, d.timer = d'.timer + E.ahead → E.shows u v → Same d d' (k d u) (k' d' v)) →
      Same c₀ c₀' (.waiting w c s k) (.waiting w' c' t k')

/-- A routine of the pool that is found in the excerpt. -/
def Cites (r : Routine σ α) (r' : Routine τ β) : Prop :=
  ∀ c s c' t, c.timer = c'.timer + E.ahead → E.shows s t → E.Same c c' (r c s) (r' c' t)

/-- A wait of the pool that is found in the excerpt, as seen from the clocks given. -/
structure Awaits (c c' : Clock) (m : Suspended σ α) (m' : Suspended τ β) : Prop where
  cites : E.Cites m.resume m'.resume
  due : m.wake.due = m'.wake.due + E.ahead
  later : c.timer < m.wake.due
  rank : m.wake.rank < c.delays
  rankOwn : m'.wake.rank < c'.delays

/-- A pool and its excerpt, each at its clock. The timer of the excerpt stays behind until one of
its own routines has a turn. -/
structure Of (p : Pool σ α) (q : Pool τ β) (c c' : Clock) : Prop where
  ready : Among E.Aside E.Cites p.ready q.ready
  waiting : Among (fun m => E.Aside m.resume) (E.Awaits c c') p.waiting q.waiting
  ordered : Suspended.Ordered p.waiting
  queue : p.queue = []
  queueOwn : q.queue = []
  level : q.ready ≠ [] → c.timer = c'.timer + E.ahead
  behind : c'.timer + E.ahead ≤ c.timer

variable {E} {c c' d d' : Clock}

theorem Awaits.still {m : Suspended σ α} {m' : Suspended τ β} (h : E.Awaits c c' m m')
    (hc : c.Still d) (hc' : c'.Still d') : E.Awaits d d' m m' where
  cites := h.cites
  due := h.due
  later := by
    rw [hc.timer]
    exact h.later
  rank := Nat.lt_of_lt_of_le h.rank hc.delays
  rankOwn := Nat.lt_of_lt_of_le h.rankOwn hc'.delays

namespace Of

variable {r : Routine σ α} {ready : List (Routine σ α)} {waiting : List (Suspended σ α)}
  {r' : Routine τ β} {readyOwn : List (Routine τ β)} {waitingOwn : List (Suspended τ β)}
  {q : Pool τ β}

/-- A routine that does not concern the excerpt has left. -/
theorem leave_aside (h : E.Of ⟨r :: ready, waiting, []⟩ q c c')
    (hready : Among E.Aside E.Cites ready q.ready) (hc : c.Still d) :
    E.Of ⟨ready, waiting, []⟩ q d c' where
  ready := hready
  waiting := h.waiting.weaken fun _ _ _ hm => hm.still hc (.refl c')
  ordered := h.ordered
  queue := rfl
  queueOwn := h.queueOwn
  level hne := hc.timer.trans (h.level hne)
  behind := by
    rw [hc.timer]
    exact h.behind

/-- A routine that does not concern the excerpt waits. -/
theorem wait_aside {k : Routine σ α} (w : Wake) (hk : E.Aside k)
    (h : E.Of ⟨ready, waiting, []⟩ q d c') :
    E.Of ⟨ready, Suspended.insert ⟨w, k⟩ waiting, []⟩ q d c' :=
  { h with
    waiting := Suspended.among_insert_aside hk h.waiting
    ordered := Suspended.ordered_insert ⟨w, k⟩ h.ordered }

/-- A routine of the excerpt has left. -/
theorem leave (h : E.Of ⟨r :: ready, waiting, []⟩ ⟨r' :: readyOwn, waitingOwn, []⟩ c c')
    (hready : Among E.Aside E.Cites ready readyOwn) (hc : c.Still d) (hc' : c'.Still d') :
    E.Of ⟨ready, waiting, []⟩ ⟨readyOwn, waitingOwn, []⟩ d d' := by
  have hlevel : d.timer = d'.timer + E.ahead := by
    rw [hc.timer, hc'.timer]
    exact h.level (List.cons_ne_nil r' readyOwn)
  exact ⟨hready, h.waiting.weaken fun _ _ _ hm => hm.still hc hc', h.ordered, rfl, rfl,
    fun _ => hlevel, Nat.le_of_eq hlevel.symm⟩

/-- A routine of the excerpt waits: its wait ranks behind all others of the excerpt, in the pool and
in the excerpt alike. -/
theorem wait (h : E.Of ⟨r :: ready, waiting, []⟩ ⟨r' :: readyOwn, waitingOwn, []⟩ c c')
    (hready : Among E.Aside E.Cites ready readyOwn) (hc : c.Still d) (hc' : c'.Still d')
    {w w' : Wake} {k : Routine σ α} {k' : Routine τ β} (hk : E.Cites k k') (hw : w.Fresh c d)
    (hw' : w'.Fresh c' d') (hdue : w.due = w'.due + E.ahead) :
    E.Of ⟨ready, Suspended.insert ⟨w, k⟩ waiting, []⟩
      ⟨readyOwn, Suspended.insert ⟨w', k'⟩ waitingOwn, []⟩ d d' := by
  have hleft := h.leave hready hc hc'
  have hlater : d.timer < w.due := by
    rw [hc.timer]
    exact hw.due
  refine { hleft with
    waiting := Suspended.among_insert ⟨hk, hdue, hlater, hw.rank, hw'.rank⟩
      (fun _ _ hm => hm.still hc hc') h.ordered h.waiting fun n n' hn => ?_
    ordered := Suspended.ordered_insert ⟨w, k⟩ h.ordered }
  have hrank := Nat.lt_of_lt_of_le hn.rank hw.since
  have hrank' := Nat.lt_of_lt_of_le hn.rankOwn hw'.since
  have hn := hn.due
  rw [Bool.eq_iff_iff, Wake.before_iff, Wake.before_iff]
  dsimp only
  omega

/-- Nothing is ready in the pool, and its timer moves on to the first wait: among those that become
ready are the ones of the excerpt that wait for that moment, and among those that wait on are the
others. -/
theorem woken {first : Suspended σ α} {rest : List (Suspended σ α)} {readyOwn : List (Routine τ β)}
    {queueOwn : List (Routine τ β)}
    (h : E.Of ⟨[], first :: rest, []⟩ ⟨readyOwn, waitingOwn, queueOwn⟩ c c')
    (hdelays : c'.delays ≤ d'.delays) :
    let d := c.advance first.wake.due
    let p := Pool.awaken first rest [] d.timer
    Among E.Aside E.Cites p.ready
        ((waitingOwn.takeWhile fun m => m.wake.due + E.ahead ≤ d.timer).map (·.resume)) ∧
      Among (fun m => E.Aside m.resume) (E.Awaits d d') p.waiting
        (waitingOwn.dropWhile fun m => m.wake.due + E.ahead ≤ d.timer) ∧
      Suspended.Ordered p.waiting := by
  intro d p
  have hfirst : first.wake.due ≤ d.timer := Nat.le_max_right _ _
  have hp : p = ⟨(Suspended.due d.timer (first :: rest)).map (·.resume),
      Suspended.later d.timer (first :: rest), []⟩ := Suspended.awaken_eq hfirst rest []
  obtain ⟨hdue, hlater⟩ := h.waiting.split
    (p := fun m => m.wake.due ≤ d.timer) (q := fun m => m.wake.due + E.ahead ≤ d.timer)
    (fun m m' hm => by rw [hm.due]) (h.ordered.down d.timer)
  rw [hp]
  refine ⟨hdue.map (fun _ h => h) fun _ _ h => h.cites, hlater.weaken fun m hmem m' hm => ?_, ?_⟩
  · exact ⟨hm.cites, hm.due, h.ordered.lt_of_later hmem, hm.rank,
      Nat.lt_of_lt_of_le hm.rankOwn hdelays⟩
  · exact h.ordered.sublist (List.dropWhile_sublist _)

/-- If the timer of the pool moves on to a moment for which the excerpt waits, it does not pass that
moment, and the timer of the excerpt moves on with it. -/
theorem reaches {first : Suspended σ α} {rest : List (Suspended σ α)} {first' : Suspended τ β}
    {rest' : List (Suspended τ β)}
    (h : E.Of ⟨[], first :: rest, []⟩ ⟨readyOwn, first' :: rest', []⟩ c c')
    (hreached : first'.wake.due + E.ahead ≤ (c.advance first.wake.due).timer) :
    (c'.advance first'.wake.due).timer = first'.wake.due ∧
      (c.advance first.wake.due).timer = first'.wake.due + E.ahead := by
  -- the first one that the pool waits for is due no later than that of the excerpt
  obtain ⟨m, hm, hawaits⟩ := h.waiting.head
  have hfront := h.ordered.due_le hm
  have hlater := hawaits.later
  have hdue := hawaits.due
  have hbehind := h.behind
  have hmax : (c.advance first.wake.due).timer = max c.timer first.wake.due := rfl
  have hmax' : (c'.advance first'.wake.due).timer = max c'.timer first'.wake.due := rfl
  omega

/-- Nothing is ready in the pool, and its timer moves on to the first wait. If the excerpt waits for
that moment too, its timer moves on with it, else the excerpt stands still. -/
theorem awaken {first : Suspended σ α} {rest : List (Suspended σ α)}
    (h : E.Of ⟨[], first :: rest, []⟩ q c c') :
    let d := c.advance first.wake.due
    E.Of (Pool.awaken first rest [] d.timer) q d c' ∨
      ∃ first' rest', q = ⟨[], first' :: rest', []⟩ ∧
        E.Of (Pool.awaken first rest [] d.timer)
          (Pool.awaken first' rest' [] (c'.advance first'.wake.due).timer) d
          (c'.advance first'.wake.due) := by
  intro d
  obtain ⟨readyOwn, waitingOwn, queueOwn⟩ := q
  obtain rfl := h.queueOwn
  obtain rfl : readyOwn = [] := by
    have hready := h.ready
    cases hready
    rfl
  obtain ⟨hready, hwaiting, hordered⟩ := h.woken (show c'.delays ≤ c'.delays from Nat.le_refl _)
  have hpassed : c.timer ≤ d.timer := Nat.le_max_left _ _
  have hbehind := Nat.le_trans h.behind hpassed
  cases waitingOwn with
  | nil =>
    exact .inl ⟨hready, hwaiting, hordered, rfl, rfl, fun hne => absurd rfl hne, hbehind⟩
  | cons first' rest' =>
    by_cases hreached : first'.wake.due + E.ahead ≤ d.timer
    · obtain ⟨htimer, hlevel⟩ := h.reaches hreached
      let d' := c'.advance first'.wake.due
      have hahead : d.timer = d'.timer + E.ahead := by rw [hlevel, htimer]
      have hsame : (fun m : Suspended τ β => decide (m.wake.due + E.ahead ≤ d.timer)) =
          fun m => decide (m.wake.due ≤ d'.timer) := by
        funext m
        rw [hahead, decide_eq_decide]
        omega
      obtain ⟨hready, hwaiting, hordered⟩ := h.woken (show c'.delays ≤ d'.delays from Nat.le_refl _)
      rw [hsame] at hready hwaiting
      refine .inr ⟨first', rest', rfl, ?_⟩
      rw [Suspended.awaken_eq (Nat.le_of_eq htimer.symm) rest']
      exact ⟨hready, hwaiting, hordered, rfl, rfl, fun _ => hahead, Nat.le_of_eq hahead.symm⟩
    · have hnot : ¬decide (first'.wake.due + E.ahead ≤ d.timer) = true :=
        fun h => hreached (of_decide_eq_true h)
      rw [List.takeWhile_cons, if_neg hnot] at hready
      rw [List.dropWhile_cons, if_neg hnot] at hwaiting
      exact .inl ⟨hready, hwaiting, hordered, rfl, rfl, fun hne => absurd rfl hne, hbehind⟩

end Of

/-- **A pool ends with what its excerpt ends with.** -/
theorem shows_run {p : Pool σ α} {q : Pool τ β} {s : σ} {t : τ} (h : E.Of p q c c')
    (hs : E.shows s t) (settled : List α) (settledOwn : List β) :
    E.shows (Routine.runFrom (Pool.run E.settle p settled) (c, s)).2.2
      (Routine.runFrom (Pool.run E.settleOwn q settledOwn) (c', t)).2.2 := by
  obtain ⟨readyOwn, waitingOwn, queueOwn⟩ := q
  obtain rfl := h.queueOwn
  have hqueue := h.queue
  generalize hsettle : E.settle = settle
  fun_induction Pool.run settle p settled c s generalizing readyOwn waitingOwn settledOwn c' t with
  | case1 settled c s r ready waiting queue d s' a hr ih =>
    subst hsettle hqueue
    rw [Pool.runFrom_done hr]
    have hready := h.ready
    cases hready with
    | aside haside hready =>
      have hturn := haside c s
      rw [hr] at hturn
      exact ih (hturn.2 t hs) settledOwn _ _ (h.leave_aside hready hturn.1) rfl
    | @matched _ r' _ readyOwn hcites hready =>
      have hturn := hcites c s c' t (h.level (List.cons_ne_nil r' readyOwn)) hs
      rw [hr] at hturn
      generalize hr' : r' c' t = progress at hturn
      cases hturn with
      | @done _ _ _ _ _ d' t' b hstill hstill' hshows =>
        rw [Pool.runFrom_done hr']
        exact ih hshows (b :: settledOwn) _ _ (h.leave hready hstill hstill') rfl
  | case2 settled c s r ready waiting queue w d s' k hr ih =>
    subst hsettle hqueue
    rw [Pool.runFrom_waiting hr]
    have hready := h.ready
    cases hready with
    | aside haside hready =>
      have hturn := haside c s
      rw [hr] at hturn
      have hk : E.Aside k := fun c s => hturn.2 c s trivial
      have hof := (h.leave_aside hready hturn.1.1).wait_aside w hk
      exact ih (hturn.1.2 t hs) settledOwn _ _ hof rfl
    | @matched _ r' _ readyOwn hcites hready =>
      have hturn := hcites c s c' t (h.level (List.cons_ne_nil r' readyOwn)) hs
      rw [hr] at hturn
      generalize hr' : r' c' t = progress at hturn
      cases hturn with
      | waiting hstill hstill' hfresh hfresh' hdue hshows hrest =>
        rw [Pool.runFrom_waiting hr']
        exact ih hshows settledOwn _ _
          (h.wait hready hstill hstill' hrest hfresh hfresh' hdue) rfl
  | case3 settled c s first rest queue ih =>
    subst hsettle hqueue
    rw [Pool.runFrom_awaken]
    rcases h.awaken with hof | ⟨first', rest', hown, hof⟩
    · exact ih _ _ hs settledOwn _ _ hof rfl
    · cases hown
      rw [Pool.runFrom_awaken]
      exact ih _ _ hs settledOwn _ _ hof rfl
  | case4 settled c s queue =>
    have hready := h.ready
    have hwaiting := h.waiting
    cases hready
    cases hwaiting
    rw [Pool.runFrom_over, Pool.runFrom_over]
    exact hs

/-- Routines that are worked on at once end with what those of the excerpt end with. -/
theorem shows_together {routines : List (Routine σ α)} {own : List (Routine τ β)}
    (h : Among E.Aside E.Cites routines own) {s : σ} {t : τ}
    (hclock : c.timer = c'.timer + E.ahead) (hs : E.shows s t) :
    E.shows ((together E.settle routines).runFrom (c, s)).2.2
      ((together E.settleOwn own).runFrom (c', t)).2.2 := by
  have hof : E.Of ⟨routines, [], []⟩ ⟨own, [], []⟩ c c' :=
    ⟨h, .nil, List.Pairwise.nil, rfl, rfl, fun _ => hclock, Nat.le_of_eq hclock.symm⟩
  exact shows_run hof hs [] []

end Excerpt

end Ensemble
