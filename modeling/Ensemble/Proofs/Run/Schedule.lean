import Ensemble.Proofs.Run.Shifts

/-!
# Rounds with a schedule

Patterns that take so many rounds, whatever comes of them, differ only in whom they ask in a round
and in what they make of the replies. A `Schedule` says both, and `Schedule.rounds` takes the rounds
it says. `Schedule.Course` tells them one after the other, by the recursion of the program, and
`arrives_rounds` says that this is what every run does. `Conducted` is what it comes to.
-/

namespace Ensemble

open Run

/-! ## Replies of some of the participants -/

theorem filterMap_of_sublist {α β : Type} {f : α → Option β} {l l' : List α} (h : l.Sublist l')
    (hnodup : l'.Nodup) (hrest : ∀ x ∈ l', x ∉ l → f x = none) :
    l'.filterMap f = l.filterMap f := by
  induction h with
  | slnil => rfl
  | @cons l l' a hsub ih =>
    obtain ⟨ha, hnodup⟩ := List.nodup_cons.mp hnodup
    have hnone : f a = none := hrest a List.mem_cons_self fun hmem => ha (hsub.subset hmem)
    rw [List.filterMap_cons, hnone]
    exact ih hnodup fun x hx => hrest x (List.mem_cons_of_mem a hx)
  | @cons_cons l l' a hsub ih =>
    obtain ⟨ha, hnodup⟩ := List.nodup_cons.mp hnodup
    have hall := ih hnodup fun x hx hxl => hrest x (List.mem_cons_of_mem a hx) fun hmem =>
      (List.mem_cons.mp hmem).elim (fun heq => ha (heq ▸ hx)) hxl
    rw [List.filterMap_cons, List.filterMap_cons, hall]

/-- Who was not called has no reply, so the replies are those of the participants called. -/
theorem replies_of_sublist {ids asked : List String} {group : List Call}
    (hasked : asked.Sublist ids) (hunique : ids.Nodup) (hgroup : ∀ c ∈ group, c.id ∈ asked) :
    replies ids group = replies asked group := by
  refine filterMap_of_sublist hasked hunique fun id _ hid => ?_
  have hnone : group.find? (·.id = id) = none := by
    refine List.find?_eq_none.mpr fun c hc heq => hid ?_
    rw [← of_decide_eq_true heq]
    exact hgroup c hc
  rw [reply?, hnone]
  rfl

theorem RunState.Gains.asked {log : List Occurrence} {calls : List Call} {r r' : RunState}
    (h : r.Gains log calls r') : r'.asked = r.asked ++ log.filterMap (·.asked?) := by
  rw [RunState.asked, h.occurrences, List.filterMap_append]
  rfl

/-- A round in which calls were planned: each was made at most once. If one was not, then calls have
been forgone. -/
structure Leg.Took (ids : List String) (calls : List Dispatch) (forgone : Prop) (l : Leg) :
    Prop where
  asked : ∀ c ∈ l.calls, c.dispatch ∈ calls
  once : (l.calls.map (·.id)).Nodup
  given : (replies ids l.calls).Perm (l.calls.filterMap (·.given?))
  everyone : ¬forgone → (l.calls.map (·.dispatch)).Perm calls

theorem Leg.Took.mono {ids : List String} {calls : List Dispatch} {forgone forgone' : Prop}
    {l : Leg} (h : l.Took ids calls forgone) (hforgone : forgone → forgone') :
    l.Took ids calls forgone' :=
  ⟨h.asked, h.once, h.given, fun hall => h.everyone fun hf => hall (hforgone hf)⟩

section

variable {ids : List String} {calls : List Dispatch} {r r' : RunState} {done : List Settled}

theorem replies_dealt (hunique : ids.Nodup) (hcalls : (calls.map (·.member.id)).Sublist ids)
    (h : Dealt calls r done r') :
    replies ids (done.filterMap (·.call?)) =
      replies (calls.map (·.member.id)) (done.filterMap (·.call?)) :=
  replies_of_sublist hcalls hunique fun c hc => List.mem_map.mpr ⟨c.dispatch, h.called c hc, rfl⟩

theorem took_of_dealt (hunique : ids.Nodup) (hcalls : (calls.map (·.member.id)).Sublist ids)
    (h : Dealt calls r done r') (close : Instant) :
    Leg.Took ids calls r'.Forgone ⟨done.filterMap (·.call?), close⟩ where
  asked := h.called
  once := h.unique (hcalls.nodup hunique)
  given := by
    rw [replies_dealt hunique hcalls h]
    exact h.replies_perm (hcalls.nodup hunique)
  everyone := h.all_made

end

/-! ## Schedules -/

/-- Whom a pattern asks in a round, given what the rounds before have left, and what the replies
make of that. -/
structure Schedule (α : Type) where
  plan : (round : Nat) → α → List Dispatch
  next : α → List (String × Message) → α

namespace Schedule

variable {α : Type} (S : Schedule α)

/-- Up to `left` rounds from `round` on. -/
def rounds (deadline : Deadline) : (left round : Nat) → α → Routine Scene α
  | 0, _, σ => pure σ
  | left + 1, round, σ => do
    if ← beginRound deadline round then
      let calls ← dispatchRound deadline (S.plan round σ)
      endRound round
      rounds deadline left (round + 1) (S.next σ (calls.filterMap (·.response?)))
    else
      return σ

/-- Every round asks some of the participants, in the order in which they were registered. -/
def Fits (ids : List String) : Prop :=
  ∀ round σ, ((S.plan round σ).map (·.member.id)).Sublist ids

/-- What rounds leave. -/
def after (ids : List String) (σ : α) (legs : List Leg) : α :=
  legs.foldl (fun σ l => S.next σ (replies ids l.calls)) σ

/-- Whom rounds ask, with what messages, in order. -/
def agenda (ids : List String) : (round : Nat) → α → List Leg → List (String × Message)
  | _, _, [] => []
  | round, σ, l :: legs => (S.plan round σ).map (·.address) ++
      agenda ids (round + 1) (S.next σ (replies ids l.calls)) legs

/-- The rounds are asked for in turn, each with what the ones before it have left. -/
theorem agenda_eq (ids : List String) (round : Nat) (σ : α) (legs : List Leg) :
    S.agenda ids round σ legs = (List.range legs.length).flatMap fun k =>
      (S.plan (round + k) (S.after ids σ (legs.take k))).map (·.address) := by
  induction legs generalizing round σ with
  | nil => rfl
  | cons l legs ih =>
    rw [agenda, ih, List.length_cons, List.range_succ_eq_map, List.flatMap_cons, List.flatMap_map]
    refine congrArg₂ (· ++ ·) rfl (congrArg (List.flatMap · _) (funext fun k => ?_))
    rw [List.take_succ_cons, after, after, List.foldl_cons, Nat.add_assoc, Nat.add_comm 1]

section

variable (ids : List String) (deadline : Deadline) (forgone : Prop)

/-- Up to `left` rounds, numbered from `round` on, with what the first of them starts from and the
instant before it, and what is left behind them. -/
inductive Course : (left round : Nat) → α → (before : Instant) → List Leg → α → Prop where
  | spent (round : Nat) (σ : α) (before : Instant) : Course 0 round σ before [] σ
  | refused {before} (left round : Nat) (σ : α) : before.stopped deadline = true → forgone →
      Course (left + 1) round σ before [] σ
  | onward {left round σ before l legs τ} : before.stopped deadline = false →
      l.Took ids (S.plan round σ) forgone →
      Course left (round + 1) (S.next σ (replies ids l.calls)) l.close legs τ →
      Course (left + 1) round σ before (l :: legs) τ

end

namespace Course

variable {S} {ids : List String} {deadline : Deadline} {forgone : Prop} {left round : Nat}
  {σ τ : α} {before : Instant} {legs : List Leg}

/-- The first round is taken if there may be one and the run may go on. -/
theorem begins_iff (h : S.Course ids deadline forgone left round σ before legs τ) :
    0 < legs.length ↔ 0 < left ∧ before.stopped deadline = false := by
  cases h with
  | spent => simp
  | refused _ _ _ hstop => simp [hstop]
  | onward hgo => simp [hgo]

/-- A round behind another one is taken if there may be one and the run may go on. -/
theorem goesOn_iff (h : S.Course ids deadline forgone left round σ before legs τ) {i : Nat}
    {l : Leg} (hl : legs[i]? = some l) :
    i + 1 < legs.length ↔ i + 1 < left ∧ l.close.stopped deadline = false := by
  induction h generalizing i with
  | spent | refused => simp at hl
  | onward _ _ hrest ih =>
    cases i with
    | zero =>
      obtain rfl : _ = l := by simpa using hl
      simpa using hrest.begins_iff
    | succ i =>
      rw [List.getElem?_cons_succ] at hl
      simpa using ih hl

/-- A run that has forgone nothing has taken all rounds. -/
theorem length_eq (h : S.Course ids deadline forgone left round σ before legs τ)
    (hforgone : ¬forgone) : legs.length = left := by
  induction h with
  | spent => rfl
  | refused _ _ _ _ h => exact absurd h hforgone
  | onward _ _ _ ih => rw [List.length_cons, ih]

theorem after_eq (h : S.Course ids deadline forgone left round σ before legs τ) :
    τ = S.after ids σ legs := by
  induction h with
  | spent | refused => rfl
  | onward _ _ _ ih => exact ih

/-- A round is taken with what the ones before it have left. -/
theorem took (h : S.Course ids deadline forgone left round σ before legs τ) {k : Nat} {l : Leg}
    (hl : legs[k]? = some l) :
    l.Took ids (S.plan (round + k) (S.after ids σ (legs.take k))) forgone := by
  induction h generalizing k with
  | spent | refused => simp at hl
  | onward _ htook _ ih =>
    cases k with
    | zero =>
      obtain rfl : _ = l := by simpa using hl
      exact htook
    | succ k =>
      rw [List.getElem?_cons_succ] at hl
      rw [← Nat.add_assoc, Nat.add_right_comm]
      exact ih hl

end Course

/-! ## The run -/

variable {S} {deadline : Deadline} {ids : List String}

/-- What a run knows when a round is over. -/
theorem arrives_rounds (hfits : S.Fits ids) (hunique : ids.Nodup) (left : Nat)
    {groups : List (List Call)} (σ : α) (c : Clock) (s : Scene)
    (htold : Chronicle ids groups s.2) :
    (S.rounds deadline left groups.length σ c s).Arrives Untouched
      (Regime.history deadline).toGuarantee (fun _ s' τ => ∃ legs, Followed ids groups legs s'.2 ∧
        S.Course ids deadline s'.2.Forgone left groups.length σ (instant c s.1) legs τ ∧
        s'.2.asked = s.2.asked ++ S.agenda ids groups.length σ legs) c s := by
  induction left generalizing groups σ c s with
  | zero =>
    exact ⟨List.prefix_refl s.2.journal.toList, [], .nil htold, .spent _ _ _,
      (List.append_nil _).symm⟩
  | succ left ih =>
    refine arrives_begin (fun hgo r hbegun _ => ?_) fun hstop r hrefused _ => ?_
    · refine (arrives_dispatchRound c (s.1, r)).andThen ?_
      rintro c' s' _ ⟨done, rfl, hdealt, hasked⟩
      obtain ⟨log, hlog, hgain⟩ := hdealt.log
      let l : Leg := ⟨done.filterMap (·.call?), instant c' s'.1⟩
      let s'' := noted (.roundEnded groups.length) c' s'
      have hended : s'.2.Gains [.roundEnded groups.length] [] s''.2 := gains_noted rfl c' s'
      have hnoted : (Regime.history deadline).step c' s' c' s'' :=
        (Regime.history deadline).note (Entry.permitted_of_neither rfl rfl)
      have htook : l.Took ids (S.plan groups.length σ) s'.2.Forgone :=
        took_of_dealt hunique (hfits _ _) hdealt (instant c' s'.1)
      have hreplies : (inOrder done).filterMap (·.response?) = replies ids l.calls := by
        rw [hdealt.replies_eq ((hfits _ _).nodup hunique)]
        exact (replies_dealt hunique (hfits _ _) hdealt).symm
      have hbehind : Chronicle ids (groups ++ [l.calls]) s''.2 :=
        ((htold.begun hbegun).calls hlog.calls hgain).ended hended
      have hasked' : s''.2.asked = s.2.asked ++ (S.plan groups.length σ).map (·.address) := by
        have hbefore : r.asked = s.2.asked := by
          rw [hbegun.asked]
          exact List.append_nil _
        rw [hended.asked, hasked, hbefore]
        exact List.append_nil _
      rw [hreplies]
      refine Progress.Arrives.extend (s := s'') ?_ hnoted
      have hrest := ih (S.next σ (replies ids l.calls)) c' s'' hbehind
      rw [List.length_append, List.length_singleton] at hrest
      refine hrest.grown.mono ?_
      rintro _ s₁ τ ⟨⟨legs, hfollowed, hcourse, hagenda⟩, hgrown⟩
      have hmark : l.mark groups.length ∈ s₁.2.journal.toList :=
        hgrown.subset (Leg.mark_mem _ _ c' s')
      have htook' := htook.mono fun hf => (hf.gains hended).grows hgrown
      refine ⟨l :: legs, hfollowed.cons hmark, .onward hgo htook' hcourse, ?_⟩
      rw [hagenda, hasked', List.append_assoc]
      rfl
    · have hforgone : r.Forgone := hrefused.forgone List.mem_cons_self rfl
      refine ⟨List.prefix_refl r.journal.toList, [], .nil (htold.refused hrefused),
        .refused _ _ _ hstop hforgone, ?_⟩
      rw [hrefused.asked]
      rfl

end Schedule

/-! ## What it comes to -/

/-- What the rounds of a run, with their ends in its journal, say of participants with the ids given
that are asked in up to `maxRounds` rounds, the `k`-th of them with the calls of `plan k`; the run
began at an instant, and `coda` is what was asked behind the rounds. -/
structure Conducted (deadline : Deadline) (ids : List String) (plan : Nat → List Dispatch)
    (maxRounds : Nat) (start : Instant) (coda : List (String × Message)) (journal : List Entry)
    (legs : List Leg) : Prop where
  marks : ∀ k (l : Leg), legs[k]? = some l → l.mark k ∈ journal
  /-- Everyone who is planned for is called or skipped, in order. -/
  asked : (journal.map (·.occurrence)).filterMap (·.asked?) =
    ((List.range legs.length).flatMap fun k => (plan k).map (·.address)) ++ coda
  called : ∀ k (l : Leg), legs[k]? = some l → ∀ c ∈ l.calls, c.dispatch ∈ plan k
  once : ∀ l ∈ legs, (l.calls.map (·.id)).Nodup
  /-- The replies of a round are those of its calls, in the order of registration. -/
  given : ∀ l ∈ legs, (replies ids l.calls).Perm (l.calls.filterMap (·.given?))
  begins : 0 < legs.length ↔ 0 < maxRounds ∧ start.stopped deadline = false
  /-- A round is followed by another one unless it was the last that may be, or the run had to stop
  at its end. -/
  goesOn : ∀ k (l : Leg), legs[k]? = some l →
    (k + 1 < legs.length ↔ k + 1 < maxRounds ∧ l.close.stopped deadline = false)
  /-- If the run never had to stop, it has taken all rounds and made all calls. -/
  unstopped : (∀ e ∈ journal, e.stopped deadline = false) → legs.length = maxRounds ∧
    ∀ k (l : Leg), legs[k]? = some l → (l.calls.map (·.dispatch)).Perm (plan k)

theorem Schedule.Course.conducted {α : Type} {S : Schedule α} {deadline : Deadline}
    {ids : List String} {maxRounds : Nat} {σ τ : α} {before : Instant} {legs : List Leg}
    {coda : List (String × Message)} {r r' : RunState}
    (h : S.Course ids deadline r.Forgone maxRounds 0 σ before legs τ)
    (hfollowed : Followed ids [] legs r) (hlater : r.journal.toList <+: r'.journal.toList)
    (hpermitted : ∀ e ∈ r'.journal.toList, e.Permitted deadline)
    (hasked : r'.asked = S.agenda ids 0 σ legs ++ coda) :
    Conducted deadline ids (fun k => S.plan k (S.after ids σ (legs.take k))) maxRounds before coda
      r'.journal.toList legs where
  marks k l hl := by
    have hmark := hfollowed.marks k l hl
    rw [List.length_nil, Nat.zero_add] at hmark
    exact hlater.subset hmark
  asked := by
    have hagenda := S.agenda_eq ids 0 σ legs
    simp only [Nat.zero_add] at hagenda
    rw [← hagenda]
    exact hasked
  called k l hl := by
    have htook := h.took hl
    rw [Nat.zero_add] at htook
    exact htook.asked
  once l hl := by
    obtain ⟨k, hk⟩ := List.getElem?_of_mem hl
    exact (h.took hk).once
  given l hl := by
    obtain ⟨k, hk⟩ := List.getElem?_of_mem hl
    exact (h.took hk).given
  begins := h.begins_iff
  goesOn k l hl := h.goesOn_iff hl
  unstopped hstopped := by
    have hforgone : ¬r.Forgone := fun hf =>
      r'.not_forgone hpermitted hstopped (hf.grows hlater)
    refine ⟨h.length_eq hforgone, fun k l hl => ?_⟩
    have htook := h.took hl
    rw [Nat.zero_add] at htook
    exact htook.everyone hforgone

end Ensemble
