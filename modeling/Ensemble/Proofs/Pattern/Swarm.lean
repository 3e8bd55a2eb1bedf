import Ensemble.Proofs.Pattern.Blackboard
import Ensemble.Proofs.Stream.Rounds

/-!
# What a swarm does

In each round of a swarm everyone is asked once, with the replies of the round before and with the
blackboard as it is then; the swarm ends when a round has converged. `Course` tells the rounds one
after the other, by the recursion of the program, with the `Stage` that each of them starts from;
`arrives_rounds` says that this is what every run does. `swarm_runs_to_convergence` tells what it
comes to, and `blackboard_loses_nothing` what becomes of the blackboard.
-/

namespace Ensemble

open Run

namespace Swarm

/-- The successful replies of a round, in the order in which the participants were registered. -/
def responses (ids : List String) (l : Leg) : List Message := (replies ids l.calls).map (·.2)

/-- A round has converged, if that is asked for. -/
def Converges (converged : Option (List Message → Bool)) (ids : List String) (l : Leg) : Bool :=
  converged.any (· (responses ids l))

/-- What a round starts from: the content that is sent out, the blackboard, and the replies of the
last round that took place. -/
structure Stage where
  content : String
  board : Metadata
  last : List Message

/-- What is left behind a round. -/
def Stage.next (ids : List String) (round : Nat) (l : Leg) (σ : Stage) : Stage where
  content := joinContents (responses ids l)
  board := written round (replies ids l.calls) σ.board
  last := if l.calls.isEmpty then σ.last else responses ids l

/-- A round in which the members were asked, each of them at most once. If one was not, then calls
have been forgone. -/
structure Took (members : List Member) (forgone : Prop) (round : Nat) (σ : Stage) (l : Leg) :
    Prop where
  asked : ∀ c ∈ l.calls, ∃ m ∈ members, c.dispatch = request σ.content round σ.board m
  once : (l.calls.map (·.id)).Nodup
  given : (replies (members.map (·.id)) l.calls).Perm (l.calls.filterMap (·.given?))
  everyone : ¬forgone → (l.calls.map (·.id)).Perm (members.map (·.id))

theorem Took.mono {members : List Member} {forgone forgone' : Prop} {round : Nat} {σ : Stage}
    {l : Leg} (h : Took members forgone round σ l) (hforgone : forgone → forgone') :
    Took members forgone' round σ l :=
  ⟨h.asked, h.once, h.given, fun hall => h.everyone fun hf => hall (hforgone hf)⟩

theorem Took.calls_ne_nil {members : List Member} {forgone : Prop} {round : Nat} {σ : Stage}
    {l : Leg} (h : Took members forgone round σ l) (hmembers : members ≠ [])
    (hforgone : ¬forgone) : l.calls ≠ [] := by
  intro hidle
  have hnone := h.everyone hforgone
  rw [hidle] at hnone
  exact hmembers (List.map_eq_nil_iff.mp hnone.nil_eq.symm)

section

variable (converged : Option (List Message → Bool)) (members : List Member) (deadline : Deadline)
  (forgone : Prop)

/-- There is no round behind this one, whatever the time. -/
def Quits (l : Leg) : Prop :=
  l.calls = [] ∨ Converges converged (members.map (·.id)) l = true

/-- Up to `left` rounds, numbered from `round` on, with what the first of them starts from and the
instant before it, and what is left behind them. -/
inductive Course : (left round : Nat) → Stage → (before : Instant) → List Leg → Stage → Prop where
  | spent (round : Nat) (σ : Stage) (before : Instant) : Course 0 round σ before [] σ
  | refused {before} (left round : Nat) (σ : Stage) : before.stopped deadline = true → forgone →
      Course (left + 1) round σ before [] σ
  | last {round σ before l} (left : Nat) : before.stopped deadline = false →
      Took members forgone round σ l → Quits converged members l →
      Course (left + 1) round σ before [l] (σ.next (members.map (·.id)) round l)
  | onward {left round σ before l legs τ} : before.stopped deadline = false →
      Took members forgone round σ l → ¬Quits converged members l →
      Course left (round + 1) (σ.next (members.map (·.id)) round l) l.close legs τ →
      Course (left + 1) round σ before (l :: legs) τ

end

namespace Course

variable {converged : Option (List Message → Bool)} {members : List Member} {deadline : Deadline}
  {forgone : Prop} {left round : Nat} {σ τ : Stage} {before : Instant} {legs : List Leg}

/-- The first round is taken if there may be one and the run may go on. -/
theorem begins_iff (h : Course converged members deadline forgone left round σ before legs τ) :
    0 < legs.length ↔ 0 < left ∧ before.stopped deadline = false := by
  cases h with
  | spent => simp
  | refused _ _ _ hstop => simp [hstop]
  | last _ hgo => simp [hgo]
  | onward hgo => simp [hgo]

/-- A round behind another one is taken if there may be one, the run may go on, and the other one
has neither been idle nor converged. -/
theorem goesOn_iff (h : Course converged members deadline forgone left round σ before legs τ)
    {i : Nat} {l : Leg} (hl : legs[i]? = some l) :
    i + 1 < legs.length ↔
      i + 1 < left ∧ l.close.stopped deadline = false ∧ ¬Quits converged members l := by
  induction h generalizing i with
  | spent | refused => simp at hl
  | last left _ _ hquits =>
    cases i with
    | zero =>
      obtain rfl : _ = l := by simpa using hl
      simp [hquits]
    | succ i => simp at hl
  | onward _ _ hquits hrest ih =>
    cases i with
    | zero =>
      obtain rfl : _ = l := by simpa using hl
      simpa [hquits] using hrest.begins_iff
    | succ i =>
      rw [List.getElem?_cons_succ] at hl
      simpa using ih hl

/-- A run that has forgone nothing has taken the rounds up to the first one that has converged, or
all of them. -/
theorem length_eq (h : Course converged members deadline forgone left round σ before legs τ)
    (hmembers : members ≠ []) (hforgone : ¬forgone) :
    legs.length = min left
      (((legs.findIdx? (Converges converged (members.map (·.id)))).map (· + 1)).getD left) := by
  induction h with
  | spent => simp
  | refused _ _ _ _ h => exact absurd h hforgone
  | last left _ htook hquits =>
    have hconverges := hquits.resolve_left (htook.calls_ne_nil hmembers hforgone)
    simp [hconverges]
  | @onward left round σ before l legs τ _ _ hquits _ ih =>
    have hconverges : Converges converged (members.map (·.id)) l = false :=
      eq_false_of_ne_true fun h => hquits (.inr h)
    rw [List.findIdx?_cons, hconverges, List.length_cons, ih]
    cases legs.findIdx? (Converges converged (members.map (·.id))) with
    | none => simp
    | some i => simp [Nat.add_min_add_right]

/-- The replies that are left are those of the last round in which anybody was called. -/
theorem last_eq (h : Course converged members deadline forgone left round σ before legs τ) :
    τ.last = ((legs.filter (!·.calls.isEmpty)).getLast?.map
      (responses (members.map (·.id)))).getD σ.last := by
  induction h with
  | spent | refused => rfl
  | @last round σ before l left _ _ _ =>
    cases hidle : l.calls.isEmpty <;> simp [Stage.next, hidle]
  | @onward left round σ before l legs τ _ _ hquits _ ih =>
    have hcalled : l.calls.isEmpty = false :=
      eq_false_of_ne_true fun h => hquits (.inl (List.isEmpty_iff.mp h))
    rw [ih, List.filter_cons_of_pos (by simp [hcalled]), List.getLast?_cons]
    cases (legs.filter (!·.calls.isEmpty)).getLast? <;> simp [Stage.next, hcalled]

theorem took_of_mem (h : Course converged members deadline forgone left round σ before legs τ)
    {l : Leg} (hl : l ∈ legs) : ∃ round' σ', Took members forgone round' σ' l := by
  induction h with
  | spent | refused => cases hl
  | @last round σ before l' left _ htook _ =>
    rw [List.mem_singleton.mp hl]
    exact ⟨round, σ, htook⟩
  | @onward left round σ before l' legs τ _ htook _ _ ih =>
    rcases List.mem_cons.mp hl with rfl | hl
    · exact ⟨round, σ, htook⟩
    · exact ih hl

/-- A round is taken with what the ones before it have left: the replies of the one before, or the
content at the start, and everything on the blackboard. -/
theorem took {groups : List (List Call)} {input : String}
    (h : Course converged members deadline forgone left round σ before legs τ)
    (hround : round = groups.length) (hboard : Displays input groups σ.board)
    {earlier later : List Leg} {l : Leg} (hlegs : legs = earlier ++ l :: later) :
    ∃ σ', Took members forgone (round + earlier.length) σ' l ∧
      σ'.content = ((earlier.getLast?.map fun x =>
        joinContents (responses (members.map (·.id)) x)).getD σ.content) ∧
      Displays input (groups ++ earlier.map (·.calls)) σ'.board := by
  induction h generalizing groups earlier with
  | spent | refused => simp at hlegs
  | @last round σ before l' left _ htook _ =>
    cases earlier with
    | nil =>
      obtain ⟨rfl, -⟩ := List.cons.inj hlegs
      exact ⟨σ, htook, rfl, by rwa [List.map_nil, List.append_nil]⟩
    | cons x earlier => simp at hlegs
  | @onward left round σ before l' legs τ _ htook _ _ ih =>
    cases earlier with
    | nil =>
      obtain ⟨rfl, -⟩ := List.cons.inj hlegs
      exact ⟨σ, htook, rfl, by rwa [List.map_nil, List.append_nil]⟩
    | cons x earlier =>
      obtain ⟨rfl, hrest⟩ := List.cons.inj hlegs
      subst hround
      have hboard' := hboard.written htook.once htook.given
      obtain ⟨σ', htook', hcontent, hboard''⟩ :=
        ih (by rw [List.length_append, List.length_singleton]) hboard' hrest
      refine ⟨σ', ?_, ?_, ?_⟩
      · rw [List.length_cons, Nat.add_comm earlier.length, ← Nat.add_assoc]
        exact htook'
      · rw [hcontent, List.getLast?_cons]
        cases earlier.getLast? <;> rfl
      · rwa [List.append_assoc, List.singleton_append] at hboard''

/-- Everything is on the blackboard in the end. -/
theorem displays {groups : List (List Call)} {input : String}
    (h : Course converged members deadline forgone left round σ before legs τ)
    (hround : round = groups.length) (hboard : Displays input groups σ.board) :
    Displays input (groups ++ legs.map (·.calls)) τ.board := by
  induction h generalizing groups with
  | spent | refused => rwa [List.map_nil, List.append_nil]
  | last _ _ htook _ =>
    subst hround
    exact hboard.written htook.once htook.given
  | onward _ htook _ _ ih =>
    subst hround
    have hboard' := ih (by rw [List.length_append, List.length_singleton])
      (hboard.written htook.once htook.given)
    rwa [List.append_assoc, List.singleton_append] at hboard'

end Course

/-! ## The run -/

variable {deadline : Deadline} {members : List Member}

/-- Everyone is asked, in the order of registration. -/
theorem ids_request (members : List Member) (content : String) (round : Nat) (board : Metadata) :
    (members.map (request content round board)).map (·.member.id) = members.map (·.id) := by
  rw [List.map_map]
  rfl

theorem took_of_dealt {round : Nat} {σ : Stage} {r r' : RunState} {done : List Settled}
    {close : Instant} (hunique : (members.map (·.id)).Nodup)
    (h : Dealt (members.map (request σ.content round σ.board)) r done r') :
    Took members r'.Forgone round σ ⟨done.filterMap (·.call?), close⟩ := by
  have hids := ids_request members σ.content round σ.board
  have hplan := hids ▸ hunique
  refine ⟨?_, h.unique hplan, hids ▸ h.replies_perm hplan, fun hall => hids ▸ h.all_called hall⟩
  intro c hc
  obtain ⟨m, hm, hdispatch⟩ := List.mem_map.mp (h.called c hc)
  exact ⟨m, hm, hdispatch.symm⟩

/-- What a run knows when the calls of a round are over. -/
structure Asked (members : List Member) (groups : List (List Call)) (σ : Stage) (l : Leg)
    (r : RunState) (calls : List Settled) : Prop where
  took : Took members r.Forgone groups.length σ l
  told : Midway (members.map (·.id)) groups l.calls r
  board : r.blackboard = σ.board
  given : calls.filterMap (·.response?) = replies (members.map (·.id)) l.calls
  idle : calls.all (·.outcome.isSkipped) = l.calls.isEmpty

/-- The members are asked. -/
theorem arrives_ask {groups : List (List Call)} {σ : Stage} {c : Clock} {s : Scene}
    (hunique : (members.map (·.id)).Nodup)
    (htold : Midway (members.map (·.id)) groups [] s.2) (hboard : s.2.blackboard = σ.board) :
    (dispatchRound deadline
      (members.map (request σ.content groups.length s.2.blackboard)) c s).Arrives Untouched
        (Regime.history deadline).toGuarantee (fun c' s' calls =>
          ∃ l : Leg, l.close = instant c' s'.1 ∧ Asked members groups σ l s'.2 calls) c s := by
  rw [hboard]
  have hplan : ∀ d ∈ members.map (request σ.content groups.length σ.board),
      d.member.Within (.history deadline) := fun d _ => d.member.within_history deadline
  have hround := meets_dispatchRound s.2 hplan c s rfl
  refine Progress.Arrives.mono hround ?_
  rintro c' s' _ ⟨done, rfl, hdealt⟩
  obtain ⟨log, hlog, hgain⟩ := hdealt.log
  refine ⟨⟨done.filterMap (·.call?), instant c' s'.1⟩, rfl, ?_, ?_, ?_, ?_, ?_⟩
  · exact took_of_dealt hunique hdealt
  · exact htold.calls hlog.calls hgain
  · exact hdealt.blackboard.trans hboard
  · rw [hdealt.replies_eq (by rwa [ids_request]), ids_request]
  · rw [Bool.eq_iff_iff, List.isEmpty_iff, ← Settled.all_isSkipped]
    exact iff_of_eq (congrArg (· = true) (List.mergeSort_perm done _).all_eq)

/-- The scene behind a round whose replies have been written on the blackboard. -/
def closed (round : Nat) (given : List (String × Message)) (c : Clock) (s : Scene) : Scene :=
  noted (.roundEnded round) c
    (s.1, { s.2 with blackboard := written round given s.2.blackboard })

theorem arrives_close {α : Type} {round : Nat} {given : List (String × Message)}
    {k : Routine Scene α} {Q : Clock → Scene → α → Prop} {c : Clock} {s : Scene}
    (h : (k c (closed round given c s)).Arrives Untouched (Regime.history deadline).toGuarantee Q c
      (closed round given c s)) :
    ((postReplies round given >>= fun _ => endRound round >>= fun _ => k) c s).Arrives Untouched
      (Regime.history deadline).toGuarantee Q c s := by
  simp only [Routine.bind_apply, postReplies_eq, Progress.andThen]
  let K := Regime.history deadline
  let s₁ : Scene := (s.1, { s.2 with blackboard := written round given s.2.blackboard })
  have hposted : K.step c s c s₁ := K.gather rfl
  have hended : K.step c s₁ c (closed round given c s) :=
    K.note (Entry.permitted_of_neither rfl rfl)
  exact h.extend (K.trans hposted hended)

/-- What a run knows behind a round. -/
structure Behind (members : List Member) (groups : List (List Call)) (σ : Stage) (l : Leg)
    (r : RunState) : Prop where
  took : Took members r.Forgone groups.length σ l
  told : Chronicle (members.map (·.id)) (groups ++ [l.calls]) r
  board : r.blackboard = (σ.next (members.map (·.id)) groups.length l).board
  mark : l.mark groups.length ∈ r.journal.toList

theorem Asked.closed {groups : List (List Call)} {σ : Stage} {l : Leg} {calls : List Settled}
    {c : Clock} {s : Scene} (h : Asked members groups σ l s.2 calls)
    (hclose : l.close = instant c s.1) :
    Behind members groups σ l
      (closed groups.length (replies (members.map (·.id)) l.calls) c s).2 where
  took := h.took.mono fun h => h.grows (by simp [Swarm.closed, noted])
  told := (h.told.posted _).ended (gains_noted rfl c (s.1, _))
  board := congrArg (written groups.length (replies (members.map Member.id) l.calls)) h.board
  mark := by simp [Swarm.closed, noted, Leg.mark, hclose, entry, instant]

section

variable {converged : Option (List Message → Bool)} {left round : Nat} {σ : Stage} {l : Leg}

/-- How a run goes on behind a round: `last` are the replies of the round before it. -/
def goOn (converged : Option (List Message → Bool)) (members : List Member)
    (deadline : Deadline) (left round : Nat) (last : List Message) (l : Leg) :
    Routine Scene (List Message) :=
  if l.calls.isEmpty then pure last
  else if Converges converged (members.map (·.id)) l then pure (responses (members.map (·.id)) l)
  else rounds converged members deadline left (round + 1)
    (joinContents (responses (members.map (·.id)) l)) (responses (members.map (·.id)) l)

theorem goOn_of_quits (h : Quits converged members l) :
    goOn converged members deadline left round σ.last l =
      pure (σ.next (members.map (·.id)) round l).last := by
  unfold goOn
  by_cases hidle : l.calls.isEmpty = true
  · simp [hidle, Stage.next]
  · have hconverges := h.resolve_left fun h => hidle (List.isEmpty_iff.mpr h)
    simp [hidle, hconverges, Stage.next]

theorem goOn_of_not_quits (h : ¬Quits converged members l) :
    goOn converged members deadline left round σ.last l =
      rounds converged members deadline left (round + 1)
        (σ.next (members.map (·.id)) round l).content
        (σ.next (members.map (·.id)) round l).last := by
  have hidle : ¬l.calls.isEmpty = true := fun hidle => h (.inl (List.isEmpty_iff.mp hidle))
  have hconverges : ¬Converges converged (members.map (·.id)) l = true :=
    fun hconverges => h (.inr hconverges)
  rw [goOn, if_neg hidle, if_neg hconverges]
  simp [Stage.next, hidle]

end

/-- A run's rounds. -/
theorem arrives_rounds (deadline : Deadline) (converged : Option (List Message → Bool))
    (hunique : (members.map (·.id)).Nodup) (left : Nat) {groups : List (List Call)} (σ : Stage)
    (c : Clock) (s : Scene) (htold : Chronicle (members.map (·.id)) groups s.2)
    (hboard : s.2.blackboard = σ.board) :
    (rounds converged members deadline left groups.length σ.content σ.last c s).Arrives Untouched
      (Regime.history deadline).toGuarantee
      (fun _ s' last => ∃ legs τ, Followed (members.map (·.id)) groups legs s'.2 ∧
        Course converged members deadline s'.2.Forgone left groups.length σ (instant c s.1) legs τ ∧
        s'.2.blackboard = τ.board ∧ last = τ.last) c s := by
  induction left generalizing groups σ c s with
  | zero =>
    exact ⟨List.prefix_refl s.2.journal.toList, [], σ, .nil htold, .spent _ _ _, hboard, rfl⟩
  | succ left ih =>
    -- the stage of a round is all that the loop carries, and the blackboard of the books is its own
    refine arrives_begin (fun hgo r hbegun hboard' => ?_) fun hstop r hrefused hboard' => ?_
    · refine (arrives_ask hunique (htold.begun hbegun) (hboard'.trans hboard)).andThen ?_
      rintro c' s' calls ⟨l, hclose, hasked⟩
      rw [hasked.given, hasked.idle]
      refine arrives_close (k := goOn converged members deadline left groups.length σ.last l) ?_
      let s'' := closed groups.length (replies (members.map (·.id)) l.calls) c' s'
      have hbehind : Behind members groups σ l s''.2 := hasked.closed hclose
      by_cases hquits : Quits converged members l
      · rw [goOn_of_quits hquits]
        refine ⟨List.prefix_refl s''.2.journal.toList, [l], σ.next _ groups.length l, ?_, ?_,
          hbehind.board, rfl⟩
        · exact Followed.cons (.nil hbehind.told) hbehind.mark
        · exact .last left hgo hbehind.took hquits
      · rw [goOn_of_not_quits hquits]
        have hrest := ih (σ.next _ groups.length l) c' s'' hbehind.told hbehind.board
        rw [List.length_append, List.length_singleton,
          show instant c' s''.1 = l.close from hclose.symm] at hrest
        refine hrest.grown.mono ?_
        rintro _ s₁ last ⟨⟨legs, τ, hfollowed, hcourse, hτ⟩, hgrown⟩
        have htook := hbehind.took.mono fun hf => hf.grows hgrown
        exact ⟨l :: legs, τ, hfollowed.cons (hgrown.subset hbehind.mark),
          .onward hgo htook hquits hcourse, hτ⟩
    · have hforgone : r.Forgone := hrefused.forgone List.mem_cons_self rfl
      exact ⟨List.prefix_refl r.journal.toList, [], σ, .nil (htold.refused hrefused),
        .refused _ _ _ hstop hforgone, hboard'.trans hboard, rfl⟩

/-- What a run starts from. -/
def start (input : String) : Stage := ⟨input, opening input, []⟩

theorem arrives_run (deadline : Deadline) (options : SwarmOptions) (maxRounds : Nat)
    (hunique : (members.map (·.id)).Nodup) (input : String) (c : Clock) (m : Memory) :
    (run options maxRounds members deadline input c
      (m, .initial (members.map (·.id)))).Arrives Untouched (Regime.history deadline).toGuarantee
      (fun _ s output => ∃ legs τ, Followed (members.map (·.id)) [] legs s.2 ∧
        Course options.converged members deadline s.2.Forgone maxRounds 0 (start input)
          (instant c m) legs τ ∧
        s.2.blackboard = τ.board ∧ output = joinContents τ.last) c
      (m, .initial (members.map (·.id))) := by
  let ids := members.map (·.id)
  let s : Scene := (m, { RunState.initial ids with blackboard := opening input })
  have hposted : (Regime.history deadline).step c (m, .initial ids) c s :=
    (Regime.history deadline).gather rfl
  have hrounds := arrives_rounds deadline options.converged hunique maxRounds
    (start input) c s ((chronicle_initial ids).posted _) rfl
  refine Progress.Arrives.extend (s := s) (hrounds.andThen ?_) hposted
  rintro c' s' _ ⟨legs, τ, hfollowed, hcourse, hboard, rfl⟩
  exact ⟨List.prefix_refl s'.2.journal.toList, legs, τ, hfollowed, hcourse, hboard, rfl⟩

/-! ## What it comes to -/

/-- What the rounds of a run, with their ends in its journal, say of a swarm of participants with
the ids given, which began at an instant and came to an output. -/
structure Recounts (converged : Option (List Message → Bool)) (deadline : Deadline)
    (ids : List String) (maxRounds : Nat) (input : String) (start : Instant)
    (journal : List Entry) (legs : List Leg) (output : String) : Prop where
  marks : ∀ i (l : Leg), legs[i]? = some l → l.mark i ∈ journal
  once : ∀ l ∈ legs, (l.calls.map (·.id)).Nodup
  /-- The replies of a round are those of its calls, in the order of registration. -/
  given : ∀ l ∈ legs, (replies ids l.calls).Perm (l.calls.filterMap (·.given?))
  /-- Everyone who is called in a round gets the replies of the round before, or the input. -/
  handed : ∀ before l after, legs = before ++ l :: after → ∀ c ∈ l.calls,
    c.dispatch.message.content =
      before.getLast?.elim input fun l' => joinContents (responses ids l')
  begins : 0 < legs.length ↔ 0 < maxRounds ∧ start.stopped deadline = false
  /-- A round is followed by another one unless it was the last that may be, the run had to stop at
  its end, nobody was called in it, or it has converged. -/
  goesOn : ∀ i l, legs[i]? = some l → (i + 1 < legs.length ↔ i + 1 < maxRounds ∧
    l.close.stopped deadline = false ∧ l.calls ≠ [] ∧ Converges converged ids l = false)
  /-- If the run never had to stop, it has called everyone in each round, up to the first round that
  has converged. -/
  unstopped : (∀ e ∈ journal, e.stopped deadline = false) →
    (∀ l ∈ legs, (l.calls.map (·.id)).Perm ids) ∧ legs.length =
      min maxRounds (((legs.findIdx? (Converges converged ids)).map (1 + ·)).getD maxRounds)
  output : output = (legs.filter (!·.calls.isEmpty)).getLast?.elim "" fun l =>
    joinContents (responses ids l)

theorem Course.recounts {converged : Option (List Message → Bool)} {maxRounds : Nat}
    {input : String} {before : Instant} {legs : List Leg} {τ : Stage} {r : RunState}
    (h : Course converged members deadline r.Forgone maxRounds 0 (start input) before legs τ)
    (hmembers : members ≠ []) (hfollowed : Followed (members.map (·.id)) [] legs r)
    (hpermitted : ∀ e ∈ r.journal.toList, e.Permitted deadline) :
    Recounts converged deadline (members.map (·.id)) maxRounds input before r.journal.toList legs
      (joinContents τ.last) where
  marks i l hl := by simpa using hfollowed.marks i l hl
  once l hl := by
    obtain ⟨round, σ, htook⟩ := h.took_of_mem hl
    exact htook.once
  given l hl := by
    obtain ⟨round, σ, htook⟩ := h.took_of_mem hl
    exact htook.given
  handed earlier l later hlegs c hc := by
    obtain ⟨σ, htook, hcontent, -⟩ := h.took rfl (displays_opening input) hlegs
    obtain ⟨m, -, hdispatch⟩ := htook.asked c hc
    have hasked : c.dispatch.message.content = σ.content := by rw [hdispatch]; rfl
    rw [hasked, hcontent]
    cases earlier.getLast? <;> rfl
  begins := h.begins_iff
  goesOn i l hl := by
    rw [h.goesOn_iff hl, Quits, not_or, Bool.not_eq_true]
  unstopped hstopped := by
    have hforgone : ¬r.Forgone := r.not_forgone hpermitted hstopped
    constructor
    · intro l hl
      obtain ⟨round, σ, htook⟩ := h.took_of_mem hl
      exact htook.everyone hforgone
    · simpa only [Nat.add_comm 1] using h.length_eq hmembers hforgone
  output := by
    rw [h.last_eq]
    cases (legs.filter (!·.calls.isEmpty)).getLast? <;> rfl

end Swarm

theorem Options.swarm_of_kind {options : Options} (h : options.kind = .swarm) :
    ∃ p, options.pattern = .swarm p := by
  obtain ⟨pattern, maxRounds, timeout⟩ := options
  cases pattern with
  | swarm p => exact ⟨p, rfl⟩
  | _ => cases h

namespace Orchestration

open Swarm

variable {members : List Member} {options : Options} {o : Orchestration} {reader : Reader}

/-- A run of a swarm, read to its end. -/
theorem swarm_reading {p : SwarmOptions} (h : build members options = .ok o)
    (hp : options.pattern = .swarm p) (stamp : RunStamp) (hreader : reader.take = none)
    (input : String) (w : World) :
    ∃ result legs τ, (o.reading stamp reader input w).Ends result ∧
      Followed o.ids [] legs (o.reading stamp reader input w).last.state ∧
      Course p.converged o.members (.after w.clock.now o.timeout)
        (o.reading stamp reader input w).last.state.Forgone options.maxRounds.toNat 0 (start input)
        (instant w.clock w.memory) legs τ ∧
      result.blackboard = τ.board ∧ result.output = joinContents τ.last := by
  obtain ⟨ho, rfl⟩ := accepted_of_build h
  have hstrategy : o.strategy = .swarm p options.maxRounds.toNat :=
    strategy_eq_of_build h (by rw [Strategy.ofOptions, hp])
  have hrun := arrives_run (.after w.clock.now o.timeout) p options.maxRounds.toNat
    ho.unique input w.clock w.memory
  obtain ⟨result, m, hends, legs, τ, hfollowed, hcourse, hboard, houtput⟩ :=
    reading_ends o stamp hreader input w (by rw [hstrategy]; exact hrun)
  exact ⟨result, legs, τ, hends, hfollowed, hcourse, hends.blackboard.trans hboard, houtput⟩

/-- **A swarm works up to the first round that has converged.** Read to its end, a run of a swarm
shows its rounds. In the first one everyone who is called gets the input, and in each other one the
successful replies of the round before, in the order in which the participants were registered. A
round is followed by another one if there may be one, the run may go on, and the round was neither
idle nor has it converged; so a run that never had to stop has called everyone in each round up to
the first that has converged, or in all of them. The output is made of the replies of the last round
in which anybody was called. -/
theorem swarm_runs_to_convergence {p : SwarmOptions} (h : build members options = .ok o)
    (hp : options.pattern = .swarm p) (stamp : RunStamp) (hreader : reader.take = none)
    (input : String) (w : World) :
    ∃ result announced legs,
      (o.stream stamp reader input w).2 = announced ++ [.complete result] ∧
      (reader = {} → (o.execute stamp input w).2 = result) ∧
      result.rounds = legs.length ∧
      Shown announced result.messages (legs.map (·.calls)) ∧
      Recounts p.converged (.after w.clock.now o.timeout) (members.map (·.id))
        options.maxRounds.toNat input (instant w.clock w.memory)
        (o.reading stamp reader input w).last.state.journal.toList legs result.output := by
  obtain ⟨result, legs, τ, hends, hfollowed, hcourse, -, houtput⟩ :=
    swarm_reading h hp stamp hreader input w
  obtain ⟨ho, rfl⟩ := accepted_of_build h
  obtain ⟨hstream, hexecute, hrounds, hshown⟩ := shows_rounds hends hfollowed
  refine ⟨result, _, legs, hstream, hexecute, hrounds, hshown, ?_⟩
  rw [houtput]
  exact hcourse.recounts (nonempty_of_build h) hfollowed
    (reading_permitted ho stamp hends.concluded)

/-- Two who answer at different times, the second one not at its first call; they have converged
when both have answered. -/
def choir : Except Error Orchestration :=
  ofParticipants
    [.simple ⟨"slow", "", ""⟩ fun _ m => { delay := 5, outcome := .ok m },
      .simple ⟨"shy", "", ""⟩ fun n m => { outcome := if n = 0 then .error "er" else .ok m }]
    { pattern := .swarm ⟨some fun replies => replies.length == 2⟩ }

/-- They have up to three rounds. -/
theorem swarm_runs_to_convergence_choir :
    ∃ o, choir = .ok o ∧ ∃ result announced legs,
      (o.stream default {} "go" .fresh).2 = announced ++ [.complete result] ∧
      (o.execute default "go" .fresh).2 = result ∧
      result.rounds = legs.length ∧
      Shown announced result.messages (legs.map (·.calls)) ∧
      Recounts (some fun replies => replies.length == 2) (.after 0 o.timeout) ["slow", "shy"] 3 "go"
        ⟨0, false⟩ (o.reading default {} "go" .fresh).last.state.journal.toList legs
        result.output := by
  obtain ⟨o, h⟩ : ∃ o, choir = .ok o := ⟨_, rfl⟩
  obtain ⟨result, announced, legs, hstream, hexecute, hrest⟩ :=
    swarm_runs_to_convergence h rfl default (show Reader.take {} = none from rfl) "go" .fresh
  exact ⟨o, h, result, announced, legs, hstream, hexecute rfl, hrest⟩

/-- Only a swarm writes on the blackboard. -/
theorem blackboard_of_not_swarm (ho : o.Accepted) (hkind : o.strategy.kind ≠ .swarm)
    (stamp : RunStamp) {result : RunResult} {input : String} {w : World}
    (hends : (o.reading stamp reader input w).Ends result) : result.blackboard = Dict.empty := by
  let G : Guarantee Scene := .ofRelation (fun s s' => s'.2.blackboard = s.2.blackboard)
    (fun _ => rfl) fun h h' => h'.trans h
  have hcustom : Custom G := ⟨fun _ => rfl, fun _ h => h⟩
  have hrun : Does G (o.strategy.run o.members (.after w.clock.now o.timeout) input) :=
    Strategy.meets_custom (fun m _ => does_handle (fun _ _ _ _ => rfl) m) hcustom
      (fun hswarm => absurd hswarm hkind) ho.works input
  rw [hends.blackboard]
  refine reading_invariant (I := fun r => r.blackboard = Dict.empty) ho rfl ?_ stamp hends.concluded
  exact (hrun w.clock (w.memory, .initial o.ids) trivial).mono (fun _ _ _ => trivial)
    (fun _ _ _ _ hsame h => hsame.trans h) fun _ _ _ _ _ hsame h => hsame.1.trans h

/-- **The blackboard of a swarm loses nothing.** Read to its end, a run of a swarm shows its rounds.
Everyone who is called in one of them gets a copy of one blackboard, which has the input and the
successful replies of the rounds before and nothing else; the blackboard of the result has those of
all rounds. No two of these share a key, whatever the ids of the participants are, so there are as
many entries as successful replies, and the input. No other pattern writes on the blackboard. -/
theorem blackboard_loses_nothing (h : build members options = .ok o) (stamp : RunStamp)
    (hreader : reader.take = none) (input : String) (w : World) :
    ∃ result announced,
      (o.stream stamp reader input w).2 = announced ++ [.complete result] ∧
      (reader = {} → (o.execute stamp input w).2 = result) ∧
      (options.kind = .swarm → ∃ groups, result.rounds = groups.length ∧
        Shown announced result.messages groups ∧
        (∀ before group after, groups = before ++ group :: after → ∃ board : Metadata,
          board.entries.Perm (posted input before) ∧
          ∀ c ∈ group, c.dispatch.message.meta? blackboardTag = some board.toJson) ∧
        result.blackboard.entries.Perm (posted input groups) ∧
        ((posted input groups).map Prod.fst).Nodup ∧
        result.blackboard.entries.length = 1 + (groups.flatten.filterMap (·.success?)).length) ∧
      (options.kind ≠ .swarm → result.blackboard = Dict.empty) := by
  obtain ⟨ho, -⟩ := accepted_of_build h
  have hkind := Strategy.kind_of_options (strategy_of_build h).1
  by_cases hswarm : options.kind = .swarm
  · obtain ⟨p, hp⟩ := Options.swarm_of_kind hswarm
    obtain ⟨result, legs, τ, hends, hfollowed, hcourse, hboard, -⟩ :=
      swarm_reading h hp stamp hreader input w
    obtain ⟨hstream, hexecute, hrounds, hshown⟩ := shows_rounds hends hfollowed
    have hdisplays : Displays input (legs.map (·.calls)) result.blackboard := by
      rw [hboard]
      exact hcourse.displays rfl (displays_opening input)
    refine ⟨result, _, hstream, hexecute, fun _ => ⟨legs.map (·.calls), ?_, hshown, ?_,
      hdisplays.entries, hdisplays.distinct, hdisplays.size⟩, fun hother => absurd hswarm hother⟩
    · rw [hrounds, List.length_map]
    · intro before group after hgroups
      obtain ⟨earlier, rest, hlegs, rfl, hrest⟩ := List.map_eq_append_iff.mp hgroups
      obtain ⟨l, later, rfl, rfl, -⟩ := List.map_eq_cons_iff.mp hrest
      obtain ⟨σ, htook, -, hbefore⟩ := hcourse.took rfl (displays_opening input) hlegs
      refine ⟨σ.board, hbefore.entries, fun c hc => ?_⟩
      obtain ⟨m, -, hdispatch⟩ := htook.asked c hc
      rw [hdispatch, request, Message.meta?_withMetadata, if_pos rfl]
  · obtain ⟨result, hends⟩ := exists_ends ho stamp hreader input w
    refine ⟨result, _, stream_of_ends hends, ?_, fun h => absurd h hswarm, fun _ => ?_⟩
    · rintro rfl
      exact execute_of_ends hends
    · exact blackboard_of_not_swarm ho (hkind ▸ hswarm) stamp hends

/-- Peers whose ids look like keys of the blackboard. -/
def namesakes : Except Error Orchestration :=
  ofParticipants
    [.simple ⟨"a", "", ""⟩ fun _ m => { outcome := .ok m },
      .simple ⟨"a_round_0", "", ""⟩ fun _ m => { delay := 2, outcome := .ok m },
      .simple ⟨"input", "", ""⟩ fun n m => { outcome := if n = 0 then .error "er" else .ok m }]
    { pattern := .swarm {} }

/-- None of their replies is lost. -/
theorem blackboard_loses_nothing_namesakes :
    ∃ o, namesakes = .ok o ∧ ∃ result announced groups,
      (o.stream default {} "go" .fresh).2 = announced ++ [.complete result] ∧
      (o.execute default "go" .fresh).2 = result ∧
      Shown announced result.messages groups ∧
      result.blackboard.entries.Perm (posted "go" groups) ∧
      result.blackboard.entries.length = 1 + (groups.flatten.filterMap (·.success?)).length := by
  obtain ⟨o, h⟩ : ∃ o, namesakes = .ok o := ⟨_, rfl⟩
  obtain ⟨result, announced, hstream, hexecute, hswarm, -⟩ :=
    blackboard_loses_nothing h default (show Reader.take {} = none from rfl) "go" .fresh
  obtain ⟨groups, -, hshown, -, hentries, -, hsize⟩ := hswarm rfl
  exact ⟨o, h, result, announced, groups, hstream, hexecute rfl, hshown, hentries, hsize⟩

end Orchestration

end Ensemble
