import Ensemble.Proofs.Consensus.Plurality
import Mathlib.Data.List.Induction
import Mathlib.Data.List.Nodup

/-!
# What a vote comes to

A vote elects the first of the candidates whose outputs most of the others agree with, white space
at the ends apart, and says how many they are. `vote_elects_plurality` says so for all lists, and
what no order of a list can change. The scores of a vote are kept by id. Nothing keeps the ids of
candidates apart, and of candidates with one id the last one counts, so the scores bear out the
vote exactly if no id stands for two sides of it (`scores_bear_out_vote`).
-/

namespace Ensemble.Consensus

/-- The outputs of candidates, without white space at their ends. -/
def ballots (candidates : List Candidate) : List String :=
  candidates.map fun c => Text.trim c.output

/-- How many candidates have an output, white space at its ends apart. -/
def support (candidates : List Candidate) (output : String) : Nat :=
  (ballots candidates).count (Text.trim output)

theorem support_perm {candidates candidates' : List Candidate} (h : candidates.Perm candidates')
    (output : String) : support candidates' output = support candidates output :=
  (h.symm.map _).count_eq _

theorem support_pos {candidates : List Candidate} {output : String}
    (h : 0 < support candidates output) :
    ∃ c ∈ candidates, Text.trim c.output = Text.trim output :=
  List.mem_map.mp (List.count_pos_iff.mp h)

/-! ## The winner -/

/-- The candidate behind `before` is the first of those whose outputs have the most support. -/
structure Elected (candidates before : List Candidate) (winner : Candidate) : Prop where
  stands : ∃ after, candidates = before ++ winner :: after
  most : ∀ c ∈ candidates, support candidates c.output ≤ support candidates winner.output
  first : ∀ c ∈ before, support candidates c.output < support candidates winner.output

theorem Elected.mem {candidates before : List Candidate} {winner : Candidate}
    (h : Elected candidates before winner) : winner ∈ candidates := by
  obtain ⟨after, rfl⟩ := h.stands
  simp

/-- The result of a vote that a candidate has won. -/
def electing (candidates : List Candidate) (winner : Candidate) : Consensus :=
  { winnerId := winner.id
    winnerOutput := winner.output
    scores := scoresOf (Text.trim winner.output) candidates
    reasoning := explain (support candidates winner.output) candidates.length }

theorem evaluate_nil : evaluate [] = .error (.consensus "cannot evaluate zero results") := rfl

/-- Where there are candidates, one of them is elected. -/
theorem exists_elected {candidates : List Candidate} (h : candidates ≠ []) :
    ∃ before winner, Elected candidates before winner ∧
      evaluate candidates = .ok (electing candidates winner) := by
  obtain ⟨before, winner, after, hstands, hplurality, hforemost⟩ :=
    exists_winner (fun c : Candidate => Text.trim c.output) h
  refine ⟨before, winner, ⟨⟨after, hstands⟩, ?_, ?_⟩, ?_⟩
  · intro c hc
    exact hforemost.most _ (List.mem_map_of_mem hc)
  · intro c hc
    obtain ⟨i, hi, hget⟩ := List.mem_iff_getElem.mp hc
    apply hforemost.first i hi
    rw [hstands, List.getElem?_map, List.getElem?_append_left hi, List.getElem?_eq_getElem hi, hget]
    rfl
  · have hwinner : candidates[before.length]? = some winner := by simp [hstands]
    simp only [evaluate, hplurality, hwinner]
    rfl

/-- **A vote elects the plurality.** Without candidates it fails. With any, some number of votes is
the support of the best supported outputs; in whatever order the candidates stand, the winner is the
first one with such an output, the reasoning gives that number out of all, and an output that has
more support than all others wins. -/
theorem vote_elects_plurality (candidates : List Candidate) :
    evaluate [] = .error (.consensus "cannot evaluate zero results") ∧
    (candidates ≠ [] → ∃ votes,
      (∀ c ∈ candidates, support candidates c.output ≤ votes) ∧
      (∃ c ∈ candidates, support candidates c.output = votes) ∧
      ∀ candidates', candidates.Perm candidates' → ∃ before winner outcome,
        Elected candidates' before winner ∧
        evaluate candidates' = .ok outcome ∧
        outcome.winnerId = winner.id ∧
        outcome.winnerOutput = winner.output ∧
        support candidates' winner.output = votes ∧
        outcome.reasoning = toString votes ++ "/" ++ toString candidates.length ++
          " candidates agreed on the winning output" ∧
        ∀ output, (∀ c ∈ candidates, Text.trim c.output ≠ Text.trim output →
            support candidates c.output < support candidates output) →
          Text.trim winner.output = Text.trim output) := by
  refine ⟨evaluate_nil, fun hne => ?_⟩
  obtain ⟨before, winner, helected, -⟩ := exists_elected hne
  refine ⟨support candidates winner.output, helected.most, ⟨winner, helected.mem, rfl⟩, ?_⟩
  intro candidates' hperm
  have hne' : candidates' ≠ [] := by
    rintro rfl
    exact hne hperm.eq_nil
  obtain ⟨before', winner', helected', hevaluate⟩ := exists_elected hne'
  have hmem : winner' ∈ candidates := hperm.mem_iff.mpr helected'.mem
  have hmem' : winner ∈ candidates' := hperm.mem_iff.mp helected.mem
  have hvotes : support candidates' winner'.output = support candidates winner.output := by
    have hle := helected.most winner' hmem
    have hle' := helected'.most winner hmem'
    rw [support_perm hperm] at hle' ⊢
    rw [support_perm hperm] at hle'
    omega
  refine ⟨before', winner', electing candidates' winner', helected', hevaluate, rfl, rfl, hvotes,
    ?_, ?_⟩
  · rw [electing, hvotes, hperm.length_eq]
    rfl
  · intro output hmost
    by_contra hother
    have hless := hmost winner' hmem hother
    -- an output with more support than the winner's is that of a candidate, who would have won
    obtain ⟨c, hc, houtput⟩ := support_pos (Nat.zero_lt_of_lt hless)
    have hle := helected'.most c (hperm.mem_iff.mp hc)
    rw [support_perm hperm, support_perm hperm, support, houtput] at hle
    exact absurd hless (Nat.not_lt.mpr hle)

/-- Two of three say the same with blanks around it: they win from whatever place they stand in. -/
theorem vote_elects_plurality_padded :
    let candidates : List Candidate := [⟨"a", "no"⟩, ⟨"b", " yes\n"⟩, ⟨"c", "yes"⟩]
    candidates ≠ [] ∧
    (∀ c ∈ candidates, Text.trim c.output ≠ "yes" →
      support candidates c.output < support candidates "yes") ∧
    ∃ before winner outcome, Elected candidates.reverse before winner ∧
      evaluate candidates.reverse = .ok outcome ∧ Text.trim winner.output = "yes" := by
  intro candidates
  have hne : candidates ≠ [] := by simp [candidates]
  have hmost : ∀ c ∈ candidates, Text.trim c.output ≠ Text.trim "yes" →
      support candidates c.output < support candidates "yes" := by decide
  obtain ⟨votes, -, -, hall⟩ := (vote_elects_plurality candidates).2 hne
  obtain ⟨before, winner, outcome, helected, hevaluate, -, -, -, -, hwins⟩ :=
    hall candidates.reverse candidates.reverse_perm.symm
  exact ⟨hne, hmost, before, winner, outcome, helected, hevaluate, hwins "yes" hmost⟩

/-! ## The scores -/

/-- A candidate has the output of the winner, white space at the ends apart. -/
def Agrees (winner c : Candidate) : Prop := Text.trim c.output = Text.trim winner.output

instance (winner : Candidate) : DecidablePred (Agrees winner) := fun c =>
  inferInstanceAs (Decidable (Text.trim c.output = Text.trim winner.output))

/-- What a candidate scores in a vote that another one has won. -/
def scoreOf (winner c : Candidate) : Binary64 := if Agrees winner c then agreement else disagreement

theorem agreement_ne_disagreement : agreement ≠ disagreement := by decide

theorem scoreOf_eq_agreement_iff {winner c : Candidate} :
    scoreOf winner c = agreement ↔ Agrees winner c := by
  unfold scoreOf
  by_cases h : Agrees winner c
  · simp [h]
  · simp [h, agreement_ne_disagreement.symm]

/-- An id has the score of the last candidate with it. -/
theorem find?_scoresOf (winner : Candidate) (candidates : List Candidate) (id : String) :
    (scoresOf (Text.trim winner.output) candidates).find? id =
      (candidates.reverse.find? fun c => c.id = id).map (scoreOf winner) := by
  induction candidates using List.reverseRec with
  | nil => rfl
  | append_singleton candidates c ih =>
    have hconcat : scoresOf (Text.trim winner.output) (candidates ++ [c]) =
        (scoresOf (Text.trim winner.output) candidates).insert c.id (scoreOf winner c) := by
      rw [scoresOf, List.map_append, List.map_singleton, Dict.ofList_concat]
      rfl
    rw [hconcat, Dict.find?_insert, ih, List.reverse_append, List.reverse_singleton,
      List.singleton_append, List.find?_cons]
    by_cases h : c.id = id
    · simp [h]
    · simp [h, Ne.symm h]

theorem find?_scoresOf_last (winner : Candidate) (before : List Candidate)
    {after : List Candidate} {c : Candidate} (hlast : ∀ d ∈ after, d.id ≠ c.id) :
    (scoresOf (Text.trim winner.output) (before ++ c :: after)).find? c.id =
      some (scoreOf winner c) := by
  have hnone : (after.reverse.find? fun d => d.id = c.id) = none := by
    simpa using hlast
  rw [find?_scoresOf, List.reverse_append, List.reverse_cons, List.append_assoc,
    List.find?_append, hnone]
  simp

/-- An id that has a score has that of a candidate. -/
theorem exists_of_find?_scoresOf {winner : Candidate} {candidates : List Candidate} {id : String}
    {score : Binary64}
    (h : (scoresOf (Text.trim winner.output) candidates).find? id = some score) :
    ∃ c ∈ candidates, c.id = id ∧ score = scoreOf winner c := by
  rw [find?_scoresOf] at h
  obtain ⟨c, hfind, rfl⟩ := Option.map_eq_some_iff.mp h
  have hid := List.find?_some hfind
  have hmem := List.mem_reverse.mp (List.mem_of_find?_eq_some hfind)
  exact ⟨c, hmem, of_decide_eq_true hid, rfl⟩

/-- The ids of candidates have scores. -/
theorem exists_find?_scoresOf (winner : Candidate) {candidates : List Candidate} {c : Candidate}
    (hc : c ∈ candidates) :
    ∃ score, (scoresOf (Text.trim winner.output) candidates).find? c.id = some score := by
  rw [find?_scoresOf]
  cases hfind : candidates.reverse.find? fun d => d.id = c.id with
  | some d => exact ⟨scoreOf winner d, rfl⟩
  | none => simpa using List.find?_eq_none.mp hfind c (List.mem_reverse.mpr hc)

/-- No id stands for a candidate that agrees with the winner and for one that does not. -/
def OneSided (candidates : List Candidate) (winner : Candidate) : Prop :=
  ∀ c ∈ candidates, ∀ d ∈ candidates, c.id = d.id → Agrees winner c → Agrees winner d

/-- Scores by id say of a vote what its reasoning says. -/
structure BearOut (candidates : List Candidate) (winner : Candidate) (scores : Dict Binary64) :
    Prop where
  elected : scores.find? winner.id = some agreement
  agreeing : ∀ c ∈ candidates, Agrees winner c → scores.find? c.id = some agreement
  votes : (candidates.countP fun c => scores.find? c.id = some agreement) =
    support candidates winner.output

theorem support_eq_countP (candidates : List Candidate) (winner : Candidate) :
    support candidates winner.output = candidates.countP (Agrees winner ·) := by
  rw [support, ballots, List.count_eq_countP, List.countP_map]
  apply List.countP_congr
  intro c _
  rw [Function.comp_apply, beq_iff_eq, decide_eq_true_iff, Agrees]

/-- Where all that have one property have another and they are as many, the two are the same. -/
theorem of_countP_eq {α : Type} {p q : α → Bool} {l : List α}
    (hpq : ∀ x ∈ l, p x = true → q x = true) (h : l.countP q = l.countP p) {x : α} (hx : x ∈ l)
    (hq : q x = true) : p x = true := by
  have hsplit := List.countP_eq_countP_filter_add l q p
  have hall : (l.filter p).countP q = l.countP p := by
    rw [List.countP_eq_length_filter (p := p), List.countP_eq_length]
    intro y hy
    obtain ⟨hmem, hp⟩ := List.mem_filter.mp hy
    exact hpq y hmem hp
  have hzero : (l.filter fun y => !p y).countP q = 0 := by omega
  by_contra hp
  have hmem : x ∈ l.filter fun y => !p y := List.mem_filter.mpr ⟨hx, by simpa using hp⟩
  exact List.countP_eq_zero.mp hzero x hmem hq

/-- No scores by id bear out a vote in which an id stands on two sides. -/
theorem BearOut.oneSided {candidates : List Candidate} {winner : Candidate}
    {scores : Dict Binary64} (h : BearOut candidates winner scores) :
    OneSided candidates winner := by
  intro c hc d hd hid hagrees
  have hvotes := h.votes
  rw [support_eq_countP] at hvotes
  have hscore : scores.find? d.id = some agreement := hid ▸ h.agreeing c hc hagrees
  refine of_decide_eq_true (of_countP_eq (p := (Agrees winner ·)) ?_ hvotes hd ?_)
  · intro x hx hx'
    exact decide_eq_true (h.agreeing x hx (of_decide_eq_true hx'))
  · exact decide_eq_true hscore

/-- If no id stands on two sides, every candidate's id has the score of that candidate. -/
theorem OneSided.find?_eq {candidates : List Candidate} {winner c : Candidate}
    (h : OneSided candidates winner) (hc : c ∈ candidates) :
    (scoresOf (Text.trim winner.output) candidates).find? c.id = some (scoreOf winner c) := by
  obtain ⟨score, hscore⟩ := exists_find?_scoresOf winner hc
  obtain ⟨d, hd, hid, rfl⟩ := exists_of_find?_scoresOf hscore
  have hsame : Agrees winner d ↔ Agrees winner c := ⟨h d hd c hc hid, h c hc d hd hid.symm⟩
  rw [hscore, scoreOf, scoreOf]
  simp only [hsame]

theorem OneSided.bearOut {candidates : List Candidate} {winner : Candidate}
    (h : OneSided candidates winner) (hwinner : winner ∈ candidates) :
    BearOut candidates winner (scoresOf (Text.trim winner.output) candidates) where
  elected := by
    rw [h.find?_eq hwinner, scoreOf_eq_agreement_iff.mpr rfl]
  agreeing := by
    intro c hc hagrees
    rw [h.find?_eq hc, scoreOf_eq_agreement_iff.mpr hagrees]
  votes := by
    rw [support_eq_countP]
    apply List.countP_congr
    intro c hc
    simp [h.find?_eq hc, scoreOf_eq_agreement_iff]

/-- Ids that are all different stand on one side each. -/
theorem oneSided_of_nodup {candidates : List Candidate} (h : (candidates.map (·.id)).Nodup)
    (winner : Candidate) : OneSided candidates winner := by
  intro c hc d hd hid hagrees
  rwa [List.inj_on_of_nodup_map h hc hd hid] at hagrees

/-- **The scores bear out the vote unless an id stands on two sides of it.** The ids that have a
score are those of the candidates, each score is one or zero, and it is that of the last candidate
with the id: one if it agrees with the winner. So the winner's own id scores one, the id of everyone
who agrees with the winner does, and as many candidates score one as there were votes, exactly if no
id is that of a candidate who agrees and of one who does not; which is so if all ids are
different. -/
theorem scores_bear_out_vote {candidates : List Candidate} (h : candidates ≠ []) :
    ∃ before winner outcome,
      Elected candidates before winner ∧
      evaluate candidates = .ok outcome ∧
      outcome.winnerId = winner.id ∧
      outcome.reasoning = toString (support candidates winner.output) ++ "/" ++
        toString candidates.length ++ " candidates agreed on the winning output" ∧
      (∀ id, (∃ score, outcome.scores.find? id = some score) ↔ ∃ c ∈ candidates, c.id = id) ∧
      (∀ id score, outcome.scores.find? id = some score →
        score = Binary64.ofNat 0 ∨ score = Binary64.ofNat 1) ∧
      (∀ before c after, candidates = before ++ c :: after → (∀ d ∈ after, d.id ≠ c.id) →
        (outcome.scores.find? c.id = some (Binary64.ofNat 1) ↔ Agrees winner c)) ∧
      (BearOut candidates winner outcome.scores ↔ OneSided candidates winner) ∧
      ((candidates.map (·.id)).Nodup → OneSided candidates winner) := by
  obtain ⟨before, winner, helected, hevaluate⟩ := exists_elected h
  refine ⟨before, winner, electing candidates winner, helected, hevaluate, rfl, rfl, ?_, ?_, ?_,
    ?_, ?_⟩
  · intro id
    constructor
    · rintro ⟨score, hscore⟩
      obtain ⟨c, hc, hid, -⟩ := exists_of_find?_scoresOf hscore
      exact ⟨c, hc, hid⟩
    · rintro ⟨c, hc, rfl⟩
      exact exists_find?_scoresOf winner hc
  · intro id score hscore
    obtain ⟨c, -, -, rfl⟩ := exists_of_find?_scoresOf hscore
    by_cases hagrees : Agrees winner c
    · exact .inr (if_pos hagrees)
    · exact .inl (if_neg hagrees)
  · rintro before c after rfl hlast
    have hscore := find?_scoresOf_last winner before hlast
    have hsame : (electing (before ++ c :: after) winner).scores.find? c.id =
        some (scoreOf winner c) := hscore
    rw [hsame, Option.some_inj]
    exact scoreOf_eq_agreement_iff
  · exact ⟨fun hbear => hbear.oneSided, fun hsided => hsided.bearOut helected.mem⟩
  · exact fun hnodup => oneSided_of_nodup hnodup winner

/-- Two ids that stand twice, each for one output: the scores bear out the vote. -/
theorem scores_bear_out_vote_twice :
    let candidates : List Candidate := [⟨"a", "x"⟩, ⟨"b", "y"⟩, ⟨"a", " x"⟩, ⟨"b", "y "⟩]
    candidates ≠ [] ∧ ∃ winner outcome, evaluate candidates = .ok outcome ∧
      outcome.winnerId = winner.id ∧ BearOut candidates winner outcome.scores := by
  intro candidates
  have hne : candidates ≠ [] := by simp [candidates]
  obtain ⟨before, winner, outcome, helected, hevaluate, hid, -, -, -, -, hiff, -⟩ :=
    scores_bear_out_vote hne
  have hsided : ∀ w ∈ candidates, OneSided candidates w := by
    unfold OneSided
    decide
  exact ⟨hne, winner, outcome, hevaluate, hid, hiff.mpr (hsided winner helected.mem)⟩

/-- An id on two sides: the winner's own id scores zero, and one candidate scores one where the
reasoning gives two votes. -/
theorem scores_belie_vote :
    let candidates : List Candidate := [⟨"a", "x"⟩, ⟨"b", "x"⟩, ⟨"a", "y"⟩]
    ∃ outcome, evaluate candidates = .ok outcome ∧
      outcome.reasoning = "2/3 candidates agreed on the winning output" ∧
      outcome.winnerId = "a" ∧
      outcome.scores.find? outcome.winnerId = some (Binary64.ofNat 0) ∧
      ((candidates.countP fun c => outcome.scores.find? c.id = some (Binary64.ofNat 1)) = 1) ∧
      Binary64.ofNat 0 ≠ Binary64.ofNat 1 := by
  refine ⟨_, rfl, ?_, ?_, ?_, ?_, ?_⟩
  all_goals decide

end Ensemble.Consensus
