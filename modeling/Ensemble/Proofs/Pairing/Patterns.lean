import Ensemble.Orchestration
import Ensemble.Proofs.Pairing.Basic

/-!
# Patterns keep two runs side by side

Whatever two runs have in common that all operations preserve, all five patterns preserve too: what
they send out next, when they stop and what they make of the replies depends only on who replied,
what counts as the same in a reply, and the blackboard. `Strategy.joins_run` says so for whole runs.
-/

namespace Ensemble

open List (Forall₂)

/-! ## Members that correspond -/

section

variable {α β : Type} {R : α → β → Prop}

theorem forall₂_toList_getElem? {l : List α} {l' : List β} (h : Forall₂ R l l') (i : Nat) :
    Forall₂ R l[i]?.toList l'[i]?.toList := by
  induction h generalizing i with
  | nil => exact .nil
  | cons hr _ ih =>
    cases i with
    | zero => exact .cons hr .nil
    | succ i => exact ih i

variable {peers : Member → Member → Prop} {members members' : List Member}

theorem ids_eq (hids : ∀ {m m'}, peers m m' → m.id = m'.id) (h : Forall₂ peers members members') :
    members.map (·.id) = members'.map (·.id) := by
  induction h with
  | nil => rfl
  | cons hm _ ih => rw [List.map_cons, List.map_cons, ih, hids hm]

/-- Requests that depend on the name of a member alone are alike for members that correspond. -/
theorem alike_map (h : Forall₂ peers members members') {request : Member → Dispatch}
    (hrequest : ∀ {m m'}, peers m m' → (request m).Alike peers (request m')) :
    Forall₂ (Dispatch.Alike peers) (members.map request) (members'.map request) :=
  List.rel_map (fun _ _ hm => hrequest hm) h

theorem nodup_map {request : Member → Dispatch} (hmember : ∀ m, (request m).member = m)
    (hunique : (members.map (·.id)).Nodup) :
    ((members.map request).map (·.member.id)).Nodup := by
  have hids : (members.map request).map (·.member.id) = members.map (·.id) := by
    rw [List.map_map]
    exact List.map_congr_left fun m _ => congrArg Member.id (hmember m)
  rwa [hids]

end

variable {d₁ d₂ : Deadline} {X : Pairing d₁ d₂} {peers : Member → Member → Prop}
  {members members' : List Member} {after : Moment Scene → Moment Scene → Prop}

namespace Pairing

/-- A round begins in both runs, or in neither. -/
theorem Operations.round {α : Type} {V : α → α → Prop} (h : X.Operations peers) (round : Nat)
    {body body' otherwise otherwise' : Routine Scene α} (hbody : X.Abreast body body' V)
    (hotherwise : X.Abreast otherwise otherwise' V) :
    X.Abreast (Run.beginRound d₁ round >>= fun begun => if begun then body else otherwise)
      (Run.beginRound d₂ round >>= fun begun => if begun then body' else otherwise') V := by
  refine (h.beginRound round).bind (fun _ => rfl) ?_
  rintro begun _ rfl
  exact Joins.ite Iff.rfl hbody hotherwise

theorem sameReplies_refl (X : Pairing d₁ d₂) (replies : List (String × Message)) :
    Forall₂ (SameReply X.reply) replies replies :=
  List.forall₂_same.mpr fun r _ => ⟨rfl, X.reply_refl r.2⟩

theorem settled_refl (X : Pairing d₁ d₂) (calls : List Settled) :
    Forall₂ (Settled.Alike X.reply) calls calls :=
  List.forall₂_same.mpr fun s _ => ⟨rfl, rfl, .refl X.reply_refl s.outcome⟩

end Pairing

open Pairing

namespace Supervisor

theorem alike_plan (hids : ∀ {m m'}, peers m m' → m.id = m'.id)
    (hmembers : Forall₂ peers members members') (delegation : Delegation) (input : String)
    (round : Nat) :
    Forall₂ (Dispatch.Alike peers) (plan delegation members input round)
      (plan delegation members' input round) := by
  have htargets : Forall₂ peers (targets delegation members round)
      (targets delegation members' round) := by
    unfold targets
    split
    · rw [hmembers.length_eq]
      exact forall₂_toList_getElem? hmembers _
    · exact hmembers
  refine alike_map htargets fun {m m'} hm => ⟨hm, ?_⟩
  simp only [request, hids hm]

theorem nodup_plan (hunique : (members.map (·.id)).Nodup) (delegation : Delegation)
    (input : String) (round : Nat) :
    ((plan delegation members input round).map (·.member.id)).Nodup := by
  refine nodup_map (fun _ => rfl) ?_
  unfold targets
  split
  · next r =>
    cases members[(r + 1) % members.length]? with
    | none => exact List.nodup_nil
    | some m => exact List.nodup_cons.mpr ⟨List.not_mem_nil, List.nodup_nil⟩
  · exact hunique

theorem abreast_rounds (h : X.Operations peers) (hmembers : Forall₂ peers members members')
    (hunique : (members.map (·.id)).Nodup) (delegation : Delegation) (input : String)
    (left round : Nat) {replies replies' : List (String × Message)}
    (hreplies : Forall₂ (SameReply X.reply) replies replies') :
    X.Abreast (rounds delegation members d₁ input left round replies)
      (rounds delegation members' d₂ input left round replies') (Forall₂ (SameReply X.reply)) := by
  induction left generalizing round replies replies' with
  | zero => exact abreast_pure hreplies
  | succ left ih =>
    refine h.round round ?_ (abreast_pure hreplies)
    have hplan := alike_plan h.ids hmembers delegation input round
    refine (h.dispatchRound hplan (nodup_plan hunique _ _ _)).bind X.settled_refl ?_
    intro calls calls' hcalls
    refine (h.endRound round).bind (fun _ => rfl) fun _ _ _ => ?_
    exact ih (round + 1) (List.rel_append hreplies (sameReplies hcalls))

/-- What is made of replies depends on who gave them and on their contents. -/
theorem aggregate_eq (how : Aggregation) {replies replies' : List (String × Message)}
    (h : replies.map (fun r => (r.1, r.2.content)) = replies'.map (fun r => (r.1, r.2.content))) :
    aggregate how replies = aggregate how replies' := by
  have hcontents : replies.map (·.2.content) = replies'.map (·.2.content) := by
    have hsnd := congrArg (List.map Prod.snd) h
    rwa [List.map_map, List.map_map] at hsnd
  cases how with
  | concat =>
    simp only [aggregate, joinContents, List.map_map]
    exact congrArg ("\n".intercalate ·) hcontents
  | summarize =>
    simp only [aggregate, joinAttributed]
    have hlines := congrArg (List.map fun v : String × String => "[" ++ v.1 ++ "]: " ++ v.2) h
    simp only [List.map_map] at hlines
    exact congrArg ("\n".intercalate ·) hlines
  | vote =>
    have hat : ∀ i : Nat, (replies[i]?).elim "" (·.2.content) =
        (replies'[i]?).elim "" (·.2.content) := by
      intro i
      have hi := congrArg (·[i]?) hcontents
      simp only [List.getElem?_map] at hi
      cases hr : replies[i]? <;> cases hr' : replies'[i]? <;> simp_all
    simp only [aggregate, hcontents]
    cases plurality (replies'.map (·.2.content)) with
    | none => rfl
    | some winner => exact hat winner.1

end Supervisor

namespace Swarm

theorem abreast_postReplies (h : X.Operations peers) (round : Nat)
    {replies replies' : List (String × Message)}
    (hreplies : Forall₂ (SameReply X.reply) replies replies') :
    X.Abreast (postReplies round replies) (postReplies round replies') Eq := by
  induction hreplies with
  | nil => exact abreast_pure rfl
  | @cons r r' _ _ hr _ ih =>
    have hpost := h.post (blackboardKey r.1 round) r.2.content
    refine Joins.bind ?_ (fun _ => rfl) fun _ _ _ => ih
    rw [← hr.1, ← X.reply_content _ _ hr.2]
    exact hpost

/-- Reading the blackboard. -/
theorem abreast_get (h : X.Operations peers) :
    X.Abreast Routine.get Routine.get fun s s' => s.2.blackboard = s'.2.blackboard where
  one c s _ := ⟨X.one.refl c s, trivial⟩
  two c s _ := ⟨X.two.refl c s, trivial⟩
  both _ _ hxy := .inl ⟨h.blackboard hxy, hxy⟩

theorem abreast_rounds (h : X.Operations peers) (hmembers : Forall₂ peers members members')
    (hunique : (members.map (·.id)).Nodup) {converged : Option (List Message → Bool)}
    (hconverged : ∀ ms ms', Forall₂ X.reply ms ms' → converged.any (· ms) = converged.any (· ms'))
    (left round : Nat) (content : String) {last last' : List Message}
    (hlast : Forall₂ X.reply last last') :
    X.Abreast (rounds converged members d₁ left round content last)
      (rounds converged members' d₂ left round content last') (Forall₂ X.reply) := by
  have hrefl : ∀ ms, Forall₂ X.reply ms ms := fun ms =>
    List.forall₂_same.mpr fun m _ => X.reply_refl m
  induction left generalizing round content last last' with
  | zero => exact abreast_pure hlast
  | succ left ih =>
    refine h.round round ?_ (abreast_pure hlast)
    refine (abreast_get h).bind (fun _ => rfl) ?_
    rintro ⟨_, state⟩ ⟨_, state'⟩ hboard
    dsimp only at hboard ⊢
    have hplan : Forall₂ (Dispatch.Alike peers)
        (members.map (request content round state.blackboard))
        (members'.map (request content round state'.blackboard)) := by
      rw [hboard]
      refine alike_map hmembers fun {m m'} hm => ⟨hm, ?_⟩
      simp only [request, h.ids hm]
    refine (h.dispatchRound hplan (nodup_map (fun _ => rfl) hunique)).bind X.settled_refl ?_
    intro calls calls' hcalls
    have hreplies := sameReplies hcalls
    have hresponses := forall₂_snd hreplies
    refine (abreast_postReplies h round hreplies).bind (fun _ => rfl) fun _ _ _ => ?_
    refine (h.endRound round).bind (fun _ => rfl) fun _ _ _ => ?_
    -- the three ways to go on after a round
    refine Joins.ite (by rw [all_isSkipped hcalls]) (abreast_pure hlast) ?_
    refine Joins.ite (by rw [hconverged _ _ hresponses]) (abreast_pure hresponses) ?_
    have hcontent : joinContents ((calls.filterMap (·.response?)).map (·.2)) =
        joinContents ((calls'.filterMap (·.response?)).map (·.2)) :=
      congrArg ("\n".intercalate ·) (contents_eq X.reply_content hresponses)
    rw [hcontent]
    exact ih (round + 1) _ hresponses

end Swarm

namespace Pipeline

theorem abreast_tryStep (h : X.Operations peers) {m m' : Member} (hm : peers m m')
    (sender content : String) (step left attempt : Nat) :
    X.Abreast (tryStep d₁ sender content step m left attempt)
      (tryStep d₂ sender content step m' left attempt) Eq := by
  induction left generalizing attempt with
  | zero => exact abreast_pure rfl
  | succ left ih =>
    have hrequest : request sender content step attempt m' =
        request sender content step attempt m := by
      simp only [request, h.ids hm]
    unfold tryStep
    rw [hrequest]
    refine (h.call _ hm).bind (Outcome.Alike.refl X.reply_refl) ?_
    intro outcome outcome' houtcome
    cases houtcome with
    | response hreply =>
      exact abreast_pure (congrArg StepOutcome.produced (X.reply_content _ _ hreply))
    | failed record => exact ih (attempt + 1)
    | skipped => exact abreast_pure rfl

theorem abreast_steps (h : X.Operations peers) (hmembers : Forall₂ peers members members')
    (o : PipelineOptions) (step : Nat) (sender content : String) :
    X.Abreast (steps o d₁ members step sender content) (steps o d₂ members' step sender content)
      Eq := by
  induction hmembers generalizing step sender content with
  | nil => exact abreast_pure rfl
  | @cons m m' _ _ hm _ ih =>
    refine h.round step ?_ (abreast_pure rfl)
    refine (abreast_tryStep h hm _ _ _ _ _).bind (fun _ => rfl) ?_
    rintro outcome _ rfl
    refine (h.endRound step).bind (fun _ => rfl) fun _ _ _ => ?_
    cases outcome with
    | produced reply =>
      dsimp only
      rw [h.ids hm]
      exact ih _ _ _
    | failed => exact Joins.ite Iff.rfl (ih _ _ _) (abreast_pure rfl)
    | stopped => exact abreast_pure rfl

end Pipeline

namespace Debate

theorem nextContext_eq {context : String} {replies replies' : List (String × Message)}
    (h : replies.map (fun r => (r.1, r.2.content)) = replies'.map (fun r => (r.1, r.2.content))) :
    nextContext context replies = nextContext context replies' := by
  have hempty : replies.isEmpty = replies'.isEmpty := by
    simpa only [List.isEmpty_map] using congrArg List.isEmpty h
  have hjoin : joinAttributed replies = joinAttributed replies' :=
    Supervisor.aggregate_eq .summarize h
  rw [nextContext, nextContext, hempty, hjoin]

theorem abreast_rounds (h : X.Operations peers) (hmembers : Forall₂ peers members members')
    (hunique : (members.map (·.id)).Nodup) (left round : Nat) (context : String)
    {last last' : List (String × Message)} (hlast : Forall₂ (SameReply X.reply) last last') :
    X.Abreast (rounds members d₁ left round context last)
      (rounds members' d₂ left round context last')
      fun r r' => r.1 = r'.1 ∧ Forall₂ (SameReply X.reply) r.2 r'.2 := by
  induction left generalizing round context last last' with
  | zero => exact abreast_pure ⟨rfl, hlast⟩
  | succ left ih =>
    refine h.round round ?_ (abreast_pure ⟨rfl, hlast⟩)
    have hplan : Forall₂ (Dispatch.Alike peers) (members.map (request context round))
        (members'.map (request context round)) := by
      refine alike_map hmembers fun {m m'} hm => ⟨hm, ?_⟩
      simp only [request, h.ids hm]
    refine (h.dispatchRound hplan (nodup_map (fun _ => rfl) hunique)).bind X.settled_refl ?_
    intro calls calls' hcalls
    refine (h.endRound round).bind (fun _ => rfl) fun _ _ _ => ?_
    have hreplies := sameReplies hcalls
    dsimp only
    rw [nextContext_eq (voices_eq X.reply_content hreplies)]
    exact ih (round + 1) _ hreplies

theorem majority?_eq {replies replies' : List (String × Message)}
    (h : replies.map (fun r => (r.1, r.2.content)) = replies'.map (fun r => (r.1, r.2.content))) :
    majority? replies = majority? replies' := by
  have hcandidates : replies.map (fun r => Candidate.mk r.1 r.2.content) =
      replies'.map fun r => Candidate.mk r.1 r.2.content := by
    have hpairs := congrArg (List.map fun v : String × String => Candidate.mk v.1 v.2) h
    rwa [List.map_map, List.map_map] at hpairs
  rw [majority?, majority?, hcandidates]

theorem unanimous?_eq {reply : Message → Message → Prop}
    (hcontent : ∀ m m', reply m m' → m.content = m'.content)
    {replies replies' : List (String × Message)} (h : Forall₂ (SameReply reply) replies replies')
    (debaters : Nat) : unanimous? replies debaters = unanimous? replies' debaters := by
  have hall : ∀ content : String, replies.all (fun r => r.2.content == content) =
      replies'.all (fun r => r.2.content == content) := by
    intro content
    induction h with
    | nil => rfl
    | cons hr _ ih => rw [List.all_cons, List.all_cons, ih, hcontent _ _ hr.2]
  have hlength := h.length_eq
  cases h with
  | nil => rfl
  | @cons r r' _ _ hr _ =>
    simp only [unanimous?, hlength, hall, hcontent _ _ hr.2]

theorem debaters_alike (hids : ∀ {m m'}, peers m m' → m.id = m'.id)
    (hmembers : Forall₂ peers members members') (o : DebateOptions) :
    Forall₂ peers (debaters o members) (debaters o members') := by
  refine List.rel_filter (fun m m' hm => ?_) hmembers
  simp only [hids hm]

theorem judge?_alike (hids : ∀ {m m'}, peers m m' → m.id = m'.id)
    (hmembers : Forall₂ peers members members') (o : DebateOptions) :
    Option.Rel peers (judge? o members) (judge? o members') := by
  induction hmembers with
  | nil => exact .none
  | @cons m m' _ _ hm _ ih =>
    simp only [judge?, List.find?_cons, hids hm] at ih ⊢
    split
    · exact .some hm
    · exact ih

theorem abreast_judgeVerdict (h : X.Operations peers) {judge judge' : Option Member}
    (hjudge : Option.Rel peers judge judge') (context : String) :
    X.Abreast (judgeVerdict judge d₁ context) (judgeVerdict judge' d₂ context) Eq := by
  cases hjudge with
  | none => exact abreast_pure rfl
  | @some m m' hm =>
    have hrequest : verdictRequest context m' = verdictRequest context m := by
      simp only [verdictRequest, h.ids hm]
    unfold judgeVerdict
    dsimp only
    rw [hrequest]
    refine (h.call _ hm).bind (Outcome.Alike.refl X.reply_refl) ?_
    intro outcome outcome' houtcome
    cases houtcome with
    | response hreply => exact abreast_pure (X.reply_content _ _ hreply)
    | failed record => exact abreast_pure rfl
    | skipped => exact abreast_pure rfl

theorem abreast_run (h : X.Operations peers) (hmembers : Forall₂ peers members members')
    (hunique : (members.map (·.id)).Nodup) (o : DebateOptions) (input : String) :
    X.Abreast (run o members d₁ input) (run o members' d₂ input) Eq := by
  have harguing := debaters_alike h.ids hmembers o
  have hargue : ((debaters o members).map (·.id)).Nodup :=
    hunique.sublist (List.filter_sublist.map _)
  refine (abreast_rounds h harguing hargue _ 0 input .nil).bind ?_ ?_
  · exact fun r => ⟨rfl, X.sameReplies_refl r.2⟩
  rintro ⟨context, last⟩ ⟨_, last'⟩ ⟨rfl, hlast⟩
  dsimp only
  cases o.voting with
  | judge => exact abreast_judgeVerdict h (judge?_alike h.ids hmembers o) context
  | majority => exact abreast_pure (by rw [majority?_eq (voices_eq X.reply_content hlast)])
  | unanimous =>
    exact abreast_pure (by rw [unanimous?_eq X.reply_content hlast, harguing.length_eq])

end Debate

namespace MapReduce

theorem alike_plan (hids : ∀ {m m'}, peers m m' → m.id = m'.id)
    (hmembers : Forall₂ peers members members') (pieces : List String) :
    Forall₂ (Dispatch.Alike peers) (plan members pieces) (plan members' pieces) := by
  have hrequest : ∀ p : String × Nat, Option.Rel (Dispatch.Alike peers)
      (request? members p.1 p.2) (request? members' p.1 p.2) := by
    intro p
    have hpick := forall₂_toList_getElem? hmembers (p.2 % members.length)
    unfold request?
    rw [← hmembers.length_eq]
    cases hm : members[p.2 % members.length]? with
    | none =>
      rw [hm] at hpick
      cases hm' : members'[p.2 % members.length]? with
      | none => exact .none
      | some m' => rw [hm'] at hpick; cases hpick
    | some m =>
      rw [hm] at hpick
      cases hm' : members'[p.2 % members.length]? with
      | none => rw [hm'] at hpick; cases hpick
      | some m' =>
        rw [hm'] at hpick
        obtain _ | ⟨hpeers, -⟩ := hpick
        refine .some ⟨hpeers, ?_⟩
        simp only [request, hids hpeers]
  unfold plan
  exact List.rel_filterMap (R := Eq) (fun p _ hp => hp ▸ hrequest p)
    (List.forall₂_same.mpr fun _ _ => rfl)

theorem joins_run (h : X.Operations peers) {job : Job} {input : String}
    (hpieces : X.Abreast (mapPieces d₁ job.concurrency (plan members (job.split input)))
      (mapPieces d₂ job.concurrency (plan members' (job.split input))) (Forall₂ X.reply))
    (hreduce : ∀ ms ms', Forall₂ X.reply ms ms' → job.reduce ms = job.reduce ms')
    (hrecord : ∀ m, X.Joins after (Run.recordMessage m) (Run.recordMessage m) Eq) :
    X.Joins after (run job members d₁ input) (run job members' d₂ input) Eq := by
  have hrefl : ∀ ms, Forall₂ X.reply ms ms := fun ms =>
    List.forall₂_same.mpr fun m _ => X.reply_refl m
  have hround : X.Abreast (mapRound job members d₁ input) (mapRound job members' d₂ input)
      (Forall₂ X.reply) := by
    refine h.round 0 ?_ (abreast_pure .nil)
    refine hpieces.bind hrefl fun ms ms' hms => ?_
    exact (h.endRound 0).bind (fun _ => rfl) fun _ _ _ => abreast_pure hms
  refine hround.bind hrefl fun ms ms' hms => ?_
  dsimp only
  rw [hreduce ms ms' hms]
  exact (hrecord _).map fun _ _ _ => rfl

end MapReduce

/-- Whether the functions among the parameters of a strategy take replies that count as the same for
the same. -/
def Strategy.Respects (reply : Message → Message → Prop) : Strategy → Prop
  | swarm o _ => ∀ ms ms', Forall₂ reply ms ms' → o.converged.any (· ms) = o.converged.any (· ms')
  | mapReduce job => ∀ ms ms', Forall₂ reply ms ms' → job.reduce ms = job.reduce ms'
  | _ => True

theorem Strategy.respects_eq (s : Strategy) : s.Respects Eq := by
  have heq : ∀ ms ms' : List Message, Forall₂ Eq ms ms' → ms = ms' := by
    intro ms ms' h
    rwa [List.forall₂_eq_eq_eq] at h
  cases s with
  | swarm o _ => exact fun ms ms' h => by rw [heq ms ms' h]
  | mapReduce job => exact fun ms ms' h => by rw [heq ms ms' h]
  | supervisor _ _ | pipeline _ | debate _ => trivial

/-- **Every pattern keeps two runs side by side**, up to an output that is the same in both, if the
operations do. How the pieces of a map-reduce run are worked on is up to the pairing. -/
theorem Strategy.joins_run (h : X.Operations peers) (hmembers : Forall₂ peers members members')
    (hunique : (members.map (·.id)).Nodup) {strategy : Strategy}
    (hrespects : strategy.Respects X.reply) (hafter : ∀ x y, X.abreast x y → after x y)
    (hrecord : ∀ m, X.Joins after (Run.recordMessage m) (Run.recordMessage m) Eq) (input : String)
    (hpieces : ∀ job, strategy = .mapReduce job →
      X.Abreast (MapReduce.mapPieces d₁ job.concurrency (MapReduce.plan members (job.split input)))
        (MapReduce.mapPieces d₂ job.concurrency (MapReduce.plan members' (job.split input)))
        (Forall₂ X.reply)) :
    X.Joins after (strategy.run members d₁ input) (strategy.run members' d₂ input) Eq := by
  have hcontent := X.reply_content
  cases strategy with
  | supervisor o maxRounds =>
    have hrounds := Supervisor.abreast_rounds h hmembers hunique o.delegation input maxRounds 0
      (.nil (R := SameReply X.reply))
    refine Joins.weaken (Joins.map hrounds fun replies replies' hreplies => ?_) (fun _ _ h => h)
      hafter
    exact Supervisor.aggregate_eq o.aggregation (voices_eq hcontent hreplies)
  | swarm o maxRounds =>
    refine Joins.weaken (V := Eq) ?_ (fun _ _ h => h) hafter
    refine (h.post "input" input).bind (fun _ => rfl) fun _ _ _ => ?_
    have hrounds := Swarm.abreast_rounds h hmembers hunique hrespects maxRounds 0 input
      (.nil (R := X.reply))
    refine Joins.map hrounds fun last last' hlast => ?_
    exact congrArg ("\n".intercalate ·) (contents_eq hcontent hlast)
  | pipeline o =>
    exact (Pipeline.abreast_steps h hmembers o 0 orchestratorName input).weaken (fun _ _ h => h)
      hafter
  | mapReduce job => exact MapReduce.joins_run h (hpieces job rfl) hrespects hrecord
  | debate o => exact (Debate.abreast_run h hmembers hunique o input).weaken (fun _ _ h => h) hafter

end Ensemble
