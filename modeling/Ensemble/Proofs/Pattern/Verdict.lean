import Ensemble.Proofs.Consensus.Plurality
import Ensemble.Proofs.Pattern.Debate

/-!
# How a debate ends

The verdict of a debate is the judge's reply, what most debaters have replied in the last round, or
what all of them have. `Decides` says each without the program, which compares lists of replies and
their lengths: that all debaters agree, `Agreed`, is said of their calls. Where there is no verdict,
what was said last is the output; it is never mistaken for a verdict of the debaters, since
attributed replies are longer than each of them.
-/

namespace Ensemble

open Run

/-! ## Replies of a round -/

namespace Call

theorem success?_eq_some_iff {c : Call} {m : Message} : c.success? = some m ↔ c.answer = .ok m := by
  obtain ⟨d, answer⟩ := c
  cases answer <;> simp [success?]

theorem success?_eq_none_iff {c : Call} : c.success? = none ↔ ∃ e, c.answer = .error e := by
  obtain ⟨d, answer⟩ := c
  cases answer <;> simp [success?]

end Call

theorem reply?_eq_some_iff {group : List Call} (hunique : (group.map (·.id)).Nodup) {id : String}
    {m : Message} : reply? group id = some m ↔ ∃ c ∈ group, c.id = id ∧ c.answer = .ok m := by
  constructor
  · intro h
    obtain ⟨c, hfound, hsuccess⟩ := Option.bind_eq_some_iff.mp h
    exact ⟨c, List.mem_of_find?_eq_some hfound, by simpa using List.find?_some hfound,
      Call.success?_eq_some_iff.mp hsuccess⟩
  · rintro ⟨c, hc, rfl, hanswer⟩
    rw [reply?_of_mem hunique hc]
    exact Call.success?_eq_some_iff.mpr hanswer

theorem mem_replies {ids : List String} {group : List Call} {r : String × Message} :
    r ∈ replies ids group ↔ r.1 ∈ ids ∧ reply? group r.1 = some r.2 := by
  obtain ⟨id, m⟩ := r
  simp only [replies, List.mem_filterMap, Option.map_eq_some_iff, Prod.mk.injEq]
  constructor
  · rintro ⟨id, hid, m, hreply, rfl, rfl⟩
    exact ⟨hid, hreply⟩
  · rintro ⟨hid, hreply⟩
    exact ⟨id, hid, m, hreply, rfl, rfl⟩

/-- There are as many replies as participants if everyone has replied. -/
theorem length_replies_iff {ids : List String} {group : List Call} :
    (replies ids group).length = ids.length ↔ ∀ id ∈ ids, ∃ m, reply? group id = some m := by
  simp only [replies, List.filterMap_length_eq_length, Option.isSome_map,
    Option.isSome_iff_exists]

/-! ## Something or what stands in for it -/

section

variable {α : Type} {x? : Option α} {d x : α}

theorem eq_some_iff_getD (h : ∀ x, x? = some x → x ≠ d) : x? = some x ↔ x?.getD d = x ∧ x ≠ d := by
  cases x? with
  | none => simpa using fun hx : d = x => hx.symm
  | some y =>
    constructor
    · rintro ⟨⟩
      exact ⟨rfl, h x rfl⟩
    · rintro ⟨rfl, -⟩
      rfl

theorem getD_eq_default_iff (h : ∀ x, x? = some x → x ≠ d) : x?.getD d = d ↔ x? = none := by
  cases x? with
  | none => simp
  | some y => simpa using h y rfl

end

/-! ## Joined texts -/

theorem sublist_intercalate {α : Type} {sep part : List α} {parts : List (List α)}
    (h : part ∈ parts) : part.Sublist (sep.intercalate parts) := by
  induction parts with
  | nil => cases h
  | cons x rest ih =>
    cases rest with
    | nil =>
      rw [List.mem_singleton.mp h, List.intercalate_singleton]
    | cons y rest =>
      rw [List.intercalate_cons_cons]
      rcases List.mem_cons.mp h with rfl | h
      · rw [List.append_assoc]
        exact List.sublist_append_left _ _
      · exact (ih h).trans (List.sublist_append_right _ _)

namespace Debate

/-- Attributed replies are longer than each of the replies. -/
theorem ne_joinAttributed {replies : List (String × Message)} {r : String × Message}
    (hr : r ∈ replies) : r.2.content ≠ joinAttributed replies := by
  intro heq
  -- its line is part of the text, and its line is longer than the reply
  have hline : ("[" ++ r.1 ++ "]: " ++ r.2.content).toList.Sublist
      (joinAttributed replies).toList := by
    rw [joinAttributed, String.toList_intercalate, List.map_map]
    exact sublist_intercalate (List.mem_map.mpr ⟨r, hr, rfl⟩)
  have hlength := hline.length_le
  rw [← heq] at hlength
  simp only [String.toList_append, List.length_append] at hlength
  have hbracket : "[".toList.length = 1 := rfl
  omega

/-- Replies of the last round are what was said last. -/
theorem contextOf_of_replied {ids : List String} {legs : List Leg} (input : String)
    (h : lastReplies ids legs ≠ []) :
    contextOf ids input legs = joinAttributed (lastReplies ids legs) := by
  rcases List.eq_nil_or_concat legs with rfl | ⟨earlier, l, rfl⟩
  · exact absurd rfl h
  · rw [List.concat_eq_append] at h ⊢
    rw [lastReplies_concat] at h ⊢
    rw [contextOf_concat, nextContext, if_neg (by simpa using h)]

/-- No reply of the last round is what was said last. -/
theorem ne_contextOf {ids : List String} {legs : List Leg} (input : String)
    {r : String × Message} (hr : r ∈ lastReplies ids legs) :
    r.2.content ≠ contextOf ids input legs := by
  rw [contextOf_of_replied input (List.ne_nil_of_mem hr)]
  exact ne_joinAttributed hr

/-! ## Votes -/

theorem unanimous?_eq_some_iff {replies : List (String × Message)} {n : Nat} {x : String} :
    unanimous? replies n = some x ↔
      replies ≠ [] ∧ replies.length = n ∧ ∀ r ∈ replies, r.2.content = x := by
  cases replies with
  | nil => simp [unanimous?]
  | cons r rest =>
    simp only [unanimous?, Option.ite_none_right_eq_some, Option.some.injEq, List.all_eq_true,
      beq_iff_eq]
    constructor
    · rintro ⟨⟨hlength, hall⟩, rfl⟩
      exact ⟨List.cons_ne_nil _ _, hlength, hall⟩
    · rintro ⟨-, hlength, hall⟩
      obtain rfl := hall r List.mem_cons_self
      exact ⟨⟨hlength, hall⟩, rfl⟩

theorem exists_majority {replies : List (String × Message)} (h : replies ≠ []) :
    ∃ before winner after, replies = before ++ winner :: after ∧
      Foremost (replies.map fun r => Text.trim r.2.content) before.length
        (Text.trim winner.2.content) ∧
      majority? replies = some winner.2.content := by
  obtain ⟨before, winner, after, rfl, hplurality, hforemost⟩ :=
    exists_winner (fun r : String × Message => Text.trim r.2.content) h
  refine ⟨before, winner, after, rfl, hforemost, ?_⟩
  rw [majority?, Consensus.evaluate, List.map_map]
  simp only [Function.comp_def, hplurality]
  simp

theorem majority?_eq_none_iff {replies : List (String × Message)} :
    majority? replies = none ↔ replies = [] := by
  constructor
  · intro hnone
    by_contra hne
    obtain ⟨-, winner, -, -, -, hwinner⟩ := exists_majority hne
    rw [hnone] at hwinner
    cases hwinner
  · rintro rfl
    rfl

section

variable {ids : List String} {legs : List Leg} (input : String) {x : String}

theorem majority?_ne_contextOf (h : majority? (lastReplies ids legs) = some x) :
    x ≠ contextOf ids input legs := by
  have hne : lastReplies ids legs ≠ [] := fun hnil => by
    rw [majority?_eq_none_iff.mpr hnil] at h
    cases h
  obtain ⟨before, winner, after, hlast, -, hwinner⟩ := exists_majority hne
  obtain rfl : winner.2.content = x := Option.some.inj (hwinner.symm.trans h)
  refine ne_contextOf input ?_
  rw [hlast]
  exact List.mem_append_right _ List.mem_cons_self

theorem unanimous?_ne_contextOf {n : Nat} (h : unanimous? (lastReplies ids legs) n = some x) :
    x ≠ contextOf ids input legs := by
  obtain ⟨hne, -, hall⟩ := unanimous?_eq_some_iff.mp h
  obtain ⟨r, hr⟩ := List.exists_mem_of_ne_nil _ hne
  rw [← hall r hr]
  exact ne_contextOf input hr

end

/-- A judge that was called has replied or has failed. -/
theorem verdict_cases {verdict : List Call} (h : verdict.length ≤ 1) :
    (∃ c reply, verdict = [c] ∧ c.answer = .ok reply ∧
      verdict.head?.bind (·.success?) = some reply) ∨
    (∀ c ∈ verdict, ∃ e, c.answer = .error e) ∧ verdict.head?.bind (·.success?) = none := by
  rcases verdict with _ | ⟨c, _ | ⟨c', rest⟩⟩
  · exact .inr ⟨by simp, rfl⟩
  · cases hanswer : c.answer with
    | ok reply => exact .inl ⟨c, reply, rfl, hanswer, Call.success?_eq_some_iff.mpr hanswer⟩
    | error e =>
      exact .inr ⟨by simpa using ⟨e, hanswer⟩, Call.success?_eq_none_iff.mpr ⟨e, hanswer⟩⟩
  · simp at h

/-- That there are as many replies as participants, all the same, says that everyone has given this
one. -/
theorem unanimous?_replies_iff {ids : List String} {group : List Call} {x : String} :
    unanimous? (replies ids group) ids.length = some x ↔
      ids ≠ [] ∧ ∀ id ∈ ids, ∃ reply, reply? group id = some reply ∧ reply.content = x := by
  rw [unanimous?_eq_some_iff, length_replies_iff]
  constructor
  · rintro ⟨hne, hreplied, hall⟩
    refine ⟨?_, fun id hid => ?_⟩
    · rintro rfl
      exact hne rfl
    · obtain ⟨reply, hreply⟩ := hreplied id hid
      exact ⟨reply, hreply, hall (id, reply) (mem_replies.mpr ⟨hid, hreply⟩)⟩
  · rintro ⟨hne, hsame⟩
    refine ⟨?_, fun id hid => (hsame id hid).imp fun _ h => h.1, ?_⟩
    · obtain ⟨id, hid⟩ := List.exists_mem_of_ne_nil ids hne
      obtain ⟨reply, hreply, -⟩ := hsame id hid
      exact List.ne_nil_of_mem (mem_replies (r := (id, reply)).mpr ⟨hid, hreply⟩)
    · rintro ⟨id, reply⟩ hr
      obtain ⟨hid, hgiven⟩ := mem_replies.mp hr
      obtain ⟨reply', hreply, hcontent⟩ := hsame id hid
      obtain rfl : reply' = reply := Option.some.inj (hreply.symm.trans hgiven)
      exact hcontent

/-- All debaters have replied the same in the last round. -/
structure Agreed (arguing : List Member) (legs : List Leg) (x : String) : Prop where
  nonempty : arguing ≠ []
  replied : ∃ l, legs.getLast? = some l ∧ ∀ m ∈ arguing, ∃ c ∈ l.calls, c.id = m.id ∧
    ∃ reply, c.answer = .ok reply ∧ reply.content = x

theorem unanimous?_iff_agreed {arguing : List Member} {ids : List String} {legs : List Leg}
    (hasked : (arguing.map (·.id)).Sublist ids) (hunique : ids.Nodup)
    (hcalled : ∀ l ∈ legs, ∀ c ∈ l.calls, c.id ∈ arguing.map (·.id))
    (honce : ∀ l ∈ legs, (l.calls.map (·.id)).Nodup) {x : String} :
    unanimous? (lastReplies ids legs) arguing.length = some x ↔ Agreed arguing legs x := by
  cases hlast : legs.getLast? with
  | none =>
    constructor
    · simp [lastReplies, hlast, unanimous?]
    · rintro ⟨-, l, hl, -⟩
      rw [hlast] at hl
      cases hl
  | some l =>
    have hl : l ∈ legs := List.mem_of_getLast? hlast
    -- nobody else was called in the round, so there are no more replies than those of the debaters
    have hreplies : lastReplies ids legs = replies (arguing.map (·.id)) l.calls := by
      rw [lastReplies, hlast]
      exact replies_of_sublist hasked hunique (hcalled l hl)
    rw [hreplies, ← List.length_map (fun m : Member => m.id), unanimous?_replies_iff]
    simp only [reply?_eq_some_iff (honce l hl), List.forall_mem_map, ne_eq, List.map_eq_nil_iff]
    constructor
    · rintro ⟨hne, hsame⟩
      refine ⟨hne, l, hlast, fun m hm => ?_⟩
      obtain ⟨reply, ⟨c, hc, hid, hanswer⟩, hcontent⟩ := hsame m hm
      exact ⟨c, hc, hid, reply, hanswer, hcontent⟩
    · rintro ⟨hne, l', hl', hsame⟩
      obtain rfl : l = l' := Option.some.inj (hlast.symm.trans hl')
      refine ⟨hne, fun m hm => ?_⟩
      obtain ⟨c, hc, hid, reply, hanswer, hcontent⟩ := hsame m hm
      exact ⟨reply, ⟨c, hc, hid, hanswer⟩, hcontent⟩

/-! ## What it comes to -/

/-- How a debate ends: what it comes to with the rounds given and the calls that asked for the
verdict, where `last` are the replies of the last round and `context` is what was said last. -/
structure Decides (p : DebateOptions) (arguing : List Member) (legs : List Leg)
    (verdict : List Call) (last : List (String × Message)) (context output : String) : Prop where
  judge : p.voting = .judge →
    (∃ c reply, verdict = [c] ∧ p.judge = some c.id ∧ c.answer = .ok reply ∧
      output = reply.content) ∨
    (∀ c ∈ verdict, ∃ e, c.answer = .error e) ∧ output = context
  /-- The reply that most debaters have given, but for blanks at its ends, and of those that tie the
  one of the debater that was registered first. -/
  majority : p.voting = .majority → last ≠ [] → ∃ before winner after,
    last = before ++ winner :: after ∧
    Foremost (last.map fun r => Text.trim r.2.content) before.length
      (Text.trim winner.2.content) ∧
    output = winner.2.content
  silence : p.voting = .majority → (output = context ↔ last = [])
  unanimous : p.voting = .unanimous → ∀ x, Agreed arguing legs x ↔ output = x ∧ x ≠ context
  discord : p.voting = .unanimous → (∀ x, ¬Agreed arguing legs x) → output = context

theorem Held.decides {p : DebateOptions} {deadline : Deadline} {members : List Member}
    {input : String} {start : Instant} {legs : List Leg} {verdict : List Call} {output : String}
    {r r' : RunState} (h : Held p deadline members input start legs verdict output r r')
    (hunique : (members.map (·.id)).Nodup)
    (hproceeds : Proceeds p deadline members input start r'.journal.toList legs verdict) :
    Decides p (debaters p members) legs verdict (lastReplies (members.map (·.id)) legs)
      (contextOf (members.map (·.id)) input legs) output := by
  have houtput := h.output_eq
  have hagreed : ∀ x, unanimous? (lastReplies (members.map (·.id)) legs)
      (debaters p members).length = some x ↔ Agreed (debaters p members) legs x := by
    intro x
    refine unanimous?_iff_agreed (List.filter_sublist.map fun m : Member => m.id) hunique ?_
      hproceeds.rounds.once
    intro l hl c hc
    obtain ⟨k, hk⟩ := List.getElem?_of_mem hl
    obtain ⟨m, hm, hdispatch⟩ := List.mem_map.mp (hproceeds.rounds.called k l hk c hc)
    rw [Call.id, ← hdispatch]
    exact List.mem_map_of_mem hm
  refine ⟨fun hvoting => ?_, fun hvoting hne => ?_, fun hvoting => ?_, fun hvoting x => ?_,
    fun hvoting hnone => ?_⟩ <;> rw [hvoting, ruling?] at houtput
  · rcases verdict_cases hproceeds.atMostOnce with ⟨c, reply, rfl, hanswer, hreply⟩ | ⟨hall, hnone⟩
    · rw [hreply] at houtput
      exact .inl ⟨c, reply, rfl, (hproceeds.judges c List.mem_cons_self).2.1, hanswer, houtput⟩
    · rw [hnone] at houtput
      exact .inr ⟨hall, houtput⟩
  · obtain ⟨before, winner, after, hlast, hforemost, hwinner⟩ := exists_majority hne
    rw [hwinner] at houtput
    exact ⟨before, winner, after, hlast, hforemost, houtput⟩
  · rw [← majority?_eq_none_iff, houtput]
    exact getD_eq_default_iff fun _ => majority?_ne_contextOf input
  · rw [← hagreed x, houtput]
    exact eq_some_iff_getD fun _ => unanimous?_ne_contextOf input
  · rw [houtput, getD_eq_default_iff fun _ => unanimous?_ne_contextOf input]
    exact Option.eq_none_iff_forall_ne_some.mpr fun x hx => hnone x ((hagreed x).mp hx)

end Debate

namespace Orchestration

open Debate

variable {members : List Member} {options : Options} {o : Orchestration} {reader : Reader}

/-- **A debate ends in its verdict.** Read to its end, a run of a debate shows its rounds. A judge
who was called and has replied has the last word. A majority is that of the replies of the last
round, compared without the blanks at their ends, and its first reply is the output as it was given.
Debaters agree if all of them, of whom there has to be one, were called in the last round and have
replied the same. In all other cases the output is what was said last. -/
theorem debate_ends_in_verdict {p : DebateOptions} (h : build members options = .ok o)
    (hp : options.pattern = .debate p) (stamp : RunStamp) (hreader : reader.take = none)
    (input : String) (w : World) :
    ∃ result legs verdict,
      Aired (o.stream stamp reader input w).2 result legs verdict ∧
      (reader = {} → (o.execute stamp input w).2 = result) ∧
      Decides p (members.filter fun m => p.judge ≠ some m.id) legs verdict
        (lastReplies (members.map (·.id)) legs) (contextOf (members.map (·.id)) input legs)
        result.output := by
  obtain ⟨result, legs, verdict, r, hends, hheld⟩ := debate_reading h hp stamp hreader input w
  obtain ⟨ho, rfl⟩ := accepted_of_build h
  refine ⟨result, legs, verdict, airs_debate hends hheld, ?_, hheld.decides ho.unique
    (hheld.proceeds (reading_permitted ho stamp hends.concluded))⟩
  rintro rfl
  exact execute_of_ends hends

/-- A jury of three: two find the same, in words that differ in a blank, and one of them is late. -/
def jury : Except Error Orchestration :=
  ofParticipants
    [.simple ⟨"first", "", ""⟩ fun _ m => { outcome := .ok { m with content := "not guilty" } },
      .simple ⟨"late", "", ""⟩ fun _ m =>
        { delay := 5, outcome := .ok { m with content := " guilty" } },
      .simple ⟨"third", "", ""⟩ fun _ m => { outcome := .ok { m with content := "guilty" } }]
    { pattern := .debate { rounds := 1, voting := .majority } }

/-- They find by majority. -/
theorem debate_ends_in_verdict_jury :
    ∃ o, jury = .ok o ∧ ∃ result legs verdict,
      Aired (o.stream default {} "case" .fresh).2 result legs verdict ∧
      (o.execute default "case" .fresh).2 = result ∧
      Decides { rounds := 1, voting := .majority } o.members legs verdict (lastReplies o.ids legs)
        (contextOf o.ids "case" legs) result.output := by
  obtain ⟨o, h⟩ : ∃ o, jury = .ok o := ⟨_, rfl⟩
  obtain ⟨result, legs, verdict, haired, hexecute, hdecides⟩ :=
    debate_ends_in_verdict h rfl default (show Reader.take {} = none from rfl) "case" .fresh
  refine ⟨o, h, result, legs, verdict, haired, hexecute rfl, ?_⟩
  cases h
  exact hdecides

end Orchestration

end Ensemble
