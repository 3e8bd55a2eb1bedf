import Ensemble.Network.Registry
import Mathlib.Data.List.Induction

/-!
# Registries and their histories

A registry is the outcome of a history of registrations and removals. What it should then hold can
be read off the history alone: `Stands` says which agent has a name, and `Joined` since when the
name has been known. `Registry.Records` ties a registry to both; one change keeps it
(`Records.changed`), so every history leads to a registry that records it, which
`registry_records_history` states along with what the changes and the look-ups do there.
-/

namespace Ensemble

/-- A change to a registry. -/
inductive Change where
  | registered (a : NetworkAgent)
  | unregistered (name : String)

namespace Change

/-- The name that a change concerns. -/
def name : Change → String
  | registered a => a.name
  | unregistered n => n

/-- The registry after a change. -/
def apply (r : Registry) : Change → Registry
  | registered a => r.register a
  | unregistered n => r.unregister n

end Change

/-- The registry after a history, the oldest change first. -/
def Registry.after (history : List Change) : Registry := history.foldl Change.apply .empty

/-! ## What a history says -/

/-- An agent was registered under a name, and nothing has concerned the name since. -/
def Stands (history : List Change) (name : String) (a : NetworkAgent) : Prop :=
  ∃ before behind, history = before ++ .registered a :: behind ∧ a.name = name ∧
    ∀ c ∈ behind, c.name ≠ name

/-- A name is unknown: every registration under it was followed by a removal. -/
def Absent (history : List Change) (name : String) : Prop :=
  ∀ before a behind, history = before ++ .registered a :: behind → a.name = name →
    .unregistered name ∈ behind

/-- The change at a position registered a name that was unknown, and the name has not been removed
since. -/
def Joined (history : List Change) (name : String) (i : Nat) : Prop :=
  ∃ before a behind, history = before ++ .registered a :: behind ∧ before.length = i ∧
    a.name = name ∧ Absent before name ∧ .unregistered name ∉ behind

/-- A history with one more change breaks at its last change, or where it broke before. -/
theorem concat_eq_append_cons {history before behind : List Change} {c x : Change} :
    history ++ [c] = before ++ x :: behind ↔
      (history = before ∧ c = x ∧ behind = []) ∨
        ∃ behind', behind = behind' ++ [c] ∧ history = before ++ x :: behind' := by
  constructor
  · intro h
    rcases List.eq_nil_or_concat behind with rfl | ⟨behind, last, rfl⟩
    · obtain ⟨rfl, hlast⟩ := List.append_inj' h rfl
      exact .inl ⟨rfl, List.singleton_inj.mp hlast, rfl⟩
    · have hsplit : history ++ [c] = (before ++ x :: behind) ++ [last] := by
        rw [h, List.concat_eq_append, List.append_assoc, List.cons_append]
      obtain ⟨rfl, hlast⟩ := List.append_inj' hsplit rfl
      obtain rfl := List.singleton_inj.mp hlast
      exact .inr ⟨behind, List.concat_eq_append .., rfl⟩
  · rintro (⟨rfl, rfl, rfl⟩ | ⟨behind, rfl, rfl⟩)
    · rfl
    · rw [List.append_assoc, List.cons_append]

section

variable {history : List Change} {c : Change} {name : String} {a : NetworkAgent} {i j : Nat}

/-- The last change decides about the name that it concerns and about no other. -/
theorem stands_concat :
    Stands (history ++ [c]) name a ↔
      if c.name = name then c = .registered a else Stands history name a := by
  constructor
  · rintro ⟨before, behind, heq, hname, hbehind⟩
    rcases concat_eq_append_cons.mp heq with ⟨-, rfl, -⟩ | ⟨behind, rfl, hhistory⟩
    · exact (if_pos hname).mpr rfl
    · rw [if_neg (hbehind c (List.mem_append_right _ List.mem_cons_self))]
      exact ⟨before, behind, hhistory, hname, fun x hx => hbehind x (List.mem_append_left _ hx)⟩
  · intro h
    by_cases hc : c.name = name
    · rw [if_pos hc] at h
      subst h
      exact ⟨history, [], rfl, hc, nofun⟩
    · rw [if_neg hc] at h
      obtain ⟨before, behind, hhistory, hname, hbehind⟩ := h
      refine ⟨before, behind ++ [c], concat_eq_append_cons.mpr (.inr ⟨behind, rfl, hhistory⟩),
        hname, ?_⟩
      intro x hx
      rcases List.mem_append.mp hx with hx | hx
      · exact hbehind x hx
      · exact List.mem_singleton.mp hx ▸ hc

/-- A name under which nobody stands is unknown. -/
theorem absent_of_stands (h : ∀ a, ¬Stands history name a) : Absent history name := by
  induction history using List.reverseRecOn with
  | nil =>
    intro before a behind heq
    exact absurd heq (by simp)
  | append_singleton history c ih =>
    intro before a behind heq hname
    have hlast : ∀ a, c.name = name → c ≠ .registered a := fun a hc heq =>
      h a (stands_concat.mpr ((if_pos hc).mpr heq))
    rcases concat_eq_append_cons.mp heq with ⟨-, rfl, -⟩ | ⟨behind, rfl, hhistory⟩
    · exact absurd rfl (hlast a hname)
    · by_cases hc : c.name = name
      · have hremoved : c = .unregistered name := by
          cases c with
          | registered b => exact absurd rfl (hlast b hc)
          | unregistered n => exact congrArg Change.unregistered hc
        exact List.mem_append_right _ (List.mem_singleton.mpr hremoved.symm)
      · have habsent : Absent history name :=
          ih fun a ha => h a (stands_concat.mpr ((if_neg hc).mpr ha))
        exact List.mem_append_left _ (habsent before a behind hhistory hname)

/-- A name has not been known since two moments: it was known at the later of them. -/
theorem Joined.not_lt (h : Joined history name i) (h' : Joined history name j) : ¬i < j := by
  intro hlt
  obtain ⟨before, a, behind, hhistory, rfl, hname, -, hbehind⟩ := h
  obtain ⟨before', a', behind', hhistory', rfl, -, habsent, -⟩ := h'
  have heq : before ++ .registered a :: behind = before' ++ .registered a' :: behind' :=
    hhistory.symm.trans hhistory'
  obtain ⟨between, rfl⟩ : ∃ between, before' = before ++ .registered a :: between := by
    obtain ⟨l, rfl, hl⟩ | ⟨l, rfl, hl⟩ := List.append_eq_append_iff.mp heq
    · cases l with
      | nil => simp at hlt
      | cons x l =>
        rw [List.cons_append, List.cons_eq_cons] at hl
        exact ⟨l, by rw [← hl.1]⟩
    · rw [List.length_append] at hlt
      omega
  rw [List.append_assoc, List.append_cancel_left_eq, List.cons_append, List.cons_eq_cons] at heq
  refine hbehind (heq.2 ▸ List.mem_append_left _ ?_)
  exact habsent before a between rfl hname

/-- A name has been known since one moment only. -/
theorem Joined.unique (h : Joined history name i) (h' : Joined history name j) : i = j :=
  Nat.le_antisymm (Nat.not_lt.mp (h'.not_lt h)) (Nat.not_lt.mp (h.not_lt h'))

theorem Joined.lt_length (h : Joined history name i) : i < history.length := by
  obtain ⟨before, a, behind, rfl, rfl, -⟩ := h
  simp

/-- A name is known until it is removed. -/
theorem Joined.concat (h : Joined history name i) (hc : c ≠ .unregistered name) :
    Joined (history ++ [c]) name i := by
  obtain ⟨before, a, behind, hhistory, hi, hname, habsent, hbehind⟩ := h
  refine ⟨before, a, behind ++ [c], concat_eq_append_cons.mpr (.inr ⟨behind, rfl, hhistory⟩), hi,
    hname, habsent, fun hmem => ?_⟩
  rcases List.mem_append.mp hmem with hmem | hmem
  · exact hbehind hmem
  · exact hc (List.mem_singleton.mp hmem).symm

theorem joined_last (h : Absent history a.name) :
    Joined (history ++ [.registered a]) a.name history.length :=
  ⟨history, a, [], rfl, rfl, rfl, h, nofun⟩

end

/-! ## What the changes do -/

namespace Registry

variable {r : Registry} {history : List Change} {c : Change}

theorem find?_eq_none {name : String} : r.find? name = none ↔ name ∉ r.names := by
  simp [find?, names]

theorem name_of_find? {name : String} {a : NetworkAgent} (h : r.find? name = some a) :
    a.name = name := by
  have hname := List.find?_some h
  exact of_decide_eq_true hname

theorem names_register (r : Registry) (a : NetworkAgent) :
    (r.register a).names = if a.name ∈ r.names then r.names else r.names ++ [a.name] := by
  rw [names, agents_register]
  split
  · rw [List.map_map, names]
    refine List.map_congr_left fun b _ => ?_
    by_cases hb : b.name = a.name
    · exact (congrArg NetworkAgent.name (if_pos hb)).trans hb.symm
    · exact congrArg NetworkAgent.name (if_neg hb)
  · rw [List.map_append, List.map_singleton, names]

theorem names_unregister (r : Registry) (name : String) :
    (r.unregister name).names = r.names.filter (· ≠ name) := by
  rw [names, agents_unregister, names, List.filter_map]
  rfl

/-- Whoever is replaced has the name of the one who takes the place. -/
theorem filter_replace (a : NetworkAgent) (l : List NetworkAgent) :
    (l.map fun b => if b.name = a.name then a else b).filter (·.name ≠ a.name) =
      l.filter (·.name ≠ a.name) := by
  induction l with
  | nil => rfl
  | cons b l ih =>
    by_cases hb : b.name = a.name
    · rw [List.map_cons, if_pos hb, List.filter_cons_of_neg (by simp),
        List.filter_cons_of_neg (by simpa using hb), ih]
    · rw [List.map_cons, if_neg hb, List.filter_cons_of_pos (by simpa using hb),
        List.filter_cons_of_pos (by simpa using hb), ih]

/-- A change leaves the agents that it does not concern as they are, and in their order. -/
theorem filter_apply (r : Registry) (c : Change) :
    (c.apply r).agents.filter (·.name ≠ c.name) = r.agents.filter (·.name ≠ c.name) := by
  cases c with
  | unregistered n =>
    rw [Change.apply, agents_unregister, List.filter_filter]
    exact List.filter_congr fun a _ => Bool.and_self _
  | registered a =>
    rw [Change.apply, agents_register]
    split
    · exact filter_replace a r.agents
    · have hnew : [a].filter (·.name ≠ a.name) = [] := by simp
      rw [List.filter_append, Change.name, hnew, List.append_nil]

/-- A registry holds what a history says: the agents that stand, in the order in which their names
have joined. -/
structure Records (r : Registry) (history : List Change) : Prop where
  stands : ∀ name a, r.find? name = some a ↔ Stands history name a
  joined : ∀ n ∈ r.names, ∃ i, Joined history n i
  ordered : r.names.Pairwise fun n m => ∀ i j, Joined history n i → Joined history m j → i < j

theorem records_empty : empty.Records [] where
  stands name a := ⟨nofun, fun ⟨before, behind, heq, _⟩ => absurd heq (by simp)⟩
  joined := nofun
  ordered := .nil

/-- A name that a change leaves in the registry has been known since the same moment as before. -/
theorem Records.joined_concat (h : r.Records history) {n : String} (hn : n ∈ r.names)
    (hc : c ≠ .unregistered n) {i : Nat} : Joined (history ++ [c]) n i ↔ Joined history n i := by
  constructor
  · intro hi
    obtain ⟨i₀, hi₀⟩ := h.joined n hn
    rwa [hi.unique (hi₀.concat hc)]
  · exact fun hi => hi.concat hc

theorem Records.absent (h : r.Records history) {n : String} (hn : n ∉ r.names) :
    Absent history n := by
  refine absent_of_stands fun a ha => ?_
  rw [← h.stands, find?_eq_none.mpr hn] at ha
  cases ha

theorem Records.ordered_concat (h : r.Records history) {ns : List String}
    (hns : ns.Sublist r.names) (hc : ∀ n ∈ ns, c ≠ .unregistered n) :
    ns.Pairwise fun n m => ∀ i j, Joined (history ++ [c]) n i → Joined (history ++ [c]) m j →
      i < j := by
  refine (h.ordered.sublist hns).imp_of_mem fun hn hm hnm i j hi hj => hnm i j ?_ ?_
  · exact (h.joined_concat (hns.subset hn) (hc _ hn)).mp hi
  · exact (h.joined_concat (hns.subset hm) (hc _ hm)).mp hj

theorem Records.registered (h : r.Records history) (a : NetworkAgent) :
    (r.register a).Records (history ++ [.registered a]) := by
  have hstays : ∀ n, Change.registered a ≠ .unregistered n := nofun
  refine ⟨fun name b => ?_, ?_, ?_⟩
  · rw [find?_register, stands_concat]
    by_cases hname : a.name = name
    · rw [if_pos hname.symm]
      refine Iff.trans ?_ (iff_of_eq (if_pos hname)).symm
      exact ⟨fun hb => congrArg Change.registered (Option.some.inj hb),
        fun hb => congrArg some (Change.registered.inj hb)⟩
    · rw [if_neg (Ne.symm hname), h.stands]
      exact (iff_of_eq (if_neg hname)).symm
  · intro n hn
    rw [names_register] at hn
    by_cases hold : n ∈ r.names
    · obtain ⟨i, hi⟩ := h.joined n hold
      exact ⟨i, hi.concat (hstays n)⟩
    · obtain rfl : n = a.name := by
        split at hn
        · exact absurd hn hold
        · exact (List.mem_append.mp hn).elim (fun hn => absurd hn hold) List.mem_singleton.mp
      exact ⟨history.length, joined_last (h.absent hold)⟩
  · rw [names_register]
    split
    · exact h.ordered_concat (List.Sublist.refl _) fun n _ => hstays n
    · next hnew =>
      refine List.pairwise_append.mpr ⟨h.ordered_concat (List.Sublist.refl _) fun n _ => hstays n,
        List.pairwise_singleton _ _, fun n hn m hm i j hi hj => ?_⟩
      obtain rfl := List.mem_singleton.mp hm
      obtain rfl := hj.unique (joined_last (h.absent hnew))
      exact ((h.joined_concat hn (hstays n)).mp hi).lt_length

theorem Records.unregistered (h : r.Records history) (name : String) :
    (r.unregister name).Records (history ++ [.unregistered name]) := by
  have hkept : (r.unregister name).names.Sublist r.names :=
    names_unregister r name ▸ List.filter_sublist
  have hstays : ∀ n ∈ (r.unregister name).names, Change.unregistered name ≠ .unregistered n := by
    intro n hn heq
    rw [names_unregister] at hn
    exact of_decide_eq_true (List.mem_filter.mp hn).2 (Change.unregistered.inj heq).symm
  refine ⟨fun n a => ?_, fun n hn => ?_, h.ordered_concat hkept hstays⟩
  · rw [find?_unregister, stands_concat]
    by_cases hname : name = n
    · rw [if_pos hname.symm]
      exact (iff_of_false nofun nofun).trans (iff_of_eq (if_pos hname)).symm
    · rw [if_neg (Ne.symm hname), h.stands]
      exact (iff_of_eq (if_neg hname)).symm
  · obtain ⟨i, hi⟩ := h.joined n (hkept.subset hn)
    exact ⟨i, hi.concat (hstays n hn)⟩

/-- A change keeps a registry what its history says. -/
theorem Records.changed (h : r.Records history) (c : Change) :
    (c.apply r).Records (history ++ [c]) := by
  cases c with
  | registered a => exact h.registered a
  | unregistered name => exact h.unregistered name

theorem records_after (history : List Change) : (after history).Records history := by
  induction history using List.reverseRecOn with
  | nil => exact records_empty
  | append_singleton history c ih =>
    rw [after, List.foldl_append]
    exact ih.changed c

/-! ## Discovery -/

/-- The agents of a list that have a property, in their order. -/
def Picked (l : List NetworkAgent) (p : NetworkAgent → Prop) (picked : List NetworkAgent) : Prop :=
  picked.Sublist l ∧ ∀ a, a ∈ picked ↔ a ∈ l ∧ p a

theorem hasAll_iff {a : NetworkAgent} {capabilities : List String} :
    a.hasAll capabilities = true ↔ ∀ x ∈ capabilities, x ∈ a.capabilities := by
  simp [NetworkAgent.hasAll]

theorem mem_discover {r : Registry} {capabilities : List String} {a : NetworkAgent} :
    a ∈ r.discover capabilities ↔ a ∈ r.agents ∧ ∀ x ∈ capabilities, x ∈ a.capabilities :=
  List.mem_filter.trans (and_congr_right fun _ => hasAll_iff)

theorem picked_discover (r : Registry) (capabilities : List String) :
    Picked r.agents (fun a => ∀ x ∈ capabilities, x ∈ a.capabilities) (r.discover capabilities) :=
  ⟨List.filter_sublist, fun _ => mem_discover⟩

/-- Whoever has the capabilities of two lists has those of each. -/
theorem discover_append (r : Registry) (capabilities more : List String) :
    r.discover (capabilities ++ more) = (r.discover capabilities).filter (·.hasAll more) := by
  rw [discover, discover, List.filter_filter]
  refine List.filter_congr fun a _ => ?_
  rw [NetworkAgent.hasAll, List.all_append, Bool.and_comm]
  rfl

theorem picked_discover_append (r : Registry) (capabilities more : List String) :
    Picked (r.discover capabilities) (· ∈ r.discover more) (r.discover (capabilities ++ more)) := by
  rw [discover_append]
  refine ⟨List.filter_sublist, fun a => List.mem_filter.trans (and_congr_right fun ha => ?_)⟩
  exact hasAll_iff.trans (mem_discover.trans (and_iff_right (mem_discover.mp ha).1)).symm

/-- **A registry is what its history says.** After any history of registrations and removals the
names are distinct, a look-up finds the agent most recently registered under the name since its last
removal, and the agents stand in the order in which their names have joined. A registration replaces
the agent of its name where it stands or comes last; a removal hands over what the look-up finds and
takes away nothing else. Discovery picks the agents that declare all capabilities, in that order. -/
theorem registry_records_history (history : List Change) :
    let r := after history
    r.names.Nodup ∧
    (∀ name a, r.find? name = some a ↔ Stands history name a) ∧
    (∀ n ∈ r.names, ∃ i, Joined history n i) ∧
    (r.names.Pairwise fun n m => ∀ i j, Joined history n i → Joined history m j → i < j) ∧
    (∀ a, (r.register a).agents =
      if a.name ∈ r.names then r.agents.map fun b => if b.name = a.name then a else b
      else r.agents ++ [a]) ∧
    (∀ name, r.withdraw name = (r.find? name, r.unregister name) ∧
      (r.unregister name).agents = r.agents.filter (·.name ≠ name)) ∧
    (∀ c, (Change.apply r c).agents.filter (·.name ≠ c.name) = r.agents.filter (·.name ≠ c.name)) ∧
    (∀ capabilities, Picked r.agents (fun a => ∀ x ∈ capabilities, x ∈ a.capabilities)
      (r.discover capabilities)) ∧
    r.discover [] = r.agents ∧
    ∀ capabilities more, Picked (r.discover capabilities) (· ∈ r.discover more)
      (r.discover (capabilities ++ more)) := by
  intro r
  have hrecords : r.Records history := records_after history
  have hall : r.discover [] = r.agents := List.filter_eq_self.mpr fun _ _ => rfl
  exact ⟨r.distinct, hrecords.stands, hrecords.joined, hrecords.ordered, r.agents_register,
    fun name => ⟨Prod.ext (r.withdraw_fst name) rfl, r.agents_unregister name⟩, r.filter_apply,
    r.picked_discover, hall, r.picked_discover_append⟩

end Registry

end Ensemble
