import Ensemble.Duration
import Ensemble.Json.Basic

/-!
# Agents and their registry

An agent has a name and declares capabilities. A registry lists agents by when their names were
first registered: `find?_register` and `find?_unregister` say what the two changes do to every
look-up, `agents_register` and `agents_unregister` what they do to the list.
-/

namespace Ensemble

/-- An agent and what it declares. -/
structure NetworkAgent where
  name : String
  capabilities : List String
  metadata : Option Metadata := none

namespace NetworkAgent

/-- The agent with one more metadata entry. -/
def withMetadata (a : NetworkAgent) (key : String) (value : Json) : NetworkAgent :=
  { a with metadata := some ((a.metadata.getD Dict.empty).insert key value) }

/-- Whether the agent declares all of some capabilities. -/
def hasAll (a : NetworkAgent) (capabilities : List String) : Bool :=
  capabilities.all a.capabilities.contains

end NetworkAgent

/-- The agents of a network, at most one of each name. -/
structure Registry where
  agents : List NetworkAgent
  distinct : (agents.map (·.name)).Nodup

namespace Registry

/-- The names of the agents, in their order. -/
def names (r : Registry) : List String := r.agents.map (·.name)

/-- The registry without agents. -/
def empty : Registry := ⟨[], List.nodup_nil⟩

/-- Replaces the agent of the same name where it stands, or adds a new one at the end. -/
def put (a : NetworkAgent) : List NetworkAgent → List NetworkAgent
  | [] => [a]
  | b :: rest => if b.name = a.name then a :: rest else b :: put a rest

theorem mem_names_put {a : NetworkAgent} {l : List NetworkAgent} {n : String}
    (h : n ∈ (put a l).map (·.name)) : n = a.name ∨ n ∈ l.map (·.name) := by
  induction l with
  | nil => simpa [put] using h
  | cons b rest ih =>
    simp only [put] at h
    split at h
    · next hb =>
      rcases List.mem_cons.mp h with h | h
      · exact Or.inl h
      · exact Or.inr (List.mem_cons_of_mem _ h)
    · rcases List.mem_cons.mp h with h | h
      · exact Or.inr (h ▸ List.mem_cons_self)
      · exact (ih h).imp_right (List.mem_cons_of_mem _)

theorem nodup_put (a : NetworkAgent) {l : List NetworkAgent} (h : (l.map (·.name)).Nodup) :
    ((put a l).map (·.name)).Nodup := by
  induction l with
  | nil => simp [put]
  | cons b rest ih =>
    have hb := List.nodup_cons.mp h
    simp only [put]
    split
    · next heq => exact List.nodup_cons.mpr ⟨by simpa [heq] using hb.1, hb.2⟩
    · next hne =>
      refine List.nodup_cons.mpr ⟨fun hm => ?_, ih hb.2⟩
      rcases mem_names_put hm with hn | hn
      · exact hne hn
      · exact hb.1 hn

/-- Registers an agent; one of the same name is replaced and keeps its place. -/
def register (r : Registry) (a : NetworkAgent) : Registry :=
  ⟨put a r.agents, nodup_put a r.distinct⟩

/-- The agent of a name. -/
def find? (r : Registry) (name : String) : Option NetworkAgent :=
  r.agents.find? fun a => a.name = name

/-- Removes the agent of a name from where it stands, if there is one, and hands it over. -/
def withdraw (r : Registry) (name : String) : Option NetworkAgent × Registry :=
  match r.agents.findIdx? fun a => a.name = name with
  | none => (none, r)
  | some i =>
    (r.agents[i]?, ⟨r.agents.eraseIdx i,
      r.distinct.sublist (List.Sublist.map _ (List.eraseIdx_sublist r.agents i))⟩)

/-- The registry without the agent of a name. -/
def unregister (r : Registry) (name : String) : Registry := (r.withdraw name).2

/-- The agents that declare all of some capabilities. -/
def discover (r : Registry) (capabilities : List String) : List NetworkAgent :=
  r.agents.filter (·.hasAll capabilities)

/-- The number of agents. -/
def size (r : Registry) : Nat := r.agents.length

theorem find?_put (a : NetworkAgent) (name : String) (l : List NetworkAgent) :
    (put a l).find? (fun b => b.name = name) =
      if name = a.name then some a else l.find? (fun b => b.name = name) := by
  induction l with
  | nil =>
    by_cases h : name = a.name
    · simp [put, h]
    · simp [put, h, Ne.symm h]
  | cons b rest ih =>
    simp only [put]
    by_cases hb : b.name = a.name
    · by_cases h : name = a.name
      · simp [hb, h]
      · simp [hb, h, Ne.symm h]
    · by_cases h : b.name = name
      · have hn : ¬name = a.name := fun hn => hb (h.trans hn)
        simp [h, hn]
      · simp only [if_neg hb, List.find?_cons, h, decide_false, ih]

/-- A registration is seen under its own name and changes no other. -/
@[simp] theorem find?_register (r : Registry) (a : NetworkAgent) (name : String) :
    (r.register a).find? name = if name = a.name then some a else r.find? name :=
  find?_put a name r.agents

/-- Of a list with distinct names the first agent of a name is the only one that goes with it. -/
theorem eraseP_eq_filter {l : List NetworkAgent} (h : (l.map (·.name)).Nodup) (name : String) :
    l.eraseP (fun a => a.name = name) = l.filter fun a => a.name ≠ name := by
  induction l with
  | nil => rfl
  | cons a rest ih =>
    obtain ⟨ha, hrest⟩ := List.nodup_cons.mp h
    by_cases hname : a.name = name
    · have hothers : ∀ b ∈ rest, b.name ≠ name := fun b hb heq =>
        ha (List.mem_map.mpr ⟨b, hb, heq.trans hname.symm⟩)
      have hkept : rest.filter (fun b => b.name ≠ name) = rest :=
        List.filter_eq_self.mpr fun b hb => decide_eq_true (hothers b hb)
      rw [List.eraseP_cons_of_pos (by simpa using hname),
        List.filter_cons_of_neg (by simpa using hname), hkept]
    · rw [List.eraseP_cons_of_neg (by simpa using hname),
        List.filter_cons_of_pos (by simpa using hname), ih hrest]

/-- What is handed over is the agent that was found before. -/
theorem withdraw_fst (r : Registry) (name : String) : (r.withdraw name).1 = r.find? name := by
  rw [find?, List.find?_eq_bind_findIdx?_getElem?, withdraw]
  cases r.agents.findIdx? fun a => a.name = name <;> rfl

theorem agents_unregister (r : Registry) (name : String) :
    (r.unregister name).agents = r.agents.filter fun a => a.name ≠ name := by
  rw [← eraseP_eq_filter r.distinct, List.eraseP_eq_eraseIdx, unregister, withdraw]
  cases r.agents.findIdx? fun a => a.name = name <;> rfl

/-- After its removal a name is unknown; every other name is as it was. -/
@[simp] theorem find?_unregister (r : Registry) (removed name : String) :
    (r.unregister removed).find? name = if name = removed then none else r.find? name := by
  rw [find?, agents_unregister, List.find?_filter]
  by_cases h : name = removed
  · subst h
    simp
  · rw [if_neg h, find?]
    congr 1
    funext a
    by_cases ha : a.name = name
    · simp [ha, h]
    · simp [ha]

theorem put_of_notMem {a : NetworkAgent} {l : List NetworkAgent}
    (h : a.name ∉ l.map (·.name)) : put a l = l ++ [a] := by
  induction l with
  | nil => rfl
  | cons b rest ih =>
    obtain ⟨hb, hrest⟩ := not_or.mp (mt List.mem_cons.mpr h)
    rw [put, if_neg (Ne.symm hb), ih hrest, List.cons_append]

theorem put_of_mem {a : NetworkAgent} {l : List NetworkAgent} (hl : (l.map (·.name)).Nodup)
    (h : a.name ∈ l.map (·.name)) : put a l = l.map fun b => if b.name = a.name then a else b := by
  induction l with
  | nil => cases h
  | cons b rest ih =>
    obtain ⟨hb, hrest⟩ := List.nodup_cons.mp hl
    rw [put, List.map_cons]
    by_cases hname : b.name = a.name
    · have hothers : ∀ c ∈ rest, (if c.name = a.name then a else c) = c := fun c hc =>
        if_neg fun heq => hb (List.mem_map.mpr ⟨c, hc, heq.trans hname.symm⟩)
      rw [if_pos hname, if_pos hname, List.map_congr_left hothers, List.map_id']
    · have hmem : a.name ∈ rest.map (·.name) :=
        (List.mem_cons.mp h).resolve_left fun heq => hname heq.symm
      rw [if_neg hname, if_neg hname, ih hrest hmem]

/-- A registration replaces the agent of its name where it stands, or comes last. -/
theorem agents_register (r : Registry) (a : NetworkAgent) :
    (r.register a).agents =
      if a.name ∈ r.names then r.agents.map fun b => if b.name = a.name then a else b
      else r.agents ++ [a] := by
  split
  · next h => exact put_of_mem r.distinct h
  · next h => exact put_of_notMem h

end Registry

end Ensemble
