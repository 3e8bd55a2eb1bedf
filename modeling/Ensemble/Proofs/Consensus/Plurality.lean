import Ensemble.Consensus
import Mathlib.Data.List.Basic

/-!
# What a plurality is

`plurality` counts in groups and keeps the largest of them. `Foremost` says without groups which
position it comes to: the key that stands there is a most frequent one, and no key before it is as
frequent. `plurality_eq_some_iff` says that this is the position, and that the size that comes with
it is the number of times that the key occurs.
-/

namespace Ensemble

variable {κ : Type}

namespace Tally

/-! ## The largest group -/

/-- A group is the first of the largest in a list. -/
def Leads (groups : List (Tally κ)) (g : Tally κ) : Prop :=
  ∃ before after, groups = before ++ g :: after ∧ (∀ b ∈ before, b.size < g.size) ∧
    ∀ a ∈ after, a.size ≤ g.size

namespace Leads

variable {groups : List (Tally κ)} {g : Tally κ}

theorem single (g : Tally κ) : Leads [g] g := ⟨[], [], rfl, by simp, by simp⟩

theorem most (h : Leads groups g) : ∀ g' ∈ groups, g'.size ≤ g.size := by
  obtain ⟨before, after, rfl, hbefore, hafter⟩ := h
  intro g' hg'
  rcases List.mem_append.mp hg' with hg' | hg'
  · exact Nat.le_of_lt (hbefore g' hg')
  · rcases List.mem_cons.mp hg' with rfl | hg'
    · exact Nat.le_refl _
    · exact hafter g' hg'

theorem larger (h : Leads groups g) (g' : Tally κ) :
    ∃ w, Tally.larger (some g) g' = some w ∧ Leads (groups ++ [g']) w := by
  by_cases hlt : g.size < g'.size
  · refine ⟨g', by simp [Tally.larger, hlt], groups, [], rfl, ?_, by simp⟩
    exact fun b hb => Nat.lt_of_le_of_lt (h.most b hb) hlt
  · obtain ⟨before, after, rfl, hbefore, hafter⟩ := h
    refine ⟨g, by simp [Tally.larger, hlt], before, after ++ [g'], by simp, hbefore, ?_⟩
    intro a ha
    rcases List.mem_append.mp ha with ha | ha
    · exact hafter a ha
    · rw [List.mem_singleton.mp ha]
      exact Nat.le_of_not_lt hlt

theorem foldl (h : Leads groups g) (rest : List (Tally κ)) :
    ∃ w, rest.foldl Tally.larger (some g) = some w ∧ Leads (groups ++ rest) w := by
  induction rest generalizing groups g with
  | nil => exact ⟨g, rfl, by rwa [List.append_nil]⟩
  | cons g' rest ih =>
    obtain ⟨w, hw, hleads⟩ := h.larger g'
    obtain ⟨v, hv, hleads'⟩ := ih hleads
    rw [List.append_assoc, List.singleton_append] at hleads'
    exact ⟨v, by rw [List.foldl_cons, hw, hv], hleads'⟩

end Leads

end Tally

variable [DecidableEq κ]

/-- The first position of a list of keys at which a most frequent one stands, with that key. -/
structure Foremost (keys : List κ) (position : Nat) (key : κ) : Prop where
  stands : keys[position]? = some key
  most : ∀ k ∈ keys, keys.count k ≤ keys.count key
  first : ∀ i < position, ∀ k, keys[i]? = some k → keys.count k < keys.count key

/-- There is only one such position. -/
theorem Foremost.unique {keys : List κ} {i j : Nat} {k l : κ} (hk : Foremost keys i k)
    (hl : Foremost keys j l) : i = j := by
  have hkmem : k ∈ keys := List.mem_of_getElem? hk.stands
  have hlmem : l ∈ keys := List.mem_of_getElem? hl.stands
  rcases Nat.lt_trichotomy i j with hlt | heq | hlt
  · have hless := hl.first i hlt k hk.stands
    have hmost := hk.most l hlmem
    omega
  · exact heq
  · have hless := hk.first j hlt l hl.stands
    have hmost := hl.most k hkmem
    omega

namespace Tally

/-! ## Groups -/

/-- The groups of a list of keys, in the order in which their keys were seen first. -/
structure Groups (keys : List κ) (groups : List (Tally κ)) : Prop where
  stands : ∀ g ∈ groups, keys[g.first]? = some g.key
  earliest : ∀ g ∈ groups, ∀ i < g.first, keys[i]? ≠ some g.key
  size : ∀ g ∈ groups, g.size = keys.count g.key
  all : ∀ k ∈ keys, ∃ g ∈ groups, g.key = k
  ordered : groups.Pairwise fun g g' => g.first < g'.first

namespace Groups

variable {keys : List κ} {groups : List (Tally κ)}

theorem nil : Groups ([] : List κ) [] := by
  constructor <;> simp

theorem first_lt (h : Groups keys groups) {g : Tally κ} (hg : g ∈ groups) :
    g.first < keys.length :=
  (List.getElem?_eq_some_iff.mp (h.stands g hg)).1

/-- No two groups have one key. -/
theorem distinct (h : Groups keys groups) : groups.Pairwise fun g g' => g.key ≠ g'.key := by
  refine h.ordered.imp_of_mem fun {g g'} hg hg' hlt hkey => ?_
  exact h.earliest g' hg' g.first hlt (hkey ▸ h.stands g hg)

end Groups

/-- The group with one more item, if it is one of its key. -/
def grown (key : κ) (g : Tally κ) : Tally κ :=
  if g.key = key then { g with size := g.size + 1 } else g

@[simp] theorem grown_key (key : κ) (g : Tally κ) : (g.grown key).key = g.key := by
  unfold grown
  split <;> rfl

@[simp] theorem grown_first (key : κ) (g : Tally κ) : (g.grown key).first = g.first := by
  unfold grown
  split <;> rfl

theorem grown_of_ne {key : κ} {g : Tally κ} (h : g.key ≠ key) : g.grown key = g := if_neg h

/-- One more item of a key that has a group. -/
theorem count_of_known {key : κ} {position : Nat} {groups : List (Tally κ)}
    (hdistinct : groups.Pairwise fun g g' => g.key ≠ g'.key) (h : ∃ g ∈ groups, g.key = key) :
    count key position groups = groups.map (·.grown key) := by
  induction groups with
  | nil => simp at h
  | cons g groups ih =>
    obtain ⟨hg, hrest⟩ := List.pairwise_cons.mp hdistinct
    by_cases hkey : g.key = key
    · have hsame : groups.map (·.grown key) = groups.map id :=
        List.map_congr_left fun g' hg' => grown_of_ne fun h => hg g' hg' (hkey.trans h.symm)
      rw [count, if_pos hkey, List.map_cons, hsame, List.map_id, grown, if_pos hkey]
    · have hknown : ∃ g' ∈ groups, g'.key = key := by simpa [hkey] using h
      rw [count, if_neg hkey, ih hrest hknown, List.map_cons, grown_of_ne hkey]

/-- The first item of a key. -/
theorem count_of_new {key : κ} {position : Nat} {groups : List (Tally κ)}
    (h : ∀ g ∈ groups, g.key ≠ key) :
    count key position groups = groups ++ [⟨key, position, 1⟩] := by
  induction groups with
  | nil => rfl
  | cons g groups ih =>
    have hg : g.key ≠ key := h g List.mem_cons_self
    rw [count, if_neg hg, ih fun g' hg' => h g' (List.mem_cons_of_mem g hg'), List.cons_append]

namespace Groups

variable {keys : List κ} {groups : List (Tally κ)}

theorem known (h : Groups keys groups) {key : κ} (hkey : ∃ g ∈ groups, g.key = key) :
    Groups (keys ++ [key]) (groups.map (·.grown key)) where
  stands := by
    intro g' hg'
    obtain ⟨g, hg, rfl⟩ := List.mem_map.mp hg'
    rw [grown_key, grown_first, List.getElem?_append_left (h.first_lt hg)]
    exact h.stands g hg
  earliest := by
    intro g' hg' i hi
    obtain ⟨g, hg, rfl⟩ := List.mem_map.mp hg'
    rw [grown_first] at hi
    rw [grown_key, List.getElem?_append_left (Nat.lt_trans hi (h.first_lt hg))]
    exact h.earliest g hg i hi
  size := by
    intro g' hg'
    obtain ⟨g, hg, rfl⟩ := List.mem_map.mp hg'
    have hsize := h.size g hg
    by_cases hsame : g.key = key
    · simp [grown, hsame, hsize]
    · simp [grown, hsame, hsize, Ne.symm hsame]
  all := by
    intro k hk
    have hold : ∃ g ∈ groups, g.key = k := by
      rcases List.mem_append.mp hk with hk | hk
      · exact h.all k hk
      · rwa [List.mem_singleton.mp hk]
    obtain ⟨g, hg, rfl⟩ := hold
    exact ⟨g.grown key, List.mem_map_of_mem hg, grown_key key g⟩
  ordered := by
    rw [List.pairwise_map]
    simpa only [grown_first] using h.ordered

theorem new (h : Groups keys groups) {key : κ} (hkey : ∀ g ∈ groups, g.key ≠ key) :
    Groups (keys ++ [key]) (groups ++ [⟨key, keys.length, 1⟩]) := by
  have hunseen : key ∉ keys := by
    intro hmem
    obtain ⟨g, hg, hsame⟩ := h.all key hmem
    exact hkey g hg hsame
  refine ⟨?_, ?_, ?_, ?_, ?_⟩
  · intro g hg
    rcases List.mem_append.mp hg with hg | hg
    · rw [List.getElem?_append_left (h.first_lt hg)]
      exact h.stands g hg
    · obtain rfl := List.mem_singleton.mp hg
      simp
  · intro g hg i hi
    rcases List.mem_append.mp hg with hg | hg
    · rw [List.getElem?_append_left (Nat.lt_trans hi (h.first_lt hg))]
      exact h.earliest g hg i hi
    · obtain rfl := List.mem_singleton.mp hg
      rw [List.getElem?_append_left hi]
      exact fun hstands => hunseen (List.mem_of_getElem? hstands)
  · intro g hg
    rcases List.mem_append.mp hg with hg | hg
    · simp [h.size g hg, (hkey g hg).symm]
    · obtain rfl := List.mem_singleton.mp hg
      simp [List.count_eq_zero_of_not_mem hunseen]
  · intro k hk
    rcases List.mem_append.mp hk with hk | hk
    · obtain ⟨g, hg, hsame⟩ := h.all k hk
      exact ⟨g, List.mem_append_left _ hg, hsame⟩
    · exact ⟨_, List.mem_append_right _ List.mem_cons_self, (List.mem_singleton.mp hk).symm⟩
  · refine List.pairwise_append.mpr ⟨h.ordered, List.pairwise_singleton _ _, ?_⟩
    intro g hg g' hg'
    obtain rfl := List.mem_singleton.mp hg'
    exact h.first_lt hg

theorem count (h : Groups keys groups) (key : κ) :
    Groups (keys ++ [key]) (Tally.count key keys.length groups) := by
  by_cases hkey : ∃ g ∈ groups, g.key = key
  · rw [count_of_known h.distinct hkey]
    exact h.known hkey
  · have hnew : ∀ g ∈ groups, g.key ≠ key := by simpa using hkey
    rw [count_of_new hnew]
    exact h.new hnew

theorem collect (h : Groups keys groups) (rest : List κ) :
    Groups (keys ++ rest) (Tally.collect keys.length groups rest) := by
  induction rest generalizing keys groups with
  | nil => rwa [List.append_nil]
  | cons key rest ih =>
    have hrest := ih (h.count key)
    rwa [List.append_assoc, List.singleton_append, List.length_append] at hrest

end Groups

theorem Groups.foremost {keys : List κ} {groups : List (Tally κ)} {g : Tally κ}
    (h : Groups keys groups) (hg : Leads groups g) : Foremost keys g.first g.key := by
  have hmem : g ∈ groups := by
    obtain ⟨before, after, rfl, -, -⟩ := hg
    exact List.mem_append_right _ List.mem_cons_self
  refine ⟨h.stands g hmem, ?_, ?_⟩
  · intro k hk
    obtain ⟨g', hg', rfl⟩ := h.all k hk
    rw [← h.size g' hg', ← h.size g hmem]
    exact hg.most g' hg'
  · intro i hi k hk
    obtain ⟨g', hg', rfl⟩ := h.all k (List.mem_of_getElem? hk)
    rw [← h.size g' hg', ← h.size g hmem]
    -- its group was seen before this one, and so stands in front of it
    have hearlier : g'.first < g.first :=
      Nat.lt_of_le_of_lt (Nat.le_of_not_lt fun hlt => h.earliest g' hg' i hlt hk) hi
    obtain ⟨before, after, rfl, hbefore, -⟩ := hg
    obtain ⟨-, hafter, -⟩ := List.pairwise_append.mp h.ordered
    rcases List.mem_append.mp hg' with hg' | hg'
    · exact hbefore g' hg'
    · rcases List.mem_cons.mp hg' with rfl | hg'
      · exact absurd hearlier (Nat.lt_irrefl _)
      · have hlater := (List.pairwise_cons.mp hafter).1 g' hg'
        omega

end Tally

/-! ## The vote -/

/-- Where there are keys, one of them wins. -/
theorem exists_foremost {keys : List κ} (h : keys ≠ []) :
    ∃ i key, plurality keys = some (i, keys.count key) ∧ Foremost keys i key := by
  have hgroups : Tally.Groups keys (Tally.collect 0 [] keys) :=
    Tally.Groups.nil.collect keys
  obtain ⟨key, hkey⟩ := List.exists_mem_of_ne_nil keys h
  obtain ⟨g, hg, -⟩ := hgroups.all key hkey
  cases hcollect : Tally.collect 0 [] keys with
  | nil =>
    rw [hcollect] at hg
    cases hg
  | cons g₀ rest =>
    rw [hcollect] at hgroups
    obtain ⟨w, hw, hleads⟩ := (Tally.Leads.single g₀).foldl rest
    have hmem : w ∈ g₀ :: rest := by
      obtain ⟨before, after, heq, -, -⟩ := hleads
      rw [← List.singleton_append, heq]
      exact List.mem_append_right _ List.mem_cons_self
    refine ⟨w.first, w.key, ?_, hgroups.foremost hleads⟩
    rw [plurality, hcollect, List.foldl_cons, Tally.larger, hw, ← hgroups.size w hmem]
    rfl

/-- **A plurality is the first of the most frequent keys**, with the number of times it occurs. -/
theorem plurality_eq_some_iff {keys : List κ} {position size : Nat} :
    plurality keys = some (position, size) ↔
      ∃ key, Foremost keys position key ∧ size = keys.count key := by
  constructor
  · intro hsome
    have hne : keys ≠ [] := by
      rintro rfl
      cases hsome
    obtain ⟨i, key, hplurality, hforemost⟩ := exists_foremost hne
    rw [hplurality] at hsome
    cases hsome
    exact ⟨key, hforemost, rfl⟩
  · rintro ⟨key, hforemost, rfl⟩
    have hne : keys ≠ [] := List.ne_nil_of_mem (List.mem_of_getElem? hforemost.stands)
    obtain ⟨i, key', hplurality, hforemost'⟩ := exists_foremost hne
    obtain rfl := hforemost'.unique hforemost
    obtain rfl : key' = key := by
      have hsame := hforemost'.stands.symm.trans hforemost.stands
      exact Option.some.inj hsame
    exact hplurality

/-- The vote on a list of items by a key of each: the winner stands where its key is foremost. -/
theorem exists_winner {β : Type} (key : β → κ) {l : List β} (h : l ≠ []) :
    ∃ before winner after, l = before ++ winner :: after ∧
      plurality (l.map key) = some (before.length, (l.map key).count (key winner)) ∧
      Foremost (l.map key) before.length (key winner) := by
  have hkeys : l.map key ≠ [] := fun hnil => h (List.map_eq_nil_iff.mp hnil)
  obtain ⟨i, k, hplurality, hforemost⟩ := exists_foremost hkeys
  obtain ⟨winner, hwinner, rfl⟩ : ∃ winner, l[i]? = some winner ∧ key winner = k := by
    simpa using hforemost.stands
  obtain ⟨hi, hget⟩ := List.getElem?_eq_some_iff.mp hwinner
  have hlength : (l.take i).length = i := List.length_take_of_le (Nat.le_of_lt hi)
  refine ⟨l.take i, winner, l.drop (i + 1), ?_, ?_, ?_⟩
  · rw [← hget, ← List.drop_eq_getElem_cons hi, List.take_append_drop]
  · rw [hlength]
    exact hplurality
  · rw [hlength]
    exact hforemost

example : plurality ["b", "a", "a", "b", "c"] = some (0, 2) := by decide

end Ensemble
