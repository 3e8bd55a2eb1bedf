/-!
# Dictionaries with text keys

A `Dict` holds one value per key and lists its entries in ascending order of the keys, so two
dictionaries with the same entries are equal. `find?_insert` says what an insertion does to every
look-up, and `ofList_entries` that a dictionary is rebuilt from its own list of entries.
-/

namespace Ensemble

/-- A finite map from texts to values, listed in ascending order of its keys. -/
structure Dict (α : Type) where
  entries : List (String × α)
  sorted : entries.Pairwise (fun a b => a.1 < b.1)

namespace Dict

variable {α : Type}

@[ext] theorem ext {d e : Dict α} (h : d.entries = e.entries) : d = e := by
  cases d; cases e; cases h; rfl

instance [DecidableEq α] : DecidableEq (Dict α) := fun d e =>
  decidable_of_iff (d.entries = e.entries) ⟨ext, fun h => h ▸ rfl⟩

/-- The dictionary without entries. -/
def empty : Dict α := ⟨[], List.Pairwise.nil⟩

instance : Inhabited (Dict α) := ⟨empty⟩

/-- Puts an entry into a list of entries: in its place by key, over an entry of the same key. -/
def put (key : String) (value : α) : List (String × α) → List (String × α)
  | [] => [(key, value)]
  | (k, v) :: rest =>
    if key < k then (key, value) :: (k, v) :: rest
    else if key = k then (key, value) :: rest
    else (k, v) :: put key value rest

theorem lt_of_not_lt_of_ne {a b : String} (h : ¬a < b) (hne : a ≠ b) : b < a := by
  have hle : b ≤ a := String.not_lt.mp h
  rcases Classical.em (b < a) with h' | h'
  · exact h'
  · exact absurd (String.le_antisymm (String.not_lt.mp h') hle) hne

theorem mem_put {key : String} {value : α} {l : List (String × α)} {e : String × α}
    (h : e ∈ put key value l) : e = (key, value) ∨ e ∈ l := by
  induction l with
  | nil => simp only [put, List.mem_singleton] at h; exact Or.inl h
  | cons p rest ih =>
    obtain ⟨k, v⟩ := p
    simp only [put] at h
    split at h
    · simpa using h
    · split at h
      · rcases List.mem_cons.mp h with h | h
        · exact Or.inl h
        · exact Or.inr (List.mem_cons_of_mem _ h)
      · rcases List.mem_cons.mp h with h | h
        · exact Or.inr (h ▸ List.mem_cons_self)
        · exact (ih h).imp_right (List.mem_cons_of_mem _)

theorem pairwise_put (key : String) (value : α) {l : List (String × α)}
    (h : l.Pairwise (fun a b => a.1 < b.1)) :
    (put key value l).Pairwise (fun a b => a.1 < b.1) := by
  induction l with
  | nil => simp [put]
  | cons p rest ih =>
    obtain ⟨k, v⟩ := p
    have hrest := List.pairwise_cons.mp h
    simp only [put]
    split
    · next hlt =>
      refine List.pairwise_cons.mpr ⟨fun e he => ?_, h⟩
      rcases List.mem_cons.mp he with rfl | he
      · exact hlt
      · exact String.lt_trans hlt (hrest.1 e he)
    · split
      · next heq => subst heq; exact List.pairwise_cons.mpr hrest
      · next hlt hne =>
        refine List.pairwise_cons.mpr ⟨fun e he => ?_, ih hrest.2⟩
        rcases mem_put he with rfl | he
        · exact lt_of_not_lt_of_ne hlt hne
        · exact hrest.1 e he

/-- The dictionary with `value` at `key`, whatever was there. -/
def insert (d : Dict α) (key : String) (value : α) : Dict α :=
  ⟨put key value d.entries, pairwise_put key value d.sorted⟩

/-- The value at a key. -/
def find? (d : Dict α) (key : String) : Option α :=
  d.entries.lookup key

/-- Whether there is an entry for the key. -/
def contains (d : Dict α) (key : String) : Bool :=
  (d.find? key).isSome

/-- Keeps the value that is there; writes only where there is none. -/
def insertIfAbsent (d : Dict α) (key : String) (value : α) : Dict α :=
  if d.contains key then d else d.insert key value

/-- The dictionary of a list of entries; of entries with one key the last counts. -/
def ofList (l : List (String × α)) : Dict α :=
  l.foldl (fun d e => d.insert e.1 e.2) empty

/-- The number of entries. -/
def size (d : Dict α) : Nat :=
  d.entries.length

/-- The dictionary with every value replaced. -/
def map {β : Type} (f : α → β) (d : Dict α) : Dict β :=
  ⟨d.entries.map (fun e => (e.1, f e.2)), by
    rw [List.pairwise_map]; exact d.sorted⟩

theorem lookup_put (key k : String) (value : α) (l : List (String × α)) :
    (put key value l).lookup k = if k = key then some value else l.lookup k := by
  induction l with
  | nil =>
    by_cases h : k = key
    · subst h; simp [put]
    · have hb : (k == key) = false := by simpa using h
      simp [put, List.lookup_cons, hb, h]
  | cons p rest ih =>
    obtain ⟨k', v⟩ := p
    simp only [put]
    by_cases hk : k = key
    · subst hk
      split
      · simp
      · split
        · simp
        · next hne =>
          have hb : (k == k') = false := by simpa using hne
          simp [List.lookup_cons, hb, ih]
    · have hb : (k == key) = false := by simpa using hk
      split
      · simp [List.lookup_cons, hb]
      · split
        · next heq => subst heq; simp [List.lookup_cons, hb]
        · by_cases hk' : k = k'
          · subst hk'; simp
          · have hb' : (k == k') = false := by simpa using hk'
            simp [List.lookup_cons, hb', ih, hk]

/-- An insertion is seen at its own key and changes no other. -/
@[simp] theorem find?_insert (d : Dict α) (key k : String) (value : α) :
    (d.insert key value).find? k = if k = key then some value else d.find? k :=
  lookup_put key k value d.entries

@[simp] theorem find?_empty (k : String) : (empty : Dict α).find? k = none := rfl

theorem put_of_all_lt {key : String} {value : α} {l : List (String × α)}
    (h : ∀ e ∈ l, e.1 < key) : put key value l = l ++ [(key, value)] := by
  induction l with
  | nil => rfl
  | cons p rest ih =>
    obtain ⟨k, v⟩ := p
    have hk : k < key := h (k, v) List.mem_cons_self
    have h1 : ¬key < k := fun hlt => String.lt_irrefl _ (String.lt_trans hlt hk)
    have h2 : key ≠ k := fun heq => String.lt_irrefl _ (heq ▸ hk)
    simp [put, h1, h2, ih fun e he => h e (List.mem_cons_of_mem _ he)]

theorem foldl_insert_entries (l : List (String × α)) (d : Dict α)
    (h : (d.entries ++ l).Pairwise (fun a b => a.1 < b.1)) :
    (l.foldl (fun d e => d.insert e.1 e.2) d).entries = d.entries ++ l := by
  induction l generalizing d with
  | nil => simp
  | cons e rest ih =>
    have hput : (d.insert e.1 e.2).entries = d.entries ++ [e] :=
      put_of_all_lt fun x hx => (List.pairwise_append.mp h).2.2 x hx e List.mem_cons_self
    have := ih (d.insert e.1 e.2) (by simpa [hput] using h)
    simpa [hput] using this

/-- A dictionary is rebuilt from its list of entries. -/
@[simp] theorem ofList_entries (d : Dict α) : ofList d.entries = d :=
  ext <| by
    simpa [ofList, empty] using
      foldl_insert_entries d.entries empty (by simpa [empty] using d.sorted)

theorem ofList_concat (l : List (String × α)) (e : String × α) :
    ofList (l ++ [e]) = (ofList l).insert e.1 e.2 := by
  simp [ofList]

end Dict

end Ensemble
