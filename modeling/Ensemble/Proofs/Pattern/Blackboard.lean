import Ensemble.Pattern.Swarm
import Ensemble.Proofs.Run.Rounds
import Mathlib.Data.List.Induction

/-!
# The blackboard of a swarm

A reply is written on the blackboard under a key made of the id of the participant and the number of
the round, and only where nothing is written yet. `blackboardKey_inj` says that the key tells both,
whatever the id looks like, so `nodup_posted`: no two replies of a run share a key, and nothing that
is written is ever lost. `Displays.written` is what a round does to a blackboard.
-/

namespace Ensemble

namespace Dict

variable {α : Type}

theorem put_perm {key : String} (value : α) {l : List (String × α)}
    (h : key ∉ l.map Prod.fst) : (put key value l).Perm ((key, value) :: l) := by
  induction l with
  | nil => exact .refl _
  | cons p rest ih =>
    obtain ⟨k, v⟩ := p
    have hne : key ≠ k := fun heq => h (by simp [heq])
    have hrest : key ∉ rest.map Prod.fst := fun hmem => h (List.mem_cons_of_mem _ hmem)
    simp only [put]
    split
    · exact .refl _
    · exact ((ih hrest).cons _).trans (.swap _ _ _)

theorem contains_eq_false {d : Dict α} {key : String} (h : key ∉ d.entries.map Prod.fst) :
    d.contains key = false := by
  have hnone : d.entries.lookup key = none := by
    refine List.lookup_eq_none_iff.mpr fun e he => ?_
    have hne : key ≠ e.1 := fun heq => h (List.mem_map.mpr ⟨e, he, heq.symm⟩)
    simpa using hne
  simp [contains, find?, hnone]

/-- Writing where nothing is adds an entry and changes no other. -/
theorem insertIfAbsent_perm {d : Dict α} {key : String} (value : α)
    (h : key ∉ d.entries.map Prod.fst) :
    (d.insertIfAbsent key value).entries.Perm ((key, value) :: d.entries) := by
  rw [insertIfAbsent, contains_eq_false h]
  exact put_perm value h

/-- Entries with keys of their own are all added. -/
theorem foldl_insertIfAbsent_perm {l : List (String × α)} {d : Dict α}
    (h : ((d.entries ++ l).map Prod.fst).Nodup) :
    (l.foldl (fun d e => d.insertIfAbsent e.1 e.2) d).entries.Perm (d.entries ++ l) := by
  induction l generalizing d with
  | nil => simp
  | cons e rest ih =>
    have habsent : e.1 ∉ d.entries.map Prod.fst := by
      intro hmem
      rw [List.map_append] at h
      exact (List.nodup_append.mp h).2.2 _ hmem _ (by simp) rfl
    have hone : (d.insertIfAbsent e.1 e.2).entries.Perm (e :: d.entries) :=
      insertIfAbsent_perm e.2 habsent
    have hall : ((d.insertIfAbsent e.1 e.2).entries ++ rest).Perm (d.entries ++ e :: rest) :=
      (hone.append_right rest).trans List.perm_middle.symm
    exact (ih ((hall.map Prod.fst).nodup_iff.mpr h)).trans hall

end Dict

namespace Swarm

/-! ## Keys -/

/-- What stands before and behind the last underscore is told by the whole. -/
theorem split_last_inj {a b d e : List Char} (hd : '_' ∉ d) (he : '_' ∉ e)
    (h : a ++ '_' :: d = b ++ '_' :: e) : a = b ∧ d = e := by
  rcases List.append_eq_append_iff.mp h with ⟨x, rfl, hx⟩ | ⟨x, rfl, hx⟩
  · cases x with
    | nil => simp_all
    | cons c x =>
      obtain ⟨-, rfl⟩ := List.cons.inj hx
      simp at hd
  · cases x with
    | nil => simp_all
    | cons c x =>
      obtain ⟨-, rfl⟩ := List.cons.inj hx
      simp at he

theorem not_mem_digits (n : Nat) : '_' ∉ Nat.toDigits 10 n := by
  intro h
  have hdigit := Nat.isDigit_of_mem_toDigits (by decide) (by decide) h
  revert hdigit
  decide

theorem toList_blackboardKey (id : String) (n : Nat) :
    (blackboardKey id n).toList = (id ++ "_round").toList ++ '_' :: Nat.toDigits 10 n := by
  simp [blackboardKey]

/-- **A key tells the participant and the round.** -/
theorem blackboardKey_inj {id id' : String} {n n' : Nat} :
    blackboardKey id n = blackboardKey id' n' ↔ id = id' ∧ n = n' := by
  constructor
  · intro h
    have hlists := congrArg String.toList h
    rw [toList_blackboardKey, toList_blackboardKey] at hlists
    obtain ⟨hid, hdigits⟩ := split_last_inj (not_mem_digits n) (not_mem_digits n') hlists
    constructor
    · rw [String.toList_append, String.toList_append] at hid
      exact String.toList_inj.mp (List.append_cancel_right hid)
    · calc
        n = Nat.ofDigitChars 10 (Nat.toDigits 10 n) 0 := Nat.ofDigitChars_ten_toDigits.symm
        _ = Nat.ofDigitChars 10 (Nat.toDigits 10 n') 0 := by rw [hdigits]
        _ = n' := Nat.ofDigitChars_ten_toDigits
  · rintro ⟨rfl, rfl⟩
    rfl

/-- No key of a reply is that of the input. -/
theorem blackboardKey_ne_input (id : String) (n : Nat) : blackboardKey id n ≠ "input" := by
  intro h
  have hmem : '_' ∈ (blackboardKey id n).toList := by
    rw [toList_blackboardKey]
    simp
  rw [h] at hmem
  revert hmem
  decide

example : blackboardKey "a_round_1" 2 ≠ blackboardKey "a" 12 := by decide

/-! ## What is written -/

/-- The entries that replies make. -/
def entriesOf (round : Nat) (given : List (String × Message)) : List (String × Json) :=
  given.map fun g => (blackboardKey g.1 round, .str g.2.content)

/-- The blackboard when replies have been written on it. -/
def written (round : Nat) (given : List (String × Message)) (board : Metadata) : Metadata :=
  (entriesOf round given).foldl (fun d e => d.insertIfAbsent e.1 e.2) board

/-- Replies are written one after the other. -/
theorem postReplies_eq (round : Nat) (given : List (String × Message)) (c : Clock) (s : Scene) :
    postReplies round given c s =
      .done c (s.1, { s.2 with blackboard := written round given s.2.blackboard }) () := by
  induction given generalizing s with
  | nil => rfl
  | cons g given ih => exact ih _

/-- What the calls of a round write on the blackboard. -/
def posts (round : Nat) (group : List Call) : List (String × Json) :=
  entriesOf round (group.filterMap (·.given?))

/-- What a run with this input has written on the blackboard by the end of the rounds given. -/
def posted (input : String) (groups : List (List Call)) : List (String × Json) :=
  ("input", .str input) :: groups.zipIdx.flatMap fun g => posts g.2 g.1

theorem posted_concat (input : String) (groups : List (List Call)) (group : List Call) :
    posted input (groups ++ [group]) = posted input groups ++ posts groups.length group := by
  simp [posted, List.zipIdx_append]

theorem keys_posts {round : Nat} {group : List Call} {key : String}
    (h : key ∈ (posts round group).map Prod.fst) : ∃ id, key = blackboardKey id round := by
  simp only [posts, entriesOf, List.map_map, List.mem_map] at h
  obtain ⟨g, -, rfl⟩ := h
  exact ⟨g.1, rfl⟩

theorem keys_posted {input : String} {groups : List (List Call)} {key : String}
    (h : key ∈ (posted input groups).map Prod.fst) :
    key = "input" ∨ ∃ id n, n < groups.length ∧ key = blackboardKey id n := by
  induction groups using List.reverseRecOn with
  | nil => exact .inl (by simpa [posted] using h)
  | append_singleton groups group ih =>
    rw [posted_concat, List.map_append] at h
    rcases List.mem_append.mp h with h | h
    · refine (ih h).imp_right ?_
      rintro ⟨id, n, hn, rfl⟩
      exact ⟨id, n, by simp; omega, rfl⟩
    · obtain ⟨id, rfl⟩ := keys_posts h
      exact .inr ⟨id, groups.length, by simp, rfl⟩

theorem nodup_posts {round : Nat} {group : List Call} (h : (group.map (·.id)).Nodup) :
    ((posts round group).map Prod.fst).Nodup := by
  have hids : ((group.filterMap (·.given?)).map Prod.fst).Nodup := by
    refine List.pairwise_map.mpr (List.pairwise_filterMap.mpr ?_)
    refine (List.pairwise_map.mp h).imp fun hne g hg g' hg' hsame => hne ?_
    obtain ⟨_, -, rfl⟩ := Option.map_eq_some_iff.mp hg
    obtain ⟨_, -, rfl⟩ := Option.map_eq_some_iff.mp hg'
    exact hsame
  rw [posts, entriesOf, List.map_map]
  refine List.pairwise_map.mpr ((List.pairwise_map.mp hids).imp fun hne hsame => hne ?_)
  exact (blackboardKey_inj.mp hsame).1

/-- **No two entries share a key**, if nobody is called twice in a round. -/
theorem nodup_posted (input : String) {groups : List (List Call)}
    (h : ∀ group ∈ groups, (group.map (·.id)).Nodup) :
    ((posted input groups).map Prod.fst).Nodup := by
  induction groups using List.reverseRecOn with
  | nil => simp [posted]
  | append_singleton groups group ih =>
    rw [posted_concat, List.map_append]
    have hbefore := ih fun g hg => h g (List.mem_append_left _ hg)
    refine List.nodup_append.mpr ⟨hbefore, nodup_posts (h group (by simp)), ?_⟩
    rintro key hkey _ hnew rfl
    obtain ⟨id, rfl⟩ := keys_posts hnew
    rcases keys_posted hkey with hinput | ⟨id', n, hn, hsame⟩
    · exact blackboardKey_ne_input id groups.length hinput
    · have hround := (blackboardKey_inj.mp hsame).2
      omega

/-- A blackboard with the input and the successful replies of the rounds given, and nothing else.
Nobody was called twice in one of these. -/
structure Displays (input : String) (groups : List (List Call)) (board : Metadata) : Prop where
  once : ∀ group ∈ groups, (group.map (·.id)).Nodup
  entries : board.entries.Perm (posted input groups)

/-- The blackboard before the first round. -/
def opening (input : String) : Metadata := Dict.empty.insertIfAbsent "input" (.str input)

theorem displays_opening (input : String) : Displays input [] (opening input) :=
  ⟨by simp, .refl _⟩

namespace Displays

variable {input : String} {groups : List (List Call)} {board : Metadata}

theorem distinct (h : Displays input groups board) :
    ((posted input groups).map Prod.fst).Nodup :=
  nodup_posted input h.once

/-- The replies of a round are written, in whatever order. -/
theorem written {group : List Call} {given : List (String × Message)}
    (h : Displays input groups board) (honce : (group.map (·.id)).Nodup)
    (hgiven : given.Perm (group.filterMap (·.given?))) :
    Displays input (groups ++ [group]) (Swarm.written groups.length given board) := by
  have hgroups : ∀ g ∈ groups ++ [group], (g.map (·.id)).Nodup := by
    intro g hg
    rcases List.mem_append.mp hg with hg | hg
    · exact h.once g hg
    · rwa [List.mem_singleton.mp hg]
  have hall : (board.entries ++ entriesOf groups.length given).Perm
      (posted input (groups ++ [group])) := by
    rw [posted_concat]
    exact h.entries.append (hgiven.map _)
  have hdistinct := (hall.map Prod.fst).nodup_iff.mpr (nodup_posted input hgroups)
  exact ⟨hgroups, (Dict.foldl_insertIfAbsent_perm hdistinct).trans hall⟩

/-- **Nothing is lost**: there are as many entries as successful replies, and the input. -/
theorem size (h : Displays input groups board) :
    board.entries.length = 1 + (groups.flatten.filterMap (·.success?)).length := by
  rw [h.entries.length_eq]
  clear h
  induction groups using List.reverseRecOn with
  | nil => rfl
  | append_singleton groups group ih =>
    have hposts : (posts groups.length group).length = (group.filterMap (·.success?)).length := by
      have hgiven : group.filterMap (·.success?) = (group.filterMap (·.given?)).map (·.2) := by
        rw [List.map_filterMap]
        exact List.filterMap_congr fun c _ => by
          simp [Call.given?, Function.comp_def]
      rw [hgiven, List.length_map, posts, entriesOf, List.length_map]
    rw [posted_concat, List.length_append, ih, hposts, List.flatten_append, List.filterMap_append,
      List.length_append, List.flatten_singleton, Nat.add_assoc]

end Displays

end Swarm

end Ensemble
