import Ensemble.Wire.Fields
import Mathlib.Data.List.Perm.Basic

/-!
# Records by their parts

A record is read from an object name by name: of each name only the values count that the object
has for it, and there may be at most one. So a reader of records is a chain of `part?`, one for each
name, and nothing else in the object matters, not even its order.
-/

namespace Ensemble.Wire

/-! ## The values of a name -/

section Values

variable {name : String} {fields fields' : List (String × Json)}

@[simp] theorem valuesOf_append (name : String) (l l' : List (String × Json)) :
    valuesOf name (l ++ l') = valuesOf name l ++ valuesOf name l' := by
  simp [valuesOf]

@[simp] theorem valuesOf_nil (name : String) : valuesOf name [] = [] := rfl

@[simp] theorem valuesOf_cons (name : String) (e : String × Json) (l : List (String × Json)) :
    valuesOf name (e :: l) = if e.1 = name then e.2 :: valuesOf name l else valuesOf name l := by
  by_cases h : e.1 = name <;> simp [valuesOf, h]

/-- A field is seen under its own name only. -/
theorem valuesOf_insert_of_ne {e : String × Json} (h : e.1 ≠ name) (l l' : List (String × Json)) :
    valuesOf name (l ++ e :: l') = valuesOf name (l ++ l') := by
  simp [valuesOf_append, h]

theorem valuesOf_filter {p : String → Bool} (h : p name = true) :
    valuesOf name (fields.filter fun e => p e.1) = valuesOf name fields := by
  rw [valuesOf, valuesOf, List.filter_filter]
  congr 1
  apply List.filter_congr
  intro e _
  by_cases he : e.1 = name <;> simp [he, h]

theorem valuesOf_map (name : String) (g : Json → Json) (fields : List (String × Json)) :
    valuesOf name (fields.map fun e => (e.1, g e.2)) = (valuesOf name fields).map g := by
  induction fields with
  | nil => rfl
  | cons e l ih => by_cases h : e.1 = name <;> simp [h, ih]

theorem length_valuesOf_le (h : (fields.map Prod.fst).Nodup) (name : String) :
    (valuesOf name fields).length ≤ 1 := by
  induction fields with
  | nil => simp
  | cons e l ih =>
    rw [List.map_cons, List.nodup_cons] at h
    rw [valuesOf_cons]
    split
    · next heq =>
      have hnone : valuesOf name l = [] := by
        simp only [valuesOf, List.map_eq_nil_iff, List.filter_eq_nil_iff, decide_eq_true_eq]
        intro f hf hname
        exact h.1 (heq.trans hname.symm ▸ List.mem_map_of_mem hf)
      simp [hnone]
    · exact ih h.2

/-- The order of the fields does not matter as long as no name is repeated. -/
theorem valuesOf_perm (h : fields.Perm fields') (hnodup : (fields.map Prod.fst).Nodup)
    (name : String) : valuesOf name fields' = valuesOf name fields := by
  have hperm : (valuesOf name fields).Perm (valuesOf name fields') := (h.filter _).map _
  have hlen := length_valuesOf_le hnodup name
  match hvalues : valuesOf name fields with
  | [] => exact (hvalues ▸ hperm).nil_eq.symm
  | [v] => exact (List.singleton_perm.mp (hvalues ▸ hperm)).symm
  | _ :: _ :: _ => simp [hvalues] at hlen

/-! ### Written fields -/

/-- The fields of an object that is written from those given. -/
def written (fields : List (Option (String × Json))) : List (String × Json) := fields.filterMap id

theorem object_eq (fields : List (Option (String × Json))) :
    object fields = .obj (written fields) := rfl

@[simp] theorem written_nil : written [] = [] := rfl

@[simp] theorem written_append (l l' : List (Option (String × Json))) :
    written (l ++ l') = written l ++ written l' := List.filterMap_append

@[simp] theorem written_always (name : String) (v : Json) (l : List (Option (String × Json))) :
    written (always name v :: l) = (name, v) :: written l := rfl

@[simp] theorem written_ifPresent {α : Type} (name : String) (write : α → Json) (a : Option α)
    (l : List (Option (String × Json))) :
    written (ifPresent name write a :: l) =
      (a.map fun a => (name, write a)).toList ++ written l := by
  cases a <;> rfl

@[simp] theorem valuesOf_toList {α : Type} (n name : String) (write : α → Json) (a : Option α) :
    valuesOf n (a.map fun a => (name, write a)).toList =
      if name = n then (a.map write).toList else [] := by
  cases a <;> simp

end Values

/-! ## Parts -/

/-- A part of a record from all values of its name: there is at most one of them, and what stands
for none is given. -/
def part? {α : Type} (read : Json → Option α) (missing : Option α) : List Json → Option α
  | [] => missing
  | [v] => read v
  | _ => none

/-- Reads what may be null. -/
def nullable? {α : Type} (read : Json → Option α) : Json → Option (Option α)
  | .null => some none
  | v => (read v).map some

section Parts

variable {α : Type} {read : Json → Option α} {missing : Option α} {name : String}
  {names : List String} {fields : List (String × Json)}

theorem part?_many {vs : List Json} (h : 1 < vs.length) : part? read missing vs = none := by
  match vs with
  | [] | [_] => simp at h
  | _ :: _ :: _ => rfl

/-- A value that says what is taken without it may be left out. -/
theorem part?_drop {e : String × Json} {l l' : List (String × Json)} {a : α}
    (h : part? read missing (valuesOf name (l ++ e :: l')) = some a)
    (hsame : e.1 = name → read e.2 = missing) :
    part? read missing (valuesOf name (l ++ l')) = some a := by
  by_cases hname : e.1 = name
  · rw [valuesOf_append, valuesOf_cons, if_pos hname] at h
    rw [valuesOf_append]
    by_cases hnone : valuesOf name l = [] ∧ valuesOf name l' = []
    · rw [hnone.1, hnone.2] at h ⊢
      exact (hsame hname).symm.trans h
    · have hlen : 1 < (valuesOf name l ++ e.2 :: valuesOf name l').length := by
        simp only [List.length_append, List.length_cons, ← List.length_eq_zero_iff] at hnone ⊢
        omega
      rw [part?_many hlen] at h
      cases h
  · rwa [valuesOf_insert_of_ne hname] at h

theorem record?_obj (h : ∀ n ∈ names, (valuesOf n fields).length ≤ 1) :
    record? names (.obj fields) = some fun n => (valuesOf n fields).head? := by
  rw [record?, if_pos]
  simpa using h

theorem record?_obj_many (h : ∃ n ∈ names, 1 < (valuesOf n fields).length) :
    record? names (.obj fields) = none := by
  rw [record?, if_neg]
  simpa using h

theorem required_obj (h : (valuesOf name fields).length ≤ 1) :
    required (fun n => (valuesOf n fields).head?) name read =
      part? read none (valuesOf name fields) := by
  match hvalues : valuesOf name fields with
  | [] | [_] => simp [required, part?, hvalues]
  | _ :: _ :: _ => simp [hvalues] at h

theorem optional_obj (h : (valuesOf name fields).length ≤ 1) :
    optional (fun n => (valuesOf n fields).head?) name read =
      part? (nullable? read) (some none) (valuesOf name fields) := by
  match hvalues : valuesOf name fields with
  | [] => simp [optional, part?, hvalues]
  | [v] => cases v <;> simp [optional, part?, nullable?, hvalues]
  | _ :: _ :: _ => simp [hvalues] at h

theorem defaulted_obj (value : α) (h : (valuesOf name fields).length ≤ 1) :
    defaulted (fun n => (valuesOf n fields).head?) name read value =
      part? read (some value) (valuesOf name fields) := by
  match hvalues : valuesOf name fields with
  | [] | [_] => simp [defaulted, part?, hvalues]
  | _ :: _ :: _ => simp [hvalues] at h

/-- What is read from an object name by name is read off its parts: where a name is repeated, the
record is none, and so is the part of the name. -/
theorem record?_bind_obj {β : Type} {k : Fields → Option β} {b : β} {parts : Prop}
    (hread : (∀ n ∈ names, (valuesOf n fields).length ≤ 1) →
      (k (fun n => (valuesOf n fields).head?) = some b ↔ parts))
    (hmany : ∀ n ∈ names, 1 < (valuesOf n fields).length → ¬parts) :
    (record? names (.obj fields)).bind k = some b ↔ parts := by
  by_cases h : ∀ n ∈ names, (valuesOf n fields).length ≤ 1
  · rw [record?_obj h, Option.bind_some]
    exact hread h
  · simp only [not_forall, Nat.not_le] at h
    obtain ⟨n, hn, hlen⟩ := h
    rw [record?_obj_many ⟨n, hn, hlen⟩, Option.bind_none]
    exact iff_of_false nofun (hmany n hn hlen)

end Parts

/-! ## Values that are read back -/

@[simp] theorem part?_singleton {α : Type} (read : Json → Option α) (missing : Option α)
    (v : Json) : part? read missing [v] = read v := rfl

/-- A part that is written only if there is one. -/
theorem part?_ifPresent {α : Type} {read : Json → Option α} {write : α → Json}
    (h : ∀ a, nullable? read (write a) = some (some a)) (a : Option α) :
    part? (nullable? read) (some none) (a.map write).toList = some a := by
  cases a with
  | none => rfl
  | some a => exact h a

@[simp] theorem text?_str (s : String) : text? (.str s) = some s := rfl

@[simp] theorem flag?_bool (b : Bool) : flag? (.bool b) = some b := rfl

@[simp] theorem count?_nat (n : Nat) : count? (.nat n) = some n := by
  simp [count?, Json.nat]

@[simp] theorem word?_word (n : UInt64) : word? (word n) = some n := by
  simp [word?, word, n.toNat_lt_size]

@[simp] theorem word32?_nat (n : UInt32) : word32? (.nat n.toNat) = some n := by
  simp [word32?, n.toNat_lt_size]

@[simp] theorem nullable?_str (s : String) : nullable? text? (.str s) = some (some s) := rfl

@[simp] theorem nullable?_word (n : UInt64) : nullable? word? (word n) = some (some n) :=
  congrArg (Option.map some) (word?_word n)

end Ensemble.Wire
