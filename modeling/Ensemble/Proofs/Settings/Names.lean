import Ensemble.Settings.Load
import Mathlib.Data.List.Basic

/-!
# Names of settings

A setting is looked up by its name in lower case. The name of a variable goes through lower-casing
twice, once with its family and once as a key; for the names of settings, which are plain ASCII, the
second time changes nothing (`eq_of_lower_eq`). A name without points and brackets is no path
(`Key.parse_of_plain`).
-/

namespace Ensemble.Text

/-! ## Lower case, letter by letter -/

theorem toList_lower (s : String) : (lower s).toList = s.toList.flatMap lowerChar := by
  simp [lower]

/-- The ways of a character to its lower-case form. -/
theorem lowerChar_cases (c : Char) :
    lowerChar c = ['i', '\u0307'] ∨
    (lowerChar c = [c] ∧ ∀ r ∈ capitals, r.holds c.toNat = false) ∨
    ∃ r ∈ capitals, r.holds c.toNat = true ∧
      lowerChar c = [Char.ofNat (c.toNat + r.shift).toNat] := by
  rw [lowerChar]
  split
  · exact .inl rfl
  · split
    · next r hr =>
      have hholds := List.find?_some (p := fun r : CapitalRange => r.holds c.toNat) hr
      exact .inr (.inr ⟨r, List.mem_of_find?_eq_some hr, hholds, rfl⟩)
    · next hnone =>
      simp only [List.find?_eq_none, Bool.not_eq_true] at hnone
      exact .inr (.inl ⟨rfl, hnone⟩)

/-- Lower-case forms of capitals begin at `a`, the Kelvin sign is none of them, and only the
capitals of ASCII and the Kelvin sign have one in ASCII. -/
theorem capitals_bounds : ∀ r ∈ capitals, 97 ≤ (r.first : Int) + r.shift ∧
    ((r.last : Int) + r.shift < 0x212a ∨ 0x212a < (r.first : Int) + r.shift) ∧
    ((r.first : Int) + r.shift < 128 →
      (0x41 ≤ r.first ∧ r.last ≤ 0x5a) ∨ (r.first = 0x212a ∧ r.last = 0x212a)) := by
  decide +kernel

theorem capitals_any : ∀ n ∈ 0x212a :: List.range' 0x41 26, capitals.any (·.holds n) := by
  decide +kernel

/-- The capitals that have a lower-case form in ASCII. -/
def IsCapital (n : Nat) : Prop := (0x41 ≤ n ∧ n ≤ 0x5a) ∨ n = 0x212a

theorem exists_holds {n : Nat} (h : IsCapital n) : ∃ r ∈ capitals, r.holds n = true := by
  rw [← List.any_eq_true]
  refine capitals_any n ?_
  rw [List.mem_cons, List.mem_range'_1]
  rcases h with h | h
  · exact .inr (by omega)
  · exact .inl h

theorem toNat_lowered {r : CapitalRange} {n : Nat} (hr : r ∈ capitals) (hn : r.holds n = true) :
    let m := ((n : Int) + r.shift).toNat
    97 ≤ m ∧ m ≠ 0x212a ∧ (m < 128 → IsCapital n) := by
  obtain ⟨hlow, hkelvin, hascii⟩ := capitals_bounds r hr
  simp only [CapitalRange.holds, Bool.and_eq_true, decide_eq_true_eq] at hn
  simp only [IsCapital]
  omega

theorem toNat_ofNat_cases (n : Nat) : (Char.ofNat n).toNat = n ∨ (Char.ofNat n).toNat = 0 := by
  by_cases h : n.isValidChar
  · left
    rw [Char.ofNat, dif_pos h]
    rfl
  · right
    rw [Char.ofNat, dif_neg h]
    rfl

variable {c c' x : Char}

/-- A lower-case form is no capital. -/
theorem not_isCapital_of_mem (h : c' ∈ lowerChar c) : ¬IsCapital c'.toNat := by
  rcases lowerChar_cases c with hc | ⟨hc, hnone⟩ | ⟨r, hr, hholds, hc⟩
  · rw [hc] at h
    simp only [List.mem_cons, List.not_mem_nil, or_false] at h
    rcases h with rfl | rfl <;> simp [IsCapital]
  · rw [hc, List.mem_singleton] at h
    subst h
    intro hcapital
    obtain ⟨r, hr, hholds⟩ := exists_holds hcapital
    simp [hnone r hr] at hholds
  · rw [hc, List.mem_singleton] at h
    obtain ⟨hlow, hkelvin, -⟩ := toNat_lowered hr hholds
    rcases toNat_ofNat_cases (c.toNat + r.shift).toNat with hvalue | hvalue <;>
      (rw [h, IsCapital, hvalue]; omega)

/-- Below the lower-case letters a character of a lower-case form is the character itself. -/
theorem eq_of_mem_of_lt (h : c' ∈ lowerChar c) (hpos : 0 < c'.toNat) (hlt : c'.toNat < 97) :
    c' = c := by
  rcases lowerChar_cases c with hc | ⟨hc, -⟩ | ⟨r, hr, hholds, hc⟩
  · rw [hc] at h
    simp only [List.mem_cons, List.not_mem_nil, or_false] at h
    rcases h with rfl | rfl <;> simp at hlt
  · rwa [hc, List.mem_singleton] at h
  · rw [hc, List.mem_singleton] at h
    obtain ⟨hlow, -⟩ := toNat_lowered hr hholds
    rcases toNat_ofNat_cases (c.toNat + r.shift).toNat with hvalue | hvalue <;>
      (rw [h, hvalue] at hpos hlt; omega)

/-- What is no capital and has a lower-case form in ASCII is this form. -/
theorem eq_of_lowerChar_eq (hc : ¬IsCapital c.toNat) (h : lowerChar c = [x]) (hpos : 0 < x.toNat)
    (hlt : x.toNat < 128) : c = x := by
  rcases lowerChar_cases c with hc' | ⟨hc', -⟩ | ⟨r, hr, hholds, hc'⟩
  · simp [hc'] at h
  · simpa [hc'] using h
  · rw [hc', List.singleton_inj] at h
    obtain ⟨-, -, hascii⟩ := toNat_lowered hr hholds
    rcases toNat_ofNat_cases (c.toNat + r.shift).toNat with hvalue | hvalue
    · rw [h] at hvalue
      exact absurd (hascii (hvalue ▸ hlt)) hc
    · rw [h] at hvalue
      omega

/-- Lower-casing changes nothing in a text without capitals whose lower-case form is ASCII. -/
theorem eq_of_lower_eq {cs name : List Char} (hcs : ∀ c ∈ cs, ¬IsCapital c.toNat)
    (hname : ∀ x ∈ name, 0 < x.toNat ∧ x.toNat < 128) (h : cs.flatMap lowerChar = name) :
    cs = name := by
  subst h
  induction cs with
  | nil => rfl
  | cons c cs ih =>
    rw [List.flatMap_cons] at hname ⊢
    have hrest := ih (fun c hc => hcs c (List.mem_cons_of_mem _ hc)) fun x hx =>
      hname x (List.mem_append_right _ hx)
    obtain ⟨x, hx⟩ : ∃ x, lowerChar c = [x] := by
      rcases lowerChar_cases c with hc | ⟨hc, -⟩ | ⟨r, -, -, hc⟩
      · have hdot := hname '\u0307' (by simp [hc])
        simp at hdot
      · exact ⟨_, hc⟩
      · exact ⟨_, hc⟩
    obtain ⟨hpos, hlt⟩ := hname x (by simp [hx])
    rw [hx, eq_of_lowerChar_eq (hcs c List.mem_cons_self) hx hpos hlt, List.singleton_append,
      ← hrest]

end Ensemble.Text

namespace Ensemble.Settings

/-! ## Names without paths -/

/-- A name in which no path can begin; letters, digits and underscores make no other. -/
def Plain (name : String) : Prop := '.' ∉ name.toList ∧ '[' ∉ name.toList

instance (name : String) : Decidable (Plain name) :=
  inferInstanceAs (Decidable ('.' ∉ name.toList ∧ '[' ∉ name.toList))

theorem Plain.lower {name : String} (h : Plain name) : Plain (Text.lower name) := by
  have hmem {c : Char} (hpos : 0 < c.toNat) (hlt : c.toNat < 97)
      (hc : c ∈ (Text.lower name).toList) : c ∈ name.toList := by
    rw [Text.toList_lower, List.mem_flatMap] at hc
    obtain ⟨c₀, hc₀, hc⟩ := hc
    rwa [Text.eq_of_mem_of_lt hc hpos hlt]
  exact ⟨fun hdot => h.1 (hmem (by decide) (by decide) hdot),
    fun hbracket => h.2 (hmem (by decide) (by decide) hbracket)⟩

theorem Key.isSteps_cons {c : Char} (hdot : c ≠ '.') (hbracket : c ≠ '[') (fuel : Nat)
    (rest : List Char) : Key.isSteps fuel (c :: rest) = false := by
  unfold Key.isSteps
  split <;> simp_all

/-- The key of a plain name is the name in lower case. -/
theorem Key.parse_of_plain {name : String} (h : Plain (Text.lower name)) :
    Key.parse name = ⟨Text.lower name, false⟩ := by
  have hsplit := List.takeWhile_append_dropWhile (p := Key.isNameChar)
    (l := (Text.lower name).toList)
  simp only [Key.parse]
  cases hsteps : (Text.lower name).toList.dropWhile Key.isNameChar with
  | nil =>
    rw [hsteps, List.append_nil] at hsplit
    simp [hsplit]
  | cons c rest =>
    have hmem : c ∈ (Text.lower name).toList := by
      rw [← hsplit, hsteps]
      simp
    have hdot : c ≠ '.' := fun heq => h.1 (heq ▸ hmem)
    have hbracket : c ≠ '[' := fun heq => h.2 (heq ▸ hmem)
    simp [Key.isSteps_cons hdot hbracket]

/-! ## Names of variables -/

theorem settingOf?_eq_some {family name k : String} :
    settingOf? family name = some k ↔
      (Text.lower name).toList = (Text.lower family).toList ++ '_' :: k.toList := by
  simp only [settingOf?, List.isPrefixOf_iff_prefix]
  by_cases hprefix : (Text.lower family).toList ++ ['_'] <+: (Text.lower name).toList
  · obtain ⟨rest, hrest⟩ := hprefix
    rw [← hrest, if_pos (List.prefix_append _ _), List.drop_left, Option.some.injEq,
      List.append_assoc, List.singleton_append, List.append_cancel_left_eq, List.cons.injEq]
    simp [String.ext_iff, eq_comm]
  · simp only [if_neg hprefix, reduceCtorEq, false_iff]
    intro h
    refine hprefix ⟨k.toList, ?_⟩
    rw [h, List.append_assoc, List.singleton_append]

end Ensemble.Settings
