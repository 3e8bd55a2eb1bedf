import Ensemble.RunId
import Mathlib.Algebra.Group.Nat.Defs
import Mathlib.Data.List.Basic

/-!
# Run identifiers that are written and read

The digits of an identifier are the value of it in base sixteen, and the groups in which they stand
are found again between the hyphens.
-/

namespace Ensemble

namespace Number

theorem digitRun_concat {base d : Nat} {l : List Char} {ds : List Nat} {c : Char}
    (h : digitRun base l = (ds, [])) (hc : digit? base c = some d) :
    digitRun base (l ++ [c]) = (ds ++ [d], []) := by
  induction l generalizing ds with
  | nil =>
    obtain rfl : [] = ds := congrArg Prod.fst h
    simp [digitRun, hc]
  | cons x l ih =>
    cases hx : digit? base x with
    | none => simp [digitRun, hx] at h
    | some dx =>
      simp only [digitRun, hx, Prod.mk.injEq] at h
      obtain ⟨rfl, hrest⟩ := h
      simp [digitRun, hx, ih (Prod.ext rfl hrest)]

theorem ofDigits_concat (base : Nat) (ds : List Nat) (d : Nat) :
    ofDigits base (ds ++ [d]) = ofDigits base ds * base + d := by
  simp [ofDigits]

end Number

namespace RunId

open Number

theorem digit?_digitChar : ∀ d < 16, digit? 16 (Nat.digitChar d) = some d := by decide

@[simp] theorem length_hexDigits (n v : Nat) : (hexDigits n v).length = n := by
  induction n generalizing v with
  | zero => rfl
  | succ n ih => simp [hexDigits, ih]

theorem digitRun_hexDigits (n v : Nat) :
    ∃ ds, digitRun 16 (hexDigits n v) = (ds, []) ∧ ds.length = n ∧
      ofDigits 16 ds = v % 16 ^ n := by
  induction n generalizing v with
  | zero => exact ⟨[], rfl, rfl, (Nat.mod_one v).symm⟩
  | succ n ih =>
    obtain ⟨ds, hrun, hlength, hvalue⟩ := ih (v / 16)
    refine ⟨ds ++ [v % 16], digitRun_concat hrun (digit?_digitChar _ (Nat.mod_lt _ (by decide))),
      by simp [hlength], ?_⟩
    rw [ofDigits_concat, hvalue, Nat.pow_succ', Nat.mod_mul]
    omega

theorem natural?_hexDigits (n v : Nat) :
    natural? 16 (hexDigits (n + 1) v) = some (v % 16 ^ (n + 1)) := by
  obtain ⟨ds, hrun, hlength, hvalue⟩ := digitRun_hexDigits (n + 1) v
  obtain ⟨d, ds, rfl⟩ := List.exists_cons_of_length_eq_add_one hlength
  rw [natural?, hrun, ← hvalue]

/-- What stands between hyphens at the right places is put together again. -/
theorem ungroup?_groups {a b c d e : List Char} (ha : a.length = 8) (hb : b.length = 4)
    (hc : c.length = 4) (hd : d.length = 4) (he : e.length = 12) :
    ungroup? (a ++ '-' :: (b ++ '-' :: (c ++ '-' :: (d ++ '-' :: e)))) =
      some (a ++ b ++ c ++ d ++ e) := by
  simp [ungroup?, ha, hb, hc, hd, he, List.drop_append, List.getElem?_append,
    List.drop_eq_nil_of_le]

theorem toList_text (r : RunId) : r.text.toList =
    let ds := hexDigits 32 r.value.toNat
    ds.take 8 ++ '-' :: ((ds.drop 8).take 4 ++ '-' :: ((ds.drop 12).take 4 ++ '-' ::
      ((ds.drop 16).take 4 ++ '-' :: (ds.drop 20).take 12))) := by
  simp [text]

/-- The groups of 32 digits make up the digits. -/
theorem groups_append {ds : List Char} (h : ds.length = 32) :
    ds.take 8 ++ (ds.drop 8).take 4 ++ (ds.drop 12).take 4 ++ (ds.drop 16).take 4 ++
      (ds.drop 20).take 12 = ds := by
  have hstep (i n : Nat) : (ds.drop i).take n ++ ds.drop (i + n) = ds.drop i := by
    rw [← List.drop_drop, List.take_append_drop]
  have hlast : (ds.drop 20).take 12 = ds.drop 20 := List.take_of_length_le (by simp [h])
  rw [hlast, List.append_assoc, hstep 16 4, List.append_assoc, hstep 12 4, List.append_assoc,
    hstep 8 4, List.take_append_drop]

/-- A run identifier is read back from its text. -/
theorem parse?_text (r : RunId) : parse? r.text = some r := by
  have hlength := length_hexDigits 32 r.value.toNat
  have hungroup : ungroup? r.text.toList = some (hexDigits 32 r.value.toNat) := by
    rw [toList_text, ungroup?_groups, groups_append hlength] <;> simp
  have htext : r.text.toList.length = 36 := by simp [toList_text]
  have hvalue : natural? 16 (hexDigits 32 r.value.toNat) = some r.value.toNat := by
    have hlt : r.value.toNat < 16 ^ (31 + 1) := r.value.isLt
    rw [natural?_hexDigits, Nat.mod_eq_of_lt hlt]
  simp [parse?, htext, hungroup, hvalue]

end RunId
end Ensemble
