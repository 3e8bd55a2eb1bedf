import Ensemble.Number.Digits

/-!
# Run identifiers

A run is identified by a number of 128 bits, written in hexadecimal digits in five groups.
-/

namespace Ensemble

/-- The identifier of a run. -/
structure RunId where
  value : BitVec 128
deriving DecidableEq

namespace RunId

instance : Inhabited RunId := ⟨⟨0⟩⟩

/-- The last `n` hexadecimal digits of a number, in lower case. -/
def hexDigits : Nat → Nat → List Char
  | 0, _ => []
  | n + 1, v => hexDigits n (v / 16) ++ [Nat.digitChar (v % 16)]

/-- The identifier in groups of 8, 4, 4, 4 and 12 digits. -/
def text (r : RunId) : String :=
  let ds := hexDigits 32 r.value.toNat
  let group (start length : Nat) : String := String.ofList ((ds.drop start).take length)
  "-".intercalate [group 0 8, group 8 4, group 12 4, group 16 4, group 20 12]

/-- The digits of a text in five groups. -/
def ungroup? (cs : List Char) : Option (List Char) :=
  let hyphens := [8, 13, 18, 23]
  if cs.length = 36 ∧ hyphens.all (fun i => cs[i]? == some '-') then
    some (cs.take 8 ++ (cs.drop 9).take 4 ++ (cs.drop 14).take 4 ++ (cs.drop 19).take 4 ++
      cs.drop 24)
  else none

/-- Reads an identifier: 32 digits, or five groups with hyphens between them, bare, in braces or
behind `urn:uuid:`. -/
def parse? (s : String) : Option RunId := do
  let cs := s.toList
  let digits ←
    if cs.length = 32 then some cs
    else if cs.length = 36 then ungroup? cs
    else if cs.length = 38 ∧ cs.head? = some '{' ∧ cs.getLast? = some '}' then
      ungroup? ((cs.drop 1).take 36)
    else if cs.length = 45 ∧ cs.take 9 = "urn:uuid:".toList then ungroup? (cs.drop 9)
    else none
  let n ← Number.natural? 16 digits
  some ⟨BitVec.ofNat 128 n⟩

end RunId

end Ensemble
