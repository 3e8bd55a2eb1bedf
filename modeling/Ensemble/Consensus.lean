import Ensemble.Dict
import Ensemble.Error
import Ensemble.Number.Binary64
import Ensemble.Text.Blank

/-!
# Consensus by plurality

`plurality` groups items by a key and picks the largest group, of equal ones the group that was
seen first. `Consensus.evaluate` votes with it on candidate outputs, which count as equal when they
differ only in white space at their ends.
-/

namespace Ensemble

/-- The items of one key: the position of the first of them, and how many there are. -/
structure Tally (κ : Type) where
  key : κ
  first : Nat
  size : Nat

namespace Tally

variable {κ : Type} [DecidableEq κ]

/-- Counts one more item with the key: in the group of the key, or in a new one at the end. -/
def count (key : κ) (position : Nat) : List (Tally κ) → List (Tally κ)
  | [] => [⟨key, position, 1⟩]
  | g :: rest =>
    if g.key = key then { g with size := g.size + 1 } :: rest else g :: count key position rest

/-- The groups of a list of keys whose first stands at `position`, added to earlier groups. -/
def collect (position : Nat) (groups : List (Tally κ)) : List κ → List (Tally κ)
  | [] => groups
  | key :: rest => collect (position + 1) (count key position groups) rest

/-- The larger of two groups, the earlier of two equal ones. -/
def larger (best : Option (Tally κ)) (g : Tally κ) : Option (Tally κ) :=
  match best with
  | none => some g
  | some b => if b.size < g.size then some g else some b

end Tally

/-- The largest group among a list of keys, the one seen first among equal ones: the position of
its first member and its size. -/
def plurality {κ : Type} [DecidableEq κ] (keys : List κ) : Option (Nat × Nat) :=
  ((Tally.collect 0 [] keys).foldl Tally.larger none).map fun g => (g.first, g.size)

/-- An output to vote on and who produced it. -/
structure Candidate where
  id : String
  output : String
deriving DecidableEq

/-- The outcome of a vote. -/
structure Consensus where
  winnerId : String
  winnerOutput : String
  scores : Dict Binary64
  reasoning : String

namespace Consensus

/-- The score of agreement with the winner. -/
def agreement : Binary64 := Binary64.ofNat 1

/-- The score of disagreement with the winner. -/
def disagreement : Binary64 := Binary64.ofNat 0

/-- Why a vote came out as it did. -/
def explain (votes total : Nat) : String :=
  toString votes ++ "/" ++ toString total ++ " candidates agreed on the winning output"

/-- The scores of the candidates: each agrees with the winning key or not. Of candidates with one
id the last counts. -/
def scoresOf (winning : String) (candidates : List Candidate) : Dict Binary64 :=
  Dict.ofList (candidates.map fun c =>
    (c.id, if Text.trim c.output = winning then agreement else disagreement))

/-- The vote on a list of candidates. -/
def evaluate (candidates : List Candidate) : Except Error Consensus :=
  match plurality (candidates.map fun c => Text.trim c.output) with
  | none => .error (.consensus "cannot evaluate zero results")
  | some (position, votes) =>
    match candidates[position]? with
    | none => .error (.consensus "cannot evaluate zero results")
    | some winner => .ok
      { winnerId := winner.id
        winnerOutput := winner.output
        scores := scoresOf (Text.trim winner.output) candidates
        reasoning := explain votes candidates.length }

end Consensus

end Ensemble
