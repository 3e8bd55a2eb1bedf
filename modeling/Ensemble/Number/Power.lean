/-!
# Powers of two and ten

The scales of binary and decimal notation: `twoTo` and `tenTo`, each with the two equations by which
it is computed with.
-/

namespace Ensemble.Number

/-- The powers of two. -/
def twoTo (n : Nat) : Nat := Nat.pow 2 n

/-- The powers of ten. -/
def tenTo (n : Nat) : Nat := Nat.pow 10 n

@[simp] theorem twoTo_zero : twoTo 0 = 1 := rfl

theorem twoTo_succ (n : Nat) : twoTo (n + 1) = twoTo n * 2 := rfl

@[simp] theorem tenTo_zero : tenTo 0 = 1 := rfl

theorem tenTo_succ (n : Nat) : tenTo (n + 1) = tenTo n * 10 := rfl

end Ensemble.Number
