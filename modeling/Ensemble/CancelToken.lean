import Ensemble.Text.Quoted

/-!
# Cancellation tokens

A token is a handle on a shared flag: handles copied from one another show and set the same flag.
A flag that is set stays set.
-/

namespace Ensemble

/-- How a token with the flag given is shown. -/
def describeToken (cancelled : Bool) : String :=
  Text.record "CancellationToken" [("cancelled", Text.flag cancelled)]

/-- Handles on flags: the flags, and for each handle the position of its flag. -/
structure TokenTable where
  flags : List Bool
  handles : List Nat

namespace TokenTable

/-- No tokens. -/
def empty : TokenTable := ⟨[], []⟩

/-- A new handle on a new flag. -/
def create (t : TokenTable) : TokenTable :=
  ⟨t.flags ++ [false], t.handles ++ [t.flags.length]⟩

/-- A new handle on the flag of another. -/
def share (t : TokenTable) (handle : Nat) : TokenTable :=
  match t.handles[handle]? with
  | some flag => { t with handles := t.handles ++ [flag] }
  | none => t

/-- Sets the flag of a handle. -/
def cancel (t : TokenTable) (handle : Nat) : TokenTable :=
  match t.handles[handle]? with
  | some flag => { t with flags := t.flags.set flag true }
  | none => t

/-- What each handle shows. -/
def shown (t : TokenTable) : List Bool :=
  t.handles.map fun flag => t.flags.getD flag false

end TokenTable

end Ensemble
