import Ensemble.Options.Basic
import Ensemble.Text.Split

/-!
# Functions for options

Ready-made functions for the settings that take one: ways to split an input into pieces, to reduce
replies to one message, and to tell whether the replies of a round have converged.
-/

namespace Ensemble

namespace Splitter

/-- Cuts at a separator. -/
def separated (sep : String) : String → List String := Text.splitAt sep

/-- Cuts into pieces of so many characters. -/
def sized (size : Nat) : String → List String := Text.chunksOf size

/-- The same pieces whatever the input. -/
def fixed (pieces : List String) : String → List String := fun _ => pieces

end Splitter

namespace Reducer

/-- The sender of reduced messages. -/
def sender : String := "reducer"

/-- The contents joined by a separator, as a message to `recipient` tagged with `tags`. -/
def join (sep : String) (recipient : Option String) (tags : List (String × Json)) :
    List Message → Message := fun ms =>
  let m := { Message.plain sender (sep.intercalate (ms.map (·.content))) with recipient }
  tags.foldl (fun m t => m.withMetadata t.1 t.2) m

/-- Each content behind its sender. -/
def attributed : List Message → Message := fun ms =>
  Message.plain sender (";".intercalate (ms.map fun m => m.sender ++ "=" ++ m.content))

/-- The number of messages. -/
def count : List Message → Message := fun ms => Message.plain sender (toString ms.length)

/-- The first message itself. -/
def first : List Message → Message := fun ms => ms.head?.getD (Message.plain sender "")

/-- The last message itself. -/
def last : List Message → Message := fun ms => ms.getLast?.getD (Message.plain sender "")

end Reducer

namespace Convergence

/-- Every round has converged. -/
def always : List Message → Bool := fun _ => true

/-- No round has converged. -/
def never : List Message → Bool := fun _ => false

/-- Neighbours have the same content. -/
def allEqual : List Message → Bool := fun ms =>
  (ms.zip (ms.drop 1)).all fun p => p.1.content == p.2.content

/-- Some content contains a text. -/
def anyContains (text : String) : List Message → Bool := fun ms =>
  ms.any fun m => Text.contains text.toList m.content.toList

/-- There are so many replies or more. -/
def atLeast (count : Nat) : List Message → Bool := fun ms => count ≤ ms.length

/-- There are so many replies or fewer. -/
def atMost (count : Nat) : List Message → Bool := fun ms => ms.length ≤ count

/-- The contents have so many bytes or more in all. -/
def totalBytes (bytes : Nat) : List Message → Bool := fun ms =>
  bytes ≤ ms.foldl (fun n m => n + m.content.utf8ByteSize) 0

end Convergence

end Ensemble
