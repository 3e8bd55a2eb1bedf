import Ensemble.Json.Basic

/-!
# Messages

A message is a value: it goes from a sender to an optional recipient, carries a text, and may be
tagged with metadata. A failed call is recorded as a message tagged `error`.
-/

namespace Ensemble

/-- A message between the orchestration and its participants. -/
structure Message where
  sender : String
  recipient : Option String
  content : String
  metadata : Option Metadata

namespace Message

instance : Inhabited Message := ⟨⟨"", none, "", none⟩⟩

/-- The metadata key that marks a failed reply. -/
def errorKey : String := "error"

/-- A message to nobody in particular, without metadata. -/
def plain (sender content : String) : Message := ⟨sender, none, content, none⟩

/-- The message with a recipient. -/
def addressedTo (m : Message) (recipient : String) : Message :=
  { m with recipient := some recipient }

/-- The message with one more metadata entry; an entry of the same key is replaced. -/
def withMetadata (m : Message) (key : String) (value : Json) : Message :=
  { m with metadata := some ((m.metadata.getD Dict.empty).insert key value) }

/-- The message that records a failed call of `sender`. -/
def failure (sender detail : String) : Message :=
  (plain sender detail).withMetadata errorKey (.bool true)

/-- The metadata value at a key. -/
def meta? (m : Message) (key : String) : Option Json := m.metadata.bind (·.find? key)

/-- Whether the message is tagged as the record of a failure. -/
def isError (m : Message) : Bool :=
  match m.meta? errorKey with
  | some (.bool true) => true
  | _ => false

@[simp] theorem content_withMetadata (m : Message) (key : String) (value : Json) :
    (m.withMetadata key value).content = m.content := rfl

@[simp] theorem meta?_withMetadata (m : Message) (key k : String) (value : Json) :
    (m.withMetadata key value).meta? k = if k = key then some value else m.meta? k := by
  cases h : m.metadata <;> simp [withMetadata, meta?, h]

@[simp] theorem isError_failure (sender detail : String) :
    (failure sender detail).isError = true := by
  simp [failure, isError]

end Message

/-- The contents of messages, one per line. -/
def joinContents (ms : List Message) : String :=
  "\n".intercalate (ms.map (·.content))

/-- The contents of replies, one per line, each behind the id of the participant that gave it. -/
def joinAttributed (replies : List (String × Message)) : String :=
  "\n".intercalate (replies.map fun r => "[" ++ r.1 ++ "]: " ++ r.2.content)

/-- The sender of messages that the orchestration itself makes. -/
def orchestratorName : String := "orchestrator"

end Ensemble
