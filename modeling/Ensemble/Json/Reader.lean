import Ensemble.Json.Token

/-!
# Reading JSON

`Json.read?` reads a text that is one JSON value and nothing else. The tokens drive a machine with
a stack of the containers that are open; more than `depthLimit` open containers are refused.
-/

namespace Ensemble.Json

/-- The number of open containers at which a text is refused. -/
def depthLimit : Nat := 128

/-- A container whose end has not been read. What it holds so far stands in reverse. -/
inductive Frame where
  | array (items : List Json)
  | object (fields : List (String × Json))

/-- What has to come next. -/
inductive Reading where
  /-- A value, for the key given if an object waits for it. -/
  | value (key : Option String) (stack : List Frame)
  /-- A first item or the end of the array on top. -/
  | firstItem (stack : List Frame)
  /-- A first key or the end of the object on top. -/
  | firstKey (stack : List Frame)
  /-- A key. -/
  | key (stack : List Frame)
  /-- The colon behind a key. -/
  | colon (key : String) (stack : List Frame)
  /-- A comma or the end of the container on top. -/
  | next (stack : List Frame)
  /-- Nothing. -/
  | finished (value : Json)

namespace Reading

/-- A value is complete: it goes into the container on top. -/
def complete (v : Json) (key : Option String) : List Frame → Option Reading
  | [] => some (.finished v)
  | .array items :: stack => some (.next (.array (v :: items) :: stack))
  | .object fields :: stack =>
    key.map fun k => .next (.object ((k, v) :: fields) :: stack)

/-- A container is open: the key it is meant for is kept in the object around it as a pending
field, whose value `close` fills in. -/
def openFrame (frame : Frame) (key : Option String) (stack : List Frame) : Option (List Frame) :=
  if depthLimit ≤ stack.length + 1 then none
  else
    match key, stack with
    | some k, .object fields :: stack => some (frame :: .object ((k, .null) :: fields) :: stack)
    | none, .object _ :: _ => none
    | _, stack => some (frame :: stack)

/-- The container on top is complete. -/
def close (v : Json) : List Frame → Option Reading
  | .object ((k, _) :: fields) :: stack => complete v (some k) (.object fields :: stack)
  | .object [] :: _ => none
  | stack => complete v none stack

/-- One token. -/
def step (r : Reading) (t : Token) : Option Reading :=
  match r, t with
  | .value k stack, .scalar v => complete v k stack
  | .value k stack, .openArray => (openFrame (.array []) k stack).map .firstItem
  | .value k stack, .openObject => (openFrame (.object []) k stack).map .firstKey
  | .firstItem stack, .scalar v => complete v none stack
  | .firstItem stack, .openArray => (openFrame (.array []) none stack).map .firstItem
  | .firstItem stack, .openObject => (openFrame (.object []) none stack).map .firstKey
  | .firstItem (.array items :: stack), .closeArray => close (.arr items.reverse) stack
  | .firstKey stack, .scalar (.str k) => some (.colon k stack)
  | .firstKey (.object fields :: stack), .closeObject => close (.obj fields.reverse) stack
  | .key stack, .scalar (.str k) => some (.colon k stack)
  | .colon k stack, .colon => some (.value (some k) stack)
  | .next (.array items :: stack), .comma => some (.value none (.array items :: stack))
  | .next (.array items :: stack), .closeArray => close (.arr items.reverse) stack
  | .next (.object fields :: stack), .comma => some (.key (.object fields :: stack))
  | .next (.object fields :: stack), .closeObject => close (.obj fields.reverse) stack
  | _, _ => none

end Reading

/-- Reads a whole text as one JSON value. -/
def read? (text : String) : Option Json := do
  let tokens ← Token.scan text
  match ← tokens.foldlM Reading.step (.value none []) with
  | .finished v => some v
  | _ => none

end Ensemble.Json
