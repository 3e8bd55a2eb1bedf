import Ensemble.Json.Printer
import Ensemble.Participant.Basic
import Ensemble.Text.Template

/-!
# Scripted participants

A script lists what a participant does at its first calls; the last entry holds for all further
ones. Texts in a script are templates over the message and the call.
-/

namespace Ensemble

/-- What a scripted participant does at a call. -/
structure ScriptEntry where
  reply : String := "\x7bcontent\x7d"
  fail : Option String := none
  delay : Nat := 0
  stall : Nat := 0
  cancel : Bool := false
  cancelAfter : Bool := false
  sender : Option String := none
  recipient : Option String := none
  metadata : Option Metadata := none

/-- How much of its script a participant can follow. -/
inductive ScriptStyle where
  /-- It turns one text into another: it sees the content alone, never waits, and replies under
  its own name. -/
  | text
  /-- It sees the whole message and chooses the whole reply. -/
  | message
deriving DecidableEq

/-- A participant that follows a script. -/
structure Script where
  style : ScriptStyle
  entries : List ScriptEntry

namespace Script

/-- The entry for a call. -/
def entry (s : Script) (call : Nat) : ScriptEntry :=
  (s.entries[call]?).getD (s.entries.getLast?.getD {})

/-- The value of a name in a template. -/
def valueOf? (id : String) (call : Nat) (m : Message) (name : String) : Option String :=
  match name with
  | "content" => some m.content
  | "from" => some m.sender
  | "to" => some (m.recipient.getD "")
  | "id" => some id
  | "call" => some (toString call)
  | "bytes" => some (toString m.content.utf8ByteSize)
  | name =>
    if "meta.".toList.isPrefixOf name.toList then
      some ((m.meta? (String.ofList (name.toList.drop 5))).getD .null).compact
    else none

/-- The message with an entry's metadata; none if it has no entries. -/
def tagged (metadata : Option Metadata) (m : Message) : Message :=
  match metadata with
  | some tags => tags.entries.foldl (fun m t => m.withMetadata t.1 t.2) m
  | none => m

/-- The action of an entry at a call. -/
def action (style : ScriptStyle) (e : ScriptEntry) (id : String) (call : Nat) (m : Message) :
    Action :=
  match style with
  | .text =>
    let fill := Text.fill (valueOf? id call (Message.plain "" m.content))
    { cancelsBefore := e.cancel || e.cancelAfter
      stall := e.stall
      outcome := match e.fail with
        | some f => .error (fill f)
        | none => .ok (Message.plain id (fill e.reply)) }
  | .message =>
    let fill := Text.fill (valueOf? id call m)
    { cancelsBefore := e.cancel
      stall := e.stall
      delay := min e.delay Routine.longestDelay
      cancelsAfter := e.cancelAfter
      outcome := match e.fail with
        | some f => .error (fill f)
        | none => .ok (tagged e.metadata
            { Message.plain (e.sender.getD id) (fill e.reply) with recipient := e.recipient }) }

/-- What a participant with the id given does when it follows the script. -/
def behaviour (s : Script) (id : String) : Behaviour := fun call m =>
  action s.style (s.entry call) id call m

end Script

end Ensemble
