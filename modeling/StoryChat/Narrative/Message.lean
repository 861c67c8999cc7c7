/-
Messages of a conversation.

A delivered message (`ChatMessage`) keeps the identity of the node it came from, or one
of its own if the player wrote it, and whether it has been read. In a document a sender
is a name and the point in time a text; a medium that is not one of the three is
refused, unlike the kind of a node.
-/
import StoryChat.Script.Format
import StoryChat.Time.Timestamp

set_option autoImplicit false

namespace StoryChat

open Json

/-- A delivered message (`ChatMessage`). -/
structure Message where
  id : String
  sender : Sender
  medium : Medium
  content : String
  sentAt : Timestamp
  read : Bool
  deriving DecidableEq

/-- The medium with a given name, as a `MessageKind` is read. -/
def Medium.ofName? : String → Option Medium
  | "text" => some .text
  | "audio" => some .audio
  | "image" => some .image
  | _ => none

/-- The name of a medium, as a `MessageKind` is written. -/
def Medium.name : Medium → String
  | .text => "text"
  | .audio => "audio"
  | .image => "image"

@[simp] theorem Medium.ofName?_name (m : Medium) : Medium.ofName? m.name = some m := by
  cases m <;> rfl

namespace Message

/-- The message that a document states (the fields of a `ChatMessage`). -/
def ofJson? (j : Json) : Option Message := do
  let fields ← j.asRecord? ["id", "sender", "type", "content", "timestamp", "read"]
  let id ← required fields "id" asText?
  let sender ← required fields "sender" Sender.ofJson?
  let medium ← defaulted fields "type" (fun j => j.asName?.bind Medium.ofName?) .text
  let content ← required fields "content" asText?
  let sentAt ← required fields "timestamp" fun j => j.asText?.bind Timestamp.ofText?
  let read ← defaulted fields "read" asBool? false
  return ⟨id, sender, medium, content, sentAt, read⟩

/-- A message as a document, as a `ChatMessage` is written. -/
def toJson (m : Message) : Json :=
  record [("id", str m.id), ("sender", str m.sender.name), ("type", str m.medium.name),
    ("content", str m.content), ("timestamp", str m.sentAt.text), ("read", .bool m.read)]

/-- The messages with the last one of the player marked as read, and its identity, if the
player has sent any (`mark_last_player_message_read`). -/
def markLastOfPlayer? : List Message → Option (String × List Message)
  | [] => none
  | m :: rest =>
    match markLastOfPlayer? rest with
    | some (id, rest) => some (id, m :: rest)
    | none => if m.sender = .player then some (m.id, { m with read := true } :: rest) else none

end Message

end StoryChat
