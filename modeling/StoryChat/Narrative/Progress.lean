/-
The record of progress.

Everything of a conversation that outlives the program is one record in one slot
(`SavedProgress`). Each of its fields may be missing and then has the value it has in a
new conversation; the version is looked at only after the whole record has been read.
-/
import StoryChat.Narrative.Message
import StoryChat.Save.Slots

set_option autoImplicit false

namespace StoryChat

open Json

/-- The view that is shown first (`default_view`). -/
def firstView : String := "home"

/-- What is kept of a conversation (`SavedProgress`). -/
structure Progress where
  version : Nat := recordVersion
  vars : Table Value := .empty
  messages : List Message := []
  currentNode : Option String := none
  started : Bool := false
  view : String := firstView
  chapter : Nat := 1
  part : Nat := 1
  online : Bool := true
  blocked : Bool := false
  introPending : Bool := false
  activeScript : Option String := none
  deriving DecidableEq

namespace Progress

/-- The fields of a record, in order. -/
def fieldNames : List String :=
  ["version", "variables", "chatHistory", "currentNodeId", "gameStarted", "currentView",
    "currentChapter", "currentPart", "npcConnected", "blocked", "partIntroPending", "activeScript"]

/-- The record that a document states, of any version (the fields of a `SavedProgress` with
their `serde` defaults). -/
def ofJson? (j : Json) : Option Progress := do
  let fields ← j.asRecord? fieldNames
  let version ← defaulted fields "version" asCount? recordVersion
  let vars ← defaulted fields "variables" (asTable? Value.ofJson?) .empty
  let messages ← defaulted fields "chatHistory" (asList? Message.ofJson?) []
  let currentNode ← defaulted fields "currentNodeId" (asOption? asText?) none
  let started ← defaulted fields "gameStarted" asBool? false
  let view ← defaulted fields "currentView" asText? firstView
  let chapter ← defaulted fields "currentChapter" asCount? 1
  let part ← defaulted fields "currentPart" asCount? 1
  let online ← defaulted fields "npcConnected" asBool? true
  let blocked ← defaulted fields "blocked" asBool? false
  let introPending ← defaulted fields "partIntroPending" asBool? false
  let activeScript ← defaulted fields "activeScript" (asOption? asText?) none
  return ⟨version, vars, messages, currentNode, started, view, chapter, part, online,
    blocked, introPending, activeScript⟩

/-- The record that a text states (`SavedProgress::from_json`). -/
def parse (s : String) : Except SaveFault Progress :=
  match (Json.parse? s).bind ofJson? with
  | none => .error .malformed
  | some p => if recordVersion < p.version then .error (.unsupportedVersion p.version) else .ok p

/-- A record as a document, as a `SavedProgress` is written. -/
def toJson (p : Progress) : Json :=
  record [("version", nat p.version), ("variables", table Value.toJson p.vars),
    ("chatHistory", .array (p.messages.map Message.toJson)),
    ("currentNodeId", option str p.currentNode), ("gameStarted", .bool p.started),
    ("currentView", str p.view), ("currentChapter", nat p.chapter), ("currentPart", nat p.part),
    ("npcConnected", .bool p.online), ("blocked", .bool p.blocked),
    ("partIntroPending", .bool p.introPending), ("activeScript", option str p.activeScript)]

/-- The text of a record (`SavedProgress::to_json`). -/
def render (p : Progress) : String := p.toJson.render

end Progress

end StoryChat
