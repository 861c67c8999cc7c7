/-
Scripts as documents.

The format of a `ScriptDocument` is made for authors: every field but the identity of a
node has a default, fields nobody knows are skipped, and a kind of node, an action or a
comparison nobody knows is kept as an unknown one instead of being refused. An action
says what it is in its `type`, which may stand anywhere in it, so the whole action is
buffered first and must be fit to be kept. The readers are named `ofJson?` and the
writers `toJson`, each for its type; `Document.parse?` and `Document.render` do the same
with texts.
-/
import StoryChat.Script.Node
import StoryChat.Json.Writer

set_option autoImplicit false

namespace StoryChat

open Json

/-! ## Names of the fixed sets -/

/-- The kind of node with a given name, as a `NodeKind` is read. -/
def NodeKind.ofName : String → NodeKind
  | "message" => .message
  | "text" => .text
  | "audio" => .audio
  | "image" => .image
  | "choice" => .choice
  | "typing_fake" => .typingFake
  | "part_end" => .partEnd
  | _ => .other

/-- The name of a kind of node. -/
def NodeKind.name : NodeKind → String
  | .message => "message"
  | .text => "text"
  | .audio => "audio"
  | .image => "image"
  | .choice => "choice"
  | .typingFake => "typing_fake"
  | .partEnd => "part_end"
  | .other => "other"

@[simp] theorem NodeKind.ofName_name (k : NodeKind) : NodeKind.ofName k.name = k := by
  cases k <;> rfl

/-- The comparison with a given sign, as an `Operator` is read. -/
def Operator.ofName : String → Operator
  | ">=" => .ge
  | "<=" => .le
  | ">" => .gt
  | "<" => .lt
  | "==" => .eq
  | "!=" => .ne
  | _ => .unknown

/-- The sign of a comparison. -/
def Operator.name : Operator → String
  | .ge => ">="
  | .le => "<="
  | .gt => ">"
  | .lt => "<"
  | .eq => "=="
  | .ne => "!="
  | .unknown => "Unknown"

@[simp] theorem Operator.ofName_name (o : Operator) : Operator.ofName o.name = o := by
  cases o <;> rfl

/-- The sender that a document names (`Sender::from`). -/
def Sender.ofJson? (j : Json) : Option Sender := j.asText?.map Sender.ofName

/-! ## Reading -/

namespace Action

/-- The action of a known type, read from its other fields. -/
def ofFields? (fields : List (String × Json)) : String → Option Action
  | "set" => do
    if ¬ (occursOnce fields "variable" ∧ occursOnce fields "value") then none
    let name ← required fields "variable" asText?
    let value ← required fields "value" Value.ofJson?
    return .set name value
  | "setNPCStatus" => do
    if ¬ occursOnce fields "value" then none
    .setOnline <$> required fields "value" asBool?
  | "setBlocked" => do
    if ¬ occursOnce fields "value" then none
    .setBlocked <$> required fields "value" asBool?
  | _ => some .unknown

/-- The action of a type, read from the elements behind it. -/
def ofItems? (items : List Json) : String → Option Action
  | "set" =>
    match items with
    | [name, value] => do return .set (← name.asText?) (← Value.ofJson? value)
    | _ => none
  | "setNPCStatus" =>
    match items with
    | [value] => .setOnline <$> value.asBool?
    | _ => none
  | "setBlocked" =>
    match items with
    | [value] => .setBlocked <$> value.asBool?
    | _ => none
  | _ => if items.isEmpty then some .unknown else none

/-- The action that a document states under `above` open containers (`script::Action`, tagged
by `type`): an object with one `type`, or an array that begins with it. -/
def ofJson? (above : Nat) (j : Json) : Option Action :=
  if ¬ j.keepable above then none
  else match j with
    | .array (type :: items) => type.asText?.bind (ofItems? items)
    | j => do
      let fields ← j.asFields?
      if ¬ occursOnce fields "type" then none
      let type ← required fields "type" asText?
      ofFields? (fields.filter (·.1 != "type")) type

end Action

/-- The condition that a document states (`script::Condition`). -/
def Condition.ofJson? (j : Json) : Option Condition := do
  let fields ← j.asRecord? ["variable", "operator", "value", "nextId"]
  let name ← required fields "variable" asText?
  let operator ← required fields "operator" fun j => j.asName?.map Operator.ofName
  let value ← required fields "value" Value.ofJson?
  let target ← required fields "nextId" asText?
  return ⟨name, operator, value, target⟩

/-- The option that a document states (`script::Choice`). -/
def Choice.ofJson? (j : Json) : Option Choice := do
  let fields ← j.asRecord? ["text", "nextId", "impact"]
  let text ← required fields "text" asText?
  let next ← defaulted fields "nextId" (asOption? asText?) none
  let impact ← defaulted fields "impact" (asTable? asFloat?) Table.empty
  return ⟨text, next, impact⟩

/-- The fields of a node, in order. -/
def Node.fieldNames : List String :=
  ["id", "type", "sender", "content", "delay", "actions", "conditions", "nextId", "nextPart",
    "choices", "typingCycles"]

/-- The node that a document states under `above` open containers (`ScriptNode`). -/
def Node.ofJson? (above : Nat) (j : Json) : Option Node := do
  let fields ← j.asRecord? Node.fieldNames
  let id ← required fields "id" asText?
  let kind ← defaulted fields "type" (fun j => j.asName?.map NodeKind.ofName) .message
  let sender ← defaulted fields "sender" Sender.ofJson? .system
  let content ← defaulted fields "content" asText? ""
  let delay ← defaulted fields "delay" (asOption? asFloat?) none
  let actions ← defaulted fields "actions" (asList? (Action.ofJson? (above + 2))) []
  let conditions ← defaulted fields "conditions" (asList? Condition.ofJson?) []
  let next ← defaulted fields "nextId" (asOption? asText?) none
  let nextPart ← defaulted fields "nextPart" (asOption? asCount?) none
  let choices ← defaulted fields "choices" (asList? Choice.ofJson?) []
  let typingCycles ← defaulted fields "typingCycles" (asOption? asCount?) none
  return ⟨id, kind, sender, content, delay, actions, conditions, next, nextPart, choices,
    typingCycles⟩

/-- The script that a document states (`ScriptDocument`). -/
def Document.ofJson? (j : Json) : Option Document := do
  let fields ← j.asRecord? ["title", "nodes"]
  let title ← defaulted fields "title" (asOption? asText?) none
  let nodes ← required fields "nodes" (asList? (Node.ofJson? 2))
  return ⟨title, nodes⟩

/-- The node that a text states. -/
def Node.parse? (s : String) : Option Node := (Json.parse? s).bind (Node.ofJson? 0)

/-- The script that a text states (`ScriptDocument::from_json`). -/
def Document.parse? (s : String) : Option Document := (Json.parse? s).bind Document.ofJson?

/-! ## Writing

All fields are written, in order, the defaults too. -/

/-- An action as a document. -/
def Action.toJson : Action → Json
  | .set name value =>
    record [("type", str "set"), ("variable", str name), ("value", value.toJson)]
  | .setOnline online => record [("type", str "setNPCStatus"), ("value", .bool online)]
  | .setBlocked blocked => record [("type", str "setBlocked"), ("value", .bool blocked)]
  | .unknown => record [("type", str "Unknown")]

/-- A condition as a document. -/
def Condition.toJson (c : Condition) : Json :=
  record [("variable", str c.name), ("operator", str c.operator.name),
    ("value", c.value.toJson), ("nextId", str c.target)]

/-- An option as a document. -/
def Choice.toJson (c : Choice) : Json :=
  record [("text", str c.text), ("nextId", option str c.next), ("impact", table float c.impact)]

/-- A node as a document. -/
def Node.toJson (n : Node) : Json :=
  record [("id", str n.id), ("type", str n.kind.name), ("sender", str n.sender.name),
    ("content", str n.content), ("delay", option float n.delay),
    ("actions", .array (n.actions.map Action.toJson)),
    ("conditions", .array (n.conditions.map Condition.toJson)),
    ("nextId", option str n.next), ("nextPart", option nat n.nextPart),
    ("choices", .array (n.choices.map Choice.toJson)),
    ("typingCycles", option nat n.typingCycles)]

/-- A script as a document, as a `ScriptDocument` is written. -/
def Document.toJson (d : Document) : Json :=
  record [("title", option str d.title), ("nodes", .array (d.nodes.map Node.toJson))]

/-- The text of a script. -/
def Document.render (d : Document) : String := d.toJson.render

end StoryChat
