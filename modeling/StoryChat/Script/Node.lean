/-
The nodes of a script.

A script is a graph of authored steps (`ScriptNode`). Most nodes deliver a message; some
offer a choice, only pretend to type, or end the part. After a message the story goes on
to the target of the first condition that the variables satisfy, else to the node's own
successor (`resolveNext`). What a condition compares is fixed by `Operator.holds`:
numbers have an order, anything has equality within its sort, and a variable that is
missing is only ever different.
-/
import StoryChat.Story.Variables

set_option autoImplicit false

namespace StoryChat

/-! ## Who speaks and how -/

/-- The author of a message (`script::Sender`). -/
inductive Sender where
  | player
  | system
  /-- Any other participant. -/
  | npc (name : String)
  deriving DecidableEq

namespace Sender

/-- The sender with a given name (`Sender::from`). -/
def ofName (name : String) : Sender :=
  if name = "player" then .player
  else if name = "system" then .system
  else .npc name

/-- The name of a sender (`Sender::as_str`). -/
def name : Sender → String
  | .player => "player"
  | .system => "system"
  | .npc name => name

/-- Whether a sender is a participant who types and reads (`Sender::is_npc`). -/
def isNpc : Sender → Bool
  | .npc _ => true
  | _ => false

@[simp] theorem name_ofName (s : String) : (ofName s).name = s := by
  unfold ofName
  split
  · next h => rw [h]; rfl
  · split
    · next h => rw [h]; rfl
    · rfl

end Sender

/-- What a node does (`script::NodeKind`). -/
inductive NodeKind where
  | message
  | text
  | audio
  | image
  | choice
  | typingFake
  | partEnd
  /-- A kind that is not known, which does what a message does. -/
  | other
  deriving DecidableEq

/-- The medium of a delivered message (`MessageKind`). -/
inductive Medium where
  | text
  | audio
  | image
  deriving DecidableEq

/-- The medium of the message that a node delivers (`NodeKind::message_kind`). -/
def NodeKind.medium : NodeKind → Medium
  | .audio => .audio
  | .image => .image
  | _ => .text

/-! ## What a node does to the story -/

/-- A change that a node makes (`script::Action`). -/
inductive Action where
  /-- Write a variable. -/
  | set (name : String) (value : Value)
  /-- Let the other side come online or go. -/
  | setOnline (online : Bool)
  /-- Let the other side block the player, or not. -/
  | setBlocked (blocked : Bool)
  /-- An action that is not known, which changes nothing. -/
  | unknown
  deriving DecidableEq

/-- How a condition compares (`script::Operator`). -/
inductive Operator where
  | ge
  | le
  | gt
  | lt
  | eq
  | ne
  /-- A comparison that is not known, which never holds. -/
  | unknown
  deriving DecidableEq

namespace Operator

/-- The comparison of two numbers, for the operators that order them. -/
def order (op : Operator) (x y : Float) : Bool :=
  match op with
  | .ge => x ≥ y
  | .le => x ≤ y
  | .gt => x > y
  | .lt => x < y
  | _ => false

/-- Whether the current value of a variable stands in the relation to a literal
(`Operator::evaluate`). A missing value is different from everything and nothing else. -/
def holds (op : Operator) (current : Option Value) (literal : Value) : Bool :=
  match current with
  | none => op == .ne
  | some current =>
    match op with
    | .eq => current.same literal
    | .ne => ! current.same literal
    | .unknown => false
    | op =>
      match current.number?, literal.number? with
      | some x, some y => op.order x y
      | _, _ => false

end Operator

/-- A jump that depends on a variable (`script::Condition`). -/
structure Condition where
  /-- The variable that is looked at. -/
  name : String
  operator : Operator
  value : Value
  target : String
  deriving DecidableEq

/-- Whether the variables satisfy a condition (`Condition::is_satisfied`). -/
def Condition.holds (c : Condition) (v : Variables) : Bool :=
  c.operator.holds (v.get? c.name) c.value

/-- An option that the player may pick (`script::Choice`). -/
structure Choice where
  text : String
  next : Option String
  /-- What picking it adds to the variables. -/
  impact : Table Float
  deriving DecidableEq

/-! ## Nodes -/

/-- An authored step (`ScriptNode`). -/
structure Node where
  id : String
  kind : NodeKind
  sender : Sender
  content : String
  /-- A pause in milliseconds to take instead of the usual one, if positive. -/
  delay : Option Float
  actions : List Action
  conditions : List Condition
  next : Option String
  nextPart : Option Nat
  choices : List Choice
  typingCycles : Option Nat
  deriving DecidableEq

namespace Node

/-- A node that only delivers a message (`ScriptNode::message`). -/
def message (id : String) (sender : Sender) (content : String) : Node :=
  { id, kind := .message, sender, content, delay := none, actions := [], conditions := [],
    next := none, nextPart := none, choices := [], typingCycles := none }

/-- The node with a successor (`ScriptNode::then`). -/
def goingTo (n : Node) (next : String) : Node := { n with next := some next }

/-- Whether the story may go on behind a node (`ScriptNode::has_successor`). -/
def hasSuccessor (n : Node) : Bool := n.next.isSome || ! n.conditions.isEmpty

/-- Where the story goes on behind a message (`ScriptNode::resolve_next`): at the target of
the first condition that holds, else at the successor. -/
def resolveNext (n : Node) (v : Variables) : Option String :=
  match n.conditions.find? (·.holds v) with
  | some c => some c.target
  | none => n.next

/-- The length of the content in characters (`ScriptNode::content_len`). -/
def contentLength (n : Node) : Nat := n.content.length

/-- The explicit pause in milliseconds, which only counts if it is positive (the `delay`
filter of `Pacer::smart_delay`). -/
def explicitDelay (n : Node) : Option Float := n.delay.filter (· > 0.0)

end Node

/-- A script as authored (`ScriptDocument`). -/
structure Document where
  title : Option String
  nodes : List Node
  deriving DecidableEq

end StoryChat
