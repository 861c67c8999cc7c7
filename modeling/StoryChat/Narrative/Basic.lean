/-
The state of a conversation.

Everything a conversation is at a moment stands here (`NarrativeStore`): who plays, what
was said, where the story is, what the variables are, and what is going on right now.
The last of these, the flags (`EngineFlags`), belongs to the running program and is not
kept. The rest makes up the record of progress, and `snapshot` and `restore` are the two
directions of that. A change of more than one field has a function here.
-/
import StoryChat.Narrative.Progress

set_option autoImplicit false

namespace StoryChat

/-- What is shown beside the conversation (`state::Indicator`). -/
inductive Indicator where
  | idle
  | typing (sender : Sender)
  | recording (sender : Sender)
  | reading
  deriving DecidableEq

/-- The participant an indicator belongs to (`NarrativeStore::indicator_sender`). -/
def Indicator.sender? : Indicator → Option Sender
  | .typing s | .recording s => some s
  | _ => none

/-- What is going on right now (`EngineFlags`). -/
structure Flags where
  /-- A walk is under way. -/
  processing : Bool := false
  /-- The player is asked to choose. -/
  waiting : Bool := false
  /-- The options offered, with the player's name put in. -/
  choices : List Choice := []
  /-- The player has chosen and nobody has answered yet. -/
  answered : Bool := false
  indicator : Indicator := .idle
  deriving DecidableEq

/-- The state of a conversation (`NarrativeStore`). -/
structure Narrative where
  playerName : String
  started : Bool
  vars : Variables
  /-- What was said, first to last. -/
  messages : List Message
  /-- The next node to be walked. -/
  currentNode : Option String
  view : String
  chapter : Nat
  part : Nat
  /-- The title of the part. -/
  title : Option String
  /-- The named script the position is in, if it is not in the part. -/
  activeScript : Option String
  /-- A part has ended and the next one waits to be entered. -/
  introPending : Bool
  /-- Whether the other side is online. -/
  online : Bool
  /-- Whether the other side has blocked the player. -/
  blocked : Bool
  flags : Flags
  deriving DecidableEq

namespace Narrative

/-- A conversation that has not begun (`NarrativeStore::new`). -/
def fresh (schema : Schema) : Narrative where
  playerName := ""
  started := false
  vars := .ofSchema schema
  messages := []
  currentNode := none
  view := firstView
  chapter := 1
  part := 1
  title := none
  activeScript := none
  introPending := false
  online := true
  blocked := false
  flags := {}

/-- The conversation with one more message (`append_message`). -/
def append (n : Narrative) (m : Message) : Narrative := { n with messages := n.messages ++ [m] }

/-- Mark the last message of the player as read, and say which it is
(`mark_last_player_message_read`). -/
def markRead (n : Narrative) : Option String × Narrative :=
  match Message.markLastOfPlayer? n.messages with
  | none => (none, n)
  | some (id, messages) => (some id, { n with messages })

/-- Be at a node, or nowhere (`set_current_node`). -/
def goTo (n : Narrative) (node : Option String) : Narrative := { n with currentNode := node }

/-- Be in a part of a chapter (`set_position`). -/
def moveTo (n : Narrative) (chapter part : Nat) : Narrative := { n with chapter, part }

/-- Offer options and wait for one to be chosen (`present_choices`). -/
def present (n : Narrative) (choices : List Choice) : Narrative :=
  { n with flags := { n.flags with choices, waiting := true } }

/-- Offer nothing (`clear_choices`). -/
def clearChoices (n : Narrative) : Narrative :=
  { n with flags := { n.flags with choices := [], waiting := false } }

/-- Show an indicator (`set_indicator`). -/
def indicate (n : Narrative) (indicator : Indicator) : Narrative :=
  { n with flags := { n.flags with indicator } }

/-- Begin or end a walk (`set_processing`). -/
def process (n : Narrative) (processing : Bool) : Narrative :=
  { n with flags := { n.flags with processing } }

/-- Remember whether the player's choice still waits for an answer
(`set_last_was_player_choice`). -/
def answer (n : Narrative) (answered : Bool) : Narrative :=
  { n with flags := { n.flags with answered } }

/-- Wait for a choice, or not (`set_waiting_for_choice`). -/
def await (n : Narrative) (waiting : Bool) : Narrative :=
  { n with flags := { n.flags with waiting } }

/-- What a node's action changes (one turn of `DialogueEngine::execute_actions`). -/
def act (n : Narrative) : Action → Narrative
  | .set name value => { n with vars := n.vars.set name value }
  | .setOnline online => { n with online }
  | .setBlocked blocked => { n with blocked }
  | .unknown => n

/-- The conversation without anything going on (`clear_engine_flags`). -/
def rest (n : Narrative) : Narrative := { n with flags := {} }

/-- The conversation with everything in it put back, as `NarrativeStore::reset` puts it. -/
def forget (n : Narrative) : Narrative :=
  { n with
    playerName := ""
    started := false
    vars := n.vars.reset
    messages := []
    currentNode := none
    view := firstView
    chapter := 1
    part := 1
    title := none
    activeScript := none
    introPending := false
    online := true
    blocked := false
    flags := {} }

/-- It is as if it had not begun. -/
theorem forget_eq (n : Narrative) : n.forget = .fresh n.vars.schema := rfl

/-! ## The record -/

/-- The record of a conversation (`NarrativeStore::snapshot`). -/
def snapshot (n : Narrative) : Progress where
  vars := n.vars.values
  messages := n.messages
  currentNode := n.currentNode
  started := n.started
  view := n.view
  chapter := n.chapter
  part := n.part
  online := n.online
  blocked := n.blocked
  introPending := n.introPending
  activeScript := n.activeScript

/-- The conversation as a record has it (`NarrativeStore::restore`). Who plays, the title of
the part and what is going on are not in a record. -/
def restore (n : Narrative) (p : Progress) : Narrative :=
  { n with
    vars := n.vars.restore p.vars
    messages := p.messages
    currentNode := p.currentNode
    started := p.started
    view := p.view
    chapter := p.chapter
    part := p.part
    online := p.online
    blocked := p.blocked
    introPending := p.introPending
    activeScript := p.activeScript }

end Narrative

end StoryChat
