/-
What a session puts on the screen.

Whatever happens is printed as a tagged line as it happens (`render_event`,
`render_message`). An indicator is told when it appears and not when it goes. The
options of a choice (`render_choices`) are numbered from one, in the order in which they
are offered.
-/
import StoryChat.Engine.Event

set_option autoImplicit false

namespace StoryChat

open Decimal (text)

/-! ## The conversation -/

/-- The author of a message as a tag (`tag` in `render_message`). -/
def Sender.tag : Sender → String
  | .player => "YOU"
  | .system => "SYSTEM"
  | .npc name => name

/-- What stands for the medium in front of the content (`attachment` in `render_message`). -/
def Medium.mark : Medium → String
  | .text => ""
  | .audio => "(voice message) "
  | .image => "(image) "

/-- A message on the screen (`render_message`). -/
def Message.line (m : Message) : String :=
  "[" ++ m.sender.tag ++ "] " ++ m.medium.mark ++ m.content

/-- Options on the screen, numbered from `next` on, each on a line of its own. -/
def numbered (next : Nat) : List Choice → String
  | [] => ""
  | c :: rest => "\n  " ++ text next ++ ") " ++ c.text ++ numbered (next + 1) rest

/-- The offered options on the screen (`render_choices`). -/
def choicesText (choices : List Choice) : String := "[CHOICES]" ++ numbered 1 choices

/-- An indicator on the screen (`render_event`). -/
def Indicator.line? : Indicator → Option String
  | .typing s => some ("[" ++ s.name ++ " is typing...]")
  | .recording s => some ("[" ++ s.name ++ " is recording audio...]")
  | .idle | .reading => none

/-- The end of a walk on the screen (`render_event`). -/
def Halt.line? : Halt → Option String
  | .missingNode id => some ("[ERROR] The story is missing node '" ++ id ++ "'.")
  | .endOfScript => some "[END]"
  | .awaitingChoice | .partEnd _ => none

/-- The end of a part on the screen (`render_event`). -/
def partEndLine : Option String → String
  | some title => "[PART END] Up next: " ++ title ++ ". Type #continue to begin."
  | none => "[PART END]"

/-- An event on the screen (`render_event`). -/
def Event.line? : Event → Option String
  | .indicator i => i.line?
  | .message m => some m.line
  | .read _ => some "[SEEN]"
  | .choices options => some (choicesText options)
  | .partEnded _ title => some (partEndLine title)
  | .halted halt => halt.line?

/-- The whole conversation on the screen, with an empty line behind it
(`print_transcript`). -/
def transcript (messages : List Message) : List String := messages.map Message.line ++ [""]

/-! ## The state -/

/-- The heading of a part (`announce_part`). -/
def Narrative.heading (n : Narrative) : String :=
  match n.title with
  | some title => "=== Part " ++ text n.part ++ ": " ++ title ++ " ==="
  | none => "=== Part " ++ text n.part ++ " ==="

/-- The state of the story on the screen (`print_status`). -/
def Narrative.status (n : Narrative) : List String :=
  ["[STATUS]", "  Player: " ++ n.playerName,
    "  Chapter " ++ text n.chapter ++ ", part " ++ text n.part] ++
  n.title.toList.map ("  Title: " ++ ·) ++
  n.activeScript.toList.map ("  Script: " ++ ·) ++
  ["  Messages: " ++ text n.messages.length, "  NPC online: " ++ (Value.bool n.online).plain,
    "  Blocked: " ++ (Value.bool n.blocked).plain] ++
  n.vars.values.entries.map fun e => "  " ++ e.1 ++ ": " ++ e.2.plain

/-- What stands above a session (printed first by `run_headless`). -/
def greeting : List String :=
  ["=== Chat Novel ===", "Type the number of a choice to answer, #help for commands.", ""]

/-- What can be typed (`print_commands`). -/
def help : List String :=
  ["[HELP]",
    "  <number>     - Pick a choice",
    "  #choices     - Show the pending choices",
    "  #continue    - Begin the next part",
    "  #history     - Show the conversation so far",
    "  #status      - Show story status",
    "  #name <name> - Change your name",
    "  #reset       - Wipe progress and start over",
    "  #quit        - Exit"]

end StoryChat
