/-
What a player types.

A line that the loop of `run_headless` takes in is a command (`Command.ofLine`), if it
begins with a hash sign, or else the number of a choice. A command is its first word;
the words behind it matter only for a name. Blanks around a line have no meaning, and
numbers are counted from one.
-/
import StoryChat.Text.Blank
import StoryChat.Text.Number

set_option autoImplicit false

namespace StoryChat

open Text

/-- What a line asks for: the cases of the loop of `run_headless`. -/
inductive Command where
  /-- Nothing was typed. -/
  | nothing
  | quit
  | status
  | history
  | choices
  /-- Begin the part that waits to be entered. -/
  | begin
  /-- Change the player's name, if there is one. -/
  | name (name : String)
  | reset
  | help
  /-- A hash sign and no command behind it. -/
  | unknown
  /-- Anything else, which should be the number of a choice. -/
  | answer (word : String)
  deriving DecidableEq

namespace Command

/-- The command that the words behind a hash sign give (the `match` on the first of
`parts`). -/
def ofWords : List String → Command
  | "quit" :: _ | "exit" :: _ => .quit
  | "status" :: _ => .status
  | "history" :: _ => .history
  | "choices" :: _ => .choices
  | "continue" :: _ => .begin
  | "name" :: rest => .name (" ".intercalate rest)
  | "reset" :: _ => .reset
  | "help" :: _ => .help
  | _ => .unknown

/-- The command that a line without blanks at its ends gives. -/
def ofTrimmed (line : String) : Command :=
  match line.toList with
  | [] => .nothing
  | '#' :: rest => ofWords (words (String.ofList rest))
  | _ => .answer line

/-- The command that a line gives. -/
def ofLine (line : String) : Command := ofTrimmed (trim line)

end Command

/-- The largest number that is read as the number of a choice (`usize::MAX`). -/
def choiceLimit : Nat := 18446744073709551615

/-- The index of the choice that a word numbers, as `submit_choice` is called with it. -/
def choiceIndex? (word : String) : Option Nat :=
  match readWhole choiceLimit word with
  | .ok (index + 1) => some index
  | _ => none

end StoryChat
