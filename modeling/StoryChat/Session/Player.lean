/-
A session.

A session (`run_headless`) plays a story line by line. It wipes what was kept if it is
told to, shows the conversation so far, and continues where the record says
(`resume_session`), or else starts a new story, for which it asks the player's name
(`start_new_game`). After that each line is a command or the number of a choice. A
record whose script cannot be had any more is wiped, so that a new story can take its
place. A session ends by command or with its input, and breaks off where a slot or a
script that a new story needs cannot be had.
-/
import StoryChat.Engine.Play
import StoryChat.Session.Command
import StoryChat.Session.Options
import StoryChat.Session.Screen

set_option autoImplicit false

namespace StoryChat

/-- What becomes of the story that was kept (`Resume`). -/
inductive Resumed where
  /-- It went on. -/
  | continued
  /-- A part waits to be entered. -/
  | pendingPart
  /-- It was over. -/
  | ended
  /-- There is none. -/
  | newStory
  /-- It could not go on and was wiped, after which `resume_session` too answers that there is
  none. -/
  | wiped
  deriving DecidableEq

/-- Why a session broke off: an error that `run_headless` returns. -/
inductive SessionFault where
  | engine (fault : EngineFault)
  | slot (fault : SaveFault)
  /-- The input ended where a name was expected. -/
  | inputClosed
  deriving DecidableEq

/-- The text of the cause. -/
def SessionFault.message : SessionFault → String
  | .engine fault => fault.message
  | .slot fault => fault.message
  | .inputClosed => "Input closed before a name was entered"

/-- Where a session is: in the loop of `start_new_game`, or in that of `run_headless`. -/
inductive Stage where
  /-- It has asked for a name. -/
  | naming
  | playing
  | over
  deriving DecidableEq

/-- What the end of the input means. -/
def Stage.close : Stage → Except SessionFault Unit
  | .naming => .error .inputClosed
  | .playing | .over => .ok ()

/-- The usual interrupt (`BLOCK_VARIABLE`, `BLOCK_SCRIPT`): a participant who has lost all
affection blocks the player. -/
def blockInterrupt : Threshold := ⟨"valeria_affection", 0.0, "blocked"⟩

/-- The configuration of a session. -/
def Options.config (o : Options) : Config :=
  { Config.standard with pacing := Pacing.standard.withTimeScale o.timeScale }

/-- The engine of a session, as `run_headless` sets it up. -/
def Options.engine (o : Options) : Engine :=
  .fresh o.config (if o.interrupts then [blockInterrupt.check] else []) true true

namespace Act

/-- Print lines. -/
def say (lines : List String) : Act Unit :=
  change fun w => lines.foldl (fun w line => w.note (.line line)) w

/-! ## Opening -/

/-- Let the story that was kept go on (`resume_session`). -/
def resumeSession : Act Resumed := do
  match ← resumeSaved with
  | .error _ =>
    let _ ← resetGame
    return .wiped
  | .ok (some _) => return .continued
  | .ok none =>
    let n ← look (·.engine.narrative)
    if n.introPending then return .pendingPart
    else if n.started ∧ n.messages ≠ [] then return .ended
    else return .newStory

/-- Enter the part that waits to be entered, under its heading (`announce_part`). -/
def announcePending : Act Unit := do
  say [← look (·.engine.narrative.heading)]
  let _ ← beginPending

/-- Start a new story for a player: the end of `start_new_game`. -/
def newStory (o : Options) (name : String) : Act (Except SessionFault Stage) := do
  match ← setPlayerName name with
  | .error fault => return .error (.slot fault)
  | .ok () =>
    match ← startChapter o.chapter o.part with
    | .error fault => return .error (.engine (.load fault))
    | .ok _ => return .ok .playing

/-- Start a new story, or ask for the name it needs (`start_new_game`). -/
def newStoryOrAsk (o : Options) : Act (Except SessionFault Stage) := do
  match o.name with
  | some name => newStory o name
  | none =>
    say ["[NAME] What's your name?"]
    return .ok .naming

/-- Wipe what was kept (`reset_game`), if that is asked for. -/
def wipeIf (fresh : Bool) : Act (Except SaveFault Unit) :=
  if fresh then resetGame else pure (.ok ())

/-- The conversation so far, on the screen (`print_transcript`). -/
def recap (p : Progress) : List String :=
  if p.messages = [] then []
  else
    ("[RESUMED] Chapter " ++ Decimal.text p.chapter ++ ", part " ++ Decimal.text p.part) ::
      transcript p.messages

/-- Show the conversation so far, as `run_headless` does before the story goes on. A record
that cannot be read is not shown. -/
def showRecord : Act (Except SaveFault Unit) := do
  match ← getSlot (← look (·.engine.config.progressKey)) with
  | .error fault => return .error fault
  | .ok none => return .ok ()
  | .ok (some text) =>
    match Progress.parse text with
    | .error _ => return .ok ()
    | .ok progress =>
      say (recap progress)
      return .ok ()

/-- Go on with the story that was kept, or start a new one: the `match` on what
`resume_session` answers. -/
def takeUp (o : Options) : Act (Except SessionFault Stage) := do
  match ← resumeSession with
  | .continued => return .ok .playing
  | .pendingPart =>
    announcePending
    return .ok .playing
  | .ended =>
    say ["[END] This story has ended. Type #reset to start over."]
    return .ok .playing
  | .newStory => newStoryOrAsk o
  | .wiped =>
    say ["[ERROR] The saved game could not be resumed. Starting a new one."]
    newStoryOrAsk o

/-- Begin a session: what `run_headless` does before it takes in lines. -/
def openSession (o : Options) : Act (Except SessionFault Stage) := do
  match ← wipeIf o.fresh with
  | .error fault => return .error (.engine (.save fault))
  | .ok () =>
    say greeting
    match ← showRecord with
    | .error fault => return .error (.slot fault)
    | .ok () => takeUp o

/-! ## Lines -/

/-- Choose the option that a word numbers (`submit_choice`), if a choice is offered. -/
def answerWith (word : String) : Act Unit := do
  if ¬ (← look (·.engine.narrative.flags.waiting)) then say ["[WAIT] Nothing to answer yet."]
  else
    match choiceIndex? word with
    | none => say ["[ERROR] Enter the number of a choice."]
    | some index =>
      match ← choose index with
      | .invalidIndex _ =>
        let count ← look (·.engine.narrative.flags.choices.length)
        say ["[ERROR] Pick a number between 1 and " ++ Decimal.text count ++ "."]
      | _ => pure ()

/-- Show the options that are offered (`render_choices`). -/
def showChoices : Act Unit := do
  let flags ← look (·.engine.narrative.flags)
  say [if flags.waiting then choicesText flags.choices else "[WAIT] No choice pending."]

/-- Enter the next part (`begin_pending_part`), if one waits to be entered. -/
def beginNext : Act Unit := do
  if ← look (·.engine.narrative.introPending) then announcePending
  else say ["[ERROR] No part is waiting to begin."]

/-- Change the player's name (`set_player_name`). -/
def rename (name : String) : Act Unit := do
  if name = "" then say ["[ERROR] Usage: #name <name>"]
  else
    match ← setPlayerName name with
    | .error fault => say ["[ERROR] Could not save name: " ++ fault.message]
    | .ok () => say ["[NAME] You are now " ++ (← look (·.engine.narrative.playerName))]

/-- Wipe the story (`reset_game`) and start a new one (`start_new_game`). -/
def startOver (o : Options) : Act (Except SessionFault Stage) := do
  match ← resetGame with
  | .error fault => return .error (.engine (.save fault))
  | .ok () =>
    say ["[RESET] Progress wiped."]
    newStoryOrAsk o

/-- Do something and go on playing. -/
def thenPlay (act : Act Unit) : Act (Except SessionFault Stage) := do
  act
  return .ok .playing

/-- Do what a command asks for, as `run_headless` does. -/
def obey (o : Options) : Command → Act (Except SessionFault Stage)
  | .nothing => thenPlay (pure ())
  | .quit => do
    say ["Goodbye!"]
    return .ok .over
  | .status => thenPlay (do say (← look (·.engine.narrative.status)))
  | .history => thenPlay (do say (transcript (← look (·.engine.narrative.messages))))
  | .choices => thenPlay showChoices
  | .begin => thenPlay beginNext
  | .name name => thenPlay (rename name)
  | .reset => startOver o
  | .help => thenPlay (say help)
  | .unknown => thenPlay (say ["[ERROR] Unknown command. Type #help for help."])
  | .answer word => thenPlay (answerWith word)

/-- Take in a line: one round of the loop of `start_new_game` or of `run_headless`. -/
def enterLine (o : Options) (line : String) : Stage → Act (Except SessionFault Stage)
  | .naming =>
    if Text.trim line = "" then pure (.ok .naming) else newStory o line
  | .playing => obey o (Command.ofLine line)
  | .over => pure (.ok .over)

/-! ## The whole session -/

/-- Take in lines, one after the other, up to the end of the session. -/
def enterLines (o : Options) (stage : Stage) :
    List String → Act (Except SessionFault Unit)
  | [] => pure stage.close
  | line :: rest => do
    if stage = .over then return .ok ()
    else
      match ← enterLine o line stage with
      | .error fault => return .error fault
      | .ok stage => enterLines o stage rest

/-- A session over the lines of its input (`run_headless`). -/
def runSession (o : Options) (lines : List String) : Act (Except SessionFault Unit) := do
  match ← openSession o with
  | .error fault => return .error fault
  | .ok stage => enterLines o stage lines

end Act

end StoryChat
