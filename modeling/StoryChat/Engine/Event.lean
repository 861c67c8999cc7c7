/-
What a walk shows, and how it ends.

While the story is walked nobody can look at its state; what happens is told by events
(`EngineEvent`). A walk ends in one of four ways (`Halt`), and that is told too. Beside
the events there are cues (`Cue`), which are sounds, and everything that reaches outside
is entered in a journal of entries `Entry`: events, cues, calls on the slots, pauses and
printed lines, in the order in which they happen.
-/
import StoryChat.Narrative.Basic
import StoryChat.Pacing.Pacer

set_option autoImplicit false

namespace StoryChat

/-- Why a walk stopped (`events::Halt`). -/
inductive Halt where
  /-- The player must choose. -/
  | awaitingChoice
  /-- The part is over. -/
  | partEnd (nextPart : Option Nat)
  /-- The script has no node of this identity. -/
  | missingNode (id : String)
  /-- The last node had no successor. -/
  | endOfScript
  deriving DecidableEq

/-- What came of asking for a walk (`WalkOutcome`). -/
inductive Walked where
  /-- Another walk is under way. -/
  | alreadyRunning
  | halted (halt : Halt)
  deriving DecidableEq

/-- What came of choosing an option (`ChoiceOutcome`). -/
inductive Chosen where
  /-- No choice is offered. -/
  | notWaiting
  /-- There is no such option. -/
  | invalidIndex (index : Nat)
  /-- The choice took effect; an option without successor starts no walk. -/
  | accepted (walk : Option Walked)
  /-- An interrupt took the story elsewhere. -/
  | interrupted (script : String) (walk : Walked)
  deriving DecidableEq

/-- Something to be shown (`EngineEvent`). -/
inductive Event where
  /-- Another indicator is shown. -/
  | indicator (indicator : Indicator)
  /-- A message was delivered. -/
  | message (message : Message)
  /-- The other side has read a message of the player. -/
  | read (id : String)
  /-- Options are offered. -/
  | choices (choices : List Choice)
  /-- A part ended; the title is that of the next one, if it could be loaded. -/
  | partEnded (nextPart : Option Nat) (title : Option String)
  /-- A walk stopped. -/
  | halted (halt : Halt)
  deriving DecidableEq

/-- A sound (`cues::Cue`). -/
inductive Cue where
  | typing
  | send
  | receive
  deriving DecidableEq

/-- The name of a sound (`Cue::name`). -/
def Cue.name : Cue → String
  | .typing => "typing"
  | .send => "send"
  | .receive => "receive"

/-- An entry of the journal. Events are those that `DialogueEngine::emit` sends, and cues
those that `CuePlayer::play` is called with. -/
inductive Entry where
  | event (event : Event)
  | cue (cue : Cue) (time : Nat)
  | call (call : SlotCall) (time : Nat)
  | pause (span : Duration)
  /-- Something that a session prints beside the events. -/
  | line (text : String)
  deriving DecidableEq

namespace Entry

/-- The event of an entry that is one. -/
def event? : Entry → Option Event
  | .event e => some e
  | _ => none

/-- The cue and its time of an entry that is one. -/
def cue? : Entry → Option (Cue × Nat)
  | .cue c t => some (c, t)
  | _ => none

/-- The call and its time of an entry that is one. -/
def call? : Entry → Option (SlotCall × Nat)
  | .call c t => some (c, t)
  | _ => none

/-- The span of an entry that is a pause. -/
def pause? : Entry → Option Duration
  | .pause d => some d
  | _ => none

/-- The text of an entry that a session printed. -/
def line? : Entry → Option String
  | .line text => some text
  | _ => none

end Entry

end StoryChat
