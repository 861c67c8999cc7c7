/-
The engine and the world it runs in.

The engine (`DialogueEngine`) owns the conversation and the script that is being walked.
Around it are the shelf that scripts come from (`ScriptSource`), the slots that progress
is kept in (`SaveStore`), a clock, a source of draws and the journal; all of them make
up a `World`. An operation `Act` takes a world to a world, and either ends with a result
or stops on the way. There are three ways to stop: whoever started the operation lost
patience, more nodes were walked than the world allows, or a pause was asked for whose
limits are crossed. The world an operation stops in is part of the outcome: what
happened before it, happened.

An operation can be left at its suspension points only: where it pauses, asks for a
script or calls the slots. Patience is a point in time, or a number of suspension
points.
-/
import StoryChat.Engine.Event
import StoryChat.Script.Graph
import StoryChat.Script.Shelf
import StoryChat.Story.Interrupt
import StoryChat.Text.Substitution

set_option autoImplicit false

namespace StoryChat

/-! ## Configuration -/

/-- What an engine is set up with (`EngineConfig`). -/
structure Config where
  pacing : Pacing
  schema : Schema
  /-- The key of the slot for progress (`SaveKeys::progress`). -/
  progressKey : String
  /-- The key of the slot for the player's name (`SaveKeys::player_name`). -/
  nameKey : String
  /-- The node a script is entered at, if it has it. -/
  entryNode : String
  /-- What stands for the player's name in a script. -/
  nameToken : String
  /-- How often typing is pretended, where a node does not say. -/
  typingCycles : Nat
  deriving DecidableEq

/-- The usual configuration (`EngineConfig::new`). -/
def Config.standard : Config where
  pacing := .standard
  schema := .standard
  progressKey := "gameProgress"
  nameKey := "playerName"
  entryNode := "start"
  nameToken := "\x7b\x7bname\x7d\x7d"
  typingCycles := 3

/-- The usual configuration without any waiting (`EngineConfig::new` with
`PacingConfig::instant`). -/
def Config.instant : Config := { Config.standard with pacing := .instant }

/-! ## The world -/

/-- The engine of a conversation (`DialogueEngine`). -/
structure Engine where
  config : Config
  narrative : Narrative
  /-- The script that is being walked. -/
  graph : Option Graph
  interrupts : List Interrupt
  /-- Whether events are listened to. -/
  listening : Bool
  /-- Whether cues are played. -/
  audible : Bool

/-- An engine over nothing (`DialogueEngine::new`). -/
def Engine.fresh (config : Config) (interrupts : List Interrupt) (listening audible : Bool) :
    Engine :=
  ⟨config, .fresh config.schema, none, interrupts, listening, audible⟩

/-- How long an operation is waited for. -/
inductive Patience where
  | endless
  /-- Up to a point in time, and including it. -/
  | deadline (time : Nat)
  /-- Over a number of suspension points. -/
  | suspensions (left : Nat)
  deriving DecidableEq

/-- Patience that also ends at a point in time. Of two deadlines the earlier one
holds. -/
def Patience.withDeadline (time : Nat) : Patience → Patience
  | .deadline earlier => .deadline (min earlier time)
  | _ => .deadline time

/-- An engine and what is around it. -/
structure World where
  engine : Engine
  shelf : Shelf
  saves : Saves
  /-- The time that has passed, in milliseconds. -/
  clock : Nat
  patience : Patience
  /-- How many nodes a walk may visit. -/
  reach : Nat
  /-- The draws of pauses, by their place in the journal. -/
  draws : Nat → Float
  /-- When messages are sent, by their place in the conversation. -/
  moments : Nat → Timestamp
  /-- The identities of the player's messages, by their place in the conversation. -/
  playerIds : Nat → String
  /-- What has happened, latest first. -/
  journal : List Entry

/-- Why an operation stopped before its end. To stop for lack of patience is to drop the
future of the operation; crossed limits are those that `u64::clamp` panics on. -/
inductive Stop where
  /-- Nobody waits for it any more. -/
  | cut
  /-- The walk visited as many nodes as it may. -/
  | exhausted
  /-- The limits of a pause are crossed. -/
  | crossedLimits
  deriving DecidableEq

/-- An operation on the world. -/
abbrev Act := EStateM Stop World

namespace World

/-- The identity of all messages of the player, where they need not differ. -/
def steadyId : String := "player_" ++ String.ofList (List.replicate 32 '0')

/-- A world at its beginning in which nothing is left to chance: the slots refuse
nothing, pauses have no extra, and it is always the same moment. -/
def steady (engine : Engine) (shelf : Shelf) (medium : SlotMedium) : World where
  engine := engine
  shelf := shelf
  saves := .reliable medium
  clock := 0
  patience := .endless
  reach := 1000000000
  draws := fun _ => 0.0
  moments := fun _ => .millennium
  playerIds := fun _ => steadyId
  journal := []

/-! ## Changes that take no time -/

/-- Change the conversation, which is the `NarrativeStore` of the engine. -/
def tell (w : World) (f : Narrative → Narrative) : World :=
  { w with engine := { w.engine with narrative := f w.engine.narrative } }

/-- Enter something in the journal. -/
def note (w : World) (e : Entry) : World := { w with journal := e :: w.journal }

/-- Send an event to whoever listens (`DialogueEngine::emit`). -/
def emit (w : World) (e : Event) : World :=
  if w.engine.listening then w.note (.event e) else w

/-- Play a cue, if anything plays it (`CuePlayer::play`). -/
def play (w : World) (c : Cue) : World :=
  if w.engine.audible then w.note (.cue c w.clock) else w

/-- Show an indicator, and tell it if it is another one (`DialogueEngine::set_indicator`). -/
def display (w : World) (i : Indicator) : World :=
  if w.engine.narrative.flags.indicator = i then w
  else (w.tell (·.indicate i)).emit (.indicator i)

/-- A text with the player's name put in (`DialogueEngine::personalize`). -/
def personalize (w : World) (text : String) : String :=
  Text.substitute text w.engine.config.nameToken w.engine.narrative.playerName

/-- A node of the script that is being walked (`ScriptGraph::get`). -/
def findNode? (w : World) (id : String) : Option Node := w.engine.graph.bind (·.find? id)

/-- Where the script that is being walked is entered (`DialogueEngine::entry_id`). -/
def entrance (w : World) : String :=
  (w.engine.graph.bind (·.entrance? w.engine.config.entryNode)).getD w.engine.config.entryNode

/-- The place of the next message in the conversation. -/
def place (w : World) : Nat := w.engine.narrative.messages.length

/-- The draw for the next pause. -/
def draw (w : World) : Float := w.draws w.journal.length

/-! ## What a change leaves alone -/

@[simp] theorem narrative_tell (w : World) (f : Narrative → Narrative) :
    (w.tell f).engine.narrative = f w.engine.narrative := rfl

@[simp] theorem journal_tell (w : World) (f : Narrative → Narrative) :
    (w.tell f).journal = w.journal := rfl

@[simp] theorem saves_tell (w : World) (f : Narrative → Narrative) :
    (w.tell f).saves = w.saves := rfl

@[simp] theorem engine_note (w : World) (e : Entry) : (w.note e).engine = w.engine := rfl

@[simp] theorem journal_note (w : World) (e : Entry) :
    (w.note e).journal = e :: w.journal := rfl

@[simp] theorem saves_note (w : World) (e : Entry) : (w.note e).saves = w.saves := rfl

/-- Telling an event changes nothing but the journal. -/
@[simp] theorem engine_emit (w : World) (e : Event) : (w.emit e).engine = w.engine := by
  unfold emit
  split <;> rfl

/-- Playing a cue changes nothing but the journal. -/
@[simp] theorem engine_play (w : World) (c : Cue) : (w.play c).engine = w.engine := by
  unfold play
  split <;> rfl

/-- Whatever was shown before, what is displayed is shown afterwards. -/
@[simp] theorem indicator_display (w : World) (i : Indicator) :
    (w.display i).engine.narrative.flags.indicator = i := by
  unfold display
  split
  · next h => exact h
  · rw [engine_emit]; rfl

end World

namespace Act

variable {α : Type}

/-- Look at the world. -/
def look (f : World → α) : Act α := fun w => .ok (f w) w

/-- Change the world. -/
def change (f : World → World) : Act Unit := fun w => .ok () (f w)

/-- Stop. -/
def stop (s : Stop) : Act α := fun w => .error s w

theorem look_apply (f : World → α) (w : World) : look f w = .ok (f w) w := rfl

theorem change_apply (f : World → World) (w : World) : change f w = .ok () (f w) := rfl

/-- One operation after another: the second is reached only if the first ends. -/
theorem bind_apply {β : Type} (first : Act α) (next : α → Act β) (w : World) :
    (first >>= next : Act β) w = match first w with
      | .ok a w => next a w
      | .error s w => .error s w := by
  cases h : first w <;> simp only [bind, EStateM.bind, h]

/-- Do something, and clean up behind it whether it ends or stops, as the `Drop` of a guard
does. -/
def cleaning (cleanup : World → World) (act : Act α) : Act α := fun w =>
  match act w with
  | .ok a w => .ok a (cleanup w)
  | .error s w => .error s (cleanup w)

/-! ## Suspension points -/

/-- A point at which an operation may be left: an `await`. -/
def suspend : Act Unit := fun w =>
  match w.patience with
  | .suspensions 0 => .error .cut w
  | .suspensions (left + 1) => .ok () { w with patience := .suspensions left }
  | _ => .ok () w

/-- Wait for a number of milliseconds (`tokio::time::sleep`). With a deadline before the end
of them the wait ends at the deadline, and nothing comes after it. -/
def sleep (millis : Nat) : Act Unit := fun w =>
  match w.patience with
  | .deadline time =>
    if time < w.clock + millis then .error .cut { w with clock := time }
    else .ok () { w with clock := w.clock + millis }
  | _ => .ok () { w with clock := w.clock + millis }

/-- Pause for a span, scaled (`DialogueEngine::pause`). A span of nothing is not waited
for. -/
def pause (span : Duration) : Act Unit := do
  change (·.note (.pause span))
  let scaled ← look (·.engine.config.pacing.scale span)
  if scaled = .zero then pure ()
  else
    suspend
    sleep scaled.waitMillis

/-- Draw a span by the pace of the conversation, as a `Pacer` does. -/
def drawn (f : Pacing → Float → Option Duration) : Act Duration := do
  match ← look fun w => f w.engine.config.pacing w.draw with
  | some span => return span
  | none => stop .crossedLimits

/-- Pause for a span drawn from a window (`Pacer::window`). -/
def pauseIn (f : Pacing → Window) : Act Unit := do
  pause (← look fun w => (f w.engine.config.pacing).sample w.draw)

/-- Ask the shelf for a script (`DialogueEngine::fetch`). -/
def fetch (id : ScriptId) : Act (Except LoadFault Graph) := do
  suspend
  look fun w => (w.shelf id).map Graph.ofDocument

/-! ## Slots -/

/-- Ask for the text in a slot (`SaveStore::get`). -/
def getSlot (key : String) : Act (Except SaveFault (Option String)) := do
  suspend
  fun w =>
    let (result, saves) := w.saves.get key
    .ok result ({ w with saves }.note (.call (.get key) w.clock))

/-- Ask to put a text into a slot (`SaveStore::set`). -/
def setSlot (key value : String) : Act (Except SaveFault Unit) := do
  suspend
  fun w =>
    let (result, saves) := w.saves.set key value
    .ok result ({ w with saves }.note (.call (.set key value) w.clock))

/-- Ask to empty a slot (`SaveStore::remove`). -/
def removeSlot (key : String) : Act (Except SaveFault Unit) := do
  suspend
  fun w =>
    let (result, saves) := w.saves.remove key
    .ok result ({ w with saves }.note (.call (.remove key) w.clock))

end Act

end StoryChat
