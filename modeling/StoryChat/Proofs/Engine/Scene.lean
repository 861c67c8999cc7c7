/-
What a conversation shows, and the steps in which a walk changes it.

Of a world we keep what events and cues are about: the script, the variables, the
messages, the options offered, the indicator, and what was told and heard so far. This is
its `Scene`. Time, the slots, the position and the draws are not in it, so most of what
an operation does leaves the scene as it is: it pauses, calls on the slots, moves on to
another node.

What is left are nine kinds of steps from one scene to the next. They are listed once, in
`Step`, and the laws about events, cues and variables are proved by going through them.
Most steps happen only while nothing is indicated. Whether that is known is a parameter,
for not every law needs it.
-/
import StoryChat.Proofs.Engine.Walking
import Mathlib.Logic.Relation

set_option autoImplicit false

namespace StoryChat

/-! ## Scenes -/

/-- The part of a world that events and cues are about. -/
structure Scene where
  setting : Setting
  graph : Option Graph
  vars : Variables
  messages : List Message
  choices : List Choice
  /-- Whether a walk is under way. -/
  processing : Bool
  indicator : Indicator
  /-- The events so far, first to last. -/
  events : List Event
  /-- The cues so far, first to last. -/
  cues : List Cue

namespace Scene

/-- Tell an event, if anybody listens. -/
def emit (s : Scene) (e : Event) : Scene :=
  { s with events := if s.setting.listening then s.events ++ [e] else s.events }

/-- Play a cue, if anything plays it. -/
def play (s : Scene) (c : Cue) : Scene :=
  { s with cues := if s.setting.audible then s.cues ++ [c] else s.cues }

/-- Show an indicator, and tell it if it is another one. -/
def display (s : Scene) (i : Indicator) : Scene :=
  { s with
    indicator := i
    events := if s.indicator = i then s.events else (s.emit (.indicator i)).events }

/-- Put a message into the conversation and tell it. -/
def post (s : Scene) (m : Message) : Scene :=
  { s with messages := s.messages ++ [m] }.emit (.message m)

/-- Put a message into the conversation, which is heard if somebody else sends it. -/
def say (s : Scene) (m : Message) : Scene :=
  if m.sender = .player then s.post m else (s.post m).play .receive

/-- Take another script. -/
def install (s : Scene) (graph : Graph) : Scene := { s with graph := some graph }

/-- A node of the script. -/
def findNode? (s : Scene) (id : String) : Option Node := s.graph.bind (·.find? id)

/-- The scene in which a walk begins. -/
def ready (s : Scene) (force : Bool) : Scene :=
  { (if force then { s with choices := [] }.display .idle else s) with processing := true }

/-- The scene in which an option was chosen: the player says so, and it has its effect. -/
def choose (s : Scene) (c : Choice) : Scene :=
  { (s.post ⟨s.setting.playerIds s.messages.length, .player, .text, c.text,
      s.setting.moments s.messages.length, false⟩).play .send with
    vars := s.vars.applyImpact c.impact
    choices := [] }

/-- The scene as a walk leaves it behind. -/
def settled (s : Scene) : Scene := { s with processing := false }.display .idle

/-- What is shown already need not be shown. -/
theorem display_of_eq {s : Scene} {i : Indicator} (h : s.indicator = i) : s.display i = s := by
  rw [display, if_pos h, ← h]

theorem display_of_ne {s : Scene} {i : Indicator} (h : s.indicator ≠ i) :
    s.display i = { s with indicator := i }.emit (.indicator i) := by
  rw [display, if_neg h]
  rfl

end Scene

/-! ## The scene of a world -/

namespace World

/-- The events so far, first to last. -/
def events (w : World) : List Event := (w.journal.filterMap Entry.event?).reverse

/-- The cues so far, first to last. -/
def cues (w : World) : List Cue := (w.journal.filterMap fun e => e.cue?.map (·.1)).reverse

/-- The scene of a world. -/
def scene (w : World) : Scene where
  setting := w.setting
  graph := w.engine.graph
  vars := w.engine.narrative.vars
  messages := w.engine.narrative.messages
  choices := w.engine.narrative.flags.choices
  processing := w.engine.narrative.flags.processing
  indicator := w.engine.narrative.flags.indicator
  events := w.events
  cues := w.cues

section

variable (w : World)

@[simp] theorem scene_under (p : Patience) : (w.under p).scene = w.scene := rfl

@[simp] theorem scene_emit (e : Event) : (w.emit e).scene = w.scene.emit e := by
  have he : (w.note (.event e)).events = w.events ++ [e] := List.reverse_cons
  unfold emit Scene.emit
  by_cases hl : w.engine.listening = true
  · rw [if_pos hl, if_pos (show w.scene.setting.listening = true from hl)]
    simp only [scene, he]
    rfl
  · rw [if_neg hl, if_neg (show ¬ w.scene.setting.listening = true from hl)]

@[simp] theorem scene_play (c : Cue) : (w.play c).scene = w.scene.play c := by
  have hc : (w.note (.cue c w.clock)).cues = w.cues ++ [c] := List.reverse_cons
  unfold play Scene.play
  by_cases ha : w.engine.audible = true
  · rw [if_pos ha, if_pos (show w.scene.setting.audible = true from ha)]
    simp only [scene, hc]
    rfl
  · rw [if_neg ha, if_neg (show ¬ w.scene.setting.audible = true from ha)]

@[simp] theorem scene_display (i : Indicator) : (w.display i).scene = w.scene.display i := by
  unfold display
  by_cases hi : w.engine.narrative.flags.indicator = i
  · rw [if_pos hi, Scene.display_of_eq hi]
  · rw [if_neg hi, scene_emit, Scene.display_of_ne hi]
    rfl

theorem scene_ready (force : Bool) : (w.ready force).scene = w.scene.ready force := by
  cases force with
  | false => rfl
  | true =>
    have h : ((w.tell (·.clearChoices)).display .idle).scene =
        { w.scene with choices := [] }.display .idle := scene_display _ _
    change { ((w.tell (·.clearChoices)).display .idle).scene with processing := true } = _
    rw [h]
    rfl

theorem scene_settled : w.settled.scene = w.scene.settled := scene_display _ _

end

end World

/-! ## Steps -/

/-- What an action does to the variables. -/
def Variables.act (v : Variables) : Action → Variables
  | .set name value => v.set name value
  | _ => v

/-- Of all that actions do, the scene shows what they do to the variables. -/
theorem World.scene_acts (as : List Action) (w : World) :
    (w.tell fun n => as.foldl Narrative.act n).scene =
      { w.scene with vars := as.foldl Variables.act w.scene.vars } := by
  induction as generalizing w with
  | nil => rfl
  | cons a as ih =>
    have hfirst : (w.tell (·.act a)).scene = { w.scene with vars := w.scene.vars.act a } := by
      cases a <;> rfl
    refine (ih (w.tell (·.act a))).trans ?_
    rw [hfirst]
    rfl

namespace Scene

/-- All that a visit of a node (`Act.visit`) can do to the scene at once. Under `calm` it is
known that nothing is indicated when something else is about to be shown or told. -/
inductive Step (calm : Prop) (s : Scene) : Scene → Prop where
  /-- Somebody is seen typing or recording, and heard. -/
  | write {i : Indicator} : i.sender?.isSome → (calm → s.indicator = .idle) →
      Step calm s ((s.display i).play .typing)
  | startReading : (calm → s.indicator = .idle) → Step calm s (s.display .reading)
  /-- The last message of the player is read. -/
  | read {id : String} {messages : List Message} : s.indicator = .reading →
      Message.markLastOfPlayer? s.messages = some (id, messages) →
      Step calm s ({ s with messages }.emit (.read id))
  | hide : Step calm s (s.display .idle)
  | say {m : Message} : m.sentAt = s.setting.moments s.messages.length →
      (calm → s.indicator = .idle) → Step calm s (s.say m)
  | act {id : String} {n : Node} : s.findNode? id = some n →
      Step calm s { s with vars := n.actions.foldl Variables.act s.vars }
  | offer {id : String} {n : Node} {choices : List Choice} : s.findNode? id = some n →
      choices.map Choice.impact = n.choices.map Choice.impact →
      (calm → s.indicator = .idle) → Step calm s ({ s with choices }.emit (.choices choices))
  | load {id : ScriptId} {d : Document} : s.setting.shelf id = .ok d →
      Step calm s (s.install (.ofDocument d))
  | endPart {part : Option Nat} {title : Option String} : (calm → s.indicator = .idle) →
      Step calm s (s.emit (.partEnded part title))

/-- Any number of steps. -/
abbrev Steps (calm : Prop) : Scene → Scene → Prop := Relation.ReflTransGen (Step calm)

/-- What every step keeps is kept by any number of them. -/
theorem Steps.preserves {calm : Prop} {I : Scene → Prop} {s t : Scene} (h : Steps calm s t)
    (step : ∀ s t, I s → Step calm s t → I t) (hs : I s) : I t := by
  induction h with
  | refl => exact hs
  | tail _ hstep ih => exact step _ _ ih hstep

end Scene

end StoryChat
