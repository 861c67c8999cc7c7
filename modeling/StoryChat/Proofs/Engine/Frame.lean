/-
What an operation cannot change, and what it changes of the story.

A world has parts that no operation touches (`World.setting`): the configuration,
the shelf, and what stands in for time and chance. Of a conversation we tell
apart its `Story`, which is what has been said and done in it, and its `Bearing`,
which is who plays, where the story stands and what the player is asked. A walk
moves the story on and leaves the bearing alone, but for the ends of parts and
for choices. When a message was sent and whether it was read belong to neither:
two runs of one story may differ in them.

The statements here are equations between projections, so that what a change
leaves alone is rewritten away.
-/
import StoryChat.Engine.Play
import StoryChat.Proofs.Engine.Suspension

set_option autoImplicit false

namespace StoryChat

/-! ## The story of a conversation -/

/-- What a message says, apart from when it was sent and whether it was read. -/
structure Utterance where
  id : String
  sender : Sender
  medium : Medium
  content : String
  deriving DecidableEq

/-- What is said in a message. -/
def Message.utterance (m : Message) : Utterance := ⟨m.id, m.sender, m.medium, m.content⟩

/-- What has been said and done in a conversation. -/
structure Story where
  lines : List Utterance
  vars : Variables
  currentNode : Option String
  online : Bool
  blocked : Bool
  deriving DecidableEq

namespace Story

/-- The story with one more utterance. -/
def say (s : Story) (u : Utterance) : Story := { s with lines := s.lines ++ [u] }

/-- The story at a node, or nowhere. -/
def goTo (s : Story) (node : Option String) : Story := { s with currentNode := node }

/-- What a node's action changes. -/
def act (s : Story) : Action → Story
  | .set name value => { s with vars := s.vars.set name value }
  | .setOnline online => { s with online }
  | .setBlocked blocked => { s with blocked }
  | .unknown => s

/-- What a message and its actions leave of a story, which goes on where its conditions say
(`Act.deliver`). -/
def afterMessage (s : Story) (u : Utterance) (n : Node) : Story :=
  let s := n.actions.foldl act (s.say u)
  s.goTo (n.resolveNext s.vars)

/-- What pretending to type leaves of a story: the actions, and the successor whatever the
conditions (`Act.fakeTyping`). -/
def afterTyping (s : Story) (n : Node) : Story := (n.actions.foldl act s).goTo n.next

/-- How far the story may have come in a visit of a node: the node has said something,
some of its actions were done, or the story goes on elsewhere. -/
inductive Along (n : Node) : Story → Story → Prop where
  | refl (s : Story) : Along n s s
  | say {s t : Story} {u : Utterance} : Along n s t → u.sender = n.sender → Along n s (t.say u)
  | act {s t : Story} {a : Action} : Along n s t → Along n s (t.act a)
  | goTo {s t : Story} {node : Option String} : Along n s t → Along n s (t.goTo node)

theorem Along.trans {n : Node} {s t u : Story} (h : Along n s t) (h' : Along n t u) :
    Along n s u := by
  induction h' with
  | refl => exact h
  | say _ hu ih => exact .say ih hu
  | act _ ih => exact .act ih
  | goTo _ ih => exact .goTo ih

theorem Along.acts {n : Node} {s t : Story} (h : Along n s t) (as : List Action) :
    Along n s (as.foldl Story.act t) := by
  induction as generalizing t with
  | nil => exact h
  | cons a as ih => exact ih (.act h)

end Story

/-- Who plays, where the story stands, and what the player is asked. -/
structure Bearing where
  playerName : String
  started : Bool
  view : String
  chapter : Nat
  part : Nat
  activeScript : Option String
  introPending : Bool
  processing : Bool
  waiting : Bool
  choices : List Choice
  deriving DecidableEq

/-- The bearing, whatever is going on. -/
def Bearing.atRest (b : Bearing) : Bearing :=
  { b with processing := false, waiting := false, choices := [] }

/-- The script that a position selects: the named one, or the part. -/
def Bearing.script (b : Bearing) : ScriptId :=
  match b.activeScript with
  | some name => .named name
  | none => .part b.chapter b.part

namespace Narrative

/-- The story of a conversation. -/
def story (n : Narrative) : Story :=
  ⟨n.messages.map Message.utterance, n.vars, n.currentNode, n.online, n.blocked⟩

/-- The bearing of a conversation. -/
def bearing (n : Narrative) : Bearing :=
  ⟨n.playerName, n.started, n.view, n.chapter, n.part, n.activeScript, n.introPending,
    n.flags.processing, n.flags.waiting, n.flags.choices⟩

/-- The script that a position selects. -/
def script (n : Narrative) : ScriptId := n.bearing.script

theorem currentNode_eq_of_story {a b : Narrative} (h : a.story = b.story) :
    a.currentNode = b.currentNode := congrArg Story.currentNode h

/-! ### What each change does to the story -/

@[simp] theorem story_append (n : Narrative) (m : Message) :
    (n.append m).story = n.story.say m.utterance := by
  simp only [story, append, Story.say, List.map_append, List.map_cons, List.map_nil]

@[simp] theorem story_goTo (n : Narrative) (node : Option String) :
    (n.goTo node).story = n.story.goTo node := rfl

@[simp] theorem story_act (n : Narrative) (a : Action) : (n.act a).story = n.story.act a := by
  cases a <;> rfl

@[simp] theorem story_acts (as : List Action) (n : Narrative) :
    (as.foldl act n).story = as.foldl Story.act n.story := by
  induction as generalizing n with
  | nil => rfl
  | cons a as ih => rw [List.foldl_cons, List.foldl_cons, ih, story_act]

@[simp] theorem story_indicate (n : Narrative) (i : Indicator) :
    (n.indicate i).story = n.story := rfl

@[simp] theorem story_answer (n : Narrative) (b : Bool) : (n.answer b).story = n.story := rfl

@[simp] theorem story_process (n : Narrative) (b : Bool) : (n.process b).story = n.story := rfl

@[simp] theorem story_await (n : Narrative) (b : Bool) : (n.await b).story = n.story := rfl

@[simp] theorem story_present (n : Narrative) (cs : List Choice) :
    (n.present cs).story = n.story := rfl

@[simp] theorem story_clearChoices (n : Narrative) : n.clearChoices.story = n.story := rfl

@[simp] theorem story_moveTo (n : Narrative) (chapter part : Nat) :
    (n.moveTo chapter part).story = n.story := rfl

/-- Reading a message changes no line. -/
theorem lines_markLastOfPlayer? {ms ms' : List Message} {id : String}
    (h : Message.markLastOfPlayer? ms = some (id, ms')) :
    ms'.map Message.utterance = ms.map Message.utterance := by
  induction ms generalizing ms' id with
  | nil => cases h
  | cons m ms ih =>
    rw [Message.markLastOfPlayer?] at h
    split at h
    · next hrest =>
      cases h
      rw [List.map_cons, List.map_cons, ih hrest]
    · split at h
      · cases h; rfl
      · cases h

@[simp] theorem story_markRead (n : Narrative) : n.markRead.2.story = n.story := by
  unfold markRead
  split
  · rfl
  · next h => simp only [story, lines_markLastOfPlayer? h]

/-! ### What each change does to the bearing -/

@[simp] theorem bearing_append (n : Narrative) (m : Message) :
    (n.append m).bearing = n.bearing := rfl

@[simp] theorem bearing_goTo (n : Narrative) (node : Option String) :
    (n.goTo node).bearing = n.bearing := rfl

@[simp] theorem bearing_act (n : Narrative) (a : Action) : (n.act a).bearing = n.bearing := by
  cases a <;> rfl

@[simp] theorem bearing_acts (as : List Action) (n : Narrative) :
    (as.foldl act n).bearing = n.bearing := by
  induction as generalizing n with
  | nil => rfl
  | cons a as ih => rw [List.foldl_cons, ih, bearing_act]

@[simp] theorem bearing_indicate (n : Narrative) (i : Indicator) :
    (n.indicate i).bearing = n.bearing := rfl

@[simp] theorem bearing_answer (n : Narrative) (b : Bool) :
    (n.answer b).bearing = n.bearing := rfl

@[simp] theorem bearing_markRead (n : Narrative) : n.markRead.2.bearing = n.bearing := by
  unfold markRead
  split <;> rfl

@[simp] theorem bearing_process (n : Narrative) (b : Bool) :
    (n.process b).bearing = { n.bearing with processing := b } := rfl

@[simp] theorem bearing_present (n : Narrative) (cs : List Choice) :
    (n.present cs).bearing = { n.bearing with waiting := true, choices := cs } := rfl

@[simp] theorem bearing_clearChoices (n : Narrative) :
    n.clearChoices.bearing = { n.bearing with waiting := false, choices := [] } := rfl

end Narrative

/-! ## What no operation touches -/

/-- The parts of a world that stay as they are. -/
structure Setting where
  config : Config
  interrupts : List Interrupt
  listening : Bool
  audible : Bool
  shelf : Shelf
  reach : Nat
  draws : Nat → Float
  moments : Nat → Timestamp
  playerIds : Nat → String

/-- The text that a call puts into the slot of a key. -/
def SlotCall.textFor? (key : String) : SlotCall → Option String
  | .set k text => if k = key then some text else none
  | _ => none

namespace World

/-- Whether the player is asked to choose. -/
def waits (w : World) : Bool := w.engine.narrative.flags.waiting

/-- The setting of a world. -/
def setting (w : World) : Setting :=
  ⟨w.engine.config, w.engine.interrupts, w.engine.listening, w.engine.audible, w.shelf, w.reach,
    w.draws, w.moments, w.playerIds⟩

/-- The calls on the slots so far, latest first. -/
def calls (w : World) : List SlotCall := w.journal.filterMap fun e => e.call?.map (·.1)

/-- The texts that were put into the slot for progress, latest first. -/
def records (w : World) : List String :=
  w.calls.filterMap (·.textFor? w.engine.config.progressKey)

/-- The world after a text was put into a slot. -/
def put (w : World) (key text : String) : World :=
  { w with saves := (w.saves.set key text).2 }.note (.call (.set key text) w.clock)

/-- The world after the record of progress was kept (`Act.persist`). -/
def saved (w : World) : World :=
  w.put w.engine.config.progressKey w.engine.narrative.snapshot.render

theorem config_eq_of_setting {w m : World} (h : m.setting = w.setting) :
    m.engine.config = w.engine.config := congrArg Setting.config h

theorem shelf_eq_of_setting {w m : World} (h : m.setting = w.setting) : m.shelf = w.shelf :=
  congrArg Setting.shelf h

theorem reach_eq_of_setting {w m : World} (h : m.setting = w.setting) : m.reach = w.reach :=
  congrArg Setting.reach h

theorem records_eq {w m : World} (hs : m.setting = w.setting) (hc : m.calls = w.calls) :
    m.records = w.records := by
  rw [records, records, hc, config_eq_of_setting hs]

theorem waits_of_bearing {w m : World}
    (h : m.engine.narrative.bearing = w.engine.narrative.bearing) : m.waits = w.waits :=
  congrArg Bearing.waiting h

/-! ### Telling, noting and showing -/

section

variable (w : World)

@[simp] theorem setting_under (p : Patience) : (w.under p).setting = w.setting := rfl

@[simp] theorem calls_under (p : Patience) : (w.under p).calls = w.calls := rfl

@[simp] theorem records_under (p : Patience) : (w.under p).records = w.records := rfl

@[simp] theorem setting_tell (f : Narrative → Narrative) : (w.tell f).setting = w.setting := rfl

@[simp] theorem graph_tell (f : Narrative → Narrative) :
    (w.tell f).engine.graph = w.engine.graph := rfl

@[simp] theorem config_tell (f : Narrative → Narrative) :
    (w.tell f).engine.config = w.engine.config := rfl

@[simp] theorem calls_tell (f : Narrative → Narrative) : (w.tell f).calls = w.calls := rfl

@[simp] theorem calls_emit (e : Event) : (w.emit e).calls = w.calls := by
  unfold emit
  split <;> rfl

@[simp] theorem saves_emit (e : Event) : (w.emit e).saves = w.saves := by
  unfold emit
  split <;> rfl

@[simp] theorem setting_emit (e : Event) : (w.emit e).setting = w.setting := by
  unfold emit
  split <;> rfl

@[simp] theorem calls_play (c : Cue) : (w.play c).calls = w.calls := by
  unfold play
  split <;> rfl

@[simp] theorem saves_play (c : Cue) : (w.play c).saves = w.saves := by
  unfold play
  split <;> rfl

@[simp] theorem setting_play (c : Cue) : (w.play c).setting = w.setting := by
  unfold play
  split <;> rfl

@[simp] theorem calls_display (i : Indicator) : (w.display i).calls = w.calls := by
  unfold display
  split
  · rfl
  · rw [calls_emit, calls_tell]

@[simp] theorem saves_display (i : Indicator) : (w.display i).saves = w.saves := by
  unfold display
  split
  · rfl
  · rw [saves_emit, saves_tell]

@[simp] theorem setting_display (i : Indicator) : (w.display i).setting = w.setting := by
  unfold display
  split
  · rfl
  · rw [setting_emit, setting_tell]

@[simp] theorem graph_display (i : Indicator) :
    (w.display i).engine.graph = w.engine.graph := by
  unfold display
  split
  · rfl
  · rw [engine_emit, graph_tell]

@[simp] theorem story_display (i : Indicator) :
    (w.display i).engine.narrative.story = w.engine.narrative.story := by
  unfold display
  split
  · rfl
  · rw [engine_emit, narrative_tell, Narrative.story_indicate]

@[simp] theorem bearing_display (i : Indicator) :
    (w.display i).engine.narrative.bearing = w.engine.narrative.bearing := by
  unfold display
  split
  · rfl
  · rw [engine_emit, narrative_tell, Narrative.bearing_indicate]

@[simp] theorem waits_emit (e : Event) : (w.emit e).waits = w.waits := by
  rw [waits, engine_emit, waits]

/-! ### Keeping the record -/

@[simp] theorem engine_put (key text : String) : (w.put key text).engine = w.engine := rfl

@[simp] theorem setting_put (key text : String) : (w.put key text).setting = w.setting := rfl

@[simp] theorem engine_saved : w.saved.engine = w.engine := rfl

@[simp] theorem setting_saved : w.saved.setting = w.setting := rfl

@[simp] theorem calls_saved : w.saved.calls =
    .set w.engine.config.progressKey w.engine.narrative.snapshot.render :: w.calls := rfl

theorem saves_saved : w.saved.saves =
    (w.saves.set w.engine.config.progressKey w.engine.narrative.snapshot.render).2 := rfl

@[simp] theorem records_saved :
    w.saved.records = w.engine.narrative.snapshot.render :: w.records := by
  rw [records, calls_saved, engine_saved, List.filterMap_cons, SlotCall.textFor?, if_pos rfl]
  rfl

end

/-! ## Inside a visit -/

/-- A world in the midst of a visit of a node that began in `w`: the story may have moved
on, but nothing was put into a slot and the bearing is the same. -/
structure Inside (n : Node) (w m : World) : Prop where
  setting : m.setting = w.setting
  graph : m.engine.graph = w.engine.graph
  saves : m.saves = w.saves
  calls : m.calls = w.calls
  bearing : m.engine.narrative.bearing = w.engine.narrative.bearing
  story : Story.Along n w.engine.narrative.story m.engine.narrative.story

/-- A world that differs from `w` in the time that has passed and in what was
shown and read in it. -/
structure Lull (w m : World) : Prop where
  setting : m.setting = w.setting
  graph : m.engine.graph = w.engine.graph
  saves : m.saves = w.saves
  calls : m.calls = w.calls
  bearing : m.engine.narrative.bearing = w.engine.narrative.bearing
  story : m.engine.narrative.story = w.engine.narrative.story

theorem Inside.refl (n : Node) (w : World) : Inside n w w := ⟨rfl, rfl, rfl, rfl, rfl, .refl _⟩

theorem Inside.trans {n : Node} {a b c : World} (h : Inside n a b) (h' : Inside n b c) :
    Inside n a c :=
  ⟨h'.setting.trans h.setting, h'.graph.trans h.graph, h'.saves.trans h.saves,
    h'.calls.trans h.calls, h'.bearing.trans h.bearing, h.story.trans h'.story⟩

theorem Inside.script {n : Node} {w m : World} (h : Inside n w m) :
    m.engine.narrative.script = w.engine.narrative.script :=
  congrArg Bearing.script h.bearing

theorem Inside.records {n : Node} {w m : World} (h : Inside n w m) : m.records = w.records :=
  records_eq h.setting h.calls

theorem Lull.inside {w m : World} (h : Lull w m) (n : Node) : Inside n w m :=
  ⟨h.setting, h.graph, h.saves, h.calls, h.bearing, h.story ▸ .refl _⟩

theorem Lull.refl (w : World) : Lull w w := ⟨rfl, rfl, rfl, rfl, rfl, rfl⟩

theorem Lull.trans {a b c : World} (h : Lull a b) (h' : Lull b c) : Lull a c :=
  ⟨h'.setting.trans h.setting, h'.graph.trans h.graph, h'.saves.trans h.saves,
    h'.calls.trans h.calls, h'.bearing.trans h.bearing, h'.story.trans h.story⟩

/-- A change that leaves the story and the bearing alone. -/
theorem Lull.tell {w : World} {f : Narrative → Narrative}
    (hs : (f w.engine.narrative).story = w.engine.narrative.story)
    (hb : (f w.engine.narrative).bearing = w.engine.narrative.bearing) : Lull w (w.tell f) :=
  ⟨rfl, rfl, rfl, rfl, hb, hs⟩

theorem Lull.emit (w : World) (e : Event) : Lull w (w.emit e) :=
  ⟨by simp, by simp, by simp, by simp, by simp, by simp⟩

theorem Lull.play (w : World) (c : Cue) : Lull w (w.play c) :=
  ⟨by simp, by simp, by simp, by simp, by simp, by simp⟩

theorem Lull.display (w : World) (i : Indicator) : Lull w (w.display i) :=
  ⟨by simp, by simp, by simp, by simp, by simp, by simp⟩

/-- A pause that is noted. -/
theorem Lull.note_pause (w : World) (span : Duration) : Lull w (w.note (.pause span)) :=
  ⟨rfl, rfl, rfl, rfl, rfl, rfl⟩

/-- Time that passes. -/
theorem Lull.clock (w : World) (clock : Nat) : Lull w { w with clock } :=
  ⟨rfl, rfl, rfl, rfl, rfl, rfl⟩

end World

end StoryChat
