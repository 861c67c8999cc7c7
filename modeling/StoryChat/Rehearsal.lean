/-
Rehearsals.

An author tries a story out over scripts and slots in memory (`TestHarness`). Nothing is
left to chance and every cue is remembered (`RecordingCues`), so a rehearsal can be
repeated and what came of it can be checked: what was said, what is offered, which
values the variables have, what was kept. Events are taken from the journal as they are
asked for, each once.
-/
import StoryChat.Engine.Play

set_option autoImplicit false

namespace StoryChat

/-- A story that is tried out (`TestHarness`). -/
structure Rehearsal where
  scripts : Registry
  world : World
  /-- The number of journal entries whose events were taken. -/
  taken : Nat

namespace Rehearsal

/-- A rehearsal over scripts, with slots that were written before
(`TestHarness::assemble`). -/
def begin (scripts : Registry) (config : Config) (interrupts : List Interrupt)
    (slots : Table String) : Rehearsal :=
  ⟨scripts, .steady (.fresh config interrupts true true) scripts.shelf (.memory slots), 0⟩

/-- The slots in memory. -/
def slots (r : Rehearsal) : Table String :=
  match r.world.saves.medium with
  | .memory slots => slots
  | .files _ => .empty

/-- What the rehearsal is after a restart (`TestHarness::reopen`): scripts, slots and
configuration are the same, interrupts are not taken over. -/
def reopen (r : Rehearsal) : Rehearsal := begin r.scripts r.world.engine.config [] r.slots

/-- The rehearsal with a text written into a slot from outside (`MemorySaveStore::put`). -/
def put (r : Rehearsal) (key value : String) : Rehearsal :=
  { r with world :=
    { r.world with saves := { r.world.saves with medium := .memory (r.slots.insert key value) } } }

/-! ## What came of it -/

/-- The events since the last time they were taken (`TestHarness::drain_events`). -/
def takeEvents (r : Rehearsal) : List Event × Rehearsal :=
  ((r.world.journal.reverse.drop r.taken).filterMap Entry.event?,
    { r with taken := r.world.journal.length })

/-- The cues so far (`RecordingCues::played`). -/
def cues (r : Rehearsal) : List Cue :=
  (r.world.journal.reverse.filterMap Entry.cue?).map Prod.fst

/-- How often a cue was played (`RecordingCues::count`). -/
def count (r : Rehearsal) (c : Cue) : Nat := r.cues.count c

/-- What was said (`TestHarness::transcript`). -/
def transcript (r : Rehearsal) : List String :=
  r.world.engine.narrative.messages.map (·.content)

/-- The identities of what was said (`TestHarness::message_ids`). -/
def messageIds (r : Rehearsal) : List String := r.world.engine.narrative.messages.map (·.id)

/-- What was said last (`TestHarness::last_message`). -/
def lastMessage? (r : Rehearsal) : Option String := r.transcript.getLast?

/-- The options that are offered (`TestHarness::choice_texts`). -/
def choiceTexts (r : Rehearsal) : List String :=
  r.world.engine.narrative.flags.choices.map (·.text)

/-- The value of a variable that holds a number (`TestHarness::variable`). -/
def number? (r : Rehearsal) (name : String) : Option Float :=
  r.world.engine.narrative.vars.number? name

/-- The record that was kept, if it can be read (`TestHarness::saved_progress`). -/
def saved? (r : Rehearsal) : Option Progress :=
  (r.slots.get? r.world.engine.config.progressKey).bind fun text => (Progress.parse text).toOption

/-! ## Checks -/

/-- Whether the player is asked to choose (`assert_waiting_for_choice`). -/
def waits (r : Rehearsal) : Bool := r.world.engine.narrative.flags.waiting

/-- Whether exactly these options are offered (`assert_choices`). -/
def offers (r : Rehearsal) (texts : List String) : Bool := r.choiceTexts == texts

/-- Whether this was said last (`assert_last_message`). -/
def endsWith (r : Rehearsal) (content : String) : Bool := r.lastMessage? == some content

/-- Whether a variable holds this number (`assert_variable`). -/
def hasNumber (r : Rehearsal) (name : String) (x : Float) : Bool :=
  match r.number? name with
  | some y => y == x
  | none => false

end Rehearsal

end StoryChat
