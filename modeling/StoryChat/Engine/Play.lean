/-
Playing a story.

These are the operations that a `DialogueEngine` offers: to load a script, to enter a
part, to continue from where a record says, to choose, and to put everything back. Those
that take a script for a walk, and `begin_pending_part`, refuse while another walk is
under way. A script that cannot be loaded leaves the engine where it was, since nothing
is changed before the script is there.
-/
import StoryChat.Engine.Walk

set_option autoImplicit false

namespace StoryChat

/-- Why an operation could not be done (`EngineError`). -/
inductive EngineFault where
  | load (fault : LoadFault)
  | save (fault : SaveFault)
  deriving DecidableEq

/-- The text of the cause, as an `EngineError` is displayed. -/
def EngineFault.message : EngineFault → String
  | .load fault => "Script load failed: " ++ fault.message
  | .save fault => "Persistence failed: " ++ fault.message

namespace Act

/-! ## Loading -/

/-- Take the script of a part (`DialogueEngine::load_part`). -/
def loadPart (chapter part : Nat) : Act (Except LoadFault Unit) := do
  match ← fetch (.part chapter part) with
  | .error fault => return .error fault
  | .ok graph =>
    installPart graph
    return .ok ()

/-- Take a script for the one the story is diverted into, as `load_named` does once it has the
script. -/
def installNamed (name : String) (graph : Graph) : Act Unit :=
  change fun w =>
    let w := w.tell ({ · with activeScript := some name })
    { w with engine := { w.engine with graph := some graph } }

/-- Take a named script (`DialogueEngine::load_named`). -/
def loadNamed (name : String) : Act (Except LoadFault Unit) := do
  match ← fetch (.named name) with
  | .error fault => return .error fault
  | .ok graph =>
    installNamed name graph
    return .ok ()

/-! ## Entering and continuing -/

/-- Walk the script from where it is entered: `advance` from the `entry_id`. -/
def enter (force : Bool) : Act Walked := do
  advance (← look (·.entrance)) force

/-- Walk on from a node (`advance`), if there is one. -/
def advanceTo (node : Option String) (force : Bool) : Act (Option Walked) :=
  match node with
  | none => pure none
  | some id => some <$> advance id force

/-- Enter a part of a chapter (`DialogueEngine::start_chapter`). -/
def startChapter (chapter part : Nat) : Act (Except LoadFault Walked) := do
  if ← look (·.engine.narrative.flags.processing) then return .ok .alreadyRunning
  else
    match ← loadPart chapter part with
    | .error fault => return .error fault
    | .ok () =>
      change (·.tell fun n => { n.moveTo chapter part with introPending := false, started := true })
      .ok <$> enter false

/-- Continue in a part of a chapter from a node, or only be there
(`DialogueEngine::resume_from_node`). -/
def resumeFrom (chapter part : Nat) (node : Option String) :
    Act (Except LoadFault (Option Walked)) := do
  if ← look (·.engine.narrative.flags.processing) then return .ok (some .alreadyRunning)
  else
    match ← loadPart chapter part with
    | .error fault => return .error fault
    | .ok () =>
      change (·.tell (·.moveTo chapter part))
      .ok <$> advanceTo node false

/-- Continue in a named script from a node, or only be there: `resume_saved` on a record with
an active script. -/
def resumeNamed (name : String) (node : Option String) :
    Act (Except LoadFault (Option Walked)) := do
  match ← loadNamed name with
  | .error fault => return .error fault
  | .ok () => .ok <$> advanceTo node false

/-- Continue from the record of progress (`DialogueEngine::resume_saved`). There may be
nothing to continue: no record or one that cannot be read, a record without a position, or a
part that waits to be entered. -/
def resumeSaved : Act (Except LoadFault (Option Walked)) := do
  if ← look (·.engine.narrative.flags.processing) then return .ok (some .alreadyRunning)
  else
    let _ ← loadPlayerName
    match ← loadProgress with
    | .error _ | .ok false => return .ok none
    | .ok true =>
      let n ← look (·.engine.narrative)
      match n.activeScript with
      | some name => resumeNamed name n.currentNode
      | none => resumeFrom n.chapter n.part n.currentNode

/-- Enter the part that waits to be entered, if one does
(`DialogueEngine::begin_pending_part`). -/
def beginPending : Act (Option Walked) := do
  let n ← look (·.engine.narrative)
  if ¬ n.introPending then return none
  else if n.flags.processing then return some .alreadyRunning
  else
    change (·.tell ({ · with introPending := false }))
    some <$> enter false

/-! ## Choosing -/

/-- The message in which the player says what was chosen: the `ChatMessage` of
`submit_choice`. -/
def choiceMessage (c : Choice) (w : World) : Message :=
  ⟨w.playerIds w.place, .player, .text, c.text, w.moments w.place, false⟩

/-- Say what was chosen and let it have its effect: what `submit_choice` does before it asks
the interrupts. -/
def takeChoice (c : Choice) : Act Unit := do
  change (·.tell (·.await false))
  post (choiceMessage c)
  change (·.play .send)
  change (·.tell fun n =>
    ({ n with vars := n.vars.applyImpact c.impact }.answer true).clearChoices)

/-- Divert the story into a named script, if it can be loaded
(`DialogueEngine::enter_interrupt`). -/
def divert (name : String) : Act (Option Walked) := do
  match ← loadNamed name with
  | .error _ => return none
  | .ok () =>
    let entry ← look (·.entrance)
    change (·.tell (·.goTo (some entry)))
    persist
    some <$> advance entry true

/-- Divert the story if an interrupt fires between two states of the variables
(`DialogueEngine::check_interrupts`), and say into which script. -/
def interrupt (before after : Variables) : Act (Option (String × Walked)) := do
  match firstInterrupt (← look (·.engine.interrupts)) before after with
  | none => return none
  | some name => return (← divert name).map (name, ·)

/-- Choose the option at an index and go on with the story
(`DialogueEngine::submit_choice`). -/
def choose (index : Nat) : Act Chosen := do
  let n ← look (·.engine.narrative)
  if ¬ n.flags.waiting then return .notWaiting
  else
    match n.flags.choices[index]? with
    | none => return .invalidIndex index
    | some c =>
      takeChoice c
      match ← interrupt n.vars (← look (·.engine.narrative.vars)) with
      | some (name, walk) => return .interrupted name walk
      | none =>
        let next ← goOn c.next
        .accepted <$> advanceTo next true

/-! ## Putting back -/

/-- Forget whatever was going on (`DialogueEngine::reset_engine`). -/
def rest : Act Unit := change (·.tell (·.rest))

/-- Forget everything, the script and both slots included (`DialogueEngine::reset_game`). -/
def resetGame : Act (Except SaveFault Unit) := do
  change fun w => { w with engine := { w.engine with graph := none } }
  resetNarrative

end Act

end StoryChat
