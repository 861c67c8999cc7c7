/-
Walking a script.

A walk (`DialogueEngine::walk`) starts at a node and goes from each node to the next,
until it must wait for the player, the part ends, a node is missing or there is no next
one. While it walks, the position is the next node still to be done; it is kept after
each node, so that a walk that is cut short is taken up at the node it was in. The flag
that a walk is under way is taken down and the indicator hidden however the walk ends,
which is what a `WalkGuard` is for.
-/
import StoryChat.Engine.Keeping

set_option autoImplicit false

namespace StoryChat.Act

/-! ## Single nodes -/

/-- Carry out actions, in order (`DialogueEngine::execute_actions`). -/
def perform (actions : List Action) : Act Unit :=
  change fun w => w.tell fun n => actions.foldl Narrative.act n

/-- Be at the next node and keep that, as `deliver`, `fake_typing` and `submit_choice` do at
their end. -/
def goOn (next : Option String) : Act (Option String) := do
  change (·.tell (·.goTo next))
  persist
  return next

/-- The other side reads the player's last message, and thinks about it
(`DialogueEngine::simulate_reading`). -/
def readAnswer : Act Unit := do
  change (·.display .reading)
  pauseIn (·.reading)
  change fun w =>
    match w.engine.narrative.markRead with
    | (none, _) => w
    | (some id, narrative) => (w.tell fun _ => narrative).emit (.read id)
  change (·.display .idle)
  pauseIn (·.thinking)
  change (·.tell (·.answer false))

/-- What an author is seen doing before a message (the indicator chosen in `deliver`). -/
def indicatorBefore (n : Node) : Indicator :=
  if n.kind = .audio then .recording n.sender else .typing n.sender

/-- The pause before a message in `DialogueEngine::deliver`: a participant is seen typing or
recording, the system is only waited for, and the player is not. -/
def prepare (n : Node) : Act Unit := do
  match n.sender with
  | .npc _ =>
    let span ← drawn fun p draw => p.smartDelay? n draw
    if span = .zero then pure ()
    else
      change fun w => (w.display (indicatorBefore n)).play .typing
      pause span
      change (·.display .idle)
  | .system => pause (← drawn fun p draw => p.systemPause? n draw)
  | .player => pure ()

/-- The message of a node, as it is delivered in a world (`ChatMessage::new`). -/
def messageOf (w : World) (n : Node) : Message :=
  ⟨n.id, n.sender, n.kind.medium, w.personalize n.content, w.moments w.place, false⟩

/-- Put a message into the conversation (`NarrativeStore::append_message`) and tell it. -/
def post (message : World → Message) : Act Unit :=
  change fun w => (w.tell (·.append (message w))).emit (.message (message w))

/-- Deliver the message of a node, and say which node is next (`DialogueEngine::deliver`). -/
def deliver (n : Node) : Act (Option String) := do
  if (← look (·.engine.narrative.flags.answered)) && n.sender.isNpc then readAnswer
  prepare n
  post (messageOf · n)
  if n.sender ≠ .player then change (·.play .receive)
  if n.hasSuccessor then pause (← drawn fun p draw => p.autoRead? n draw)
  perform n.actions
  goOn (← look fun w => n.resolveNext w.engine.narrative.vars)

/-- Pretend to type a number of times, with pauses between them: the loop of
`DialogueEngine::fake_typing`. -/
def pretend (sender : Sender) : Nat → Act Unit
  | 0 => pure ()
  | left + 1 => do
    change fun w => (w.display (.typing sender)).play .typing
    pauseIn (·.fakeTyping)
    change (·.display .idle)
    if left = 0 then pure ()
    else
      pauseIn (·.fakeTypingPause)
      pretend sender left

/-- How often a node pretends to type (`cycles` in `fake_typing`): what it says, if that is
not zero. -/
def cyclesOf (w : World) (n : Node) : Nat :=
  (n.typingCycles.filter (0 < ·)).getD w.engine.config.typingCycles

/-- Pretend to type, and say which node is next (`DialogueEngine::fake_typing`). -/
def fakeTyping (n : Node) : Act (Option String) := do
  pretend n.sender (← look (cyclesOf · n))
  perform n.actions
  goOn n.next

/-- The options of a node with the player's name put in (the `PendingChoice`s of
`present_choices`). -/
def optionsOf (w : World) (n : Node) : List Choice :=
  n.choices.map fun c => { c with text := w.personalize c.text }

/-- Offer the options of a node (`DialogueEngine::present_choices`). -/
def offer (n : Node) : Act Unit :=
  change fun w => (w.tell (·.present (optionsOf w n))).emit (.choices (optionsOf w n))

/-- Take a script for the part the story is in (`DialogueEngine::install_part`). -/
def installPart (graph : Graph) : Act Unit :=
  change fun w =>
    let w := w.tell fun n => { n with title := graph.title, activeScript := none }
    { w with engine := { w.engine with graph := some graph } }

/-- End the part (`DialogueEngine::end_part`): the next one is loaded, if one is named, and
waits to be entered. -/
def endPart (n : Node) : Act Halt := do
  change (·.tell (·.goTo none))
  let title ← match n.nextPart with
    | none => pure none
    | some part => do
      change (·.tell ({ · with part }))
      match ← fetch (.part (← look (·.engine.narrative.chapter)) part) with
      | .error _ => pure none
      | .ok graph =>
        installPart graph
        change (·.tell ({ · with introPending := true }))
        pure graph.title
  persist
  change (·.emit (.partEnded n.nextPart title))
  return .partEnd n.nextPart

/-! ## The walk -/

/-- What a visit of a node leads to: the `return` from a walk, or another round of it. -/
inductive Visit where
  /-- The walk stops here. -/
  | halt (halt : Halt)
  /-- The walk goes on with another node. -/
  | next (id : String)

/-- A visit after which the walk goes on if there is a next node. -/
def Visit.ofNext : Option String → Visit
  | none => .halt .endOfScript
  | some id => .next id

/-- Do what a node says: one round of the loop of `DialogueEngine::walk`. -/
def visit (id : String) : Act Visit := do
  match ← look (·.findNode? id) with
  | none => return .halt (.missingNode id)
  | some n =>
    change (·.tell (·.goTo (some id)))
    match n.kind with
    | .partEnd => return .halt (← endPart n)
    | .choice =>
      offer n
      return .halt .awaitingChoice
    | .typingFake => return .ofNext (← fakeTyping n)
    | _ => return .ofNext (← deliver n)

/-- Walk from a node, over at most as many nodes as are left (`DialogueEngine::walk`). -/
def walk : Nat → String → Act Halt
  | 0, _ => stop .exhausted
  | left + 1, id => do
    match ← visit id with
    | .halt halt => return halt
    | .next id => walk left id

/-- Walk with the flag up that a walk is under way (`WalkGuard`). -/
def guardedWalk (id : String) : Act Halt := do
  change (·.tell (·.process true))
  cleaning (fun w => (w.tell (·.process false)).display .idle) do
    walk (← look (·.reach)) id

/-- Walk from a node and tell how the walk ended (`DialogueEngine::advance`). While another
walk is under way nothing happens, unless the walk is forced; a forced walk takes back what
was offered and shown. -/
def advance (id : String) (force : Bool) : Act Walked := do
  if (← look (·.engine.narrative.flags.processing)) && !force then return .alreadyRunning
  else
    if force then change fun w => (w.tell (·.clearChoices)).display .idle
    let halt ← guardedWalk id
    change (·.emit (.halted halt))
    return .halted halt

end StoryChat.Act
