/-
Keeping progress.

The conversation is kept in two slots: the record of progress in one and the player's
name in the other. Here are the functions of `NarrativeStore` that call a `SaveStore`.
Each does one thing to a slot and says what came of it; whether a failure matters is for
the caller to decide, and `DialogueEngine::persist` decides that it does not. A record
that cannot be read leaves the conversation as it was.
-/
import StoryChat.Engine.World

set_option autoImplicit false

namespace StoryChat.Act

/-- Name the player, without blanks around the name, and keep the name
(`NarrativeStore::set_player_name`). -/
def setPlayerName (name : String) : Act (Except SaveFault Unit) := do
  let name := Text.trim name
  change (·.tell ({ · with playerName := name }))
  setSlot (← look (·.engine.config.nameKey)) name

/-- Take the player's name from its slot, and say whether there was one
(`NarrativeStore::load_player_name`). A conversation whose player has a name has begun. -/
def loadPlayerName : Act (Except SaveFault Bool) := do
  match ← getSlot (← look (·.engine.config.nameKey)) with
  | .error e => return .error e
  | .ok none => return .ok false
  | .ok (some name) =>
    if name = "" then return .ok false
    else
      change (·.tell ({ · with playerName := name, started := true }))
      return .ok true

/-- Keep the record of progress (`NarrativeStore::save_progress`). -/
def saveProgress : Act (Except SaveFault Unit) := do
  let w ← look id
  setSlot w.engine.config.progressKey w.engine.narrative.snapshot.render

/-- Keep the record of progress, as well as it goes (`DialogueEngine::persist`). -/
def persist : Act Unit := do
  let _ ← saveProgress

/-- Take the conversation from the record of progress, and say whether there was one
(`NarrativeStore::load_progress`). -/
def loadProgress : Act (Except SaveFault Bool) := do
  match ← getSlot (← look (·.engine.config.progressKey)) with
  | .error e => return .error e
  | .ok none => return .ok false
  | .ok (some text) =>
    match Progress.parse text with
    | .error e => return .error e
    | .ok progress =>
      change (·.tell (·.restore progress))
      return .ok true

/-- Forget the conversation and empty both slots (`NarrativeStore::reset`). The first failure
to empty one is reported, after both were tried. -/
def resetNarrative : Act (Except SaveFault Unit) := do
  change (·.tell (·.forget))
  let progress ← removeSlot (← look (·.engine.config.progressKey))
  let name ← removeSlot (← look (·.engine.config.nameKey))
  return match progress with
    | .error e => .error e
    | .ok () => name

end StoryChat.Act
