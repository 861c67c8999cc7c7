/-
The program.

Everything a session does is computed by `Act.openSession` and `Act.enterLine`. What is
left for this file is to read the two folders and the input, and to play back what the
journal says: to print, to wait and to write the slots, in the order of the journal.
-/
import StoryChat.Session.Player
import StoryChat.Pacing.Chance

set_option autoImplicit false

namespace StoryChat.Terminal

/-! ## What is around a session -/

/-- The nodes that one walk may visit. -/
def reach : Nat := 10000

/-- What stands at an entry of a folder. What cannot be read counts as a folder. -/
def readEntry (entry : IO.FS.DirEntry) : IO FileEntry := do
  try
    return .file (← IO.FS.readBinFile entry.path)
  catch _ => return .folder

/-- The folder at a path. -/
def readFolder (path : String) : IO Folder := do
  try
    let mut entries : Table FileEntry := .empty
    for entry in ← (← IO.FS.realPath path).readDir do
      entries := entries.insert entry.fileName (← readEntry entry)
    return ⟨some entries, some (.under path)⟩
  catch _ => return ⟨none, some (.under path)⟩

/-- The present moment, which is when a new file is made. -/
def now : IO Timestamp := do
  let (_, path) ← IO.FS.createTempFile
  let made := (← path.metadata).modified
  IO.FS.removeFile path
  return ⟨made.sec / 86400, (made.sec % 86400).toNat, made.nsec.toNat⟩

/-- A new identity for a message of the player. A line leads to one message of the
player at most. -/
def newMessageId : IO String := do
  let bytes ← IO.getRandomBytes 16
  return "player_" ++ String.ofList
    (bytes.toList.flatMap fun b => [Json.hexChar (b.toNat / 16), Json.hexChar (b.toNat % 16)])

/-- The variables of the environment. -/
def environment : IO Environment := do
  return ⟨← IO.getEnv "CHATNOVEL_SCRIPTS", ← IO.getEnv "CHATNOVEL_SAVES",
    ← IO.getEnv "CHATNOVEL_TIME_SCALE"⟩

/-- The world at the beginning of a session. -/
def begin (o : Options) : IO World := do
  let scripts ← readFolder (o.scripts.getD "scripts")
  let saves ← readFolder o.saves
  return { World.steady o.engine (.ofFolder scripts) (.files saves) with reach }

/-- The world with a new moment, a new identity and new draws. -/
def renew (w : World) : IO World := do
  let moment ← now
  let id ← newMessageId
  let seed := UInt64.ofNat (← IO.monoNanosNow)
  return { w with
    moments := fun _ => moment, playerIds := fun _ => id, draws := chance seed, journal := [] }

/-! ## Playing back -/

/-- Put a text into a slot by way of a draft (`FileSaveStore::set`). -/
def writeSlot (folder key value : String) : IO Unit := do
  try
    IO.FS.createDirAll folder
    let draft := draftPath folder key
    IO.FS.writeFile draft value
    IO.FS.rename draft (slotPath folder key)
  catch e => IO.eprintln (toString e)

/-- Empty a slot (`FileSaveStore::remove`). A slot that is empty already is no fault. -/
def removeSlot (folder key : String) : IO Unit := do
  try
    IO.FS.removeFile (slotPath folder key)
  catch _ => pure ()

/-- Print a text at once. -/
def print (text : String) : IO Unit := do
  IO.println text
  (← IO.getStdout).flush

/-- Wait, a day at a time. -/
def rest (millis : Nat) : IO Unit := do
  for _ in [0 : millis / 86400000] do
    IO.sleep 86400000
  IO.sleep (UInt32.ofNat (millis % 86400000))

/-- Let an entry of the journal happen. Events are printed as `print_events` does. -/
def playBack (o : Options) : Entry → IO Unit
  | .line text => print text
  | .event event =>
    match event.line? with
    | some text => print text
    | none => pure ()
  | .pause span => rest (o.config.pacing.scale span).waitMillis
  | .call (.set key value) _ => writeSlot o.saves key value
  | .call (.remove key) _ => removeSlot o.saves key
  | .call (.get _) _ | .cue _ _ => pure ()

/-! ## The session -/

/-- Carry out a part of a session and let it happen. -/
def carry (o : Options) (w : World) (act : Act (Except SessionFault Stage)) :
    IO (Except String Stage × World) := do
  match act (← renew w) with
  | .ok result w =>
    w.journal.reverse.forM (playBack o)
    return (result.mapError SessionFault.message, w)
  | .error _ w =>
    w.journal.reverse.forM (playBack o)
    return (.error "The story does not come to a halt", w)

/-- Take in lines up to the end of the session. -/
partial def run (o : Options) (input : IO.FS.Stream) (w : World) :
    Except String Stage → IO (Except String Unit)
  | .error message => return .error message
  | .ok .over => return .ok ()
  | .ok stage => do
    let line ← input.getLine
    if line.isEmpty then return stage.close.mapError SessionFault.message
    else
      let (stage, w) ← carry o w (Act.enterLine o line stage)
      run o input w stage

/-- What the program can be started with (`print_help`). -/
def usage : List String :=
  ["chatnovel - play a chat novel in the terminal",
    "",
    "USAGE:",
    "  chatnovel [OPTIONS]",
    "",
    "OPTIONS:",
    "  --scripts <dir>       Script directory   [env: CHATNOVEL_SCRIPTS]",
    "  --saves <dir>         Save directory     [env: CHATNOVEL_SAVES]",
    "  --time-scale <f>      Pause multiplier, 0 disables pauses [env: CHATNOVEL_TIME_SCALE]",
    "  --name <name>         Player name for a new game",
    "  --chapter <n>         Chapter of a new game (default 1)",
    "  --part <n>            Part of a new game (default 1)",
    "  --fresh               Wipe the save and start over",
    "  --no-interrupts       Disable the blocked-by-NPC interrupt",
    "  -h, --help            Show this help"]

/-- End the program with the text of a cause. -/
def giveUp (message : String) : IO UInt32 := do
  IO.eprintln ("Error: " ++ message)
  return 1

/-- Play a session with the given options. -/
def play (o : Options) : IO UInt32 := do
  let (stage, w) ← carry o (← begin o) (Act.openSession o)
  match ← run o (← IO.getStdin) w stage with
  | .error message => giveUp message
  | .ok () => return 0

end StoryChat.Terminal

open StoryChat in
/-- The program: options from the environment and the command line, then a
session. -/
def main (words : List String) : IO UInt32 := do
  if words.contains "--help" || words.contains "-h" then
    Terminal.usage.forM Terminal.print
    return 0
  else
    match Options.parse (← Terminal.environment) words with
    | .error fault => Terminal.giveUp fault.message
    | .ok o => Terminal.play o
