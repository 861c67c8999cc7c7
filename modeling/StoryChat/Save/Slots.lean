/-
Save slots.

A slot is a text kept under a key (`SaveStore`). Slots are kept in memory
(`MemorySaveStore`), or in a folder with a file for each key (`FileSaveStore`). Keeping
them can fail, and so can a medium that is altogether unavailable: a plan says, for each
call in turn, whether it is refused and with which words. The plan is arbitrary, so what
holds for every plan holds whatever fails.
-/
import StoryChat.Save.Folder
import StoryChat.Text.FileName
import StoryChat.Text.Path
import StoryChat.Decimal.Digits

set_option autoImplicit false

namespace StoryChat

/-- The newest version of a record that can be read (`SAVE_VERSION`). -/
def recordVersion : Nat := 1

/-- Why a slot could not be read or written (`PersistError`). -/
inductive SaveFault where
  /-- The files could not be read or written. -/
  | io
  /-- The text is no record. -/
  | malformed
  /-- The record is of a version from the future. -/
  | unsupportedVersion (found : Nat)
  /-- The medium refused the call. -/
  | unavailable (reason : String)
  deriving DecidableEq

/-- The text of the cause, as a `PersistError` is displayed. The words of the file system and
of the reader of documents are not part of it; a mark holds their place. -/
def SaveFault.message : SaveFault → String
  | .io => "IO error: <io>"
  | .malformed => "JSON error: <json>"
  | .unsupportedVersion found =>
    "Unsupported save version " ++ Decimal.text found ++ " (newest supported is " ++
      Decimal.text recordVersion ++ ")"
  | .unavailable reason => "Save store unavailable: " ++ reason

/-- What is asked of the slots (the methods of `SaveStore`). -/
inductive SlotCall where
  | get (key : String)
  | set (key value : String)
  | remove (key : String)
  deriving DecidableEq

/-- The key that a call is about. -/
def SlotCall.key : SlotCall → String
  | .get key | .set key _ | .remove key => key

/-! ## Where slots are kept -/

/-- The path to the file of a slot, from the folder of all slots
(`FileSaveStore::slot_path`). -/
def slotPath (folder key : String) : String := Path.join folder (Text.fileName key)

/-- The path to the file that is written before it takes the place of the file of a slot
(`tmp` in `FileSaveStore::set`). -/
def draftPath (folder key : String) : String := Path.withEnding (slotPath folder key) "json.tmp"

/-- What keeps the slots (`MemorySaveStore` or `FileSaveStore`). -/
inductive SlotMedium where
  | memory (slots : Table String)
  | files (folder : Folder)
  deriving DecidableEq

namespace SlotMedium

/-- The text in a slot, if there is one (`SaveStore::get`). -/
def get (m : SlotMedium) (key : String) : Except SaveFault (Option String) :=
  match m with
  | .memory slots => .ok (slots.get? key)
  | .files folder =>
    match folder.read (Text.fileName key) with
    | .absent => .ok none
    | .refused => .error .io
    | .text s => .ok (some s)

/-- Put a text into a slot (`SaveStore::set`). -/
def set (m : SlotMedium) (key value : String) : Except SaveFault Unit × SlotMedium :=
  match m with
  | .memory slots => (.ok (), .memory (slots.insert key value))
  | .files folder =>
    let (done, folder) := folder.replace (Text.fileName key) (Text.draftFileName key) value.toUTF8
    (if done then .ok () else .error .io, .files folder)

/-- Empty a slot (`SaveStore::remove`). -/
def remove (m : SlotMedium) (key : String) : Except SaveFault Unit × SlotMedium :=
  match m with
  | .memory slots => (.ok (), .memory (slots.erase key))
  | .files folder =>
    match folder.remove? (Text.fileName key) with
    | none => (.error .io, .files folder)
    | some folder => (.ok (), .files folder)

end SlotMedium

/-! ## Slots that may refuse -/

/-- Slots with the plan of refusals, which are of the kind `PersistError::Unavailable`. -/
structure Saves where
  medium : SlotMedium
  /-- The reason for which a call is refused, by its number and what it asks. -/
  refusal : Nat → SlotCall → Option String
  /-- The number of calls so far. -/
  calls : Nat

namespace Saves

/-- Slots that refuse nothing. -/
def reliable (medium : SlotMedium) : Saves := ⟨medium, fun _ _ => none, 0⟩

/-- The slots after a call that was refused or only read. -/
def counted (s : Saves) : Saves := { s with calls := s.calls + 1 }

/-- Ask for the text in a slot. -/
def get (s : Saves) (key : String) : Except SaveFault (Option String) × Saves :=
  match s.refusal s.calls (.get key) with
  | some reason => (.error (.unavailable reason), s.counted)
  | none => (s.medium.get key, s.counted)

/-- Ask to put a text into a slot. -/
def set (s : Saves) (key value : String) : Except SaveFault Unit × Saves :=
  match s.refusal s.calls (.set key value) with
  | some reason => (.error (.unavailable reason), s.counted)
  | none =>
    let (result, medium) := s.medium.set key value
    (result, { s.counted with medium })

/-- Ask to empty a slot. -/
def remove (s : Saves) (key : String) : Except SaveFault Unit × Saves :=
  match s.refusal s.calls (.remove key) with
  | some reason => (.error (.unavailable reason), s.counted)
  | none =>
    let (result, medium) := s.medium.remove key
    (result, { s.counted with medium })

end Saves

end StoryChat
