/-
A folder of files.

Scripts are read from a folder (`DirectoryScriptSource`) and saves are kept in one
(`FileSaveStore`). All that matters of it is which names are there and what each of them
is: a file with its bytes, or another folder, which can be neither read nor replaced.
Names may be limited in length, by the folder and by the path to it; the path counts
even where the folder is not there. The folder for saves need not be there until
something is written to it.

A file is replaced in three steps, each of which may be the last one to happen: the
folder is made (`create`), the new content is written beside the file (`write?`), and
the file is replaced by it in one move (`move?`). The steps are separate functions, so
that what a stop between them leaves behind can be said.
-/
import StoryChat.Table

set_option autoImplicit false

namespace StoryChat

/-- What a name in a folder stands for. -/
inductive FileEntry where
  | file (bytes : ByteArray)
  | folder

instance : DecidableEq FileEntry
  | .folder, .folder => .isTrue rfl
  | .file a, .file b =>
    match ByteArray.instDecidableEq a b with
    | .isTrue h => .isTrue (congrArg FileEntry.file h)
    | .isFalse h => .isFalse fun e => h (FileEntry.file.inj e)
  | .file _, .folder => .isFalse nofun
  | .folder, .file _ => .isFalse nofun

/-- How long names may be, in bytes. -/
structure NameLimits where
  /-- The longest name of an entry. -/
  entry : Nat
  /-- The longest name that the path to the folder can be continued with. -/
  path : Nat
  deriving DecidableEq

/-- The limits under a path: a name has up to 255 bytes, and a whole path up to
4095, of which one separates the name from the folder. -/
def NameLimits.under (path : String) : NameLimits := ⟨255, 4095 - (path.utf8ByteSize + 1)⟩

/-- A place for files. -/
structure Folder where
  /-- The entries, if the folder is there. -/
  entries : Option (Table FileEntry)
  /-- The limits of names, if there are any. -/
  limits : Option NameLimits
  deriving DecidableEq

/-- What comes of reading a file as text (`read_to_string`). -/
inductive ReadResult where
  | absent
  /-- There is something that is no text. -/
  | refused
  | text (s : String)
  deriving DecidableEq

namespace Folder

/-- Whether there can be a path to a name of this length. -/
def reaches (f : Folder) (name : String) : Bool :=
  match f.limits with
  | none => true
  | some limits => name.utf8ByteSize ≤ limits.path

/-- Whether a folder that is there takes a name of this length. -/
def allows (f : Folder) (name : String) : Bool :=
  match f.limits with
  | none => true
  | some limits => name.utf8ByteSize ≤ min limits.entry limits.path

/-- The text of a file (`read_to_string`). A file whose bytes are no text is refused like a
folder. Where there is no folder there is no file, but what has no path is refused there
too. -/
def read (f : Folder) (name : String) : ReadResult :=
  match f.entries with
  | none => if f.reaches name then .absent else .refused
  | some entries =>
    if ¬ f.allows name then .refused
    else match entries.get? name with
      | none => .absent
      | some .folder => .refused
      | some (.file bytes) =>
        match String.fromUTF8? bytes with
        | none => .refused
        | some s => .text s

/-! ## Steps -/

/-- The folder, made if it was not there (`create_dir_all`). -/
def create (f : Folder) : Folder :=
  match f.entries with
  | none => { f with entries := some .empty }
  | some _ => f

/-- The folder with a file of the given bytes, unless the name is not allowed or stands for a
folder (`fs::write`). -/
def write? (f : Folder) (name : String) (bytes : ByteArray) : Option Folder := do
  let entries ← f.entries
  if ¬ f.allows name ∨ entries.get? name = some .folder then none
  else some { f with entries := some (entries.insert name (.file bytes)) }

/-- The folder with a file moved over another name, unless that one stands for a folder
(`fs::rename`). -/
def move? (f : Folder) (source target : String) : Option Folder := do
  let entries ← f.entries
  let entry ← entries.get? source
  if ¬ f.allows target ∨ entries.get? target = some .folder then none
  else some { f with entries := some ((entries.erase source).insert target entry) }

/-- The folder without a file; a name that is not there is no fault, one that has no path is
(`fs::remove_file`). -/
def remove? (f : Folder) (name : String) : Option Folder :=
  match f.entries with
  | none => if f.reaches name then some f else none
  | some entries =>
    if ¬ f.allows name ∨ entries.get? name = some .folder then none
    else some { f with entries := some (entries.erase name) }

/-! ## Replacing a file -/

/-- Replace a file by way of a draft beside it (`FileSaveStore::set`). What a step that fails
leaves behind stays. -/
def replace (f : Folder) (name draft : String) (bytes : ByteArray) : Bool × Folder :=
  let made := f.create
  match made.write? draft bytes with
  | none => (false, made)
  | some drafted =>
    match drafted.move? draft name with
    | none => (false, drafted)
    | some moved => (true, moved)

end Folder

end StoryChat
