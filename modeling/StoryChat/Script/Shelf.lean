/-
Where scripts come from.

A story asks for its scripts by what they are (`ScriptId`): a part of a chapter, or a
script with a name of its own. A shelf (`ScriptSource`) answers each such request with a
script or with the reason why there is none. Shelves are functions, because a request is
answered the same way every time. There are two ways to make one: from the files of a
folder (`DirectoryScriptSource`), and from a registry (`StaticScriptSource`) in which
scripts are put as texts or as documents already read, the latest for each request.
-/
import StoryChat.Script.Format
import StoryChat.Save.Folder
import StoryChat.Text.FileName
import StoryChat.Text.Path

set_option autoImplicit false

namespace StoryChat

/-- What a script is asked for by (`loader::ScriptId`). -/
inductive ScriptId where
  | part (chapter number : Nat)
  | named (name : String)
  deriving DecidableEq

namespace ScriptId

/-- The name of the file that holds a script (`ScriptId::file_name`). -/
def fileName : ScriptId → String
  | .part chapter number =>
    "chapter" ++ Decimal.text chapter ++ "_part" ++ Decimal.text number ++ ".json"
  | .named name => Text.fileName name

/-- The path to the file that holds a script, from the folder of all scripts
(`DirectoryScriptSource::path_for`). -/
def path (folder : String) (id : ScriptId) : String := Path.join folder id.fileName

/-- A script as it is called in a message, where a `ScriptId` is displayed. -/
def label : ScriptId → String
  | .part chapter number =>
    "chapter " ++ Decimal.text chapter ++ " part " ++ Decimal.text number
  | .named name => "script '" ++ name ++ "'"

end ScriptId

/-- Why a script could not be had (`LoadError`). -/
inductive LoadFault where
  | notFound (id : ScriptId)
  /-- The file could not be read. -/
  | io (id : ScriptId)
  /-- The text is no script. -/
  | malformed (id : ScriptId)
  deriving DecidableEq

/-- The text of the cause, as a `LoadError` is displayed, with marks for the words of
others. -/
def LoadFault.message : LoadFault → String
  | .notFound id => id.label ++ " not found"
  | .io id => "IO error reading " ++ id.label ++ ": <io>"
  | .malformed id => "Malformed " ++ id.label ++ ": <json>"

/-- What answers requests for scripts (`ScriptSource::load`). -/
abbrev Shelf := ScriptId → Except LoadFault Document

/-- The script that a text states, for a request (`ScriptDocument::from_json` with its error
mapped). -/
def Document.load (id : ScriptId) (text : String) : Except LoadFault Document :=
  match Document.parse? text with
  | none => .error (.malformed id)
  | some d => .ok d

/-- The scripts in a folder (`DirectoryScriptSource`). -/
def Shelf.ofFolder (folder : Folder) : Shelf := fun id =>
  match folder.read id.fileName with
  | .absent => .error (.notFound id)
  | .refused => .error (.io id)
  | .text s => Document.load id s

/-! ## Registries -/

/-- Things kept for requests, at most one for each (`HashMap<ScriptId, _>`). -/
structure Rack (α : Type) where
  entries : List (ScriptId × α)
  deriving DecidableEq

namespace Rack

variable {α : Type}

/-- The rack with nothing in it. -/
def empty : Rack α := ⟨[]⟩

/-- What is kept for a request. -/
def find? (r : Rack α) (id : ScriptId) : Option α := r.entries.lookup id

/-- The rack with nothing for a request. -/
def drop (r : Rack α) (id : ScriptId) : Rack α := ⟨r.entries.filter (·.1 != id)⟩

/-- The rack with something for a request, in place of what was there. -/
def put (r : Rack α) (id : ScriptId) (a : α) : Rack α := ⟨(id, a) :: (r.drop id).entries⟩

@[simp] theorem find?_empty (id : ScriptId) : (empty : Rack α).find? id = none := rfl

@[simp] theorem find?_drop (r : Rack α) (id key : ScriptId) :
    (r.drop id).find? key = if key = id then none else r.find? key :=
  Table.lookup_filter_ne id r.entries key

@[simp] theorem find?_put (r : Rack α) (id key : ScriptId) (a : α) :
    (r.put id a).find? key = if key = id then some a else r.find? key := by
  have hdrop := r.find?_drop id key
  by_cases hk : key = id
  · rw [if_pos hk]
    exact (Table.lookup_cons_ite id a _ key).trans (if_pos hk)
  · rw [if_neg hk] at hdrop ⊢
    exact ((Table.lookup_cons_ite id a _ key).trans (if_neg hk)).trans hdrop

end Rack

/-- A registered script: an entry of `documents` or of `raw` in a `StaticScriptSource`. -/
inductive Registered where
  /-- A text that is read again for each request. -/
  | text (s : String)
  | document (d : Document)
  deriving DecidableEq

/-- The script that is registered, for a request. -/
def Registered.load (id : ScriptId) : Registered → Except LoadFault Document
  | .document d => .ok d
  | .text s => Document.load id s

/-- Registered scripts (`StaticScriptSource`). Those that have been read are kept apart from
those that are still texts. -/
structure Registry where
  documents : Rack Document
  texts : Rack String
  deriving DecidableEq

namespace Registry

/-- The registry without scripts. -/
def empty : Registry := ⟨.empty, .empty⟩

/-- Register a document in place of what was registered for the same request
(`StaticScriptSource::insert`). -/
def insert (r : Registry) (id : ScriptId) (d : Document) : Registry :=
  ⟨r.documents.put id d, r.texts.drop id⟩

/-- The registry with a document for a request (`StaticScriptSource::with_document`). -/
def withDocument (r : Registry) (id : ScriptId) (d : Document) : Registry := r.insert id d

/-- The registry with a text for a request (`StaticScriptSource::with_json`). -/
def withText (r : Registry) (id : ScriptId) (s : String) : Registry :=
  ⟨r.documents.drop id, r.texts.put id s⟩

/-- Register a script in place of an older one for the same request. -/
def register (r : Registry) (id : ScriptId) : Registered → Registry
  | .text s => r.withText id s
  | .document d => r.withDocument id d

/-- The registered script for a request. A document is looked for first. -/
def find? (r : Registry) (id : ScriptId) : Option Registered :=
  match r.documents.find? id with
  | some d => some (.document d)
  | none => (r.texts.find? id).map .text

/-- The scripts of a registry, as its `load` answers. -/
def shelf (r : Registry) : Shelf := fun id =>
  match r.find? id with
  | none => .error (.notFound id)
  | some script => script.load id

end Registry

end StoryChat
