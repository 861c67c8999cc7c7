/-
File names for names.

A script or a slot is called by any text, and its file by a text that is safe to use in
a folder (`fileName`): letters, numbers, the underscore and the hyphen stay, anything
else becomes an underscore, and an ending follows. The ending brings the only dot, so no
file name means the folder itself, its parent or another folder.
-/
import StoryChat.Text.Alphanumeric

set_option autoImplicit false

namespace StoryChat.Text

/-- Whether a character may stand in a file name. -/
def isFileChar (c : Char) : Bool := isAlphanumeric c || c == '_' || c == '-'

/-- A name with every other character replaced by an underscore (`sanitized` in
`ScriptId::file_name` and `FileSaveStore::slot_path`). -/
def fileStem (name : String) : String :=
  String.ofList (name.toList.map fun c => if isFileChar c then c else '_')

/-- The file name of a name (`ScriptId::file_name`, `FileSaveStore::slot_path`). -/
def fileName (name : String) : String := fileStem name ++ ".json"

/-- The name of the file that is written before it takes the place of the file of a name
(`Path::with_extension`). A file name that is all ending counts as having none, and gets
another. -/
def draftFileName (name : String) : String :=
  if fileStem name = "" then fileName name ++ ".json.tmp" else fileName name ++ ".tmp"

/-- A stem holds only what may stand in a file name. -/
theorem isFileChar_of_mem_fileStem {name : String} {c : Char} (h : c ∈ (fileStem name).toList) :
    isFileChar c = true := by
  simp only [fileStem, String.toList_ofList, List.mem_map] at h
  obtain ⟨x, _, rfl⟩ := h
  split
  · assumption
  · decide +kernel

/-- No mark that separates parts of a path may stand in a file name. -/
theorem isFileChar_separator :
    isFileChar '/' = false ∧ isFileChar '\\' = false ∧ isFileChar '.' = false ∧
      isFileChar ':' = false := by
  decide +kernel

end StoryChat.Text
