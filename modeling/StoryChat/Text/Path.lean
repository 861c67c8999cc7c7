/-
Paths.

A path is a text that names a file by the folders on the way to it, with slashes between them.
A path that begins with a slash begins at the root of all folders and any other one where the
program is. What a path goes through is told by its components: a piece between slashes that is
empty or a single dot leads nowhere, two dots lead up, and any other piece leads to what has
that name.
-/

set_option autoImplicit false

namespace StoryChat.Path

/-- The pieces between slashes, empty ones included. -/
def pieces (path : String) : List String := (path.toList.splitOn '/').map String.ofList

/-- Whether a path begins at the root of all folders (`Path::is_absolute`). -/
def isAbsolute (path : String) : Bool := path.toList.head? == some '/'

/-- Whether a name can follow a path without a slash between them. -/
def isOpen (folder : String) : Bool := folder.isEmpty || folder.toList.getLast? == some '/'

/-- The path to a name from a folder (`Path::join`). A name that is an absolute path does not
begin at the folder. -/
def join (folder name : String) : String :=
  if isAbsolute name then name
  else if isOpen folder then folder ++ name
  else folder ++ "/" ++ name

/-! ## Components -/

/-- One step of a path (`path::Component`). -/
inductive Component where
  /-- The root of all folders. -/
  | root
  /-- The folder where one is. -/
  | here
  /-- The folder above. -/
  | parent
  | named (name : String)
  deriving DecidableEq

/-- The step that a piece stands for, if it leads anywhere. -/
def Component.ofPiece? (piece : String) : Option Component :=
  if piece = "" ∨ piece = "." then none
  else if piece = ".." then some .parent
  else some (.named piece)

/-- Where a path begins, if it says so. -/
def start (path : String) : List Component :=
  if isAbsolute path then [.root]
  else if (pieces path).head? = some "." then [.here]
  else []

/-- The steps of a path (`Path::components`). -/
def components (path : String) : List Component :=
  start path ++ (pieces path).filterMap Component.ofPiece?

/-! ## Endings -/

/-- A name up to its last dot (`Path::file_stem`). A dot that the name begins with does not
count. -/
def stem (name : String) : String :=
  match name.toList.reverse.dropWhile (· != '.') with
  | [] | ['.'] => name
  | _ :: before => String.ofList before.reverse

/-- A name with an ending in place of what follows its last dot. -/
def replaceEnding (name ending : String) : String :=
  if ending.isEmpty then stem name else stem name ++ "." ++ ending

/-- A path whose last name has another ending (`Path::with_extension`). A path that ends in no
name stays as it is. -/
def withEnding (path ending : String) : String :=
  match (pieces path).reverse.dropWhile (fun piece => piece == "" || piece == ".") with
  | [] => path
  | name :: above =>
    if name = ".." then path
    else "/".intercalate (above.reverse ++ [replaceEnding name ending])

end StoryChat.Path
