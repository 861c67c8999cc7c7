/-
Blank space in a line of text.

Names and input lines are trimmed (`trim`), commands are cut into words (`words`), and
timestamps allow blanks between their parts. All of them mean the same characters: those
that Unicode calls white space. Everything here is on lists of characters, with one
wrapper each for whole texts.
-/

set_option autoImplicit false

namespace StoryChat.Text

/-- Whether a character is white space (`char::is_whitespace`). -/
def isBlank (c : Char) : Bool :=
  let n := c.toNat
  (0x09 ≤ n && n ≤ 0x0D) || n == 0x20 || n == 0x85 || n == 0xA0 || n == 0x1680 ||
    (0x2000 ≤ n && n ≤ 0x200A) || n == 0x2028 || n == 0x2029 || n == 0x202F ||
    n == 0x205F || n == 0x3000

/-! ## Trimming -/

/-- The characters after the leading blanks. -/
def dropBlank (cs : List Char) : List Char := cs.dropWhile isBlank

/-- A text without the blanks at its two ends (`str::trim`). -/
def trim (s : String) : String :=
  String.ofList (dropBlank (dropBlank s.toList).reverse).reverse

/-! ## Words -/

/-- The stretches between blanks, empty ones included. -/
def stretches : List Char → List (List Char)
  | [] => [[]]
  | c :: cs =>
    if isBlank c then [] :: stretches cs
    else match stretches cs with
      | [] => [[c]]
      | w :: ws => (c :: w) :: ws

/-- The words of a text (`str::split_whitespace`): its longest stretches without a blank. -/
def words (s : String) : List String :=
  ((stretches s.toList).filter (! ·.isEmpty)).map String.ofList

/-! ## Lines -/

/-- The lines of a text, each of which a line feed ends. The last one may lack
it. -/
def cutLines : List Char → List (List Char)
  | [] => []
  | c :: cs =>
    if c = '\n' then [] :: cutLines cs
    else match cutLines cs with
      | [] => [[c]]
      | l :: ls => (c :: l) :: ls

/-- The lines of a text (`BufRead::lines`). -/
def lines (s : String) : List String := (cutLines s.toList).map String.ofList

end StoryChat.Text
