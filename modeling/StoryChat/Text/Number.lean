/-
Numbers given as a word.

A part of the command line, or an answer typed at the prompt, is a whole number
(`readWhole`) or a decimal (`readDecimal`). Each refusal has its cause and its text. A
whole number is read digit by digit, and the first digit that is none, or that carries
the number past its bound, decides which cause it is.
-/
import StoryChat.Decimal.Digits
import StoryChat.Decimal.Binary

set_option autoImplicit false

namespace StoryChat.Text

open StoryChat.Decimal

/-! ## Whole numbers -/

/-- Why a word is no whole number (`ParseIntError`). -/
inductive WholeFault where
  | empty
  | invalidDigit
  | tooLarge
  deriving DecidableEq

/-- The text of the cause, as a `ParseIntError` is displayed. -/
def WholeFault.message : WholeFault → String
  | .empty => "cannot parse integer from empty string"
  | .invalidDigit => "invalid digit found in string"
  | .tooLarge => "number too large to fit in target type"

/-- The number with one more digit behind it, if it stays within the bound. -/
def appendDigit (bound n : Nat) (c : Char) : Except WholeFault Nat :=
  match digit? c with
  | none => .error .invalidDigit
  | some d => if 10 * n + d.val ≤ bound then .ok (10 * n + d.val) else .error .tooLarge

/-- The number that a word writes, with or without a plus sign (`str::parse` to an unsigned
integer). -/
def readWhole (bound : Nat) (word : String) : Except WholeFault Nat :=
  match word.toList with
  | [] => .error .empty
  | ['+'] => .error .invalidDigit
  | '+' :: cs => cs.foldlM (appendDigit bound) 0
  | cs => cs.foldlM (appendDigit bound) 0

/-! ## Decimals -/

/-- Why a word is no decimal (`ParseFloatError`). -/
inductive DecimalFault where
  | empty
  | invalid
  deriving DecidableEq

/-- The text of the cause, as a `ParseFloatError` is displayed. -/
def DecimalFault.message : DecimalFault → String
  | .empty => "cannot parse float from empty string"
  | .invalid => "invalid float literal"

/-- A sign in front. -/
def readSign : List Char → Bool × List Char
  | '-' :: cs => (true, cs)
  | '+' :: cs => (false, cs)
  | cs => (false, cs)

/-- The names of the numbers that have no digits, in any case. -/
def namedNumber? (cs : List Char) : Option Float :=
  let word := cs.map Char.toLower
  if word = ['n', 'a', 'n'] then some (0.0 / 0.0)
  else if word = ['i', 'n', 'f'] ∨ word = ['i', 'n', 'f', 'i', 'n', 'i', 't', 'y'] then
    some (1.0 / 0.0)
  else none

/-- The digits behind a point, if there is one. -/
def readPoint : List Char → List Digit × List Char
  | '.' :: cs => span cs
  | cs => ([], cs)

/-- A power of ten at the end of the word. -/
def readPower? : List Char → Option Int
  | [] => some 0
  | c :: cs =>
    if c = 'e' ∨ c = 'E' then
      let (down, cs) := readSign cs
      match span cs with
      | (d :: ds, []) =>
        let e := (value (d :: ds) : Int)
        some (if down then -e else e)
      | _ => none
    else none

/-- The number that digits with a point and a power of ten write: the nearest
one there is. Some digit must stand before or behind the point. -/
def digitalNumber? (cs : List Char) : Option Float :=
  let (whole, cs) := span cs
  let (fraction, cs) := readPoint cs
  if whole = [] ∧ fraction = [] then none
  else (readPower? cs).map fun e => nearest (value (whole ++ fraction)) (e - fraction.length)

/-- The number that a word writes (`str::parse` to `f64`). -/
def readDecimal (word : String) : Except DecimalFault Float :=
  match word.toList with
  | [] => .error .empty
  | cs =>
    let (negative, cs) := readSign cs
    match (namedNumber? cs).or (digitalNumber? cs) with
    | none => .error .invalid
    | some x => .ok (if negative then -x else x)

end StoryChat.Text
