/-
The values of story variables.

A variable holds a truth value, a number or a text (`StoryValue`); so does the literal
of a condition. Two values are the same when they are of one sort and equal in it. For
numbers that is the equality of numbers: no-number differs from itself, and the two
zeros are the same.
-/
import StoryChat.Json.Record

set_option autoImplicit false

namespace StoryChat

/-- A literal value (`StoryValue`). -/
inductive Value where
  | bool (b : Bool)
  | number (x : Float)
  | text (s : String)
  deriving DecidableEq

namespace Value

/-- The number, if it is one (`StoryValue::as_number`). -/
def number? : Value → Option Float
  | .number x => some x
  | _ => none

/-- The truth value, if it is one (`StoryValue::as_bool`). -/
def bool? : Value → Option Bool
  | .bool b => some b
  | _ => none

/-- Whether two values are the same (`==` on `StoryValue`). -/
def same : Value → Value → Bool
  | .bool a, .bool b => a == b
  | .number x, .number y => x == y
  | .text s, .text t => s == t
  | _, _ => false

/-- A value in running text, as a `StoryValue` is displayed. -/
def plain : Value → String
  | .bool true => "true"
  | .bool false => "false"
  | .number x => Decimal.plainText x
  | .text s => s

/-- A value in a document, as a `StoryValue` is written. -/
def toJson : Value → Json
  | .bool b => .bool b
  | .number x => .float x
  | .text s => .str s

/-- The value that a document states, as a `StoryValue` is read. -/
def ofJson? : Json → Option Value
  | .bool b => some (.bool b)
  | .number n => n.toFloat?.map .number
  | .text s => s.map .text
  | _ => none

end Value

end StoryChat
