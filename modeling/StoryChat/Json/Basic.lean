/-
JSON documents as trees.

A tree `Json` keeps what its reader may still ask for. A number is the numeral as it was
written. A text may be missing: an escape can name half of a pair that together names a
character, and a string with a lone half spells no text. That is no fault of the
document until somebody wants the text, so it is recorded here as `none` and refused by
whoever reads it.
-/
import StoryChat.Decimal.Layout
import StoryChat.Decimal.Measure
import StoryChat.Table

set_option autoImplicit false

namespace StoryChat

/-- A JSON document. -/
inductive Json where
  | null
  | bool (b : Bool)
  | number (n : Decimal.Numeral)
  /-- A string, `none` if its escapes spell no text. -/
  | text (s : Option String)
  | array (items : List Json)
  /-- The fields in their order; a key may occur more than once. -/
  | object (fields : List (Option String × Json))

namespace Json

instance : Inhabited Json := ⟨.null⟩

/-! ## Making documents -/

/-- A string. -/
def str (s : String) : Json := .text (some s)

/-- A count. -/
def nat (n : Nat) : Json := .number ⟨false, Decimal.digits n, [], none⟩

/-- A measure. What is not finite has no numeral and is written as nothing. -/
def float (x : Float) : Json :=
  match Decimal.documentNumeral? x with
  | some n => .number n
  | none => .null

/-- A value that may be missing. -/
def option {α : Type} (f : α → Json) : Option α → Json
  | none => .null
  | some a => f a

/-- An object with the given fields. -/
def record (fields : List (String × Json)) : Json :=
  .object (fields.map fun (k, v) => (some k, v))

/-- A table as an object. -/
def table {α : Type} (f : α → Json) (t : Table α) : Json :=
  record (t.entries.map fun (k, v) => (k, f v))

/-! ## What can be kept

Where a document is read into a buffer before its meaning is known, all of it is
read: its texts must spell texts, its numbers must be in range, and the buffer
has room for a limited number of levels. -/

/-- The number of containers on the longest way into a document. -/
def height : Json → Nat
  | .array items => heightOfItems items + 1
  | .object fields => heightOfFields fields + 1
  | _ => 0
where
  heightOfItems : List Json → Nat
    | [] => 0
    | j :: rest => max (height j) (heightOfItems rest)
  heightOfFields : List (Option String × Json) → Nat
    | [] => 0
    | (_, j) :: rest => max (height j) (heightOfFields rest)

/-- Whether every text of a document spells a text and every number is in
range. -/
def readable : Json → Bool
  | .number n => (n.toFloat?).isSome
  | .text s => s.isSome
  | .array items => readableItems items
  | .object fields => readableFields fields
  | _ => true
where
  readableItems : List Json → Bool
    | [] => true
    | j :: rest => readable j && readableItems rest
  readableFields : List (Option String × Json) → Bool
    | [] => true
    | (k, j) :: rest => k.isSome && readable j && readableFields rest

/-- The number of levels a buffer has room for. -/
def levelLimit : Nat := 127

/-- Whether a document found below `above` open containers fits into a buffer, as a value with
an internal tag is read. -/
def keepable (above : Nat) (j : Json) : Bool :=
  above + j.height ≤ levelLimit && j.readable

end Json

end StoryChat
