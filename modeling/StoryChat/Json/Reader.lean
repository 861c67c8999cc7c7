/-
Reading JSON.

The structure of a document is found by one pass over its tokens (`Reading.run`) with a
stack of the containers that are open. There is no recursion on the nesting, so a
document may be nested as deeply as its text is long. What may come next is part of the
state: after an opening bracket an element or the end, after a comma an element, after a
key a colon. A text is a document (`parse?`) when the pass ends with nothing open and
exactly one value read.
-/
import StoryChat.Json.Token

set_option autoImplicit false

namespace StoryChat.Json

/-- A container that is open, with what it holds so far, latest first. -/
inductive Frame where
  | array (before : List Json)
  | object (before : List (Option String × Json))
  /-- An object whose key waits for its value. -/
  | field (before : List (Option String × Json)) (key : Option String)

/-- What may come next. -/
inductive Wait where
  /-- A value. -/
  | value
  /-- The first element of an array, or its end. -/
  | item
  /-- The first key of an object, or its end. -/
  | entry
  /-- A key. -/
  | key
  /-- The colon behind a key. -/
  | colon
  /-- A comma or the end of the innermost container. -/
  | more
  /-- Nothing: the document is complete. -/
  | nothing (document : Json)

/-- How far a document has been read. -/
structure Reading where
  frames : List Frame
  wait : Wait

/-- The state in which a complete value has been handed to the innermost
container, or is the document. -/
def Reading.deliver (j : Json) : List Frame → Option Reading
  | [] => some ⟨[], .nothing j⟩
  | .array before :: fs => some ⟨.array (j :: before) :: fs, .more⟩
  | .field before key :: fs => some ⟨.object ((key, j) :: before) :: fs, .more⟩
  | .object _ :: _ => none

/-- A token where a value may begin. -/
def Reading.begin (fs : List Frame) : Token → Option Reading
  | .null => deliver .null fs
  | .bool b => deliver (.bool b) fs
  | .number n => deliver (.number n) fs
  | .text s => deliver (.text s) fs
  | .openArray => some ⟨.array [] :: fs, .item⟩
  | .openObject => some ⟨.object [] :: fs, .entry⟩
  | _ => none

/-- One token. -/
def Reading.step (p : Reading) (t : Token) : Option Reading :=
  match p.wait, t, p.frames with
  | .item, .closeArray, .array before :: fs => deliver (.array before.reverse) fs
  | .value, t, fs => begin fs t
  | .item, t, fs => begin fs t
  | .entry, .closeObject, .object before :: fs => deliver (.object before.reverse) fs
  | .entry, .text k, .object before :: fs => some ⟨.field before k :: fs, .colon⟩
  | .key, .text k, .object before :: fs => some ⟨.field before k :: fs, .colon⟩
  | .colon, .colon, fs => some ⟨fs, .value⟩
  | .more, .comma, .array before :: fs => some ⟨.array before :: fs, .value⟩
  | .more, .comma, .object before :: fs => some ⟨.object before :: fs, .key⟩
  | .more, .closeArray, .array before :: fs => deliver (.array before.reverse) fs
  | .more, .closeObject, .object before :: fs => deliver (.object before.reverse) fs
  | _, _, _ => none

/-- The state after a row of tokens. -/
def Reading.run : Reading → List Token → Option Reading
  | p, [] => some p
  | p, t :: ts => (p.step t).bind (run · ts)

/-- The document that a row of tokens is. -/
def ofTokens? (ts : List Token) : Option Json := do
  match ← Reading.run ⟨[], .value⟩ ts with
  | ⟨[], .nothing j⟩ => some j
  | _ => none

/-- The document that a text is (the structure that `serde_json::from_str` finds in it). -/
def parse? (s : String) : Option Json := (scan s.toList).bind ofTokens?

end StoryChat.Json
