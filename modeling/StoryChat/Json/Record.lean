/-
Reading values out of a document.

A reader takes a document to a value or refuses it. The rules are the same wherever
documents are read, and they are those of `serde`. A record (`asRecord?`) is an object,
or an array of its fields in the order of their declaration; of an object unknown fields
are skipped, and a known one may stand only once. A field may have a default for when it
is missing (`defaulted`). A name out of a fixed set (`asName?`) is a string, or an
object with that name as its only key and nothing as its value. Of a table the last
entry for a name counts.
-/
import StoryChat.Json.Basic

set_option autoImplicit false

namespace StoryChat.Json

variable {α : Type}

/-! ## Plain values -/

/-- A string that spells a text. -/
def asText? : Json → Option String
  | .text s => s
  | _ => none

/-- A truth value. -/
def asBool? : Json → Option Bool
  | .bool b => some b
  | _ => none

/-- A measure in range (`f64`). -/
def asFloat? : Json → Option Float
  | .number n => n.toFloat?
  | _ => none

/-- The largest count that a document may state (`u32::MAX`). -/
def countLimit : Nat := 4294967295

/-- A count of at most 32 bits (`u32`). -/
def asCount? : Json → Option Nat
  | .number n => n.toNat?.filter (· ≤ countLimit)
  | _ => none

/-- Nothing, or a value. -/
def asOption? (read : Json → Option α) : Json → Option (Option α)
  | .null => some none
  | j => (read j).map some

/-- An array of values. -/
def asList? (read : Json → Option α) : Json → Option (List α)
  | .array items => items.mapM read
  | _ => none

/-- A name, as the variant of an enumeration is read: a string, or an object with the name as
its only key. -/
def asName? : Json → Option String
  | .text s => s
  | .object [(k, .null)] => k
  | _ => none

/-- The fields of an object, all of whose keys spell texts. -/
def asFields? : Json → Option (List (String × Json))
  | .object fields => fields.mapM fun (k, j) => k.map (·, j)
  | _ => none

/-- An object as a table (`BTreeMap`): of two entries for one name the later counts. -/
def asTable? (read : Json → Option α) (j : Json) : Option (Table α) := do
  let fields ← j.asFields?
  let entries ← fields.mapM fun (k, j) => (read j).map (k, ·)
  return Table.ofList entries

/-! ## Records -/

/-- Whether a name is the key of at most one field. -/
def occursOnce (fields : List (String × Json)) (name : String) : Bool :=
  fields.countP (·.1 == name) ≤ 1

/-- The known fields of a record with the given field names. -/
def asRecord? (names : List String) (j : Json) : Option (List (String × Json)) :=
  match j with
  | .array items => if items.length ≤ names.length then some (names.zip items) else none
  | j => do
    let fields ← j.asFields?
    if names.all (occursOnce fields) then
      some (fields.filter fun f => names.contains f.1)
    else none

/-- A field that must be there (one without `serde(default)`). -/
def required (fields : List (String × Json)) (name : String) (read : Json → Option α) :
    Option α :=
  (fields.lookup name).bind read

/-- A field with a default (`serde(default)`). -/
def defaulted (fields : List (String × Json)) (name : String) (read : Json → Option α)
    (default : α) : Option α :=
  match fields.lookup name with
  | none => some default
  | some j => read j

end StoryChat.Json
