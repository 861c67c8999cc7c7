/-
The declarations of a story's variables.

Every variable of a story is declared (`VariableSpec`), once, with a kind and a value to
start from. There are three kinds: meters, which stay between 0 and 100, counters, which
are any number, and flags. Declaring a name again takes the older declaration back, so a
schema (`VariableSchema`) that is built up by declaring has each name once, in the order
of the last declarations.
-/
import StoryChat.Story.Value

set_option autoImplicit false

namespace StoryChat

/-- How a variable behaves under a write (`VariableKind`). -/
inductive Kind where
  /-- A number from 0 to 100. -/
  | meter
  /-- Any number. -/
  | counter
  /-- A truth value. -/
  | flag
  deriving DecidableEq

/-- A number moved into the range of a meter (`f64::clamp` from `METER_MIN` to `METER_MAX`).
No-number stays what it is. -/
def clampMeter (x : Float) : Float :=
  let x := if x < 0.0 then 0.0 else x
  if x > 100.0 then 100.0 else x

/-- The declaration of a variable (`VariableSpec`). -/
structure Declaration where
  name : String
  kind : Kind
  default : Value
  deriving DecidableEq

namespace Declaration

/-- A meter with its first value, moved into range (`VariableSpec::meter`). -/
def meter (name : String) (default : Float) : Declaration :=
  ⟨name, .meter, .number (clampMeter default)⟩

/-- A counter with its first value (`VariableSpec::counter`). -/
def counter (name : String) (default : Float) : Declaration :=
  ⟨name, .counter, .number default⟩

/-- A flag with its first value (`VariableSpec::flag`). -/
def flag (name : String) (default : Bool) : Declaration :=
  ⟨name, .flag, .bool default⟩

end Declaration

/-- The declarations of a story, in order (`VariableSchema`). -/
structure Schema where
  declarations : List Declaration
  deriving DecidableEq

namespace Schema

/-- The schema without variables (`VariableSchema::empty`). -/
def empty : Schema := ⟨[]⟩

/-- One more declaration, in place of an older one for the same name
(`VariableSchema::with`). -/
def declare (s : Schema) (d : Declaration) : Schema :=
  ⟨s.declarations.filter (·.name != d.name) ++ [d]⟩

/-- The declaration of a name (`VariableSchema::get`): the first, if there are several. -/
def find? (s : Schema) (name : String) : Option Declaration :=
  s.declarations.find? (·.name == name)

/-- A schema built up by declaring one variable after the other. -/
def ofList (ds : List Declaration) : Schema := ds.foldl declare empty

/-- The variables of a story that declares none of its own (`VariableSchema::default`). -/
def standard : Schema :=
  ofList [.meter "valeria_affection" 0, .meter "mistery_level" 0, .meter "tension" 0,
    .flag "is_liar" false, .counter "quiz_points" 0]

end Schema

/-! ## In a document

A schema read from a document is taken as it stands: its names may repeat and
its values need not suit their kinds. -/

/-- The kind with a given name, as a `VariableKind` is read. -/
def Kind.ofName? : String → Option Kind
  | "meter" => some .meter
  | "counter" => some .counter
  | "flag" => some .flag
  | _ => none

/-- The name of a kind. -/
def Kind.name : Kind → String
  | .meter => "meter"
  | .counter => "counter"
  | .flag => "flag"

/-- The declaration that a document states, as a `VariableSpec` is read. -/
def Declaration.ofJson? (j : Json) : Option Declaration := do
  let fields ← j.asRecord? ["name", "kind", "default"]
  let name ← Json.required fields "name" Json.asText?
  let kind ← Json.required fields "kind" fun j => j.asName?.bind Kind.ofName?
  let default ← Json.required fields "default" Value.ofJson?
  return ⟨name, kind, default⟩

/-- The schema that a document states, as a `VariableSchema` is read. -/
def Schema.ofJson? (j : Json) : Option Schema := do
  let fields ← j.asRecord? ["specs"]
  let declarations ← Json.required fields "specs" (Json.asList? Declaration.ofJson?)
  return ⟨declarations⟩

end StoryChat
