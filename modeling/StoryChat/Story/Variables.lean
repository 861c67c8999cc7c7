/-
The current values of a story's variables.

Every write to `StoryVariables` goes through `set`, which refuses an undeclared name and
a value that does not suit the kind of its variable, and moves a number for a meter into
range. An impact adds to a number (`increase`); a saved set of values is laid over the
declared defaults, entry by entry, each through `set` again (`restore`), so whatever was
saved, what is restored suits the schema.
-/
import StoryChat.Story.Schema

set_option autoImplicit false

namespace StoryChat

/-- Declared variables and their values (`StoryVariables`). -/
structure Variables where
  schema : Schema
  values : Table Value
  deriving DecidableEq

namespace Variables

/-- The variables of a schema at their defaults (`StoryVariables::new`). -/
def ofSchema (schema : Schema) : Variables :=
  ⟨schema, Table.ofList (schema.declarations.map fun d => (d.name, d.default))⟩

/-- The value of a variable (`StoryVariables::get`). -/
def get? (v : Variables) (name : String) : Option Value := v.values.get? name

/-- The value of a variable that holds a number (`StoryVariables::number`). -/
def number? (v : Variables) (name : String) : Option Float := (v.get? name).bind Value.number?

/-- The value of a variable that holds a truth value (`StoryVariables::flag`). -/
def flag? (v : Variables) (name : String) : Option Bool := (v.get? name).bind Value.bool?

/-! ## Writes -/

/-- A value as a variable of a kind takes it, if it suits the kind: the `match` in
`StoryVariables::set`. -/
def fit? : Kind → Value → Option Value
  | .meter, .number x => some (.number (clampMeter x))
  | .counter, .number x => some (.number x)
  | .flag, .bool b => some (.bool b)
  | _, _ => none

/-- The variables after a write, if the write is not refused (`StoryVariables::set`). -/
def write? (v : Variables) (name : String) (value : Value) : Option Variables := do
  let d ← v.schema.find? name
  let value ← fit? d.kind value
  return { v with values := v.values.insert name value }

/-- The variables after a write; a refused one, for which `StoryVariables::set` says no,
changes nothing. -/
def set (v : Variables) (name : String) (value : Value) : Variables :=
  (v.write? name value).getD v

/-- The variables after adding to a number, if the name is declared as one
(`StoryVariables::add`). A variable that holds no number counts as zero. -/
def increase? (v : Variables) (name : String) (delta : Float) : Option Variables := do
  let d ← v.schema.find? name
  if d.kind = .flag then none
  else v.write? name (.number ((v.number? name).getD 0.0 + delta))

/-- The variables after adding to a number; a refused addition changes nothing. -/
def increase (v : Variables) (name : String) (delta : Float) : Variables :=
  (v.increase? name delta).getD v

/-- The variables after every addition of an impact (`NarrativeStore::apply_impact`). -/
def applyImpact (v : Variables) (impact : Table Float) : Variables :=
  impact.entries.foldl (fun v e => v.increase e.1 e.2) v

/-- The variables back at their defaults (`StoryVariables::reset`). -/
def reset (v : Variables) : Variables := ofSchema v.schema

/-- The variables with saved values laid over the defaults (`StoryVariables::restore`). -/
def restore (v : Variables) (saved : Table Value) : Variables :=
  saved.entries.foldl (fun v e => v.set e.1 e.2) v.reset

/-! ## What a write does to a look-up -/

theorem get?_of_write? {v w : Variables} {name : String} {value : Value}
    (h : v.write? name value = some w) (k : String) :
    w.get? k = if k = name then
      (v.schema.find? name).bind (fun d => fit? d.kind value) else v.get? k := by
  unfold write? at h
  simp only [Option.bind_eq_bind, Option.bind_eq_some_iff] at h
  obtain ⟨d, hd, x, hx, e⟩ := h
  cases e
  simp only [get?, Table.get?_insert, hd, Option.bind_some, hx]

theorem schema_of_write? {v w : Variables} {name : String} {value : Value}
    (h : v.write? name value = some w) : w.schema = v.schema := by
  unfold write? at h
  simp only [Option.bind_eq_bind, Option.bind_eq_some_iff] at h
  obtain ⟨d, _, x, _, e⟩ := h
  cases e
  rfl

@[simp] theorem schema_set (v : Variables) (name : String) (value : Value) :
    (v.set name value).schema = v.schema := by
  unfold set
  cases h : v.write? name value with
  | none => rfl
  | some w => exact schema_of_write? h

@[simp] theorem schema_increase (v : Variables) (name : String) (delta : Float) :
    (v.increase name delta).schema = v.schema := by
  unfold increase increase?
  cases v.schema.find? name with
  | none => rfl
  | some d =>
    simp only [Option.bind_eq_bind, Option.bind_some]
    split
    · rfl
    · exact schema_set v name _

@[simp] theorem schema_reset (v : Variables) : v.reset.schema = v.schema := rfl

theorem schema_foldl_set (es : List (String × Value)) (v : Variables) :
    (es.foldl (fun v e => v.set e.1 e.2) v).schema = v.schema := by
  induction es generalizing v with
  | nil => rfl
  | cons e es ih => rw [List.foldl_cons, ih, schema_set]

/-- Whatever was saved, the declarations stay what they are. -/
@[simp] theorem schema_restore (v : Variables) (saved : Table Value) :
    (v.restore saved).schema = v.schema := by
  rw [restore, schema_foldl_set, schema_reset]

@[simp] theorem schema_applyImpact (v : Variables) (impact : Table Float) :
    (v.applyImpact impact).schema = v.schema := by
  unfold applyImpact
  generalize impact.entries = es
  induction es generalizing v with
  | nil => rfl
  | cons e es ih => rw [List.foldl_cons, ih, schema_increase]

end Variables

end StoryChat
