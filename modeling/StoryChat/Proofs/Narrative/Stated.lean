/-
What documents state as numbers are finite numbers.

A numeral is never read as no-number nor as an infinity, so neither the values that the actions
of a script write nor what its options add are any, and the values of a record are not either.
This is followed here from the numerals up through lists, tables and records to the nodes of a
script and to the record of progress: whatever stands in a node as a value was read as one
(`Node.Given`).
-/
import StoryChat.Proofs.Decimal.Finite
import StoryChat.Proofs.Narrative.Reading
import StoryChat.Proofs.Story.Bounded

set_option autoImplicit false

namespace StoryChat

open Json

/-! ## Tables -/

/-- The entries of a table are among those that were written. -/
theorem Table.mem_of_mem_ofList {α : Type} {es : List (String × α)} {e : String × α}
    (h : e ∈ (ofList es).entries) : e ∈ es := by
  suffices hs : ∀ t : Table α, e ∈ (es.foldl (fun t e => t.insert e.1 e.2) t).entries →
      e ∈ t.entries ∨ e ∈ es from (hs .empty h).resolve_left List.not_mem_nil
  clear h
  induction es with
  | nil => exact fun t h => .inl h
  | cons d ds ih =>
    intro t h
    rcases ih _ h with h | h
    · rcases mem_insertEntry h with rfl | h
      · exact .inr List.mem_cons_self
      · exact .inl h
    · exact .inr (List.mem_cons_of_mem _ h)

/-- Every value of a table that was read was read from one of the document. -/
theorem Json.exists_of_mem_asTable? {α : Type} {read : Json → Option α} {j : Json} {t : Table α}
    {e : String × α} (h : asTable? read j = some t) (he : e ∈ t.entries) :
    ∃ j, read j = some e.2 := by
  unfold asTable? at h
  simp only [Option.bind_eq_bind, Option.bind_eq_some_iff] at h
  obtain ⟨fields, -, entries, hentries, h⟩ := h
  cases h
  obtain ⟨⟨k, j⟩, -, hj⟩ := exists_of_mem_mapM hentries (Table.mem_of_mem_ofList he)
  obtain ⟨a, ha, rfl⟩ := Option.map_eq_some_iff.1 hj
  exact ⟨j, ha⟩

/-! ## Values -/

theorem Json.isNaN_of_asFloat? {j : Json} {x : Float} (h : asFloat? j = some x) :
    x.isNaN = false := by
  cases j with
  | number n => exact Decimal.Numeral.isNaN_of_toFloat? h
  | _ => cases h

theorem Value.proper_of_ofJson? {j : Json} {value : Value} (h : ofJson? j = some value) :
    value.Proper := by
  cases j with
  | number n =>
    obtain ⟨x, hx, rfl⟩ := Option.map_eq_some_iff.1 h
    exact Decimal.Numeral.isNaN_of_toFloat? hx
  | bool b =>
    cases h
    trivial
  | text s =>
    obtain ⟨t, -, rfl⟩ := Option.map_eq_some_iff.1 h
    trivial
  | null | array | object => cases h

theorem Json.isFinite_of_asFloat? {j : Json} {x : Float} (h : asFloat? j = some x) :
    Decimal.isFinite x = true := by
  cases j with
  | number n => exact Decimal.Numeral.isFinite_of_toFloat? h
  | _ => cases h

theorem Value.isFinite_of_ofJson? {j : Json} {x : Float} (h : ofJson? j = some (.number x)) :
    Decimal.isFinite x = true := by
  cases j with
  | number n =>
    obtain ⟨y, hy, hx⟩ := Option.map_eq_some_iff.1 h
    cases hx
    exact Decimal.Numeral.isFinite_of_toFloat? hy
  | bool b => cases h
  | text s =>
    obtain ⟨t, -, ht⟩ := Option.map_eq_some_iff.1 h
    cases ht
  | null | array | object => cases h

/-! ## Scripts -/

/-- Whether a value was read as one. -/
def Value.Given (value : Value) : Prop := ∃ j, ofJson? j = some value

theorem Value.Given.proper {value : Value} (h : value.Given) : value.Proper :=
  h.elim fun _ => proper_of_ofJson?

/-- Whether what an action writes was read as a value. -/
def Action.Given : Action → Prop
  | .set _ value => value.Given
  | .setOnline _ | .setBlocked _ | .unknown => True

theorem Action.given_of_ofFields? {fields : List (String × Json)} {type : String} {a : Action}
    (h : ofFields? fields type = some a) : a.Given := by
  unfold ofFields? at h
  split at h
  · split at h
    · cases h
    · simp only [Option.bind_eq_bind, Option.bind_eq_some_iff] at h
      obtain ⟨name, -, value, hvalue, ha⟩ := h
      cases ha
      exact exists_of_required hvalue
  · split at h
    · cases h
    · obtain ⟨online, -, rfl⟩ := Option.map_eq_some_iff.1 h
      trivial
  · split at h
    · cases h
    · obtain ⟨blocked, -, rfl⟩ := Option.map_eq_some_iff.1 h
      trivial
  · cases h
    trivial

theorem Action.given_of_ofItems? {items : List Json} {type : String} {a : Action}
    (h : ofItems? items type = some a) : a.Given := by
  unfold ofItems? at h
  split at h
  · split at h
    · simp only [Option.bind_eq_bind, Option.bind_eq_some_iff] at h
      obtain ⟨name, -, value, hvalue, ha⟩ := h
      cases ha
      exact ⟨_, hvalue⟩
    · cases h
  · split at h
    · obtain ⟨online, -, rfl⟩ := Option.map_eq_some_iff.1 h
      trivial
    · cases h
  · split at h
    · obtain ⟨blocked, -, rfl⟩ := Option.map_eq_some_iff.1 h
      trivial
    · cases h
  · split at h
    · cases h
      trivial
    · cases h

theorem Action.given_of_ofJson? {above : Nat} {j : Json} {a : Action}
    (h : ofJson? above j = some a) : a.Given := by
  unfold ofJson? at h
  split at h
  · cases h
  · split at h
    · obtain ⟨type, -, hitems⟩ := Option.bind_eq_some_iff.1 h
      exact given_of_ofItems? hitems
    · obtain ⟨fields, -, h⟩ := Option.bind_eq_some_iff.1 h
      split at h
      · cases h
      · obtain ⟨type, -, hfields⟩ := Option.bind_eq_some_iff.1 h
        exact given_of_ofFields? hfields

/-- Whether all values and measures in a node were read as such. -/
structure Node.Given (n : Node) : Prop where
  delay : ∀ x, n.delay = some x → ∃ j, asFloat? j = some x
  actions : ∀ a ∈ n.actions, a.Given
  conditions : ∀ c ∈ n.conditions, c.value.Given
  choices : ∀ c ∈ n.choices, ∀ e ∈ c.impact.entries, ∃ j, asFloat? j = some e.2

theorem Condition.given_of_ofJson? {j : Json} {c : Condition} (h : ofJson? j = some c) :
    c.value.Given := by
  unfold ofJson? at h
  simp only [Option.bind_eq_bind, Option.bind_eq_some_iff] at h
  obtain ⟨fields, -, name, -, operator, -, value, hvalue, target, -, hc⟩ := h
  cases hc
  exact exists_of_required hvalue

theorem Choice.given_of_ofJson? {j : Json} {c : Choice} (h : ofJson? j = some c) :
    ∀ e ∈ c.impact.entries, ∃ j, asFloat? j = some e.2 := by
  unfold ofJson? at h
  simp only [Option.bind_eq_bind, Option.bind_eq_some_iff] at h
  obtain ⟨fields, -, text, -, next, -, impact, himpact, hc⟩ := h
  cases hc
  intro e he
  rcases of_defaulted himpact with rfl | ⟨j', hj'⟩
  · cases he
  · exact exists_of_mem_asTable? hj' he

theorem Node.given_of_ofJson? {above : Nat} {j : Json} {n : Node}
    (h : ofJson? above j = some n) : n.Given := by
  -- a list that is left out is empty, and all others were read element by element
  have elements {α : Type} {read : Json → Option α} {fields : List (String × Json)}
      {name : String} {as : List α} {a : α}
      (h : defaulted fields name (asList? read) [] = some as) (ha : a ∈ as) :
      ∃ j, read j = some a := by
    rcases of_defaulted h with rfl | ⟨j, hj⟩
    · cases ha
    · exact exists_of_mem_asList? hj ha
  unfold ofJson? at h
  simp only [Option.bind_eq_bind, Option.bind_eq_some_iff] at h
  obtain ⟨fields, -, id, -, kind, -, sender, -, content, -, delay, hdelay, actions, hactions,
    conditions, hconditions, next, -, nextPart, -, choices, hchoices, typingCycles, -, hn⟩ := h
  cases hn
  constructor
  · rintro x rfl
    rcases of_defaulted hdelay with hnone | ⟨j', hj'⟩
    · cases hnone
    · exact of_asOption? hj'
  · intro a ha
    obtain ⟨j', hj'⟩ := elements hactions ha
    exact Action.given_of_ofJson? hj'
  · intro c hc
    obtain ⟨j', hj'⟩ := elements hconditions hc
    exact Condition.given_of_ofJson? hj'
  · intro c hc
    obtain ⟨j', hj'⟩ := elements hchoices hc
    exact Choice.given_of_ofJson? hj'

/-- Whether what an action writes is not no-number. -/
def Action.Proper : Action → Prop
  | .set _ value => value.Proper
  | .setOnline _ | .setBlocked _ | .unknown => True

/-- Whether a node neither writes nor adds no-number. -/
structure Node.Proper (n : Node) : Prop where
  actions : ∀ a ∈ n.actions, a.Proper
  choices : ∀ c ∈ n.choices, c.impact.Proper

theorem Action.Given.proper {a : Action} (h : a.Given) : a.Proper := by
  cases a with
  | set name value => exact Value.Given.proper h
  | setOnline | setBlocked | unknown => trivial

theorem Node.Given.proper {n : Node} (h : n.Given) : n.Proper where
  actions a ha := (h.actions a ha).proper
  choices c hc e he := (h.choices c hc e he).elim fun _ => isNaN_of_asFloat?

theorem Document.Given.proper {d : Document} (h : d.Given) : ∀ n ∈ d.nodes, n.Proper := by
  intro n hn
  obtain ⟨j, hj⟩ := h.exists_of_mem hn
  exact (Node.given_of_ofJson? hj).proper

/-! ## Records -/

/-- Whatever stands in a slot, the values of a record that is read from it are proper. -/
theorem Progress.values_proper {text : String} {p : Progress} (h : parse text = .ok p) :
    ∀ e ∈ p.vars.entries, e.2.Proper := by
  intro e he
  obtain ⟨j, hj⟩ := exists_of_parse h
  obtain ⟨fields, -, hread⟩ := ofJson?_eq_some_iff.1 hj
  rcases of_defaulted hread.vars with hempty | ⟨j', hj'⟩
  · rw [hempty] at he
    cases he
  · obtain ⟨j'', hj''⟩ := exists_of_mem_asTable? hj' he
    exact Value.proper_of_ofJson? hj''

end StoryChat
