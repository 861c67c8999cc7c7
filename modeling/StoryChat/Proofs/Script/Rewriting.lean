/-
A script that was read is written in full and read again.

Reading a script (`Document.parse?`) fills in what its author left out and gives a name to what
nobody knows, so the text that is written (`Document.render`) is not the text that was read. It
is a text of the same script, though: every field that is written is read back as it stands.
What is needed for that is known of anything that was read. No participant goes by the name of
another sort of sender, counts are within their limit, an action is small enough to be kept, and
all numbers are finite. Only that the digits of a number lead back to it depends on the number.
-/
import StoryChat.Proofs.Narrative.Stated
import StoryChat.Proofs.Story.Typed

set_option autoImplicit false

namespace StoryChat

open Json

/-! ## Numbers in scripts -/

/-- The numbers in a node. -/
inductive Node.States (n : Node) : Float → Prop where
  | delay {x : Float} : n.delay = some x → n.States x
  | action {name : String} {x : Float} : .set name (.number x) ∈ n.actions → n.States x
  | condition {c : Condition} {x : Float} : c ∈ n.conditions → c.value = .number x → n.States x
  | impact {c : Choice} {e : String × Float} : c ∈ n.choices → e ∈ c.impact.entries → n.States e.2

/-- The numbers in a script. -/
def Document.States (d : Document) (x : Float) : Prop := ∃ n ∈ d.nodes, n.States x

theorem Value.Given.isFinite {x : Float} (h : (Value.number x).Given) :
    Decimal.isFinite x = true :=
  h.elim fun _ => isFinite_of_ofJson?

theorem Node.Given.isFinite {n : Node} (h : n.Given) {x : Float} (hx : n.States x) :
    Decimal.isFinite x = true := by
  cases hx with
  | delay hd => exact (h.delay x hd).elim fun _ => isFinite_of_asFloat?
  | action ha => exact Value.Given.isFinite (h.actions _ ha)
  | condition hc hv =>
    have hgiven := h.conditions _ hc
    rw [hv] at hgiven
    exact hgiven.isFinite
  | impact hc he => exact (h.choices _ hc _ he).elim fun _ => isFinite_of_asFloat?

/-- Every number in a script that was read is finite. -/
theorem Document.Given.isFinite {d : Document} (h : d.Given) {x : Float} (hx : d.States x) :
    Decimal.isFinite x = true := by
  obtain ⟨n, hn, hx⟩ := hx
  obtain ⟨j, hj⟩ := h.exists_of_mem hn
  exact (Node.given_of_ofJson? hj).isFinite hx

/-! ## Values -/

/-- A number that is read back has a numeral. -/
theorem ReadBack.exists_numeral {x : Float} (h : ReadBack x) :
    ∃ n, float x = .number n ∧ n.toFloat? = some x := by
  have h : Value.ofJson? (float x) = some (.number x) := h
  unfold float at h ⊢
  cases hn : Decimal.documentNumeral? x with
  | none =>
    rw [hn] at h
    cases h
  | some n =>
    rw [hn] at h
    obtain ⟨y, hy, hx⟩ := Option.map_eq_some_iff.1 h
    cases hx
    exact ⟨n, rfl, hy⟩

theorem asFloat?_float {x : Float} (h : ReadBack x) : asFloat? (float x) = some x := by
  obtain ⟨n, hn, hx⟩ := h.exists_numeral
  rw [hn]
  exact hx

theorem asOption?_option_float {a : Option Float} (h : ∀ x, a = some x → ReadBack x) :
    asOption? asFloat? (option float a) = some a := by
  cases a with
  | none => rfl
  | some x =>
    obtain ⟨n, hn, hx⟩ := (h x rfl).exists_numeral
    rw [option, hn]
    exact congrArg (Option.map some) hx

theorem asOption?_option_nat {a : Option Nat} (h : ∀ n, a = some n → n ≤ countLimit) :
    asOption? asCount? (option nat a) = some a := by
  cases a with
  | none => rfl
  | some n =>
    have hn : asCount? (nat n) = some n := by rw [asCount?_nat, if_pos (h n rfl)]
    exact congrArg (Option.map some) hn

theorem asList?_array {α : Type} {write : α → Json} {read : Json → Option α} {as : List α}
    (h : ∀ a ∈ as, read (write a) = some a) : asList? read (.array (as.map write)) = some as := by
  have hread := mapM_map_eq_some h (g := id)
  rwa [List.map_id] at hread

theorem Sender.ofJson?_name {s : Sender} (h : s.Regular) : ofJson? (str s.name) = some s :=
  congrArg some h

namespace Value

variable {value : Value}

theorem ofJson?_toJson (h : ∀ x, value = .number x → ReadBack x) :
    ofJson? value.toJson = some value := by
  cases value with
  | bool b => rfl
  | number x => exact h x rfl
  | text s => rfl

theorem height_toJson (value : Value) : value.toJson.height = 0 := by
  cases value with
  | bool b => rfl
  | number x =>
    change (float x).height = 0
    unfold float
    split <;> rfl
  | text s => rfl

theorem readable_toJson (h : ∀ x, value = .number x → ReadBack x) :
    value.toJson.readable = true := by
  cases value with
  | bool b => rfl
  | number x =>
    obtain ⟨n, hn, hx⟩ := (h x rfl).exists_numeral
    change (float x).readable = true
    rw [hn]
    exact Option.isSome_of_eq_some hx
  | text s => rfl

end Value

/-! ## Actions, conditions and options -/

namespace Action

variable {a : Action} {above : Nat}

/-- An action is one container of values, all of which can be kept. -/
theorem keepable_toJson (habove : above < levelLimit)
    (h : ∀ name x, a = .set name (.number x) → ReadBack x) : a.toJson.keepable above = true := by
  have hheight : a.toJson.height = 1 := by
    cases a with
    | set name value =>
      change max 0 (max 0 (max value.toJson.height 0)) + 1 = 1
      rw [value.height_toJson]
      rfl
    | setOnline | setBlocked | unknown => rfl
  have hreadable : a.toJson.readable = true := by
    cases a with
    | set name value =>
      have hvalue : value.toJson.readable = true :=
        Value.readable_toJson fun x hx => h name x (by rw [hx])
      change (true && true && (true && true && (true && value.toJson.readable && true))) = true
      rw [hvalue]
      rfl
    | setOnline | setBlocked | unknown => rfl
  unfold keepable
  rw [hheight, hreadable, Bool.and_true]
  exact decide_eq_true habove

theorem ofJson?_toJson (habove : above < levelLimit)
    (h : ∀ name x, a = .set name (.number x) → ReadBack x) : ofJson? above a.toJson = some a := by
  unfold ofJson?
  rw [if_neg (not_not_intro (keepable_toJson habove h))]
  cases a with
  | set name value =>
    have hvalue : Value.ofJson? value.toJson = some value :=
      Value.ofJson?_toJson fun x hx => h name x (by rw [hx])
    exact congrArg (Option.bind · fun v => some (Action.set name v)) hvalue
  | setOnline | setBlocked | unknown => rfl

end Action

theorem Condition.ofJson?_toJson {c : Condition} (h : ∀ x, c.value = .number x → ReadBack x) :
    ofJson? c.toJson = some c := by
  obtain ⟨fields, hf⟩ : ∃ fields, fields = [("variable", str c.name),
      ("operator", str c.operator.name), ("value", c.value.toJson), ("nextId", str c.target)] :=
    ⟨_, rfl⟩
  have hfields : c.toJson.asRecord? ["variable", "operator", "value", "nextId"] = some fields := by
    rw [hf]
    exact asRecord?_record rfl (by decide)
  have hname : required fields "variable" asText? = some c.name :=
    required_of_lookup (j := str c.name) (by rw [hf]; rfl)
  have hoperator : required fields "operator" (fun j => j.asName?.map Operator.ofName) =
      some c.operator := by
    rw [required_of_lookup (j := str c.operator.name) (by rw [hf]; rfl)]
    exact congrArg some c.operator.ofName_name
  have hvalue : required fields "value" Value.ofJson? = some c.value := by
    rw [required_of_lookup (j := c.value.toJson) (by rw [hf]; rfl), Value.ofJson?_toJson h]
  have htarget : required fields "nextId" asText? = some c.target :=
    required_of_lookup (j := str c.target) (by rw [hf]; rfl)
  unfold ofJson?
  rw [hfields, Option.bind_eq_bind, Option.bind_some, hname, hoperator, hvalue, htarget]
  rfl

theorem Choice.ofJson?_toJson {c : Choice} (h : ∀ e ∈ c.impact.entries, ReadBack e.2) :
    ofJson? c.toJson = some c := by
  obtain ⟨fields, hf⟩ : ∃ fields, fields = [("text", str c.text), ("nextId", option str c.next),
      ("impact", table float c.impact)] := ⟨_, rfl⟩
  have hfields : c.toJson.asRecord? ["text", "nextId", "impact"] = some fields := by
    rw [hf]
    exact asRecord?_record rfl (by decide)
  have htext : required fields "text" asText? = some c.text :=
    required_of_lookup (j := str c.text) (by rw [hf]; rfl)
  have hnext : defaulted fields "nextId" (asOption? asText?) none = some c.next := by
    rw [defaulted_of_lookup (j := option str c.next) (by rw [hf]; rfl), asOption?_option_str]
  have himpact : defaulted fields "impact" (asTable? asFloat?) Table.empty = some c.impact := by
    rw [defaulted_of_lookup (j := table float c.impact) (by rw [hf]; rfl)]
    exact asTable?_table fun e he => asFloat?_float (h e he)
  unfold ofJson?
  rw [hfields, Option.bind_eq_bind, Option.bind_some, htext, hnext, himpact]
  rfl

/-! ## Nodes and scripts -/

/-- Whether a node is read back as it is written. -/
structure Node.Rewritable (n : Node) : Prop where
  regular : n.Regular
  typingCycles : ∀ cycles, n.typingCycles = some cycles → cycles ≤ countLimit
  numbers : ∀ x, n.States x → ReadBack x

namespace Node

/-- The fields of a node and their values in a document. -/
def fields (n : Node) : List (String × Json) :=
  [("id", str n.id), ("type", str n.kind.name), ("sender", str n.sender.name),
    ("content", str n.content), ("delay", option float n.delay),
    ("actions", .array (n.actions.map Action.toJson)),
    ("conditions", .array (n.conditions.map Condition.toJson)),
    ("nextId", option str n.next), ("nextPart", option nat n.nextPart),
    ("choices", .array (n.choices.map Choice.toJson)),
    ("typingCycles", option nat n.typingCycles)]

theorem ofJson?_toJson {n : Node} (h : n.Rewritable) : ofJson? 2 n.toJson = some n := by
  have hfields : n.toJson.asRecord? fieldNames = some n.fields :=
    asRecord?_record (by rfl) (by decide)
  have hfield {α : Type} {read : Json → Option α} {default a : α} (name : String) (j : Json)
      (hj : n.fields.lookup name = some j) (hread : read j = some a) :
      defaulted n.fields name read default = some a := by
    rw [defaulted_of_lookup hj, hread]
  have hid : required n.fields "id" asText? = some n.id :=
    required_of_lookup (j := str n.id) rfl
  have hactions : asList? (Action.ofJson? (2 + 2)) (.array (n.actions.map Action.toJson)) =
      some n.actions :=
    asList?_array fun a ha => Action.ofJson?_toJson (by decide) fun name x hx =>
      h.numbers x (.action (hx ▸ ha))
  have hconditions : asList? Condition.ofJson? (.array (n.conditions.map Condition.toJson)) =
      some n.conditions :=
    asList?_array fun c hc => Condition.ofJson?_toJson fun x hx => h.numbers x (.condition hc hx)
  have hchoices : asList? Choice.ofJson? (.array (n.choices.map Choice.toJson)) =
      some n.choices :=
    asList?_array fun c hc => Choice.ofJson?_toJson fun e he => h.numbers e.2 (.impact hc he)
  have hkind : (str n.kind.name).asName?.map NodeKind.ofName = some n.kind :=
    congrArg some n.kind.ofName_name
  have hcontent : (str n.content).asText? = some n.content := rfl
  -- each field is found under its name and reads back as it was
  unfold ofJson?
  rw [hfields, Option.bind_eq_bind, Option.bind_some, hid,
    hfield "type" _ rfl hkind, hfield "sender" _ rfl (Sender.ofJson?_name h.regular.sender),
    hfield "content" _ rfl hcontent,
    hfield "delay" _ rfl (asOption?_option_float fun x hx => h.numbers x (.delay hx)),
    hfield "actions" _ rfl hactions, hfield "conditions" _ rfl hconditions,
    hfield "nextId" _ rfl (asOption?_option_str n.next),
    hfield "nextPart" _ rfl (asOption?_option_nat h.regular.nextPart),
    hfield "choices" _ rfl hchoices,
    hfield "typingCycles" _ rfl (asOption?_option_nat h.typingCycles)]
  rfl

theorem typingCycles_of_ofJson? {above : Nat} {j : Json} {n : Node}
    (h : ofJson? above j = some n) (cycles : Nat) (hc : n.typingCycles = some cycles) :
    cycles ≤ countLimit := by
  unfold ofJson? at h
  simp only [Option.bind_eq_bind, Option.bind_eq_some_iff] at h
  obtain ⟨fields, -, id, -, kind, -, sender, -, content, -, delay, -, actions, -, conditions, -,
    next, -, nextPart, -, choices, -, typingCycles, hcycles, hn⟩ := h
  cases hn
  cases hc
  rcases of_defaulted hcycles with hnone | ⟨j', hj'⟩
  · cases hnone
  · obtain ⟨j'', hj''⟩ := of_asOption? hj'
    exact le_countLimit_of_asCount? hj''

end Node

/-! ### Every text that is written is well-formed -/

theorem Action.written_toJson (a : Action) : a.toJson.Written := by
  cases a with
  | set name value => exact ⟨rfl, rfl, rfl, rfl, rfl, value.written_toJson, trivial⟩
  | setOnline online => exact ⟨rfl, rfl, rfl, trivial, trivial⟩
  | setBlocked blocked => exact ⟨rfl, rfl, rfl, trivial, trivial⟩
  | unknown => exact ⟨rfl, rfl, trivial⟩

theorem Condition.written_toJson (c : Condition) : c.toJson.Written :=
  ⟨rfl, rfl, rfl, rfl, rfl, c.value.written_toJson, rfl, rfl, trivial⟩

theorem Choice.written_toJson (c : Choice) : c.toJson.Written :=
  ⟨rfl, rfl, rfl, written_option (f := str) (fun _ => rfl) _, rfl,
    written_table written_float _, trivial⟩

theorem Node.written_toJson (n : Node) : n.toJson.Written := by
  have hstr (s : String) : (str s).Written := rfl
  refine written_record fun f hf => ?_
  simp only [List.mem_cons, List.not_mem_nil, or_false] at hf
  rcases hf with rfl | rfl | rfl | rfl | rfl | rfl | rfl | rfl | rfl | rfl | rfl
  · rfl
  · rfl
  · rfl
  · rfl
  · exact written_option written_float _
  · exact written_array Action.written_toJson _
  · exact written_array Condition.written_toJson _
  · exact written_option hstr _
  · exact written_option written_nat _
  · exact written_array Choice.written_toJson _
  · exact written_option written_nat _

namespace Document

theorem written_toJson (d : Document) : d.toJson.Written :=
  ⟨rfl, written_option (f := str) (fun _ => rfl) _, rfl, written_array Node.written_toJson _,
    trivial⟩

theorem ofJson?_toJson {d : Document} (h : ∀ n ∈ d.nodes, n.Rewritable) :
    ofJson? d.toJson = some d := by
  obtain ⟨fields, hf⟩ : ∃ fields, fields = [("title", option str d.title),
      ("nodes", .array (d.nodes.map Node.toJson))] := ⟨_, rfl⟩
  have hfields : d.toJson.asRecord? ["title", "nodes"] = some fields := by
    rw [hf]
    exact asRecord?_record rfl (by decide)
  have htitle : defaulted fields "title" (asOption? asText?) none = some d.title := by
    rw [defaulted_of_lookup (j := option str d.title) (by rw [hf]; rfl), asOption?_option_str]
  have hnodes : required fields "nodes" (asList? (Node.ofJson? 2)) = some d.nodes := by
    rw [required_of_lookup (j := .array (d.nodes.map Node.toJson)) (by rw [hf]; rfl)]
    exact asList?_array fun n hn => Node.ofJson?_toJson (h n hn)
  unfold ofJson?
  rw [hfields, Option.bind_eq_bind, Option.bind_some, htitle, hnodes]
  rfl

/-- A script that was read is read back as it is written, as far as its numbers are. -/
theorem Given.rewritable {d : Document} (h : d.Given)
    (hread : ∀ x, d.States x → Decimal.isFinite x = true → ReadBack x) :
    ∀ n ∈ d.nodes, n.Rewritable := by
  intro n hn
  obtain ⟨j, hj⟩ := h.exists_of_mem hn
  refine ⟨Node.regular_of_ofJson? hj, Node.typingCycles_of_ofJson? hj, fun x hx => ?_⟩
  exact hread x ⟨n, hn, hx⟩ (h.isFinite ⟨n, hn, hx⟩)

/-- Of a text that states a script (`Document.parse?`) the same script is written
(`Document.render`), in full. -/
theorem parse?_render_of_parse? {text : String} {d : Document} (h : parse? text = some d)
    (hread : ∀ x, d.States x → Decimal.isFinite x = true → ReadBack x) :
    parse? d.render = some d := by
  obtain ⟨j, -, hj⟩ := Option.bind_eq_some_iff.1 h
  have hgiven : d.Given := ⟨j, hj⟩
  rw [parse?, render, parse?_render d.written_toJson, Option.bind_some]
  exact ofJson?_toJson (hgiven.rewritable hread)

/-! ### A script with much left out -/

/-- A script as its author may put it, with a kind of node, an action and a comparison that
nobody knows. -/
def sketch : Json :=
  record [("nodes", .array
    [record [("type", str "riddle"), ("id", str "ask"), ("delay", nat 250), ("author", .null),
      ("actions", .array [record [("variable", str "tension"), ("value", float 2.5),
        ("type", str "set")], record [("type", str "sing")]]),
      ("conditions", .array [record [("variable", str "quiz_points"), ("operator", str "~"),
        ("value", nat 1), ("nextId", str "end")]])],
    record [("id", str "answer"), ("type", str "choice"), ("sender", str "player"),
      ("choices", .array [record [("text", str "Yes"),
        ("impact", record [("valeria_affection", float (-10))])]])]])]

/-- The same script in full. -/
def filledIn : Document where
  title := none
  nodes :=
    [{ Node.message "ask" .system "" with
        kind := .other
        delay := some 250
        actions := [.set "tension" (.number 2.5), .unknown]
        conditions := [⟨"quiz_points", .unknown, .number 1, "end"⟩] },
      { Node.message "answer" .player "" with
        kind := .choice
        choices := [⟨"Yes", none, Table.empty.insert "valeria_affection" (-10)⟩] }]

theorem written_sketch : sketch.Written := by
  simp only [sketch, record, str, List.map_cons, List.map_nil, Written, Written.writtenItems,
    Written.writtenFields, written_nat, written_float, Option.isSome_some, and_self]

theorem readBack_filledIn : ∀ x, filledIn.States x → ReadBack x := by
  rintro x ⟨n, hn, hx⟩
  simp only [filledIn, List.mem_cons, List.not_mem_nil, or_false] at hn
  rcases hn with rfl | rfl
  · cases hx with
    | delay h =>
      cases h
      decide +kernel
    | action h =>
      obtain h | h := List.mem_pair.1 h
      · cases h
        decide +kernel
      · cases h
    | condition hc h =>
      cases List.mem_singleton.1 hc
      cases h
      decide +kernel
    | impact hc h => cases hc
  · cases hx with
    | delay h => cases h
    | action h => cases h
    | condition hc h => cases hc
    | impact hc h =>
      cases List.mem_singleton.1 hc
      cases List.mem_singleton.1 h
      decide +kernel

theorem parse?_render_of_parse?_sketch :
    parse? sketch.render = some filledIn ∧ parse? filledIn.render = some filledIn := by
  have hread : parse? sketch.render = some filledIn := by
    rw [parse?, Json.parse?_render written_sketch]
    decide +kernel
  exact ⟨hread, parse?_render_of_parse? hread fun x hx _ => readBack_filledIn x hx⟩

end Document

end StoryChat
