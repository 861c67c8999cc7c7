/-
What was read can be written and read again.

A sender is kept as its name and a count as its digits, and neither has a document for
everything that the type allows: a participant may not have a name of another sort of
sender, and a count has a limit. What comes out of a document keeps to both
(`Regular`), be it a script or a record, and so does all that a story makes of it. Of
such a record all is found again but its numbers and its points in time, of which it
must be asked (`Readable`).
-/
import StoryChat.Proofs.Narrative.Record
import Mathlib.Data.List.Forall2

set_option autoImplicit false

namespace StoryChat

open Json

/-! ## Documents -/

namespace Json

variable {α : Type}

/-- The elements of a list that was read were read one by one. -/
theorem forall₂_of_mapM {β : Type} {f : α → Option β} {as : List α} {bs : List β}
    (h : as.mapM f = some bs) : List.Forall₂ (fun a b => f a = some b) as bs := by
  induction as generalizing bs with
  | nil =>
    cases h
    exact .nil
  | cons a as ih =>
    rw [List.mapM_cons] at h
    simp only [Option.bind_eq_bind, Option.bind_eq_some_iff] at h
    obtain ⟨b, ha, bs, hbs, h⟩ := h
    cases h
    exact .cons ha (ih hbs)

/-- Of two lists that are related element by element, an element of one has its like at the same
place of the other. -/
theorem getElem?_of_forall₂ {β : Type} {R : α → β → Prop} {as : List α} {bs : List β} {i : Nat}
    {b : β} (h : List.Forall₂ R as bs) (hb : bs[i]? = some b) : ∃ a, as[i]? = some a ∧ R a b := by
  induction h generalizing i with
  | nil => cases hb
  | cons hfirst _ ih =>
    cases i with
    | zero =>
      cases hb
      exact ⟨_, rfl, hfirst⟩
    | succ i => exact ih hb

/-- Every element of a list that was read was read from one of the document. -/
theorem exists_of_mem_mapM {β : Type} {f : α → Option β} {as : List α} {bs : List β} {b : β}
    (h : as.mapM f = some bs) (hb : b ∈ bs) : ∃ a ∈ as, f a = some b := by
  obtain ⟨i, hi⟩ := List.getElem?_of_mem hb
  obtain ⟨a, ha, hf⟩ := getElem?_of_forall₂ (forall₂_of_mapM h) hi
  exact ⟨a, List.mem_of_getElem? ha, hf⟩

theorem exists_of_mem_asList? {read : Json → Option α} {j : Json} {as : List α} {a : α}
    (h : asList? read j = some as) (ha : a ∈ as) : ∃ j', read j' = some a := by
  cases j with
  | array items =>
    obtain ⟨j', -, hj⟩ := exists_of_mem_mapM h ha
    exact ⟨j', hj⟩
  | _ => cases h

/-- What is read of a field is read of a document. -/
theorem exists_of_required {fields : List (String × Json)} {name : String}
    {read : Json → Option α} {a : α} (h : required fields name read = some a) :
    ∃ j, read j = some a := by
  obtain ⟨j, -, hj⟩ := Option.bind_eq_some_iff.1 h
  exact ⟨j, hj⟩

/-- What is read of a field is read of a document, unless it is the default. -/
theorem of_defaulted {fields : List (String × Json)} {name : String}
    {read : Json → Option α} {default a : α} (h : defaulted fields name read default = some a) :
    a = default ∨ ∃ j, read j = some a := by
  unfold defaulted at h
  split at h
  · exact .inl (Option.some.inj h).symm
  · next j _ => exact .inr ⟨j, h⟩

theorem of_asOption? {read : Json → Option α} {j : Json} {a : α}
    (h : asOption? read j = some (some a)) : ∃ j, read j = some a := by
  unfold asOption? at h
  split at h
  · cases h
  · obtain ⟨b, hb, hba⟩ := Option.map_eq_some_iff.1 h
    cases hba
    exact ⟨_, hb⟩

theorem le_countLimit_of_asCount? {j : Json} {n : Nat} (h : asCount? j = some n) :
    n ≤ countLimit := by
  unfold asCount? at h
  split at h
  · simpa using (Option.filter_eq_some_iff.1 h).2
  · cases h

/-- A table whose values are read back is read back. -/
theorem asTable?_table {write : α → Json} {read : Json → Option α} {t : Table α}
    (h : ∀ e ∈ t.entries, read (write e.2) = some e.2) :
    asTable? read (table write t) = some t := by
  have hread : (t.entries.map fun e => (e.1, write e.2)).mapM
      (fun f : String × Json => (read f.2).map (f.1, ·)) = some (t.entries.map id) := by
    refine mapM_map_eq_some fun e he => ?_
    rw [h e he]
    rfl
  rw [List.map_id] at hread
  simp only [asTable?, table, asFields?_record, Option.bind_eq_bind, Option.bind_some]
  rw [hread, Option.bind_some, Table.ofList_entries, Option.pure_def]

end Json

/-! ## Scripts -/

/-- Whether a sender is the one with its name. -/
def Sender.Regular (s : Sender) : Prop := ofName s.name = s

theorem Sender.regular_of_ofJson? {j : Json} {s : Sender} (h : ofJson? j = some s) :
    s.Regular := by
  obtain ⟨name, -, rfl⟩ := Option.map_eq_some_iff.1 h
  rw [Regular, name_ofName]

/-- Whether a node can have been read: it says so of its sender and of the next part. -/
structure Node.Regular (n : Node) : Prop where
  sender : n.sender.Regular
  nextPart : ∀ part, n.nextPart = some part → part ≤ countLimit

theorem Node.regular_of_ofJson? {above : Nat} {j : Json} {n : Node}
    (h : ofJson? above j = some n) : n.Regular := by
  unfold ofJson? at h
  simp only [Option.bind_eq_bind, Option.bind_eq_some_iff] at h
  obtain ⟨fields, -, id, -, kind, -, sender, hsender, content, -, delay, -, actions, -, conditions,
    -, next, -, nextPart, hpart, choices, -, typingCycles, -, hn⟩ := h
  cases hn
  constructor
  · rcases of_defaulted hsender with rfl | ⟨j, hj⟩
    · rfl
    · exact Sender.regular_of_ofJson? hj
  · rintro part rfl
    rcases of_defaulted hpart with hnone | ⟨j, hj⟩
    · cases hnone
    · obtain ⟨j', hj'⟩ := of_asOption? hj
      exact le_countLimit_of_asCount? hj'

/-- Whether a script was read from a document. -/
def Document.Given (d : Document) : Prop := ∃ j, ofJson? j = some d

/-- Every node of such a script was read from a document too. -/
theorem Document.Given.exists_of_mem {d : Document} {n : Node} (h : d.Given) (hn : n ∈ d.nodes) :
    ∃ j, Node.ofJson? 2 j = some n := by
  obtain ⟨j, h⟩ := h
  unfold ofJson? at h
  simp only [Option.bind_eq_bind, Option.bind_eq_some_iff] at h
  obtain ⟨fields, -, title, -, nodes, hnodes, hd⟩ := h
  cases hd
  obtain ⟨j', hj'⟩ := exists_of_required hnodes
  exact exists_of_mem_asList? hj' hn

theorem Document.Given.regular {d : Document} (h : d.Given) : ∀ n ∈ d.nodes, n.Regular := by
  intro n hn
  obtain ⟨j, hj⟩ := h.exists_of_mem hn
  exact Node.regular_of_ofJson? hj

/-! ## Records -/

theorem Message.regular_of_ofJson? {j : Json} {m : Message} (h : ofJson? j = some m) :
    m.sender.Regular := by
  unfold ofJson? at h
  simp only [Option.bind_eq_bind, Option.bind_eq_some_iff] at h
  obtain ⟨fields, -, id, -, sender, hsender, medium, -, content, -, sentAt, -, read, -, hm⟩ := h
  cases hm
  obtain ⟨j', hj'⟩ := exists_of_required hsender
  exact Sender.regular_of_ofJson? hj'

/-- A message is read back if its point in time is, and from the sender that its name means. -/
theorem Message.ofJson?_toJson_eq (m : Message) :
    ofJson? m.toJson = (Timestamp.ofText? m.sentAt.text).map fun sentAt =>
      { m with sender := .ofName m.sender.name, sentAt } := by
  obtain ⟨fields, hf⟩ : ∃ fields, fields = [("id", str m.id), ("sender", str m.sender.name),
      ("type", str m.medium.name), ("content", str m.content),
      ("timestamp", str m.sentAt.text), ("read", Json.bool m.read)] := ⟨_, rfl⟩
  have hfields : m.toJson.asRecord? ["id", "sender", "type", "content", "timestamp", "read"] =
      some fields := by
    rw [hf]
    exact asRecord?_record rfl (by decide)
  have hid : required fields "id" asText? = some m.id :=
    required_of_lookup (j := str m.id) (by rw [hf]; rfl)
  have hsender : required fields "sender" Sender.ofJson? = some (.ofName m.sender.name) :=
    required_of_lookup (j := str m.sender.name) (by rw [hf]; rfl)
  have hmedium : defaulted fields "type" (fun j => j.asName?.bind Medium.ofName?) .text =
      some m.medium := by
    rw [defaulted_of_lookup (j := str m.medium.name) (by rw [hf]; rfl)]
    exact Medium.ofName?_name _
  have hcontent : required fields "content" asText? = some m.content :=
    required_of_lookup (j := str m.content) (by rw [hf]; rfl)
  have hmoment : required fields "timestamp" (fun j => j.asText?.bind Timestamp.ofText?) =
      Timestamp.ofText? m.sentAt.text := by
    rw [required_of_lookup (j := str m.sentAt.text) (by rw [hf]; rfl)]
    exact Option.bind_some _ _
  have hread : defaulted fields "read" asBool? false = some m.read :=
    defaulted_of_lookup (j := .bool m.read) (by rw [hf]; rfl)
  rw [ofJson?, hfields]
  simp only [Option.bind_eq_bind, Option.bind_some, hid, hsender, hmedium, hcontent, hmoment,
    hread, Option.pure_def, Option.map_eq_bind, Function.comp_def]

/-- A message of a regular sender is read back as it was. -/
theorem Message.ofJson?_toJson {m : Message} (hs : m.sender.Regular)
    (ht : Timestamp.ofText? m.sentAt.text = some m.sentAt) : ofJson? m.toJson = some m := by
  rw [ofJson?_toJson_eq, ht, Option.map_some, show Sender.ofName m.sender.name = m.sender from hs]

namespace Progress

/-- Whether a record can have been read, as far as senders and counts go. -/
structure Regular (p : Progress) : Prop where
  senders : ∀ m ∈ p.messages, m.sender.Regular
  chapter : p.chapter ≤ countLimit
  part : p.part ≤ countLimit

/-- Whether the values and the points in time of a record are read back as they are
written. -/
structure Readable (p : Progress) : Prop where
  values : ∀ e ∈ p.vars.entries, Value.ofJson? e.2.toJson = some e.2
  moments : ∀ m ∈ p.messages, Timestamp.ofText? m.sentAt.text = some m.sentAt

/-- Whether a record was read from the fields of a document. -/
structure ReadFrom (p : Progress) (fields : List (String × Json)) : Prop where
  version : defaulted fields "version" asCount? recordVersion = some p.version
  vars : defaulted fields "variables" (asTable? Value.ofJson?) .empty = some p.vars
  messages : defaulted fields "chatHistory" (asList? Message.ofJson?) [] = some p.messages
  currentNode : defaulted fields "currentNodeId" (asOption? asText?) none = some p.currentNode
  started : defaulted fields "gameStarted" asBool? false = some p.started
  view : defaulted fields "currentView" asText? firstView = some p.view
  chapter : defaulted fields "currentChapter" asCount? 1 = some p.chapter
  part : defaulted fields "currentPart" asCount? 1 = some p.part
  online : defaulted fields "npcConnected" asBool? true = some p.online
  blocked : defaulted fields "blocked" asBool? false = some p.blocked
  introPending : defaulted fields "partIntroPending" asBool? false = some p.introPending
  activeScript : defaulted fields "activeScript" (asOption? asText?) none = some p.activeScript

/-- What a document states is what all of its fields state. -/
theorem ofJson?_eq_some_iff {j : Json} {p : Progress} :
    ofJson? j = some p ↔ ∃ fields, j.asRecord? fieldNames = some fields ∧ p.ReadFrom fields := by
  constructor
  · intro h
    unfold ofJson? at h
    obtain ⟨fields, hfields, h⟩ := Option.bind_eq_some_iff.1 h
    obtain ⟨version, hversion, h⟩ := Option.bind_eq_some_iff.1 h
    obtain ⟨vars, hvars, h⟩ := Option.bind_eq_some_iff.1 h
    obtain ⟨messages, hmessages, h⟩ := Option.bind_eq_some_iff.1 h
    obtain ⟨currentNode, hcurrentNode, h⟩ := Option.bind_eq_some_iff.1 h
    obtain ⟨started, hstarted, h⟩ := Option.bind_eq_some_iff.1 h
    obtain ⟨view, hview, h⟩ := Option.bind_eq_some_iff.1 h
    obtain ⟨chapter, hchapter, h⟩ := Option.bind_eq_some_iff.1 h
    obtain ⟨part, hpart, h⟩ := Option.bind_eq_some_iff.1 h
    obtain ⟨online, honline, h⟩ := Option.bind_eq_some_iff.1 h
    obtain ⟨blocked, hblocked, h⟩ := Option.bind_eq_some_iff.1 h
    obtain ⟨introPending, hintroPending, h⟩ := Option.bind_eq_some_iff.1 h
    obtain ⟨activeScript, hactiveScript, h⟩ := Option.bind_eq_some_iff.1 h
    cases h
    exact ⟨fields, hfields, hversion, hvars, hmessages, hcurrentNode, hstarted, hview, hchapter,
      hpart, honline, hblocked, hintroPending, hactiveScript⟩
  · rintro ⟨fields, hfields, h⟩
    rw [ofJson?, hfields, Option.bind_eq_bind, Option.bind_some, h.version, h.vars, h.messages,
      h.currentNode, h.started, h.view, h.chapter, h.part, h.online, h.blocked, h.introPending,
      h.activeScript]
    rfl

/-- A text is accepted if it states a record of no newer version. -/
theorem parse_eq_ok_iff {text : String} {p : Progress} : parse text = .ok p ↔
    (Json.parse? text).bind ofJson? = some p ∧ p.version ≤ recordVersion := by
  unfold parse
  cases (Json.parse? text).bind ofJson? with
  | none => exact ⟨nofun, nofun⟩
  | some q =>
    dsimp only
    split
    · next hnew =>
      refine ⟨nofun, fun ⟨hq, hold⟩ => ?_⟩
      cases hq
      exact absurd hold (Nat.not_le.2 hnew)
    · next hold =>
      refine ⟨fun hq => ?_, fun ⟨hq, _⟩ => ?_⟩
      · cases hq
        exact ⟨rfl, Nat.not_lt.1 hold⟩
      · cases hq
        rfl

/-- A record that a text states was read from a document. -/
theorem exists_of_parse {text : String} {p : Progress} (h : parse text = .ok p) :
    ∃ j, ofJson? j = some p := by
  obtain ⟨j, -, hj⟩ := Option.bind_eq_some_iff.1 (parse_eq_ok_iff.1 h).1
  exact ⟨j, hj⟩

/-- A record that was read is regular. -/
theorem regular_of_parse {text : String} {p : Progress} (h : parse text = .ok p) :
    p.Regular := by
  obtain ⟨j, hj⟩ := exists_of_parse h
  obtain ⟨fields, -, hread⟩ := ofJson?_eq_some_iff.1 hj
  have count {n : Nat} (hn : n = 1 ∨ ∃ j, asCount? j = some n) : n ≤ countLimit := by
    rcases hn with rfl | ⟨j, hj⟩
    · decide
    · exact le_countLimit_of_asCount? hj
  refine ⟨fun m hm => ?_, count (of_defaulted hread.chapter),
    count (of_defaulted hread.part)⟩
  rcases of_defaulted hread.messages with hnil | ⟨j', hj'⟩
  · rw [hnil] at hm
    cases hm
  · obtain ⟨j'', hj''⟩ := exists_of_mem_asList? hj' hm
    exact Message.regular_of_ofJson? hj''

/-- A record is never the empty text. -/
theorem render_ne_empty (p : Progress) : p.render ≠ "" := by
  intro h
  have hchars := congrArg String.toList h
  rw [render, Json.render, String.toList_ofList] at hchars
  cases hchars

/-- Of a regular record whose points in time are read back only the values are open. -/
theorem parse_render_of_regular {p : Progress} (h : p.Regular)
    (ht : ∀ m ∈ p.messages, Timestamp.ofText? m.sentAt.text = some m.sentAt)
    (hv : p.version = recordVersion) :
    parse p.render = match asTable? Value.ofJson? (table Value.toJson p.vars) with
      | none => .error .malformed
      | some vars => .ok { p with vars } := by
  have hmessages : asList? Message.ofJson? (.array (p.messages.map Message.toJson)) =
      some p.messages := by
    have hm : (p.messages.map Message.toJson).mapM Message.ofJson? =
        some (p.messages.map id) :=
      mapM_map_eq_some fun m hm => Message.ofJson?_toJson (h.senders m hm) (ht m hm)
    rwa [List.map_id] at hm
  have hversion : asCount? (nat p.version) = some p.version := by
    rw [asCount?_nat, hv]
    rfl
  rw [parse_render_eq, ofJson?_toJson, hmessages, hversion, asCount?_nat, if_pos h.chapter,
    asCount?_nat, if_pos h.part]
  cases asTable? Value.ofJson? (table Value.toJson p.vars) with
  | none => rfl
  | some vars =>
    simp only [Option.bind_eq_bind, Option.bind_some, Option.pure_def]
    rw [hv, if_neg (Nat.lt_irrefl _)]

/-- A regular record whose values and points in time are read back is read back. -/
theorem parse_render {p : Progress} (h : p.Regular) (hr : p.Readable)
    (hv : p.version = recordVersion) : parse p.render = .ok p := by
  rw [parse_render_of_regular h hr.moments hv, asTable?_table hr.values]

end Progress

end StoryChat
