/-
What is kept of a conversation is found again.

A record is written as a document with all fields, in order (`Progress.render`),
and read field by field (`Progress.parse`). So reading it back comes down to
reading back each value. For most fields that is immediate. The values of variables
and the messages hold numbers and points in time, whose texts are read by rules of
their own; what is read of them is left open here, and the position is found again
whatever it is.
-/
import StoryChat.Narrative.Basic
import StoryChat.Proofs.Decimal.WellFormed
import StoryChat.Proofs.Json.RoundTrip

set_option autoImplicit false

namespace StoryChat

namespace Json

/-! ## Documents made from values -/

variable {α : Type}

theorem written_nat (n : Nat) : (nat n).Written := Decimal.wellFormed_digits n

theorem written_float (x : Float) : (float x).Written := by
  unfold float
  split
  · next hn => exact Decimal.wellFormed_documentNumeral? hn
  · trivial

theorem written_option {f : α → Json} (hf : ∀ a, (f a).Written) (a : Option α) :
    (option f a).Written := by
  cases a with
  | none => trivial
  | some a => exact hf a

theorem written_array {f : α → Json} (hf : ∀ a, (f a).Written) (as : List α) :
    (array (as.map f)).Written := by
  have h : Written.writtenItems (as.map f) := by
    induction as with
    | nil => trivial
    | cons a as ih => exact ⟨hf a, ih⟩
  exact h

theorem written_record {fields : List (String × Json)} (h : ∀ f ∈ fields, f.2.Written) :
    (record fields).Written := by
  unfold record Written
  induction fields with
  | nil => trivial
  | cons f fields ih =>
    obtain ⟨hf, hrest⟩ := List.forall_mem_cons.1 h
    exact ⟨rfl, hf, ih hrest⟩

theorem written_table {f : α → Json} (hf : ∀ a, (f a).Written) (t : Table α) :
    (table f t).Written := by
  refine written_record fun e he => ?_
  obtain ⟨e', -, rfl⟩ := List.mem_map.1 he
  exact hf e'.2

/-! ## Reading back what was written -/

/-- Where every element is read, the list is. -/
theorem mapM_map_eq_some {β γ : Type} {f : α → β} {read : β → Option γ} {g : α → γ}
    {as : List α} (h : ∀ a ∈ as, read (f a) = some (g a)) :
    (as.map f).mapM read = some (as.map g) := by
  induction as with
  | nil => rfl
  | cons a as ih =>
    obtain ⟨ha, hrest⟩ := List.forall_mem_cons.1 h
    rw [List.map_cons, List.mapM_cons, ha, ih hrest]
    rfl

@[simp] theorem asFields?_record (fields : List (String × Json)) :
    (record fields).asFields? = some fields := by
  have h : (fields.map fun f => (some f.1, f.2)).mapM
      (fun f : Option String × Json => f.1.map (·, f.2)) = some (fields.map id) :=
    mapM_map_eq_some fun _ _ => rfl
  rw [List.map_id] at h
  exact h

/-- Of an object the known fields are read, if none of them stands twice. -/
theorem asRecord?_record_eq_some_iff {fields known : List (String × Json)} {names : List String} :
    (record fields).asRecord? names = some known ↔
      (∀ name ∈ names, occursOnce fields name = true) ∧
        fields.filter (fun e => names.contains e.1) = known := by
  have hrecord : (record fields).asRecord? names =
      if names.all (occursOnce fields) then some (fields.filter fun e => names.contains e.1)
      else none := by
    rw [record, asRecord?, ← record, asFields?_record]
    · rfl
    · exact nofun
  rw [hrecord, ← List.all_eq_true]
  split
  · next h => rw [and_iff_right h, Option.some_inj]
  · next h => exact ⟨nofun, fun ⟨hall, _⟩ => absurd hall h⟩

/-- A record with all its fields in order is read as it is. -/
theorem asRecord?_record {fields : List (String × Json)} {names : List String}
    (h : fields.map Prod.fst = names) (hn : names.Nodup) :
    (record fields).asRecord? names = some fields := by
  refine asRecord?_record_eq_some_iff.2 ⟨fun name _ => decide_eq_true ?_, ?_⟩
  · have hcount := List.nodup_iff_count.1 hn name
    rwa [← h, List.count_eq_countP, List.countP_map] at hcount
  · refine List.filter_eq_self.2 fun f hf => ?_
    rw [List.contains_iff_mem, ← h]
    exact List.mem_map_of_mem hf

/-- A field that is there is read. -/
theorem required_of_lookup {α : Type} {read : Json → Option α} {fields : List (String × Json)}
    {name : String} {j : Json} (h : fields.lookup name = some j) :
    required fields name read = read j := by
  rw [required, h, Option.bind_some]

theorem defaulted_of_lookup {α : Type} {read : Json → Option α} {default : α}
    {fields : List (String × Json)} {name : String} {j : Json} (h : fields.lookup name = some j) :
    defaulted fields name read default = read j := by
  rw [defaulted, h]

theorem asCount?_nat (n : Nat) : asCount? (nat n) = if n ≤ countLimit then some n else none := by
  have hvalue : (⟨false, Decimal.digits n, [], none⟩ : Decimal.Numeral).toNat? = some n := by
    rw [Decimal.Numeral.toNat?, if_pos ⟨rfl, rfl, rfl⟩, Decimal.value_digits]
  simp only [nat, asCount?, hvalue, Option.filter_some, decide_eq_true_eq]

@[simp] theorem asOption?_option_str (s : Option String) :
    asOption? asText? (option str s) = some s := by
  cases s <;> rfl

end Json

open Json

/-! ## Records -/

theorem Value.written_toJson (v : Value) : v.toJson.Written := by
  cases v with
  | bool b => trivial
  | number x => exact written_float x
  | text s => rfl

theorem Message.written_toJson (m : Message) : m.toJson.Written := by
  refine written_record fun f hf => ?_
  simp only [List.mem_cons, List.not_mem_nil, or_false] at hf
  rcases hf with rfl | rfl | rfl | rfl | rfl | rfl
  · rfl
  · rfl
  · rfl
  · rfl
  · rfl
  · trivial

namespace Progress

/-- The fields of a record and their values in a document. -/
def fields (p : Progress) : List (String × Json) :=
  [("version", nat p.version), ("variables", table Value.toJson p.vars),
    ("chatHistory", .array (p.messages.map Message.toJson)),
    ("currentNodeId", option str p.currentNode), ("gameStarted", .bool p.started),
    ("currentView", str p.view), ("currentChapter", nat p.chapter), ("currentPart", nat p.part),
    ("npcConnected", .bool p.online), ("blocked", .bool p.blocked),
    ("partIntroPending", .bool p.introPending), ("activeScript", option str p.activeScript)]

theorem written_toJson (p : Progress) : p.toJson.Written := by
  have hstr (s : String) : (str s).Written := rfl
  refine written_record fun f hf => ?_
  simp only [List.mem_cons, List.not_mem_nil, or_false] at hf
  rcases hf with rfl | rfl | rfl | rfl | rfl | rfl | rfl | rfl | rfl | rfl | rfl | rfl
  · exact written_nat _
  · exact written_table Value.written_toJson _
  · exact written_array Message.written_toJson _
  · exact written_option hstr _
  · trivial
  · rfl
  · exact written_nat _
  · exact written_nat _
  · trivial
  · trivial
  · trivial
  · exact written_option hstr _

/-- A record is found again up to its numbers, its variables and its messages. -/
theorem ofJson?_toJson (p : Progress) : ofJson? p.toJson = (do
    let version ← asCount? (nat p.version)
    let vars ← asTable? Value.ofJson? (table Value.toJson p.vars)
    let messages ← asList? Message.ofJson? (.array (p.messages.map Message.toJson))
    let chapter ← asCount? (nat p.chapter)
    let part ← asCount? (nat p.part)
    return { p with version, vars, messages, chapter, part }) := by
  have hfields : p.toJson.asRecord? fieldNames = some p.fields :=
    asRecord?_record (by rfl) (by decide)
  have hfield {α : Type} {read : Json → Option α} {default : α} (name : String) (j : Json)
      (h : p.fields.lookup name = some j) : defaulted p.fields name read default = read j :=
    defaulted_of_lookup h
  rw [ofJson?, hfields, Option.bind_eq_bind, Option.bind_some,
    hfield "version" _ rfl, hfield "variables" _ rfl, hfield "chatHistory" _ rfl,
    hfield "currentNodeId" _ rfl, hfield "gameStarted" _ rfl, hfield "currentView" _ rfl,
    hfield "currentChapter" _ rfl, hfield "currentPart" _ rfl, hfield "npcConnected" _ rfl,
    hfield "blocked" _ rfl, hfield "partIntroPending" _ rfl, hfield "activeScript" _ rfl]
  simp only [asOption?_option_str, asBool?, asText?, str, Option.bind_eq_bind, Option.bind_some]

theorem parse_render_eq (p : Progress) : parse p.render = match ofJson? p.toJson with
    | none => .error .malformed
    | some p => if recordVersion < p.version then .error (.unsupportedVersion p.version)
      else .ok p := by
  have h : (Json.parse? p.render).bind ofJson? = ofJson? p.toJson := by
    rw [render, parse?_render p.written_toJson, Option.bind_some]
  exact congrArg (fun read : Option Progress => match read with
    | none => Except.error SaveFault.malformed
    | some p => if recordVersion < p.version then .error (.unsupportedVersion p.version)
      else .ok p) h

/-- A record that can be read back is read from the document that it is. -/
theorem ofJson?_of_parse_render {p p' : Progress} (h : parse p.render = .ok p') :
    ofJson? p.toJson = some p' := by
  rw [parse_render_eq] at h
  cases hj : ofJson? p.toJson with
  | none => rw [hj] at h; cases h
  | some q =>
    rw [hj] at h
    dsimp only at h
    split at h
    · cases h
    · exact congrArg some (Except.ok.inj h)

/-- Whatever its variables and messages are read as, a record that can be read back has
all else as it was written. -/
theorem eq_of_parse_render {p p' : Progress} (h : parse p.render = .ok p') :
    { p' with vars := p.vars, messages := p.messages } = p := by
  have hj := ofJson?_of_parse_render h
  have count {n n' : Nat} (hn : asCount? (nat n) = some n') : n' = n := by
    rw [asCount?_nat] at hn
    split at hn
    · exact (Option.some.inj hn).symm
    · cases hn
  rw [ofJson?_toJson] at hj
  simp only [Option.bind_eq_bind, Option.bind_eq_some_iff] at hj
  obtain ⟨version, hversion, vars, -, messages, -, chapter, hchapter, part, hpart, hq⟩ := hj
  cases hq
  rw [count hversion, count hchapter, count hpart]

end Progress

end StoryChat
