/-
Records with only some of their fields.

A field that is missing from a record has its default (`Progress.ofJson?`), and the defaults are
what the fields of a new conversation are (`Narrative.fresh`), so that a conversation restored
from some of the fields of a record is new in all the others. The defaults are written down
three times, where a record is read, where a conversation begins and where its variables are
declared, and have to be the same each time.

In which order the fields stand, and what else stands between them, makes no difference: a field
is looked up by its name, and no name that a record knows stands twice.
-/
import Mathlib.Data.Finset.Image
import StoryChat.Proofs.Narrative.Reading
import StoryChat.Proofs.Story.Restoring

set_option autoImplicit false

namespace StoryChat

namespace Json

variable {fields : List (String × Json)} {name : String} {j : Json}

/-! ## Fields of an object -/

/-- A field that stands once is found wherever it stands. -/
theorem lookup_eq_some_iff_mem (h : occursOnce fields name = true) :
    fields.lookup name = some j ↔ (name, j) ∈ fields := by
  replace h : fields.countP (·.1 == name) ≤ 1 := of_decide_eq_true h
  induction fields with
  | nil => exact ⟨nofun, nofun⟩
  | cons e fields ih =>
    obtain ⟨n, i⟩ := e
    rw [Table.lookup_cons_ite, List.mem_cons, Prod.mk.injEq]
    by_cases hn : name = n
    · subst hn
      -- the field is the only one of its name
      have hother : (name, j) ∉ fields := by
        intro hmem
        have hpos : 0 < fields.countP (·.1 == name) :=
          List.countP_pos_iff.2 ⟨(name, j), hmem, BEq.rfl⟩
        simp only [List.countP_cons, BEq.rfl, if_true] at h
        omega
      rw [if_pos rfl, Option.some_inj, eq_comm]
      simp only [true_and, hother, or_false]
    · have hcount : fields.countP (·.1 == name) ≤ 1 :=
        (List.sublist_cons_self (n, i) fields).countP_le.trans h
      rw [if_neg hn]
      exact (ih hcount).trans ⟨.inr, fun hmem => hmem.resolve_left fun he => hn he.1⟩

theorem occursOnce_filter (h : occursOnce fields name = true) (p : String × Json → Bool) :
    occursOnce (fields.filter p) name = true :=
  decide_eq_true (List.filter_sublist.countP_le.trans (of_decide_eq_true h))

end Json

open Json

namespace Progress

/-- The fields of a record. -/
inductive Field where
  | version
  | vars
  | messages
  | currentNode
  | started
  | view
  | chapter
  | part
  | online
  | blocked
  | introPending
  | activeScript
  deriving DecidableEq

/-- The name of a field in a document. -/
def Field.name : Field → String
  | .version => "version"
  | .vars => "variables"
  | .messages => "chatHistory"
  | .currentNode => "currentNodeId"
  | .started => "gameStarted"
  | .view => "currentView"
  | .chapter => "currentChapter"
  | .part => "currentPart"
  | .online => "npcConnected"
  | .blocked => "blocked"
  | .introPending => "partIntroPending"
  | .activeScript => "activeScript"

/-- The fields in order. -/
def Field.all : List Field :=
  [.version, .vars, .messages, .currentNode, .started, .view, .chapter, .part, .online, .blocked,
    .introPending, .activeScript]

theorem Field.mem_all (f : Field) : f ∈ Field.all := by cases f <;> decide

/-- What is given of some fields among the fields of a document. -/
def Field.given (S : Finset Field) (fields : List (String × Json)) : List (String × Json) :=
  fields.filter fun e => e.1 ∈ S.image name

/-- A record with some of its fields as they are in another one. -/
def patch (base : Progress) (S : Finset Field) (p : Progress) : Progress where
  version := if .version ∈ S then p.version else base.version
  vars := if .vars ∈ S then p.vars else base.vars
  messages := if .messages ∈ S then p.messages else base.messages
  currentNode := if .currentNode ∈ S then p.currentNode else base.currentNode
  started := if .started ∈ S then p.started else base.started
  view := if .view ∈ S then p.view else base.view
  chapter := if .chapter ∈ S then p.chapter else base.chapter
  part := if .part ∈ S then p.part else base.part
  online := if .online ∈ S then p.online else base.online
  blocked := if .blocked ∈ S then p.blocked else base.blocked
  introPending := if .introPending ∈ S then p.introPending else base.introPending
  activeScript := if .activeScript ∈ S then p.activeScript else base.activeScript

variable {S : Finset Field} {all fields known few : List (String × Json)} {r : Progress}
  {f : Field}

@[simp] theorem patch_empty (base p : Progress) : base.patch ∅ p = base := by
  simp [patch]

/-- No two fields are of one name. -/
theorem Field.name_injective : Function.Injective Field.name := by
  intro f g h
  have hnodup : (Field.all.map name).Nodup := by decide
  exact List.inj_on_of_nodup_map hnodup f.mem_all g.mem_all h

theorem Field.name_mem (f : Field) : f.name ∈ fieldNames := List.mem_map_of_mem f.mem_all

/-! ## Reading fewer fields -/

/-- A field that is not given has its default. -/
theorem defaulted_of_fewer {α : Type} {read : Json → Option α} {default a : α}
    (hfew : few.lookup f.name = if f ∈ S then known.lookup f.name else none)
    (h : defaulted known f.name read default = some a) :
    defaulted few f.name read default = some (if f ∈ S then a else default) := by
  rw [defaulted, hfew]
  by_cases hf : f ∈ S
  · rw [if_pos hf, if_pos hf]
    exact h
  · rw [if_neg hf, if_neg hf]

/-- So from fewer fields a record is read that has the default for each other one. -/
theorem ReadFrom.fewer
    (hfew : ∀ f : Field, few.lookup f.name = if f ∈ S then known.lookup f.name else none)
    (h : r.ReadFrom known) : (({} : Progress).patch S r).ReadFrom few where
  version := defaulted_of_fewer (hfew .version) h.version
  vars := defaulted_of_fewer (hfew .vars) h.vars
  messages := defaulted_of_fewer (hfew .messages) h.messages
  currentNode := defaulted_of_fewer (hfew .currentNode) h.currentNode
  started := defaulted_of_fewer (hfew .started) h.started
  view := defaulted_of_fewer (hfew .view) h.view
  chapter := defaulted_of_fewer (hfew .chapter) h.chapter
  part := defaulted_of_fewer (hfew .part) h.part
  online := defaulted_of_fewer (hfew .online) h.online
  blocked := defaulted_of_fewer (hfew .blocked) h.blocked
  introPending := defaulted_of_fewer (hfew .introPending) h.introPending
  activeScript := defaulted_of_fewer (hfew .activeScript) h.activeScript

/-- Where the known fields of one object are those of some fields of another one, they are found
there and no others are. -/
theorem lookup_given (hall : (record all).asRecord? fieldNames = some known)
    (hfields : (record fields).asRecord? fieldNames = some few)
    (hperm : few.Perm (Field.given S all)) (f : Field) :
    few.lookup f.name = if f ∈ S then known.lookup f.name else none := by
  obtain ⟨honce, rfl⟩ := asRecord?_record_eq_some_iff.1 hall
  obtain ⟨honce', rfl⟩ := asRecord?_record_eq_some_iff.1 hfields
  have hknown := occursOnce_filter (honce f.name f.name_mem) fun e => fieldNames.contains e.1
  have hfew := occursOnce_filter (honce' f.name f.name_mem) fun e => fieldNames.contains e.1
  have hcontains : fieldNames.contains f.name = true := List.contains_iff_mem.2 f.name_mem
  -- a look-up is a membership on both sides, and a permutation keeps the members
  refine Option.ext fun j => ?_
  rw [lookup_eq_some_iff_mem hfew, hperm.mem_iff, Field.given, List.mem_filter, decide_eq_true_iff,
    Field.name_injective.mem_finset_image]
  by_cases hf : f ∈ S
  · rw [if_pos hf, lookup_eq_some_iff_mem hknown, List.mem_filter, and_iff_left hf,
      and_iff_left hcontains]
  · rw [if_neg hf]
    exact ⟨fun h => absurd h.2 hf, nofun⟩

/-- No known field of theirs stands twice. -/
theorem asRecord?_of_perm_given (hall : (record all).asRecord? fieldNames = some known)
    (hperm : (fields.filter fun e => fieldNames.contains e.1).Perm (Field.given S all)) :
    (record fields).asRecord? fieldNames =
      some (fields.filter fun e => fieldNames.contains e.1) := by
  obtain ⟨honce, -⟩ := asRecord?_record_eq_some_iff.1 hall
  refine asRecord?_record_eq_some_iff.2 ⟨fun name hname => decide_eq_true ?_, rfl⟩
  -- fields of a known name are known fields
  have hknown : fields.countP (·.1 == name) =
      (fields.filter fun e => fieldNames.contains e.1).countP (·.1 == name) := by
    rw [List.countP_filter]
    refine List.countP_congr fun e _ => ?_
    have hcontains : e.1 = name → fieldNames.contains e.1 = true := by
      rintro rfl
      exact List.contains_iff_mem.2 hname
    simpa using hcontains
  calc fields.countP (·.1 == name)
      = (Field.given S all).countP (·.1 == name) := by rw [hknown, hperm.countP_eq]
    _ ≤ all.countP (·.1 == name) := List.filter_sublist.countP_le
    _ ≤ 1 := of_decide_eq_true (honce name hname)

/-! ## Restoring some fields -/

/-- What is restored of some fields is in all others as a new conversation is. -/
theorem snapshot_restore_patch (n : Narrative) (S : Finset Field) (r : Progress) :
    (n.restore (({} : Progress).patch S r)).snapshot =
      (Narrative.fresh n.vars.schema).snapshot.patch S
        { r with
          version := recordVersion
          vars := ((Variables.ofSchema n.vars.schema).restore r.vars).values } := by
  -- variables are normalised when they are restored, and nothing restored are the defaults
  have hvars : (n.vars.restore (if .vars ∈ S then r.vars else .empty)).values =
      if .vars ∈ S then ((Variables.ofSchema n.vars.schema).restore r.vars).values
      else (Variables.ofSchema n.vars.schema).values := by
    split <;> rfl
  simp only [Narrative.snapshot, Narrative.restore, Narrative.fresh, patch, hvars, ite_self]

theorem parse_empty : parse "\x7b\x7d" = .ok {} := by
  have hnone : Json.parse? "\x7b\x7d" = some (record []) := parse?_render (j := record []) trivial
  exact parse_eq_ok_iff.2 ⟨by rw [hnone]; rfl, Nat.le_refl _⟩

/-- Of a record that is accepted, any of its fields make up a record that is accepted, in
whatever order they stand and whatever unknown fields stand with them. A conversation that is
restored from it (`Narrative.restore`) has those fields as the record has them, its variables
brought in line with the schema, and is in all other fields as a new one, whatever it was
before. Of no fields at all comes a new conversation. -/
theorem partial_records {whole text : String} (hwhole : parse whole = .ok r)
    (hall : Json.parse? whole = some (record all))
    (htext : Json.parse? text = some (record fields))
    (hfields : (fields.filter fun e => fieldNames.contains e.1).Perm (Field.given S all)) :
    (∃ p, parse text = .ok p ∧ ∀ n : Narrative,
      (n.restore p).snapshot = (Narrative.fresh n.vars.schema).snapshot.patch S
        { r with
          version := recordVersion
          vars := ((Variables.ofSchema n.vars.schema).restore r.vars).values }) ∧
    ∃ p, parse "\x7b\x7d" = .ok p ∧
      ∀ n : Narrative, (n.restore p).snapshot = (Narrative.fresh n.vars.schema).snapshot := by
  refine ⟨⟨({} : Progress).patch S r, ?_, fun n => snapshot_restore_patch n S r⟩, {}, parse_empty,
    fun n => ?_⟩
  · obtain ⟨hr, hold⟩ := parse_eq_ok_iff.1 hwhole
    rw [hall, Option.bind_some] at hr
    obtain ⟨known, hknown, hread⟩ := ofJson?_eq_some_iff.1 hr
    -- the fields that are left read as they did among all of them
    have hfew := asRecord?_of_perm_given hknown hfields
    have hpatched := hread.fewer (lookup_given hknown hfew hfields)
    refine parse_eq_ok_iff.2 ⟨?_, ?_⟩
    · rw [htext, Option.bind_some]
      exact ofJson?_eq_some_iff.2 ⟨_, hfew, hpatched⟩
    · rw [patch]
      split
      · exact hold
      · exact Nat.le_refl _
  · have hempty := snapshot_restore_patch n ∅ {}
    rwa [patch_empty, patch_empty] at hempty

/-! ### Two fields of a record -/

/-- A record of a conversation under way. -/
def underway : Progress where
  vars := .ofList [("quiz_points", .number 140), ("tension", .number 140)]
  messages := [⟨"start", .npc "valeria", .audio, "Hi", .millennium, true⟩]
  currentNode := some "ask"
  started := true
  chapter := 3
  part := 2
  blocked := true

/-- Its chapter and its variables, with something between them that no record knows. -/
def outline : List (String × Json) :=
  [("currentChapter", nat 3), ("mood", str "calm"),
    ("variables", table Value.toJson underway.vars)]

theorem partial_records_outline : ∃ p, parse (record outline).render = .ok p ∧
    ∀ n : Narrative, (n.restore p).chapter = 3 ∧ (n.restore p).part = 1 ∧
      (n.restore p).started = false ∧ (n.restore p).messages = [] ∧
      (n.restore p).blocked = false ∧
      (n.restore p).vars.values =
        ((Variables.ofSchema n.vars.schema).restore underway.vars).values := by
  have hwhole : parse underway.render = .ok underway := by
    refine parse_eq_ok_iff.2 ⟨?_, Nat.le_refl _⟩
    rw [render, parse?_render underway.written_toJson, Option.bind_some]
    decide +kernel
  have hwritten : (record outline).Written := by
    refine written_record ?_
    simp only [outline, List.forall_mem_cons]
    exact ⟨written_nat 3, rfl, written_table Value.written_toJson _, List.forall_mem_nil _⟩
  have hfields : (outline.filter fun e => fieldNames.contains e.1).Perm
      (Field.given {.vars, .chapter} underway.fields) := .swap _ _ _
  obtain ⟨⟨p, hp, hrestore⟩, -⟩ := partial_records hwhole (parse?_render underway.written_toJson)
    (parse?_render hwritten) hfields
  refine ⟨p, hp, fun n => ?_⟩
  have hsnapshot := hrestore n
  exact ⟨congrArg Progress.chapter hsnapshot, congrArg Progress.part hsnapshot,
    congrArg started hsnapshot, congrArg messages hsnapshot, congrArg blocked hsnapshot,
    congrArg Progress.vars hsnapshot⟩

end Progress

end StoryChat
