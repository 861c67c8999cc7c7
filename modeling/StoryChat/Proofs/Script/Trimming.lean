/-
Trimming the text of a script.

What nobody knows in a script can be taken out where it stands, in its text. The type of a node
may be an unknown one, or the one of a text, and be replaced by that of a message. Of its
actions and conditions one may be dropped that is read as unknown. All else of the text stays,
what is never read as much as what makes the text no script.

Reading (`Document.parse?`) and trimming (`Document.TrimsText`) commute: either neither text
states a script, or both do and the one that is read from the trimmed text is the other one,
trimmed. So do scripts that are asked for, wherever they come from.
-/
import StoryChat.Proofs.Script.Unknown
import Mathlib.Logic.Relation

set_option autoImplicit false

namespace StoryChat

/-- Readings that go together lead to readings that go together. -/
theorem rel_bind {α β α' β' : Type} {R : α → β → Prop} {S : α' → β' → Prop} {a : Option α}
    {b : Option β} {f : α → Option α'} {g : β → Option β'} (h : Option.Rel R a b)
    (hfg : ∀ a b, R a b → Option.Rel S (f a) (g b)) : Option.Rel S (a.bind f) (b.bind g) := by
  cases h with
  | none => exact .none
  | some h => exact hfg _ _ h

/-- What comes behind one and the same reading. -/
theorem rel_seq {α α' β' : Type} {S : α' → β' → Prop} (a : Option α) {f : α → Option α'}
    {g : α → Option β'} (hfg : ∀ a, Option.Rel S (f a) (g a)) :
    Option.Rel S (a.bind f) (a.bind g) := by
  refine rel_bind (rel_refl Eq.refl a) fun a b hab => ?_
  subst hab
  exact hfg a

theorem rel_imp {α β : Type} {R S : α → β → Prop} {a : Option α} {b : Option β}
    (h : Option.Rel R a b) (hRS : ∀ a b, R a b → S a b) : Option.Rel S a b := by
  cases h with
  | none => exact .none
  | some h => exact .some (hRS _ _ h)

namespace Json

variable {α : Type} {names : List String} {name : String} {T : Json → Json → Prop}
  {P : Json → Prop} {j j' : Json} {fields fields' : List (String × Json)}

/-! ## Documents that differ in one place -/

/-- Whether two documents are the same record, as an object or as an array, but for the value
of one field. -/
inductive Swap (names : List String) (name : String) (T : Json → Json → Prop) :
    Json → Json → Prop where
  | object {before after : List (Option String × Json)} {j j' : Json} : T j j' →
      Swap names name T (.object (before ++ (some name, j) :: after))
        (.object (before ++ (some name, j') :: after))
  | array {before after : List Json} {j j' : Json} : names[before.length]? = some name →
      T j j' → Swap names name T (.array (before ++ j :: after)) (.array (before ++ j' :: after))

/-- Whether two documents are the same array but for one element. -/
inductive Change (T : Json → Json → Prop) : Json → Json → Prop where
  | item {before after : List Json} {j j' : Json} : T j j' →
      Change T (.array (before ++ j :: after)) (.array (before ++ j' :: after))

/-- Whether an element was dropped from an array. -/
inductive Drop (P : Json → Prop) : Json → Json → Prop where
  | item {before after : List Json} {j : Json} : P j →
      Drop P (.array (before ++ j :: after)) (.array (before ++ after))

/-! ## Reading them -/

/-- Whether fields are the same but for the value of one. -/
inductive Beside (name : String) (T : Json → Json → Prop) :
    List (String × Json) → List (String × Json) → Prop where
  | field {before after : List (String × Json)} {j j' : Json} : before.lookup name = none →
      T j j' → Beside name T (before ++ (name, j) :: after) (before ++ (name, j') :: after)

theorem Beside.lookup (h : Beside name T fields fields') :
    ∃ j j', T j j' ∧ fields.lookup name = some j ∧ fields'.lookup name = some j' := by
  obtain ⟨hnone, hT⟩ := h
  refine ⟨_, _, hT, ?_, ?_⟩ <;> simp [List.lookup_append, hnone]

theorem Beside.lookup_ne (h : Beside name T fields fields') {other : String} (hne : other ≠ name) :
    fields'.lookup other = fields.lookup other := by
  obtain ⟨-, -⟩ := h
  have hother : (other == name) = false := beq_eq_false_iff_ne.2 hne
  simp only [List.lookup_append, List.lookup_cons, hother]

theorem Beside.required_ne (h : Beside name T fields fields') {other : String}
    (hne : other ≠ name) (read : Json → Option α) :
    required fields' other read = required fields other read := by
  rw [required, required, h.lookup_ne hne]

theorem Beside.defaulted_ne (h : Beside name T fields fields') {other : String}
    (hne : other ≠ name) (read : Json → Option α) (default : α) :
    defaulted fields' other read default = defaulted fields other read default := by
  rw [defaulted, defaulted, h.lookup_ne hne]

/-- The field that differs is read as what stands in it. -/
theorem Beside.defaulted {R : α → α → Prop} {read : Json → Option α} {default : α}
    (h : Beside name T fields fields') (hread : ∀ j j', T j j' → Option.Rel R (read j) (read j')) :
    Option.Rel R (Json.defaulted fields name read default)
      (Json.defaulted fields' name read default) := by
  obtain ⟨j, j', hT, hj, hj'⟩ := h.lookup
  unfold Json.defaulted
  rw [hj, hj']
  exact hread j j' hT

theorem Beside.required {R : α → α → Prop} {read : Json → Option α}
    (h : Beside name T fields fields') (hread : ∀ j j', T j j' → Option.Rel R (read j) (read j')) :
    Option.Rel R (Json.required fields name read) (Json.required fields' name read) := by
  obtain ⟨j, j', hT, hj, hj'⟩ := h.lookup
  unfold Json.required
  rw [hj, hj']
  exact hread j j' hT

/-- As many fields have a name, whatever their values are. -/
theorem occursOnce_beside (before after : List (String × Json)) (name other : String)
    (j j' : Json) : occursOnce (before ++ (name, j') :: after) other =
      occursOnce (before ++ (name, j) :: after) other := by
  unfold occursOnce
  simp only [List.countP_append, List.countP_cons]

theorem lookup_eq_none_of_occursOnce {before after : List (String × Json)} {name : String}
    {j : Json} (h : occursOnce (before ++ (name, j) :: after) name = true) :
    before.lookup name = none := by
  unfold occursOnce at h
  simp only [List.countP_append, List.countP_cons, beq_self_eq_true, if_true,
    decide_eq_true_eq] at h
  have hzero : before.countP (·.1 == name) = 0 := by omega
  refine List.lookup_eq_none_iff.2 fun f hf => ?_
  exact bne_iff_ne.2 fun he => List.countP_eq_zero.1 hzero f hf (beq_iff_eq.2 he.symm)

/-- Items that have a name each, where no other has the name of one of them. -/
theorem zip_middle {before : List Json} (hplace : names[before.length]? = some name)
    (hnames : names.Nodup) :
    ∃ (front : List (String × Json)) (back : List String), front.lookup name = none ∧
      ∀ (after : List Json) (j : Json),
        names.zip (before ++ j :: after) = front ++ (name, j) :: back.zip after := by
  obtain ⟨hlt, hname⟩ := List.getElem?_eq_some_iff.1 hplace
  have hsplit : names = names.take before.length ++ name :: names.drop (before.length + 1) := by
    rw [← hname, List.getElem_cons_drop, List.take_append_drop]
  have hbefore : (names.take before.length).length = before.length := by
    rw [List.length_take, Nat.min_eq_left (Nat.le_of_lt hlt)]
  refine ⟨(names.take before.length).zip before, names.drop (before.length + 1), ?_,
    fun after j => ?_⟩
  · rw [hsplit] at hnames
    have hnot : name ∉ names.take before.length := fun hmem =>
      (List.nodup_append.1 hnames).2.2 name hmem name List.mem_cons_self rfl
    refine List.lookup_eq_none_iff.2 fun f hf => ?_
    have hmem := (List.of_mem_zip (show (f.1, f.2) ∈ _ from hf)).1
    exact bne_iff_ne.2 fun he => hnot (he ▸ hmem)
  · conv_lhs => rw [hsplit]
    rw [List.zip_append hbefore, List.zip_cons_cons]

/-- An object with one field in its middle is read in three parts. -/
theorem asRecord?_object_middle (names : List String) (before after : List (Option String × Json))
    (name : String) (j : Json) :
    Json.asRecord? names (.object (before ++ (some name, j) :: after)) =
      (asFields? (.object before)).bind fun b => (asFields? (.object after)).bind fun a =>
        if names.all (occursOnce (b ++ (name, j) :: a)) then
          some ((b ++ (name, j) :: a).filter fun f => names.contains f.1) else none := by
  have hobject (fields : List (Option String × Json)) : asFields? (.object fields) =
      fields.mapM fun f => f.1.map (·, f.2) := rfl
  have hrecord (fields : List (Option String × Json)) :
      Json.asRecord? names (.object fields) = (asFields? (.object fields)).bind fun fs =>
        if names.all (occursOnce fs) then some (fs.filter fun f => names.contains f.1)
        else none := rfl
  rw [hrecord, hobject, List.mapM_append, List.mapM_cons]
  simp only [Option.bind_eq_bind, Option.bind_assoc, Option.map_some, Option.bind_some,
    Option.pure_def, hobject]

/-- Of two such documents either neither is a record, or their fields differ in one value. -/
theorem Swap.asRecord? (h : Swap names name T j j') (hname : name ∈ names) (hnames : names.Nodup) :
    Option.Rel (Beside name T) (Json.asRecord? names j) (Json.asRecord? names j') := by
  cases h with
  | @array before after j j' hplace hT =>
    -- as many items as before, so both are too long or neither is
    have hread (k : Json) : Json.asRecord? names (.array (before ++ k :: after)) =
        if (before ++ j :: after).length ≤ names.length then
          some (names.zip (before ++ k :: after)) else none := by
      have hlength : (before ++ j :: after).length = (before ++ k :: after).length := by simp
      rw [hlength]
      rfl
    rw [hread, hread]
    split
    · obtain ⟨front, back, hfresh, hzip⟩ := zip_middle hplace hnames
      rw [hzip, hzip]
      exact .some ⟨hfresh, hT⟩
    · exact .none
  | @object before after j j' hT =>
    rw [asRecord?_object_middle, asRecord?_object_middle]
    refine rel_seq _ fun b => rel_seq _ fun a => ?_
    -- the keys are the same, so a name stands twice in both or in neither
    have hall : names.all (occursOnce (b ++ (name, j') :: a)) =
        names.all (occursOnce (b ++ (name, j) :: a)) :=
      congrArg names.all (funext fun other => occursOnce_beside b a name other j j')
    rw [hall]
    split
    · next hones =>
      have hfresh : b.lookup name = none :=
        lookup_eq_none_of_occursOnce (List.all_eq_true.1 hones name hname)
      have hkept (k : Json) : (b ++ (name, k) :: a).filter (names.contains ·.1) =
          b.filter (names.contains ·.1) ++ (name, k) :: a.filter (names.contains ·.1) := by
        simp [List.filter_append, hname]
      rw [hkept, hkept]
      refine .some ⟨List.lookup_eq_none_iff.2 fun f hf => ?_, hT⟩
      exact List.lookup_eq_none_iff.1 hfresh f (List.mem_filter.1 hf).1
    · exact .none

/-- An array with one element in its middle is read in three parts. -/
theorem mapM_middle {read : Json → Option α} (before after : List Json) (j : Json) :
    (before ++ j :: after).mapM read = (before.mapM read).bind fun b =>
      (read j).bind fun x => (after.mapM read).bind fun a => some (b ++ x :: a) := by
  rw [List.mapM_append, List.mapM_cons]
  simp [Option.bind_assoc]

theorem Change.asList? {R : α → α → Prop} {read : Json → Option α} (h : Change T j j')
    (hread : ∀ j j', T j j' → Option.Rel R (read j) (read j')) :
    Option.Rel (fun as as' => ∃ b x x' a, R x x' ∧ as = b ++ x :: a ∧ as' = b ++ x' :: a)
      (Json.asList? read j) (Json.asList? read j') := by
  obtain ⟨hT⟩ := h
  unfold Json.asList?
  simp only [mapM_middle]
  exact rel_seq _ fun b => rel_bind (hread _ _ hT) fun x x' hx => rel_seq _ fun a =>
    .some ⟨b, x, x', a, hx, rfl, rfl⟩

theorem Drop.asList? {Q : α → Prop} {read : Json → Option α} (h : Drop P j j')
    (hread : ∀ j, P j → ∃ x, read j = some x ∧ Q x) :
    Option.Rel (fun as as' => ∃ b x a, Q x ∧ as = b ++ x :: a ∧ as' = b ++ a)
      (Json.asList? read j) (Json.asList? read j') := by
  obtain ⟨hP⟩ := h
  obtain ⟨x, hx, hQ⟩ := hread _ hP
  unfold Json.asList?
  dsimp only
  rw [mapM_middle, List.mapM_append, hx]
  exact rel_seq _ fun b => rel_seq _ fun a => .some ⟨b, x, a, hQ, rfl, rfl⟩

end Json

/-! ## Trimming texts -/

open Json

/-- Whether a type is given that is not that of one of the known kinds, or that of a text, and
is replaced by that of a message. -/
structure NodeKind.Renamed (j j' : Json) : Prop where
  before : ∃ name, j.asName? = some name ∧ (ofName name = .text ∨ ofName name = .other)
  after : j'.asName? = some "message"

/-- One thing that nobody knows is taken out of the text of a node, which stands under `above`
open containers. -/
inductive Node.TrimsText (above : Nat) : Json → Json → Prop where
  | kind {j j' : Json} : Swap fieldNames "type" NodeKind.Renamed j j' → TrimsText above j j'
  | action {j j' : Json} :
      Swap fieldNames "actions" (Drop fun a => Action.ofJson? (above + 2) a = some .unknown) j j' →
      TrimsText above j j'
  | condition {j j' : Json} :
      Swap fieldNames "conditions"
        (Drop fun c => ∃ read, Condition.ofJson? c = some read ∧ read.operator = .unknown) j j' →
      TrimsText above j j'

/-- One thing that nobody knows is taken out of the text of a script. -/
def Document.TrimsText : Json → Json → Prop :=
  Swap ["title", "nodes"] "nodes" (Change (Node.TrimsText 2))

namespace Node

variable {j j' : Json}

/-- Nodes are read field by field, so those that differ in one of three fields are read as such. -/
theorem rel_ofJson? (above : Nat) {K : NodeKind → NodeKind → Prop}
    {A : List Action → List Action → Prop} {C : List Condition → List Condition → Prop}
    {name : String} {T : Json → Json → Prop} (h : Swap fieldNames name T j j')
    (hname : name ∈ ["type", "actions", "conditions"])
    (hkind : ∀ fields fields', Beside name T fields fields' → Option.Rel K
      (defaulted fields "type" (fun j => j.asName?.map NodeKind.ofName) .message)
      (defaulted fields' "type" (fun j => j.asName?.map NodeKind.ofName) .message))
    (hactions : ∀ fields fields', Beside name T fields fields' → Option.Rel A
      (defaulted fields "actions" (asList? (Action.ofJson? (above + 2))) [])
      (defaulted fields' "actions" (asList? (Action.ofJson? (above + 2))) []))
    (hconditions : ∀ fields fields', Beside name T fields fields' → Option.Rel C
      (defaulted fields "conditions" (asList? Condition.ofJson?) [])
      (defaulted fields' "conditions" (asList? Condition.ofJson?) [])) :
    Option.Rel (fun n n' => K n.kind n'.kind ∧ A n.actions n'.actions ∧
        C n.conditions n'.conditions ∧
        n' = { n with kind := n'.kind, actions := n'.actions, conditions := n'.conditions })
      (ofJson? above j) (ofJson? above j') := by
  have hfield : name ∈ fieldNames := by
    simp only [List.mem_cons, List.not_mem_nil, or_false] at hname
    rcases hname with rfl | rfl | rfl <;> decide
  have hne (other : String) (hother : other ∉ ["type", "actions", "conditions"]) : other ≠ name :=
    fun he => hother (he ▸ hname)
  -- field by field, in the order in which they are read: three may differ, eight are the same
  unfold ofJson?
  refine rel_bind (h.asRecord? hfield (by decide)) fun fields fields' hf => ?_
  rw [hf.required_ne (hne "id" (by decide)), hf.defaulted_ne (hne "sender" (by decide)),
    hf.defaulted_ne (hne "content" (by decide)), hf.defaulted_ne (hne "delay" (by decide)),
    hf.defaulted_ne (hne "nextId" (by decide)), hf.defaulted_ne (hne "nextPart" (by decide)),
    hf.defaulted_ne (hne "choices" (by decide)), hf.defaulted_ne (hne "typingCycles" (by decide))]
  refine rel_seq _ fun id => rel_bind (hkind _ _ hf) fun kind kind' hk => rel_seq _ fun sender =>
    rel_seq _ fun content => rel_seq _ fun delay => rel_bind (hactions _ _ hf) fun as as' ha => ?_
  refine rel_bind (hconditions _ _ hf) fun cs cs' hc => rel_seq _ fun next => rel_seq _ fun part =>
    rel_seq _ fun choices => rel_seq _ fun cycles => ?_
  exact .some ⟨hk, ha, hc, rfl⟩

/-- The step lemma for a node: what is read from its trimmed text is the node, trimmed. -/
theorem TrimsText.rel {above : Nat} (h : TrimsText above j j') :
    Option.Rel Trims (ofJson? above j) (ofJson? above j') := by
  -- the fields that are not touched are read the same
  have hsame {α : Type} {name other : String} {T : Json → Json → Prop} (read : Json → Option α)
      (default : α) (hne : other ≠ name) (fields fields' : List (String × Json))
      (hf : Beside name T fields fields') : Option.Rel Eq (defaulted fields other read default)
        (defaulted fields' other read default) := by
    rw [hf.defaulted_ne hne]
    exact rel_refl Eq.refl _
  cases h with
  | kind h =>
    have hrel := rel_ofJson? above
      (K := fun k k' => (k = .text ∨ k = .other) ∧ k' = .message) h (by decide)
      (fun fields fields' hf => hf.defaulted fun t t' ht => ?_) (hsame _ _ (by decide))
      (hsame _ _ (by decide))
    · refine rel_imp hrel fun n n' hn => ?_
      obtain ⟨⟨hk, hk'⟩, ha, hc, hn⟩ := hn
      rw [hn, hk', ← ha, ← hc]
      exact .kind hk
    · obtain ⟨⟨name, hname, hk⟩, hafter⟩ := ht
      rw [hname, hafter]
      exact .some ⟨hk, rfl⟩
  | action h =>
    have hrel := rel_ofJson? above
      (A := fun as as' => ∃ b a c, .unknown = a ∧ as = b ++ a :: c ∧ as' = b ++ c) h (by decide)
      (hsame _ _ (by decide))
      (fun fields fields' hf => hf.defaulted fun t t' ht => ht.asList? fun a ha => ⟨_, ha, rfl⟩)
      (hsame _ _ (by decide))
    refine rel_imp hrel fun n n' hn => ?_
    obtain ⟨hk, ⟨b, a, c, rfl, ha, ha'⟩, hc, hn⟩ := hn
    rw [hn, ← hk, ha', ← hc]
    exact .action ha
  | condition h =>
    have hrel := rel_ofJson? above
      (C := fun cs cs' => ∃ b c a, c.operator = .unknown ∧ cs = b ++ c :: a ∧ cs' = b ++ a) h
      (by decide) (hsame _ _ (by decide)) (hsame _ _ (by decide))
      (fun fields fields' hf => hf.defaulted fun t t' ht => ht.asList? fun c hc => hc)
    refine rel_imp hrel fun n n' hn => ?_
    obtain ⟨hk, ha, ⟨b, c, a, hunknown, hc, hc'⟩, hn⟩ := hn
    rw [hn, ← hk, ← ha, hc']
    exact .condition hc hunknown

end Node

/-- Reading and trimming commute. -/
theorem Document.TrimsText.rel {j j' : Json} (h : TrimsText j j') :
    Option.Rel Trims (ofJson? j) (ofJson? j') := by
  unfold ofJson?
  refine rel_bind (Swap.asRecord? h (by decide) (by decide)) fun fields fields' hf => ?_
  rw [hf.defaulted_ne (by decide)]
  refine rel_seq _ fun title => rel_bind (hf.required fun ns ns' hns =>
    hns.asList? fun n n' hn => hn.rel) fun ns ns' hns => ?_
  obtain ⟨before, n, n', after, hn, rfl, rfl⟩ := hns
  exact .some (.node rfl hn)

/-! ## Trimming sources -/

/-- One thing that nobody knows is taken out of a script, in its text or where it is registered
as it was read. -/
inductive Registered.Trims : Registered → Registered → Prop where
  | text {s s' : String} {j j' : Json} : Json.parse? s = some j → Json.parse? s' = some j' →
      Document.TrimsText j j' → Trims (.text s) (.text s')
  | document {d d' : Document} : d.Trims d' → Trims (.document d) (.document d')

theorem Registered.Trims.load {r r' : Registered} (h : r.Trims r') (id : ScriptId) :
    Fetched Document.Trimmed (r.load id) (r'.load id) := by
  cases h with
  | document h => exact .found h.trimmed
  | @text s s' j j' hj hj' h =>
    have hrel := h.rel
    unfold Registered.load
    dsimp only
    unfold Document.load Document.parse?
    rw [hj, hj', Option.bind_some, Option.bind_some]
    generalize Document.ofJson? j = read at hrel ⊢
    generalize Document.ofJson? j' = read' at hrel ⊢
    cases hrel with
    | none => exact .lost _
    | some h => exact .found h.trimmed

/-- Where scripts come from: for each request a script as it is registered, or the reason why
there is none. -/
abbrev Source := ScriptId → Except LoadFault Registered

namespace Source

/-- The scripts of a source, read. -/
def shelf (s : Source) : Shelf := fun id => (s id).bind (·.load id)

/-- The source that a folder is: all its scripts are texts. -/
def ofFolder (folder : Folder) : Source := fun id =>
  match folder.read id.fileName with
  | .absent => .error (.notFound id)
  | .refused => .error (.io id)
  | .text s => .ok (.text s)

/-- The source that a registry is. -/
def ofRegistry (r : Registry) : Source := fun id =>
  match r.find? id with
  | none => .error (.notFound id)
  | some script => .ok script

theorem shelf_ofFolder (folder : Folder) : (ofFolder folder).shelf = .ofFolder folder := by
  funext id
  unfold shelf ofFolder Shelf.ofFolder
  cases folder.read id.fileName <;> rfl

theorem shelf_ofRegistry (r : Registry) : (ofRegistry r).shelf = r.shelf := by
  funext id
  unfold shelf ofRegistry Registry.shelf
  cases r.find? id with
  | none => rfl
  | some script => cases script <;> rfl

/-- Whether a source is another one in which scripts are trimmed, each any number of times. -/
def Trimmed (s s' : Source) : Prop :=
  ∀ id, Fetched (Relation.ReflTransGen Registered.Trims) (s id) (s' id)

/-- The run lemma: whatever is asked for, it is the same script, trimmed. -/
theorem Trimmed.shelf {s s' : Source} (h : s.Trimmed s') (id : ScriptId) :
    Fetched Document.Trimmed (s.shelf id) (s'.shelf id) := by
  unfold Source.shelf
  have hid := h id
  generalize s id = a at hid ⊢
  generalize s' id = a' at hid ⊢
  cases hid with
  | lost fault => exact .lost fault
  | @found r r' hsteps =>
    change Fetched Document.Trimmed (r.load id) (r'.load id)
    induction hsteps with
    | refl => exact .refl .refl _
    | tail _ hstep ih => exact ih.trans (fun _ _ _ => Document.Trimmed.trans) (hstep.load id)

end Source

end StoryChat
