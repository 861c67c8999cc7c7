/-
Variables that suit their schema.

A schema that was built up by declaring (`Schema.Built`) has each name once, with a
first value that is one a write would leave. So the variables start out with a value for
each declared name and for no other, all of them left by writes (`Suits`), and no write,
impact or restoring changes that. What was saved of such variables is therefore taken
over as it is, provided that a value once written is not changed by being written again.
For counters and flags that is plain; for meters it is what the order of numbers says of
the two ends of their range.
-/
import StoryChat.Story.Variables

set_option autoImplicit false

namespace StoryChat

/-! ## Built schemas -/

/-- A declaration of one of the three kinds. -/
inductive Declaration.Made : Declaration → Prop where
  | meter (name : String) (default : Float) : Made (.meter name default)
  | counter (name : String) (default : Float) : Made (.counter name default)
  | flag (name : String) (default : Bool) : Made (.flag name default)

/-- A schema that was built up by declaring. -/
def Schema.Built (s : Schema) : Prop :=
  ∃ ds : List Declaration, (∀ d ∈ ds, d.Made) ∧ s = ofList ds

namespace Schema

variable {s : Schema} {d : Declaration} {ds : List Declaration}

theorem declarations_ofList (P : List Declaration → Prop) (hnil : P [])
    (hdeclare : ∀ ds', P ds' → ∀ d ∈ ds, P (ds'.filter (·.name != d.name) ++ [d])) :
    P (ofList ds).declarations := by
  suffices h : ∀ s : Schema, P s.declarations → P (ds.foldl declare s).declarations from h _ hnil
  induction ds with
  | nil => exact fun s h => h
  | cons d ds ih =>
    intro s h
    refine ih (fun ds' h' e he => hdeclare ds' h' e (List.mem_cons_of_mem _ he)) _ ?_
    exact hdeclare _ h d List.mem_cons_self

/-- Declaring keeps each name once. -/
theorem names_once (ds : List Declaration) :
    (ofList ds).declarations.Pairwise (fun a b => a.name ≠ b.name) := by
  refine declarations_ofList _ .nil fun ds' h d _ => ?_
  refine List.pairwise_append.2 ⟨h.filter _, List.pairwise_singleton _ _, fun a ha b hb => ?_⟩
  rw [List.mem_singleton.1 hb]
  simpa using (List.mem_filter.1 ha).2

theorem mem_of_mem_ofList {d : Declaration} (h : d ∈ (ofList ds).declarations) : d ∈ ds := by
  have hall : ∀ e ∈ (ofList ds).declarations, e ∈ ds := by
    refine declarations_ofList (fun ds' => ∀ e ∈ ds', e ∈ ds) (List.forall_mem_nil _) ?_
    intro ds' h d hd e he
    rcases List.mem_append.1 he with he | he
    · exact h e (List.mem_filter.1 he).1
    · rwa [List.mem_singleton.1 he]
  exact hall d h

theorem Built.once (h : s.Built) : s.declarations.Pairwise (fun a b => a.name ≠ b.name) := by
  obtain ⟨ds, -, rfl⟩ := h
  exact names_once ds

theorem Built.made (h : s.Built) (hd : d ∈ s.declarations) : d.Made := by
  obtain ⟨ds, hds, rfl⟩ := h
  exact hds d (mem_of_mem_ofList hd)

/-- Where no name is declared twice, a declaration is found under its name. -/
theorem find?_name_of_once (honce : s.declarations.Pairwise (fun a b => a.name ≠ b.name))
    (hd : d ∈ s.declarations) : s.find? d.name = some d := by
  unfold find?
  generalize s.declarations = ds at hd honce
  induction ds with
  | nil => cases hd
  | cons e es ih =>
    obtain ⟨he, hes⟩ := List.pairwise_cons.1 honce
    rw [List.find?_cons]
    rcases List.mem_cons.1 hd with rfl | hd
    · rw [BEq.rfl]
    · rw [beq_false_of_ne (he d hd)]
      exact ih hd hes

theorem Built.find?_name (h : s.Built) (hd : d ∈ s.declarations) : s.find? d.name = some d :=
  find?_name_of_once h.once hd

theorem mem_of_find? {name : String} (h : s.find? name = some d) :
    d ∈ s.declarations ∧ d.name = name :=
  ⟨List.mem_of_find?_eq_some h, by simpa using List.find?_some h⟩

end Schema

/-! ## Values that a write leaves -/

/-- The ends of a meter's range are in order, and within it. More of the order of numbers is
not needed to write a value anew. -/
theorem meterOrder :
    (¬ (0.0 : Float) < 0.0 ∧ ¬ (0.0 : Float) > 100.0) ∧
      ¬ (100.0 : Float) < 0.0 ∧ ¬ (100.0 : Float) > 100.0 := by
  decide

theorem clampMeter_clampMeter (x : Float) : clampMeter (clampMeter x) = clampMeter x := by
  obtain ⟨⟨h₀, h₀'⟩, h₁, h₁'⟩ := meterOrder
  by_cases hlow : x < 0.0
  · simp only [clampMeter, if_pos hlow, if_neg h₀', if_neg h₀]
  · by_cases hhigh : x > 100.0
    · simp only [clampMeter, if_neg hlow, if_pos hhigh, if_neg h₁, if_neg h₁']
    · simp only [clampMeter, if_neg hlow, if_neg hhigh]

namespace Variables

/-- A value that a write to a variable of a kind leaves. -/
def Left (kind : Kind) (value : Value) : Prop := ∃ x, fit? kind x = some value

/-- What was left by a write is written as it is. -/
theorem Left.fit? {kind : Kind} {value : Value} (h : Left kind value) :
    fit? kind value = some value := by
  obtain ⟨x, hx⟩ := h
  cases kind with
  | meter =>
    cases x with
    | number x =>
      cases hx
      rw [Variables.fit?, clampMeter_clampMeter]
    | bool b => cases hx
    | text s => cases hx
  | counter =>
    cases x with
    | number x => cases hx; rfl
    | bool b => cases hx
    | text s => cases hx
  | flag =>
    cases x with
    | bool b => cases hx; rfl
    | number x => cases hx
    | text s => cases hx

theorem left_default {d : Declaration} (h : d.Made) : Left d.kind d.default := by
  cases h with
  | meter name default => exact ⟨.number default, rfl⟩
  | counter name default => exact ⟨.number default, rfl⟩
  | flag name default => exact ⟨.bool default, rfl⟩

/-- An addition is the write of a sum: where it is refused, so is the write. -/
theorem increase_eq_set (v : Variables) (name : String) (delta : Float) :
    v.increase name delta = v.set name (.number ((v.number? name).getD 0.0 + delta)) := by
  unfold increase increase? set
  cases hd : v.schema.find? name with
  | none =>
    rw [write?, hd]
    rfl
  | some d =>
    simp only [Option.bind_eq_bind, Option.bind_some]
    split
    · next hflag =>
      -- a flag takes no number
      rw [write?, hd, Option.bind_eq_bind, Option.bind_some, hflag]
      rfl
    · rfl

/-! ## Variables that suit a schema -/

/-- The variables of a schema: the declared ones have values, each left by a write, and
no others do. -/
structure Suits (v : Variables) (s : Schema) : Prop where
  schema : v.schema = s
  left : ∀ name value, v.get? name = some value →
    ∃ d, s.find? name = some d ∧ Left d.kind value
  full : ∀ name d, s.find? name = some d → (v.get? name).isSome

variable {v w : Variables} {s : Schema}

/-- A value of the defaults is that of a declaration. -/
theorem exists_of_get?_ofSchema {name : String} {value : Value}
    (h : (ofSchema s).get? name = some value) :
    ∃ d ∈ s.declarations, d.name = name ∧ d.default = value := by
  suffices hs : ∀ (ds : List Declaration) (t : Table Value),
      ((ds.map fun d => (d.name, d.default)).foldl (fun t e => t.insert e.1 e.2) t).get? name =
        some value → t.get? name = some value ∨ ∃ d ∈ ds, d.name = name ∧ d.default = value by
    exact (hs s.declarations .empty h).resolve_left nofun
  intro ds
  induction ds with
  | nil => exact fun t h => .inl h
  | cons d ds ih =>
    intro t h
    rcases ih _ h with h | ⟨e, he, hname, hvalue⟩
    · rw [Table.get?_insert] at h
      split at h
      · next hn =>
        exact .inr ⟨d, List.mem_cons_self, hn.symm, Option.some.inj h⟩
      · exact .inl h
    · exact .inr ⟨e, List.mem_cons_of_mem _ he, hname, hvalue⟩

theorem isSome_get?_ofSchema {d : Declaration} (hd : d ∈ s.declarations) :
    ((ofSchema s).get? d.name).isSome := by
  suffices hs : ∀ (ds : List Declaration) (t : Table Value), (t.get? d.name).isSome ∨ d ∈ ds →
      (((ds.map fun d => (d.name, d.default)).foldl (fun t e => t.insert e.1 e.2) t).get?
        d.name).isSome from hs s.declarations .empty (.inr hd)
  intro ds
  induction ds with
  | nil => exact fun t h => h.resolve_right List.not_mem_nil
  | cons e ds ih =>
    intro t h
    refine ih _ ?_
    rw [Table.get?_insert]
    rcases h with h | h
    · split
      · exact .inl rfl
      · exact .inl h
    · rcases List.mem_cons.1 h with rfl | h
      · rw [if_pos rfl]
        exact .inl rfl
      · exact .inr h

/-- The defaults are those of the declarations that are found. -/
theorem get?_ofSchema (honce : s.declarations.Pairwise (fun a b => a.name ≠ b.name))
    (name : String) : (ofSchema s).get? name = (s.find? name).map (·.default) := by
  cases hd : s.find? name with
  | none =>
    refine Option.eq_none_iff_forall_ne_some.2 fun value hvalue => ?_
    obtain ⟨d, hmem, rfl, -⟩ := exists_of_get?_ofSchema hvalue
    rw [Schema.find?_name_of_once honce hmem] at hd
    cases hd
  | some d =>
    obtain ⟨hmem, rfl⟩ := Schema.mem_of_find? hd
    obtain ⟨value, hvalue⟩ := Option.isSome_iff_exists.1 (isSome_get?_ofSchema hmem)
    -- the value is that of some declaration of the name, of which there is only this one
    obtain ⟨d', hmem', hname, rfl⟩ := exists_of_get?_ofSchema hvalue
    have hd' := Schema.find?_name_of_once honce hmem'
    rw [hname, hd] at hd'
    cases hd'
    exact hvalue

theorem suits_ofSchema (h : s.Built) : (ofSchema s).Suits s := by
  refine ⟨rfl, fun name value hv => ?_, fun name d hd => ?_⟩
  · obtain ⟨d, hd, rfl, rfl⟩ := exists_of_get?_ofSchema hv
    exact ⟨d, h.find?_name hd, left_default (h.made hd)⟩
  · obtain ⟨hmem, rfl⟩ := Schema.mem_of_find? hd
    exact isSome_get?_ofSchema hmem

theorem Suits.write? {name : String} {value : Value} (h : v.Suits s)
    (hw : v.write? name value = some w) : w.Suits s := by
  refine ⟨(schema_of_write? hw).trans h.schema, fun k x hx => ?_, fun k d hd => ?_⟩
  · rw [get?_of_write? hw] at hx
    split at hx
    · next hk =>
      obtain ⟨d, hd, hfit⟩ := Option.bind_eq_some_iff.1 hx
      rw [h.schema] at hd
      exact ⟨d, hk ▸ hd, value, hfit⟩
    · exact h.left k x hx
  · rw [get?_of_write? hw]
    split
    · next hk =>
      unfold Variables.write? at hw
      simp only [Option.bind_eq_bind, Option.bind_eq_some_iff] at hw
      obtain ⟨e, he, x, hx, -⟩ := hw
      rw [he, Option.bind_some, hx]
      rfl
    · exact h.full k d hd

theorem Suits.getD {x : Option Variables} (h : v.Suits s) (hx : ∀ w, x = some w → w.Suits s) :
    (x.getD v).Suits s := by
  cases x with
  | none => exact h
  | some w => exact hx w rfl

theorem Suits.set (h : v.Suits s) (name : String) (value : Value) : (v.set name value).Suits s :=
  h.getD fun _ hw => h.write? hw

theorem Suits.increase (h : v.Suits s) (name : String) (delta : Float) :
    (v.increase name delta).Suits s := by
  rw [increase_eq_set]
  exact h.set name _

theorem Suits.applyImpact (h : v.Suits s) (impact : Table Float) :
    (v.applyImpact impact).Suits s := by
  unfold Variables.applyImpact
  induction impact.entries generalizing v with
  | nil => exact h
  | cons e es ih => exact ih (h.increase e.1 e.2)

theorem Suits.foldl_set (h : v.Suits s) (es : List (String × Value)) :
    (es.foldl (fun v e => v.set e.1 e.2) v).Suits s := by
  induction es generalizing v with
  | nil => exact h
  | cons e es ih => exact ih (h.set e.1 e.2)

theorem Suits.reset (h : v.Suits s) (hs : s.Built) : v.reset.Suits s := by
  rw [Variables.reset, h.schema]
  exact suits_ofSchema hs

/-- Whatever was saved, what is restored suits the schema. -/
theorem Suits.restore (h : v.Suits s) (hs : s.Built) (saved : Table Value) :
    (v.restore saved).Suits s := (h.reset hs).foldl_set saved.entries

/-! ## Taking over what was saved -/

/-- Values that suit the schema are all written. -/
theorem foldl_set_eq {es : List (String × Value)}
    (h : ∀ e ∈ es, ∃ d, v.schema.find? e.1 = some d ∧ fit? d.kind e.2 = some e.2) :
    es.foldl (fun v e => v.set e.1 e.2) v =
      ⟨v.schema, es.foldl (fun t e => t.insert e.1 e.2) v.values⟩ := by
  induction es generalizing v with
  | nil => rfl
  | cons e es ih =>
    obtain ⟨⟨d, hd, hfit⟩, hrest⟩ := List.forall_mem_cons.1 h
    have hset : v.set e.1 e.2 = ⟨v.schema, v.values.insert e.1 e.2⟩ := by
      simp only [Variables.set, Variables.write?, hd, hfit, Option.bind_eq_bind, Option.bind_some,
        Option.pure_def, Option.getD_some]
    rw [List.foldl_cons, List.foldl_cons, hset]
    exact ih hrest

/-- Variables that suit the schema are restored from their own values as they are. -/
theorem Suits.restore_values (h : v.Suits s) (hs : s.Built) (hw : w.schema = s) :
    w.restore v.values = v := by
  have hfit : ∀ e ∈ v.values.entries,
      ∃ d, w.reset.schema.find? e.1 = some d ∧ fit? d.kind e.2 = some e.2 := by
    intro e he
    obtain ⟨d, hd, hleft⟩ := h.left e.1 e.2 (Table.get?_eq_some_iff.2 he)
    refine ⟨d, ?_, hleft.fit?⟩
    rw [← hd, ← hw]
    rfl
  rw [Variables.restore, foldl_set_eq hfit]
  have hvalues : v.values.entries.foldl (fun t e => t.insert e.1 e.2) w.reset.values =
      v.values := by
    refine Table.ext_get? fun k => ?_
    rw [Table.get?_foldl_insert v.values.sorted]
    change (v.get? k).or ((ofSchema w.schema).get? k) = v.get? k
    cases hk : v.get? k with
    | some value => rfl
    | none =>
      -- a name without a value is not declared, so it has no default either
      cases hd : (ofSchema w.schema).get? k with
      | none => rfl
      | some value =>
        rw [hw] at hd
        obtain ⟨d, hmem, rfl, -⟩ := exists_of_get?_ofSchema hd
        have hsome := h.full _ d (hs.find?_name hmem)
        rw [hk] at hsome
        cases hsome
  have hschema : w.reset.schema = v.schema := by
    rw [h.schema, ← hw]
    rfl
  rw [hvalues, hschema]

end Variables

end StoryChat
