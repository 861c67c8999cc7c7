/-
An impact is a set of additions.

The additions of an impact are made one after the other (`Variables.applyImpact`), each through a
write that may be refused. But an addition (`Variables.increase`) looks at the variable of its own
name only, and an impact names a variable once. So no addition sees what another one has done:
they may be made in any order, and each of them may be thought of as the first, which gives the
value of its variable, while the others do not touch it. Nothing is asked of the numbers that are
added, which may be infinite or no-number.
-/
import StoryChat.Proofs.Story.Restoring
import Mathlib.Data.List.Pairwise

set_option autoImplicit false

namespace StoryChat

/-- What a variable of a kind that holds a number comes to hold when another number is added. A
meter is brought to an end of its range if the sum is beyond that end. A sum that is no-number is
beyond neither. -/
inductive Kind.Adds : Kind → Float → Float → Float → Prop where
  | counter (x delta : Float) : Adds .counter x delta (x + delta)
  | within {x delta : Float} : ¬ x + delta < 0.0 → ¬ 100.0 < x + delta →
    Adds .meter x delta (x + delta)
  | below {x delta : Float} : x + delta < 0.0 → Adds .meter x delta 0.0
  | above {x delta : Float} : 100.0 < x + delta → Adds .meter x delta 100.0

/-- Where names increase, none comes twice. -/
theorem Table.names_differ {α : Type} (t : Table α) :
    t.entries.Pairwise (fun a b => a.1 ≠ b.1) :=
  t.sorted.imp String.ne_of_lt

namespace Variables

variable {v w : Variables} {s : Schema} {name k : String} {delta : Float}
  {impact : Table Float} {es es' : List (String × Float)}

/-! ## One addition -/

theorem get?_increase_of_ne (h : k ≠ name) : (v.increase name delta).get? k = v.get? k := by
  rw [increase_eq_set, get?_set, if_neg h]

/-- What an addition comes to depends on the value of its own variable only. -/
theorem get?_increase_congr (hschema : w.schema = v.schema) (h : w.get? name = v.get? name)
    (delta : Float) : (w.increase name delta).get? name = (v.increase name delta).get? name := by
  have hnumber : w.number? name = v.number? name := by rw [number?, number?, h]
  rw [increase_eq_set, increase_eq_set, get?_set, get?_set, hschema, hnumber, h]

/-- A name that is not declared as a number is not added to. -/
theorem increase_of_refused (h : ∀ d, v.schema.find? name = some d → d.kind = .flag) :
    v.increase name delta = v := by
  unfold increase increase?
  cases hd : v.schema.find? name with
  | none => rfl
  | some d =>
    simp only [Option.bind_eq_bind, Option.bind_some]
    rw [if_pos (h d hd)]
    rfl

theorem exists_adds {kind : Kind} (h : kind ≠ .flag) (x delta : Float) :
    ∃ y, fit? kind (.number (x + delta)) = some (.number y) ∧ kind.Adds x delta y := by
  cases kind with
  | flag => exact absurd rfl h
  | counter => exact ⟨_, rfl, .counter x delta⟩
  | meter =>
    refine ⟨_, rfl, ?_⟩
    rcases clampMeter_cases (x + delta) with ⟨hlow, h⟩ | ⟨hhigh, h⟩ | ⟨hlow, hhigh, h⟩
    · rw [h]
      exact .below hlow
    · rw [h]
      exact .above hhigh
    · rw [h]
      exact .within hlow hhigh

/-- What is added to a variable that holds a number. -/
theorem exists_get?_increase {d : Declaration} {x : Float}
    (hd : v.schema.find? name = some d) (hkind : d.kind ≠ .flag)
    (hx : v.get? name = some (.number x)) (delta : Float) :
    ∃ y, d.kind.Adds x delta y ∧ (v.increase name delta).get? name = some (.number y) := by
  obtain ⟨y, hy, hadds⟩ := exists_adds hkind x delta
  have hnumber : v.number? name = some x := by
    rw [number?, hx]
    rfl
  refine ⟨y, hadds, ?_⟩
  rw [increase_eq_set, get?_set, if_pos rfl, hd, hnumber, Option.getD_some, Option.bind_some, hy]
  rfl

/-! ## Additions in any order -/

/-- Variables of one schema are the same if they have the same values. -/
theorem ext_get? (hschema : v.schema = w.schema) (h : ∀ k, v.get? k = w.get? k) : v = w := by
  obtain ⟨schema, values⟩ := v
  obtain ⟨schema', values'⟩ := w
  obtain rfl : schema = schema' := hschema
  obtain rfl : values = values' := Table.ext_get? h
  rfl

/-- The step lemma: additions to different variables commute. -/
theorem increase_comm {a b : String} (h : a ≠ b) (x y : Float) :
    (v.increase a x).increase b y = (v.increase b y).increase a x := by
  refine ext_get? ?_ fun k => ?_
  · simp only [schema_increase]
  -- under its own name each addition sees the same value, whether or not the other one was made
  by_cases ha : k = a
  · subst ha
    rw [get?_increase_of_ne h]
    exact (get?_increase_congr (schema_increase v b y) (get?_increase_of_ne h) x).symm
  · rw [get?_increase_of_ne ha]
    by_cases hb : k = b
    · subst hb
      exact get?_increase_congr (schema_increase v a x) (get?_increase_of_ne ha) y
    · rw [get?_increase_of_ne hb, get?_increase_of_ne ha, get?_increase_of_ne hb]

/-- The run lemma: where no name comes twice, the order of the additions does not matter. -/
theorem foldl_increase_of_perm (hperm : es'.Perm es) (h : es.Pairwise (fun a b => a.1 ≠ b.1))
    (v : Variables) : es'.foldl (fun v e => v.increase e.1 e.2) v =
      es.foldl (fun v e => v.increase e.1 e.2) v := by
  have : Std.Symm fun a b : String × Float => a.1 ≠ b.1 := ⟨fun _ _ => Ne.symm⟩
  refine hperm.foldl_eq' (fun a ha b hb u => ?_) v
  by_cases hab : a = b
  · rw [hab]
  · have hne : a.1 ≠ b.1 := h.forall (hperm.mem_iff.1 ha) (hperm.mem_iff.1 hb) hab
    exact increase_comm hne a.2 b.2

theorem get?_foldl_increase_of_ne (h : ∀ e ∈ es, k ≠ e.1) (v : Variables) :
    (es.foldl (fun v e => v.increase e.1 e.2) v).get? k = v.get? k := by
  induction es generalizing v with
  | nil => rfl
  | cons e es ih =>
    obtain ⟨he, hes⟩ := List.forall_mem_cons.1 h
    rw [List.foldl_cons, ih hes, get?_increase_of_ne he]

/-! ## Impacts -/

theorem get?_applyImpact_of_none (h : impact.get? name = none) (v : Variables) :
    (v.applyImpact impact).get? name = v.get? name := by
  refine get?_foldl_increase_of_ne (fun e he hname => ?_) v
  obtain ⟨n, delta⟩ := e
  obtain rfl : name = n := hname
  rw [Table.get?_eq_some_iff.2 he] at h
  cases h

/-- A variable that an impact names has the value that the addition alone gives it. -/
theorem get?_applyImpact (h : impact.get? name = some delta) (v : Variables) :
    (v.applyImpact impact).get? name = (v.increase name delta).get? name := by
  -- as the order does not matter, the addition to this variable is made first
  obtain ⟨before, after, hsplit⟩ := List.append_of_mem (Table.get?_eq_some_iff.1 h)
  have hperm : ((name, delta) :: (before ++ after)).Perm impact.entries := by
    rw [hsplit]
    exact List.perm_middle.symm
  have hdiffer : ((name, delta) :: (before ++ after)).Pairwise (fun a b => a.1 ≠ b.1) :=
    impact.names_differ.perm hperm.symm Ne.symm
  have hothers : ∀ e ∈ before ++ after, name ≠ e.1 := (List.pairwise_cons.1 hdiffer).1
  rw [applyImpact, ← foldl_increase_of_perm hperm impact.names_differ, List.foldl_cons]
  exact get?_foldl_increase_of_ne hothers _

theorem get?_applyImpact_of_refused (h : ∀ d, v.schema.find? name = some d → d.kind = .flag)
    (impact : Table Float) : (v.applyImpact impact).get? name = v.get? name := by
  cases hdelta : impact.get? name with
  | none => exact get?_applyImpact_of_none hdelta v
  | some delta => rw [get?_applyImpact hdelta, increase_of_refused h]

/-- Whether every meter and every counter holds a number. -/
def Numeric (v : Variables) : Prop :=
  ∀ name d, v.schema.find? name = some d → d.kind ≠ .flag → ∃ x, v.get? name = some (.number x)

theorem Typed.numeric (h : v.Typed s) : v.Numeric := by
  intro name d hd hkind
  rw [h.schema] at hd
  obtain ⟨value, hvalue⟩ := Option.isSome_iff_exists.1 (h.full name d hd)
  obtain ⟨d', hd', hof⟩ := h.ofKind name value hvalue
  obtain rfl := Option.some.inj (hd.symm.trans hd')
  cases value with
  | number x => exact ⟨x, hvalue⟩
  | bool | text =>
    cases hd : d.kind with
    | flag => exact absurd hd hkind
    | meter | counter =>
      rw [hd] at hof
      cases hof

/-- No name comes to have a value by an impact. -/
theorem Numeric.mem_names_applyImpact_iff (h : v.Numeric) (impact : Table Float) :
    name ∈ (v.applyImpact impact).values.names ↔ name ∈ v.values.names := by
  rw [Table.mem_names_iff, Table.mem_names_iff]
  change ((v.applyImpact impact).get? name).isSome ↔ (v.get? name).isSome
  by_cases hflag : ∀ d, v.schema.find? name = some d → d.kind = .flag
  · rw [get?_applyImpact_of_refused hflag]
  · -- a meter or a counter has a value before, and so it has one after
    obtain ⟨d, hd, hkind⟩ : ∃ d, v.schema.find? name = some d ∧ d.kind ≠ .flag := by
      simpa using hflag
    obtain ⟨x, hx⟩ := h name d hd hkind
    cases hdelta : impact.get? name with
    | none => rw [get?_applyImpact_of_none hdelta]
    | some delta =>
      obtain ⟨y, -, hy⟩ := exists_get?_increase hd hkind hx delta
      rw [get?_applyImpact hdelta, hx, hy]
      exact Iff.rfl

/-- The additions of an impact (`Variables.applyImpact`) are independent. Each meter and each
counter that it names comes to hold what the addition to this variable alone gives from its
value before: the sum, and for a meter the end of the range that the sum is beyond. Flags and
all other variables keep their values, no name comes to have one, and the additions may be
made in any order. -/
theorem impact_adds_independently (h : v.Numeric) (impact : Table Float) :
    (∀ name d delta, v.schema.find? name = some d → d.kind ≠ .flag →
      impact.get? name = some delta → ∃ x y, v.get? name = some (.number x) ∧
        d.kind.Adds x delta y ∧ (v.increase name delta).get? name = some (.number y) ∧
        (v.applyImpact impact).get? name = some (.number y)) ∧
    (∀ name, (∀ d, v.schema.find? name = some d → d.kind = .flag) ∨ impact.get? name = none →
      (v.applyImpact impact).get? name = v.get? name) ∧
    (v.applyImpact impact).schema = v.schema ∧
    (∀ name, name ∈ (v.applyImpact impact).values.names ↔ name ∈ v.values.names) ∧
    ∀ es : List (String × Float), es.Perm impact.entries →
      es.foldl (fun v e => v.increase e.1 e.2) v = v.applyImpact impact := by
  refine ⟨fun name d delta hd hkind hdelta => ?_, fun name hname => ?_, schema_applyImpact v impact,
    fun _ => h.mem_names_applyImpact_iff impact,
    fun es hperm => foldl_increase_of_perm hperm impact.names_differ v⟩
  · obtain ⟨x, hx⟩ := h name d hd hkind
    obtain ⟨y, hadds, hy⟩ := exists_get?_increase hd hkind hx delta
    exact ⟨x, y, hx, hadds, hy, (get?_applyImpact hdelta v).trans hy⟩
  · rcases hname with hflag | hnone
    · exact get?_applyImpact_of_refused hflag impact
    · exact get?_applyImpact_of_none hnone v

/-- An impact on two meters, which it takes beyond their ends, on a counter, on a flag and on
what is no variable. -/
def sweeping : Table Float :=
  .ofList [("valeria_affection", -130), ("tension", 60), ("quiz_points", 5), ("is_liar", 1),
    ("ghost", 3)]

/-- Variables of which two are not at their defaults. -/
def tense : Variables :=
  ((ofSchema .standard).set "tension" (.number 55)).set "valeria_affection" (.number 100)

theorem impact_adds_independently_sweeping : tense.Numeric ∧
    ∃ v : Variables, v = tense.applyImpact sweeping ∧
      v.get? "valeria_affection" = some (.number 0) ∧ v.get? "tension" = some (.number 100) ∧
      v.get? "quiz_points" = some (.number 5) ∧ v.get? "is_liar" = some (.bool false) ∧
      v.get? "mistery_level" = some (.number 0) ∧ "ghost" ∉ v.values.names ∧
      sweeping.entries.reverse.foldl (fun v e => v.increase e.1 e.2) tense = v := by
  have hnumeric : tense.Numeric :=
    (((typed_ofSchema Schema.proper_standard).set "tension" (by decide)).set "valeria_affection"
      (by decide)).numeric
  obtain ⟨hnumbers, hothers, -, hnames, horder⟩ := impact_adds_independently hnumeric sweeping
  -- below its least value, above its greatest, a counter; no number, not named, not declared
  refine ⟨hnumeric, _, rfl, ?_, ?_, ?_, ?_, ?_, ?_, horder _ (List.reverse_perm _)⟩
  · obtain ⟨x, y, hx, hadds, -, hy⟩ := hnumbers "valeria_affection" _ _ rfl nofun rfl
    cases hx
    cases hadds with
    | below => exact hy
    | within hlow => exact absurd (by decide) hlow
    | above hhigh => exact absurd hhigh (by decide)
  · obtain ⟨x, y, hx, hadds, -, hy⟩ := hnumbers "tension" _ _ rfl nofun rfl
    cases hx
    cases hadds with
    | above => exact hy
    | within _ hhigh => exact absurd (by decide) hhigh
    | below hlow => exact absurd hlow (by decide)
  · obtain ⟨x, y, hx, hadds, -, hy⟩ := hnumbers "quiz_points" _ _ rfl nofun rfl
    cases hx
    cases hadds
    rw [hy]
    decide
  · rw [hothers "is_liar" (.inl fun d hd => ?_)]
    · decide
    · cases hd
      rfl
  · rw [hothers "mistery_level" (.inr rfl)]
    decide
  · rw [hnames "ghost"]
    decide

end Variables
end StoryChat
