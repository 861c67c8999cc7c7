/-
The last declaration of a name is the one that counts.

A name is looked up from the front (`Schema.find?`), where the first declaration answers, while
the first values are written one after the other (`Variables.ofSchema`), where the last one
stays. Both speak of the same declaration only because there are never two for a name: declaring
takes the older one back (`Schema.declare`). So what is left of a sequence of declarations are
those that were not taken back, in the order in which they were made, and a variable has its kind
and its first value from one and the same of them.
-/
import StoryChat.Proofs.Story.Variables
import Mathlib.Data.List.Induction

set_option autoImplicit false

namespace StoryChat.Schema

variable {ds : List Declaration} {d x : Declaration} {i : Nat}

/-! ## Declarations that are not taken back -/

/-- Whether a declaration is made at a place of a sequence and its name is not declared again
behind that place. -/
structure Final (ds : List Declaration) (i : Nat) (d : Declaration) : Prop where
  made : ds[i]? = some d
  kept : ∀ e ∈ ds.drop (i + 1), e.name ≠ d.name

theorem Final.lt_length (h : Final ds i d) : i < ds.length :=
  (List.getElem?_eq_some_iff.1 h.made).1

/-- What is made last is not taken back. -/
theorem final_last (ds : List Declaration) (x : Declaration) :
    Final (ds ++ [x]) ds.length x where
  made := List.getElem?_concat_length
  kept e he := by
    have hlength : (ds ++ [x]).length = ds.length + 1 := List.length_append
    rw [List.drop_eq_nil_of_le (Nat.le_of_eq hlength)] at he
    cases he

/-- One more declaration takes back the one of its name, and no other. -/
theorem Final.snoc (h : Final ds i d) (hx : x.name ≠ d.name) : Final (ds ++ [x]) i d where
  made := by
    rw [List.getElem?_append_left h.lt_length]
    exact h.made
  kept e he := by
    rw [List.drop_append_of_le_length h.lt_length] at he
    rcases List.mem_append.1 he with he | he
    · exact h.kept e he
    · rwa [List.mem_singleton.1 he]

/-- What is final with one more declaration is this one or was final before. -/
theorem Final.of_snoc (h : Final (ds ++ [x]) i d) : d = x ∨ Final ds i d ∧ x.name ≠ d.name := by
  have hlt : i < ds.length + 1 := by simpa using h.lt_length
  rcases Nat.lt_succ_iff_lt_or_eq.1 hlt with hi | rfl
  · have hdrop : (ds ++ [x]).drop (i + 1) = ds.drop (i + 1) ++ [x] :=
      List.drop_append_of_le_length hi
    refine .inr ⟨⟨?_, fun e he => ?_⟩, ?_⟩
    · rw [← List.getElem?_append_left hi, h.made]
    · exact h.kept e (hdrop ▸ List.mem_append_left _ he)
    · exact h.kept x (hdrop ▸ List.mem_append_right _ List.mem_cons_self)
  · left
    exact Option.some.inj (h.made.symm.trans List.getElem?_concat_length)

/-- A name that is declared at all has a final declaration. -/
theorem exists_final (hd : d ∈ ds) : ∃ i e, Final ds i e ∧ e.name = d.name := by
  induction ds using List.reverseRecOn with
  | nil => cases hd
  | append_singleton ds x ih =>
    rcases List.mem_append.1 hd with hd | hd
    · obtain ⟨i, e, he, hname⟩ := ih hd
      by_cases hx : x.name = e.name
      · exact ⟨_, x, final_last ds x, hx.trans hname⟩
      · exact ⟨i, e, he.snoc hx, hname⟩
    · rw [List.mem_singleton.1 hd]
      exact ⟨_, x, final_last ds x, rfl⟩

/-! ## What declaring leaves -/

/-- The step of declaring, from the end of the sequence. -/
theorem declarations_ofList_snoc (ds : List Declaration) (x : Declaration) :
    (ofList (ds ++ [x])).declarations =
      (ofList ds).declarations.filter (·.name != x.name) ++ [x] := by
  rw [ofList, List.foldl_append]
  rfl

/-- The declarations that are left are those that were not taken back. -/
theorem mem_declarations_iff : d ∈ (ofList ds).declarations ↔ ∃ i, Final ds i d := by
  -- from the end of the sequence, as the last declaration takes back what stands before it
  induction ds using List.reverseRecOn with
  | nil => exact ⟨nofun, fun ⟨i, h⟩ => absurd h.lt_length (Nat.not_lt_zero i)⟩
  | append_singleton ds x ih =>
    rw [declarations_ofList_snoc, List.mem_append, List.mem_filter, List.mem_singleton, ih]
    constructor
    · rintro (⟨⟨i, h⟩, hx⟩ | rfl)
      · have hne : d.name ≠ x.name := by simpa using hx
        exact ⟨i, h.snoc hne.symm⟩
      · exact ⟨_, final_last ds d⟩
    · rintro ⟨i, h⟩
      rcases h.of_snoc with rfl | ⟨h, hne⟩
      · exact .inr rfl
      · exact .inl ⟨⟨i, h⟩, by simpa using hne.symm⟩

/-- Whether of two final declarations one was made before the other. -/
def Before (ds : List Declaration) (a b : Declaration) : Prop :=
  ∃ i j, i < j ∧ Final ds i a ∧ Final ds j b

/-- They are left in the order in which they were made. -/
theorem pairwise_before (ds : List Declaration) :
    (ofList ds).declarations.Pairwise (Before ds) := by
  induction ds using List.reverseRecOn with
  | nil => exact .nil
  | append_singleton ds x ih =>
    have hother {e : Declaration} (he : e ∈ (ofList ds).declarations.filter (·.name != x.name)) :
        e ∈ (ofList ds).declarations ∧ x.name ≠ e.name := by
      obtain ⟨hmem, hx⟩ := List.mem_filter.1 he
      exact ⟨hmem, by simpa using Ne.symm (by simpa using hx)⟩
    rw [declarations_ofList_snoc]
    refine List.pairwise_append.2 ⟨?_, List.pairwise_singleton _ _, fun a ha b hb => ?_⟩
    · -- of those that stay, none is taken back by the new one
      refine (ih.filter _).imp_of_mem fun ha hb hbefore => ?_
      obtain ⟨i, j, hlt, hi, hj⟩ := hbefore
      exact ⟨i, j, hlt, hi.snoc (hother ha).2, hj.snoc (hother hb).2⟩
    · obtain ⟨i, hi⟩ := mem_declarations_iff.1 (hother ha).1
      rw [List.mem_singleton.1 hb]
      exact ⟨i, _, hi.lt_length, hi.snoc (hother ha).2, final_last ds x⟩

theorem find?_ofList_eq_some_iff {name : String} :
    (ofList ds).find? name = some d ↔ d.name = name ∧ ∃ i, Final ds i d := by
  rw [← mem_declarations_iff]
  constructor
  · intro h
    exact (mem_of_find? h).symm
  · rintro ⟨rfl, hd⟩
    exact find?_name_of_once (names_once ds) hd

/-! ## The first values -/

/-- There are first values for the names that were declared, and for no others. -/
theorem mem_names_ofSchema_iff {name : String} :
    name ∈ (Variables.ofSchema (ofList ds)).values.names ↔ ∃ d ∈ ds, d.name = name := by
  rw [Table.mem_names_iff]
  change ((Variables.ofSchema (ofList ds)).get? name).isSome ↔ _
  rw [Variables.get?_ofSchema (names_once ds), Option.isSome_map, Option.isSome_iff_exists]
  constructor
  · rintro ⟨d, hd⟩
    obtain ⟨hmem, hname⟩ := mem_of_find? hd
    exact ⟨d, mem_of_mem_ofList hmem, hname⟩
  · rintro ⟨d, hd, rfl⟩
    obtain ⟨i, e, he, hname⟩ := exists_final hd
    exact ⟨e, find?_ofList_eq_some_iff.2 ⟨hname, i, he⟩⟩

/-- A schema that is built up by declaring (`Schema.ofList`) has each name once. What is found
for a name is the last declaration of it, and the declarations stand in the order in which the
last ones were made. The variables start with a value for each name that was declared and for
no other, the one that is given by the declaration that is found. -/
theorem keeps_last_declarations (ds : List Declaration) :
    (ofList ds).declarations.Pairwise (fun a b => a.name ≠ b.name) ∧
    (∀ name d, (ofList ds).find? name = some d ↔ d.name = name ∧ ∃ i, Final ds i d) ∧
    (∀ d, d ∈ (ofList ds).declarations ↔ ∃ i, Final ds i d) ∧
    (ofList ds).declarations.Pairwise (Before ds) ∧
    ∀ name,
      (name ∈ (Variables.ofSchema (ofList ds)).values.names ↔ ∃ d ∈ ds, d.name = name) ∧
      (Variables.ofSchema (ofList ds)).get? name = ((ofList ds).find? name).map (·.default) :=
  ⟨names_once ds, fun _ _ => find?_ofList_eq_some_iff, fun _ => mem_declarations_iff,
    pairwise_before ds,
    fun name => ⟨mem_names_ofSchema_iff, Variables.get?_ofSchema (names_once ds) name⟩⟩

/-- A meter that is declared again as a flag is one, and stands behind the counter. -/
example : ofList [.meter "tension" 5, .counter "points" 1, .flag "tension" true] =
    ⟨[.counter "points" 1, .flag "tension" true]⟩ := by decide

end StoryChat.Schema
