/-
Finite tables from names to values.

Story variables, the impact of a choice, save slots and the files of a folder are all
the same thing: a value for each of finitely many names, with one order in which the
names are listed (`BTreeMap`). A `Table` keeps its entries in the order of their names
and keeps each name once, and says so in its type. The pay-off is extensionality: two
tables that answer every look-up alike are equal, so every law about a write can be
stated, and used, through `get?` alone.
-/

set_option autoImplicit false

namespace StoryChat

/-- A value for each of finitely many names, listed in the order of the names
(`BTreeMap<String, _>`). -/
structure Table (α : Type) where
  /-- The names and their values. -/
  entries : List (String × α)
  /-- Each name occurs once, and the names increase. -/
  sorted : entries.Pairwise (fun a b => a.1 < b.1)
  deriving DecidableEq

namespace Table

variable {α : Type}

/-- The table without entries. -/
def empty : Table α := ⟨[], .nil⟩

instance : Inhabited (Table α) := ⟨empty⟩

/-- The value of a name, if it has one (`BTreeMap::get`). -/
def get? (t : Table α) (name : String) : Option α := t.entries.lookup name

/-- The names that have a value, in order. -/
def names (t : Table α) : List String := t.entries.map (·.1)

/-! ## Writing

A write replaces the entry of its name or puts a new one where the order wants
it, so the invariant is kept by construction. -/

/-- Entries with the value of `name` set to `value`. -/
def insertEntry (name : String) (value : α) : List (String × α) → List (String × α)
  | [] => [(name, value)]
  | (n, v) :: rest =>
    if name = n then (name, value) :: rest
    else if name < n then (name, value) :: (n, v) :: rest
    else (n, v) :: insertEntry name value rest

theorem mem_insertEntry {name : String} {value : α} {es : List (String × α)}
    {e : String × α} (h : e ∈ insertEntry name value es) : e = (name, value) ∨ e ∈ es := by
  induction es with
  | nil => simpa [insertEntry] using h
  | cons x rest ih =>
    obtain ⟨n, v⟩ := x
    unfold insertEntry at h
    split at h
    · rcases List.mem_cons.1 h with h | h
      · exact .inl h
      · exact .inr (List.mem_cons_of_mem _ h)
    · split at h
      · rcases List.mem_cons.1 h with h | h
        · exact .inl h
        · exact .inr h
      · rcases List.mem_cons.1 h with h | h
        · exact .inr (h ▸ List.mem_cons_self)
        · exact (ih h).imp id (List.mem_cons_of_mem _)

theorem sorted_insertEntry (name : String) (value : α) {es : List (String × α)}
    (h : es.Pairwise (fun a b => a.1 < b.1)) :
    (insertEntry name value es).Pairwise (fun a b => a.1 < b.1) := by
  induction es with
  | nil => simp [insertEntry]
  | cons x rest ih =>
    obtain ⟨n, v⟩ := x
    obtain ⟨hx, hr⟩ := List.pairwise_cons.1 h
    unfold insertEntry
    split
    · next e => subst e; exact List.pairwise_cons.2 ⟨hx, hr⟩
    · next hne =>
      split
      · next hlt =>
        refine List.pairwise_cons.2 ⟨fun a ha => ?_, h⟩
        rcases List.mem_cons.1 ha with rfl | ha
        · exact hlt
        · exact String.lt_trans hlt (hx a ha)
      · next hnlt =>
        refine List.pairwise_cons.2 ⟨fun a ha => ?_, ih hr⟩
        rcases mem_insertEntry ha with rfl | ha
        · refine Decidable.byContradiction fun hc => hne ?_
          exact String.le_antisymm (String.not_lt.1 hc) (String.not_lt.1 hnlt)
        · exact hx a ha

/-- The table with the value of `name` set to `value` (`BTreeMap::insert`). -/
def insert (t : Table α) (name : String) (value : α) : Table α :=
  ⟨insertEntry name value t.entries, sorted_insertEntry name value t.sorted⟩

/-- The table without a value for `name` (`BTreeMap::remove`). -/
def erase (t : Table α) (name : String) : Table α :=
  ⟨t.entries.filter (fun e => e.1 != name), t.sorted.filter _⟩

/-- The table of a list of writes: of two for one name the later counts. -/
def ofList (es : List (String × α)) : Table α :=
  es.foldl (fun t e => t.insert e.1 e.2) empty

/-! ## Look-up after a write -/

section

variable {κ : Type} [BEq κ] [LawfulBEq κ] [DecidableEq κ]

theorem lookup_cons_ite (n : κ) (v : α) (rest : List (κ × α)) (k : κ) :
    ((n, v) :: rest).lookup k = if k = n then some v else rest.lookup k := by
  rw [List.lookup_cons]
  by_cases h : k = n
  · simp [h]
  · have hb : (k == n) = false := beq_false_of_ne h
    simp [hb, h]

theorem lookup_filter_ne (name : κ) (es : List (κ × α)) (k : κ) :
    (es.filter (fun e => e.1 != name)).lookup k = if k = name then none else es.lookup k := by
  induction es with
  | nil => simp
  | cons x rest ih =>
    obtain ⟨n, v⟩ := x
    by_cases hn : n = name
    · subst hn
      rw [List.filter_cons_of_neg (by simp), ih, lookup_cons_ite]
      by_cases h : k = n <;> simp [h]
    · by_cases h : k = n
      · subst h; simp [hn]
      · simp [hn, h, lookup_cons_ite, ih]

end

@[simp] theorem get?_empty (name : String) : (empty : Table α).get? name = none := rfl

theorem lookup_insertEntry (name : String) (value : α) (es : List (String × α)) (k : String) :
    (insertEntry name value es).lookup k = if k = name then some value else es.lookup k := by
  induction es with
  | nil => simp [insertEntry, lookup_cons_ite]
  | cons x rest ih =>
    obtain ⟨n, v⟩ := x
    unfold insertEntry
    split
    · next e => subst e; by_cases h : k = name <;> simp [lookup_cons_ite, h]
    · next hne =>
      split
      · simp [lookup_cons_ite]
      · by_cases h : k = n
        · subst h; simp [Ne.symm hne]
        · simp [lookup_cons_ite, h, ih]

@[simp] theorem get?_insert (t : Table α) (name : String) (value : α) (k : String) :
    (t.insert name value).get? k = if k = name then some value else t.get? k :=
  lookup_insertEntry name value t.entries k

@[simp] theorem get?_erase (t : Table α) (name k : String) :
    (t.erase name).get? k = if k = name then none else t.get? k :=
  lookup_filter_ne name t.entries k

/-! ## Extensionality -/

theorem lookup_eq_some_iff_mem {es : List (String × α)}
    (h : es.Pairwise (fun a b => a.1 < b.1)) {k : String} {v : α} :
    es.lookup k = some v ↔ (k, v) ∈ es := by
  induction es with
  | nil => simp
  | cons x rest ih =>
    obtain ⟨n, w⟩ := x
    obtain ⟨hx, hr⟩ := List.pairwise_cons.1 h
    by_cases hk : k = n
    · subst hk
      simp only [lookup_cons_ite, if_true, List.mem_cons, Prod.mk.injEq, true_and]
      refine ⟨fun e => .inl (Option.some.inj e).symm, fun e => ?_⟩
      rcases e with e | e
      · rw [e]
      · exact absurd (hx _ e) (String.lt_irrefl _)
    · simp [lookup_cons_ite, hk, ih hr]

/-- Having a value is being listed with it. -/
theorem get?_eq_some_iff {t : Table α} {k : String} {v : α} :
    t.get? k = some v ↔ (k, v) ∈ t.entries :=
  lookup_eq_some_iff_mem t.sorted

theorem mem_names_iff {t : Table α} {k : String} : k ∈ t.names ↔ (t.get? k).isSome := by
  rw [Option.isSome_iff_exists]
  simp [names, get?_eq_some_iff]

theorem entries_eq_of_mem_iff {a b : List (String × α)}
    (ha : a.Pairwise (fun x y => x.1 < y.1)) (hb : b.Pairwise (fun x y => x.1 < y.1))
    (h : ∀ e, e ∈ a ↔ e ∈ b) : a = b := by
  induction a generalizing b with
  | nil =>
    cases b with
    | nil => rfl
    | cons y _ => exact absurd ((h y).2 List.mem_cons_self) (by simp)
  | cons x a ih =>
    cases b with
    | nil => exact absurd ((h x).1 List.mem_cons_self) (by simp)
    | cons y b =>
      obtain ⟨hxa, hra⟩ := List.pairwise_cons.1 ha
      obtain ⟨hyb, hrb⟩ := List.pairwise_cons.1 hb
      -- the heads agree: otherwise each would stand behind the other
      have hxy : x = y := by
        rcases List.mem_cons.1 ((h x).1 List.mem_cons_self) with e | hx
        · exact e
        rcases List.mem_cons.1 ((h y).2 List.mem_cons_self) with e | hy
        · exact e.symm
        exact absurd (String.lt_trans (hyb x hx) (hxa y hy)) (String.lt_irrefl _)
      subst hxy
      refine congrArg (x :: ·) (ih hra hrb fun e => ?_)
      constructor
      · intro he
        rcases List.mem_cons.1 ((h e).1 (List.mem_cons_of_mem _ he)) with e' | e'
        · subst e'; exact absurd (hxa _ he) (String.lt_irrefl _)
        · exact e'
      · intro he
        rcases List.mem_cons.1 ((h e).2 (List.mem_cons_of_mem _ he)) with e' | e'
        · subst e'; exact absurd (hyb _ he) (String.lt_irrefl _)
        · exact e'

/-- Two tables that answer every look-up alike are equal. -/
theorem ext_get? {s t : Table α} (h : ∀ k, s.get? k = t.get? k) : s = t := by
  have key : s.entries = t.entries := by
    refine entries_eq_of_mem_iff s.sorted t.sorted fun e => ?_
    obtain ⟨k, v⟩ := e
    rw [← get?_eq_some_iff, ← get?_eq_some_iff, h k]
  cases s; cases t; cases key; rfl

/-- Where names increase, the first one does not come again. -/
theorem lookup_eq_none_of_cons {n : String} {v : α} {rest : List (String × α)}
    (h : ((n, v) :: rest).Pairwise (fun a b => a.1 < b.1)) : rest.lookup n = none := by
  obtain ⟨hn, hrest⟩ := List.pairwise_cons.1 h
  refine Option.eq_none_iff_forall_ne_some.2 fun w hw => ?_
  exact absurd (hn _ ((lookup_eq_some_iff_mem hrest).1 hw)) (String.lt_irrefl _)

/-- Where names increase, a list of writes lays its own look-up over the table's. -/
theorem get?_foldl_insert {es : List (String × α)} (h : es.Pairwise (fun a b => a.1 < b.1))
    (t : Table α) (k : String) :
    (es.foldl (fun t e => t.insert e.1 e.2) t).get? k = (es.lookup k).or (t.get? k) := by
  induction es generalizing t with
  | nil => simp
  | cons x rest ih =>
    obtain ⟨n, v⟩ := x
    rw [List.foldl_cons, ih h.of_cons]
    by_cases hk : k = n
    · subst hk
      simp [lookup_eq_none_of_cons h]
    · simp [lookup_cons_ite, hk]

/-- Writing the entries of a table into an empty one gives the table back. -/
theorem ofList_entries (t : Table α) : ofList t.entries = t := by
  refine ext_get? fun k => ?_
  rw [ofList, get?_foldl_insert t.sorted, get?_empty, Option.or_none]
  rfl

end Table

end StoryChat
