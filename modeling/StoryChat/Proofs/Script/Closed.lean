/-
Scripts in which every way leads somewhere.

A node `Leads` to its successor, to the targets of its conditions and to those of its
options. A script is `Closed` if it has all the nodes that its nodes lead to. The
index of a graph finds a node for every identity that occurs in the script, though not
every node: of two with one identity it finds the later.
-/
import StoryChat.Script.Graph

set_option autoImplicit false

namespace StoryChat

/-! ## Where nodes lead -/

/-- Whether a node may lead to an identity. -/
def Node.Leads (n : Node) (id : String) : Prop :=
  n.next = some id ∨ (∃ c ∈ n.conditions, c.target = id) ∨ ∃ c ∈ n.choices, c.next = some id

theorem Node.leads_resolveNext {n : Node} {v : Variables} {id : String}
    (h : n.resolveNext v = some id) : n.Leads id := by
  unfold resolveNext at h
  split at h
  · next c hc =>
    cases h
    exact .inr (.inl ⟨c, List.mem_of_find?_eq_some hc, rfl⟩)
  · exact .inl h

namespace Document

/-- Whether a script has a node of an identity. -/
def Has (d : Document) (id : String) : Prop := ∃ n ∈ d.nodes, n.id = id

/-- A script that has nodes, and all that its nodes lead to. -/
structure Closed (d : Document) : Prop where
  nonempty : d.nodes ≠ []
  leads : ∀ n ∈ d.nodes, ∀ id, n.Leads id → d.Has id

end Document

/-! ## The index -/

namespace Graph

/-- What the index of some nodes says was there before or is the place of one of them. -/
theorem of_get?_indexFrom {start i : Nat} {index : Table Nat} {ns : List Node} {id : String}
    (h : (indexFrom start index ns).get? id = some i) :
    index.get? id = some i ∨ ∃ j n, i = start + j ∧ ns[j]? = some n ∧ n.id = id := by
  induction ns generalizing start index with
  | nil => exact .inl h
  | cons n ns ih =>
    rcases ih h with hi | ⟨j, n', rfl, hn, hid⟩
    · rw [Table.get?_insert] at hi
      split at hi
      · next he =>
        cases hi
        exact .inr ⟨0, n, rfl, rfl, he.symm⟩
      · exact .inl hi
    · exact .inr ⟨j + 1, n', by omega, hn, hid⟩

/-- An identity that was there before or is one of the nodes' is in the index. -/
theorem isSome_get?_indexFrom {start : Nat} {index : Table Nat} {ns : List Node} {id : String}
    (h : (index.get? id).isSome ∨ ∃ n ∈ ns, n.id = id) :
    ((indexFrom start index ns).get? id).isSome := by
  induction ns generalizing start index with
  | nil => exact h.resolve_right fun ⟨_, hn, _⟩ => by cases hn
  | cons n ns ih =>
    refine ih ?_
    rw [Table.get?_insert]
    rcases h with h | ⟨n', hn, hid⟩
    · split
      · exact .inl rfl
      · exact .inl h
    · rcases List.mem_cons.1 hn with rfl | hn
      · rw [if_pos hid.symm]
        exact .inl rfl
      · exact .inr ⟨n', hn, hid⟩

/-- What is found in the graph of a script is one of its nodes. -/
theorem mem_of_find? {d : Document} {id : String} {n : Node}
    (h : (ofDocument d).find? id = some n) : n ∈ d.nodes ∧ n.id = id := by
  rw [find?, Option.bind_eq_some_iff] at h
  obtain ⟨i, hi, hn⟩ := h
  rcases of_get?_indexFrom hi with hi' | ⟨j, n', rfl, hn', hid⟩
  · cases hi'
  · rw [ofDocument, List.getElem?_toArray, Nat.zero_add, hn'] at hn
    cases hn
    exact ⟨List.mem_of_getElem? hn', hid⟩

theorem contains_of_has {d : Document} {id : String} (h : d.Has id) :
    (ofDocument d).contains id = true :=
  isSome_get?_indexFrom (.inr h)

/-- In the graph of a script every identity that occurs in it is found. -/
theorem exists_find? {d : Document} {id : String} (h : d.Has id) :
    ∃ n, (ofDocument d).find? id = some n := by
  obtain ⟨i, hi⟩ := Option.isSome_iff_exists.1 (contains_of_has h)
  rcases of_get?_indexFrom hi with hi' | ⟨j, n, rfl, hn, -⟩
  · cases hi'
  · refine ⟨n, ?_⟩
    rw [find?, hi, Option.bind_some, ofDocument, List.getElem?_toArray, Nat.zero_add, hn]

theorem has_of_contains {d : Document} {id : String} (h : (ofDocument d).contains id = true) :
    d.Has id := by
  obtain ⟨i, hi⟩ := Option.isSome_iff_exists.1 h
  rcases of_get?_indexFrom hi with hi' | ⟨j, n, -, hn, hid⟩
  · cases hi'
  · exact ⟨n, List.mem_of_getElem? hn, hid⟩

/-- A script that has nodes is entered at one of them. -/
theorem has_entrance? {d : Document} (hd : d.nodes ≠ []) (preferred : String) :
    ∃ id, (ofDocument d).entrance? preferred = some id ∧ d.Has id := by
  unfold entrance?
  split
  · next h => exact ⟨preferred, rfl, has_of_contains h⟩
  · obtain ⟨n, ns, hn⟩ := List.exists_cons_of_ne_nil hd
    refine ⟨n.id, ?_, n, by rw [hn]; exact List.mem_cons_self, rfl⟩
    rw [ofDocument, List.getElem?_toArray, hn]
    rfl

end Graph

end StoryChat
