/-
Nodes are found by their last place.

The index of a script is written node by node (`Graph.indexFrom`), and of two nodes with one
identity the later writes over the place of the earlier. So the place that the index ends with is
that of the last node of an identity: a list of nodes that ends in others leaves the place alone.
All else that is asked of a graph follows from this: which identities it has (`Graph.contains`),
where it is entered (`Graph.entrance?`), and that a walk that begins at the entrance visits a
node there.
-/
import StoryChat.Engine.Walk
import StoryChat.Proofs.Script.Closed

set_option autoImplicit false

namespace StoryChat

/-! ## The last node of an identity -/

/-- Whether a node is the last one of a script with an identity. -/
def Document.LastOf (d : Document) (id : String) (n : Node) : Prop :=
  ∃ before after, d.nodes = before ++ n :: after ∧ n.id = id ∧ ∀ m ∈ after, m.id ≠ id

/-- Among nodes of which one has an identity there is a last one. -/
theorem exists_last {ns : List Node} {id : String} (h : ∃ n ∈ ns, n.id = id) :
    ∃ before n after, ns = before ++ n :: after ∧ n.id = id ∧ ∀ m ∈ after, m.id ≠ id := by
  induction ns with
  | nil =>
    obtain ⟨n, hn, -⟩ := h
    cases hn
  | cons first ns ih =>
    by_cases hlater : ∃ n ∈ ns, n.id = id
    · obtain ⟨before, n, after, hsplit, hid, hlast⟩ := ih hlater
      exact ⟨first :: before, n, after, by rw [hsplit]; rfl, hid, hlast⟩
    · obtain ⟨n, hn, hid⟩ := h
      rcases List.mem_cons.1 hn with rfl | hn
      · exact ⟨[], n, ns, rfl, hid, fun m hm hm' => hlater ⟨m, hm, hm'⟩⟩
      · exact absurd ⟨n, hn, hid⟩ hlater

theorem Document.Has.exists_lastOf {d : Document} {id : String} (h : d.Has id) :
    ∃ n, d.LastOf id n := by
  obtain ⟨before, n, after, hlast⟩ := exists_last h
  exact ⟨n, before, after, hlast⟩

namespace Graph

variable {d : Document} {id preferred : String} {n : Node}

/-! ## The index -/

/-- Nodes of other identities leave a place alone. -/
theorem get?_indexFrom_of_ne {start : Nat} {index : Table Nat} {ns : List Node}
    (h : ∀ n ∈ ns, n.id ≠ id) : (indexFrom start index ns).get? id = index.get? id := by
  induction ns generalizing start index with
  | nil => rfl
  | cons n ns ih =>
    obtain ⟨hn, hns⟩ := List.forall_mem_cons.1 h
    rw [indexFrom, ih hns, Table.get?_insert, if_neg (Ne.symm hn)]

/-- So the last node of an identity has the place, whatever was written before. The induction is
on what stands before it. -/
theorem get?_indexFrom_last {start : Nat} {index : Table Nat} {before after : List Node}
    (h : ∀ m ∈ after, m.id ≠ n.id) :
    (indexFrom start index (before ++ n :: after)).get? n.id = some (start + before.length) := by
  induction before generalizing start index with
  | nil =>
    rw [List.nil_append, indexFrom, get?_indexFrom_of_ne h, Table.get?_insert, if_pos rfl]
    rfl
  | cons m before ih =>
    rw [List.cons_append, indexFrom, ih, List.length_cons, Nat.add_right_comm, Nat.add_assoc]

theorem find?_of_lastOf (h : d.LastOf id n) : (ofDocument d).find? id = some n := by
  obtain ⟨before, after, hnodes, rfl, hlast⟩ := h
  have hplace : (ofDocument d).index.get? n.id = some before.length := by
    rw [ofDocument, hnodes, get?_indexFrom_last hlast, Nat.zero_add]
  rw [find?, hplace, Option.bind_some, ofDocument, List.getElem?_toArray, hnodes,
    List.getElem?_append_right (Nat.le_refl _), Nat.sub_self, List.getElem?_cons_zero]

/-- What is found is the last node of the identity. -/
theorem find?_eq_some_iff_lastOf : (ofDocument d).find? id = some n ↔ d.LastOf id n := by
  refine ⟨fun h => ?_, find?_of_lastOf⟩
  obtain ⟨hmem, hid⟩ := mem_of_find? h
  have hhas : d.Has id := ⟨n, hmem, hid⟩
  obtain ⟨last, hlast⟩ := hhas.exists_lastOf
  obtain rfl := Option.some.inj (h.symm.trans (find?_of_lastOf hlast))
  exact hlast

theorem contains_iff_has : (ofDocument d).contains id = true ↔ d.Has id :=
  ⟨has_of_contains, contains_of_has⟩

/-! ## The entrance -/

theorem entrance?_of_has (h : d.Has preferred) :
    (ofDocument d).entrance? preferred = some preferred := by
  rw [entrance?, if_pos (contains_of_has h)]

theorem entrance?_of_not_has (h : ¬ d.Has preferred) :
    (ofDocument d).entrance? preferred = d.nodes.head?.map (·.id) := by
  rw [entrance?, if_neg fun hc => h (has_of_contains hc), ofDocument, List.getElem?_toArray,
    List.head?_eq_getElem?]

/-- Only a script without nodes has no entrance. -/
theorem entrance?_eq_none_iff : (ofDocument d).entrance? preferred = none ↔ d.nodes = [] := by
  constructor
  · intro h
    refine Decidable.byContradiction fun hd => ?_
    obtain ⟨id, hid, -⟩ := has_entrance? hd preferred
    rw [h] at hid
    cases hid
  · intro hd
    have hnone : ¬ d.Has preferred := by
      rintro ⟨n, hn, -⟩
      rw [hd] at hn
      cases hn
    rw [entrance?_of_not_has hnone, hd]
    rfl

theorem exists_find?_entrance (hd : d.nodes ≠ []) (preferred : String) :
    ∃ id n, (ofDocument d).entrance? preferred = some id ∧ (ofDocument d).find? id = some n := by
  obtain ⟨id, hid, hhas⟩ := has_entrance? hd preferred
  obtain ⟨n, hn⟩ := exists_find? hhas
  exact ⟨id, n, hid, hn⟩

end Graph

/-! ## Walks from the entrance -/

namespace Act

variable {α β : Type} {P : α → Prop} {Q : β → Prop}

/-- Whether an operation that comes to an end does so with a result of some kind. -/
def Yields (P : α → Prop) (act : Act α) : Prop := ∀ w a w', act w = .ok a w' → P a

theorem Yields.pure {a : α} (h : P a) : Yields P (pure a) := by
  intro w a' w' hact
  cases hact
  exact h

theorem Yields.bind {first : Act β} {next : β → Act α} (h : Yields Q first)
    (h' : ∀ b, Q b → Yields P (next b)) : Yields P (first >>= next) := by
  intro w a w' hact
  rw [bind_apply] at hact
  cases hfirst : first w with
  | error s m =>
    rw [hfirst] at hact
    cases hact
  | ok b m =>
    rw [hfirst] at hact
    exact h' b (h w b m hfirst) m a w' hact

/-- The result of the first part need not matter. -/
theorem Yields.seq {first : Act β} {next : β → Act α} (h : ∀ b, Yields P (next b)) :
    Yields P (first >>= next) :=
  .bind (fun _ _ _ _ => trivial) fun b (_ : True) => h b

/-- Whether a walk does not stop for want of a node. -/
def Visit.NotMissing (v : Visit) : Prop := ∀ id, v ≠ .halt (.missingNode id)

theorem Visit.notMissing_ofNext (next : Option String) : (Visit.ofNext next).NotMissing := by
  cases next <;> nofun

/-- The end of a part halts the walk as such, whether or not there is a next part. -/
theorem endPart_yields (n : Node) : Yields (· = Halt.partEnd n.nextPart) (endPart n) := by
  -- what comes behind the look for the next part
  have rest (title : Option String) : Yields (· = Halt.partEnd n.nextPart) (do
      persist
      change (·.emit (.partEnded n.nextPart title))
      return Halt.partEnd n.nextPart) := .seq fun _ => .seq fun _ => .pure rfl
  unfold endPart
  refine .seq fun _ => ?_
  split
  · exact .seq rest
  · refine .seq fun _ => .seq fun _ => .seq fun found => ?_
    cases found with
    | error fault => exact .seq rest
    | ok graph => exact .seq fun _ => .seq fun _ => .seq rest

/-- A visit of a node that there is does not come to a missing one. -/
theorem visit_ne_missingNode {w w' : World} {n : Node} {id id' : String}
    (hn : w.findNode? id = some n) : visit id w ≠ .ok (.halt (.missingNode id')) w' := by
  intro h
  unfold visit at h
  rw [bind_apply, look_apply, hn] at h
  dsimp only at h
  -- with the node found, no way through the visit stops for want of one
  refine (?there : Yields Visit.NotMissing _) w _ w' h id' rfl
  refine .seq fun _ => ?_
  cases n.kind with
  | choice => exact .seq fun _ => .pure nofun
  | partEnd =>
    refine .bind (endPart_yields n) fun halt hhalt => .pure ?_
    rw [hhalt]
    nofun
  | typingFake | message | text | audio | image | other =>
    exact .seq fun next => .pure (Visit.notMissing_ofNext next)

end Act

/-- The index of a script (`Graph.ofDocument`). What is found for an identity (`Graph.find?`)
is the last node that has it, and an identity is known exactly if there is one; all nodes are
counted. The entrance is the preferred identity if a node has it, and else that of the first
node; there is none only without nodes, and with nodes one is found there. So a walk from the
entrance does not miss its first node. -/
theorem Graph.finds_last_of_identity (d : Document) :
    (∀ id n, (ofDocument d).find? id = some n ↔ d.LastOf id n) ∧
    (∀ id, (ofDocument d).contains id = true ↔ ∃ n, d.LastOf id n) ∧
    (ofDocument d).size = d.nodes.length ∧
    (∀ preferred, (d.Has preferred → (ofDocument d).entrance? preferred = some preferred) ∧
      (¬ d.Has preferred → (ofDocument d).entrance? preferred = d.nodes.head?.map (·.id)) ∧
      ((ofDocument d).entrance? preferred = none ↔ d.nodes = [])) ∧
    (d.nodes ≠ [] → (∀ preferred, ∃ id n, (ofDocument d).entrance? preferred = some id ∧
        (ofDocument d).find? id = some n) ∧
      ∀ w : World, w.engine.graph = some (ofDocument d) →
        (∃ n, w.findNode? w.entrance = some n) ∧
        ∀ id w', Act.visit w.entrance w ≠ .ok (.halt (.missingNode id)) w') := by
  have hcontains (id : String) : (ofDocument d).contains id = true ↔ ∃ n, d.LastOf id n := by
    rw [contains_iff_has]
    refine ⟨fun h => h.exists_lastOf, fun ⟨n, hn⟩ => ?_⟩
    obtain ⟨hmem, hid⟩ := mem_of_find? (find?_of_lastOf hn)
    exact ⟨n, hmem, hid⟩
  refine ⟨fun _ _ => find?_eq_some_iff_lastOf, hcontains, List.size_toArray,
    fun _ => ⟨entrance?_of_has, entrance?_of_not_has, entrance?_eq_none_iff⟩, fun hd => ?_⟩
  refine ⟨exists_find?_entrance hd, fun w hg => ?_⟩
  obtain ⟨id, n, hid, hn⟩ := exists_find?_entrance hd w.engine.config.entryNode
  have hentrance : w.entrance = id := by
    rw [World.entrance, hg, Option.bind_some, hid, Option.getD_some]
  have hfound : w.findNode? w.entrance = some n := by
    rw [hentrance, World.findNode?, hg, Option.bind_some, hn]
  exact ⟨⟨n, hfound⟩, fun _ _ => Act.visit_ne_missingNode hfound⟩

/-- A script in which a second node is given the identity of the first. -/
def Document.restated : Document :=
  ⟨none, [.message "start" (.npc "Ana") "Hi", .message "more" (.npc "Ana") "How are you?",
    .message "start" (.npc "Ana") "Hello"]⟩

/-- An engine that has this script. -/
def World.restating : World :=
  .steady { Engine.fresh .instant [] true true with graph := some (.ofDocument .restated) }
    (fun _ => .ok .restated) (.memory .empty)

/-- It is entered at its first identity, where its last node is found and visited. -/
theorem Graph.finds_last_of_identity_restated :
    Document.restated.nodes ≠ [] ∧ Document.restated.Has "start" ∧
    ¬ Document.restated.Has "end" ∧
    Document.restated.LastOf "start" (.message "start" (.npc "Ana") "Hello") ∧
    (ofDocument .restated).find? "start" = some (.message "start" (.npc "Ana") "Hello") ∧
    (ofDocument .restated).entrance? "start" = some "start" ∧
    (ofDocument .restated).entrance? "end" = some "start" ∧
    World.restating.engine.graph = some (ofDocument .restated) ∧
    ∀ id w', Act.visit World.restating.entrance World.restating ≠
      .ok (.halt (.missingNode id)) w' := by
  have hlast : Document.restated.LastOf "start" (.message "start" (.npc "Ana") "Hello") :=
    ⟨[.message "start" (.npc "Ana") "Hi", .message "more" (.npc "Ana") "How are you?"], [], rfl,
      rfl, List.forall_mem_nil _⟩
  have hhas : Document.restated.Has "start" := ⟨_, List.mem_cons_self, rfl⟩
  have hnot : ¬ Document.restated.Has "end" := by
    rintro ⟨n, hn, hid⟩
    have hall : ∀ n ∈ Document.restated.nodes, n.id ≠ "end" := by decide
    exact hall n hn hid
  obtain ⟨hfind, -, -, hentrance, hwalk⟩ := finds_last_of_identity .restated
  obtain ⟨-, hvisit⟩ := hwalk (List.cons_ne_nil _ _)
  exact ⟨List.cons_ne_nil _ _, hhas, hnot, hlast, (hfind _ _).2 hlast,
    (hentrance "start").1 hhas, (hentrance "end").2.1 hnot, rfl, (hvisit _ rfl).2⟩

end StoryChat
