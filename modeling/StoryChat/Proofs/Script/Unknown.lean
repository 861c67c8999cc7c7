/-
What nobody knows in a script.

A kind of node, an action or a comparison that is not known is kept when a script is read. A
node of such a kind does what a message does, and so does one that says it is a text; such an
action changes nothing, and such a condition never holds. A node without all that is plain, and
almost everything that is asked of a node is answered by its plain form (`Node.plain`). The one
exception is whether it has a successor: a condition that never holds makes a node look as if
the story went on behind it.

To trim a script (`Trims`) is to take one such thing out of it. Trimming leaves the plain form
of every node, and can only take the look of a successor away.
-/
import StoryChat.Narrative.Basic
import StoryChat.Pacing.Pacer
import StoryChat.Script.Graph
import StoryChat.Script.Shelf
import Mathlib.Data.List.Forall2
import Mathlib.Data.Option.Basic

set_option autoImplicit false

namespace StoryChat

/-! ## Plain nodes -/

/-- The kind that a node is treated as. -/
def NodeKind.plain : NodeKind → NodeKind
  | .text | .other => .message
  | kind => kind

theorem NodeKind.medium_plain (k : NodeKind) : k.plain.medium = k.medium := by
  cases k <;> rfl

/-- A comparison that is not known never holds. -/
theorem Condition.holds_unknown {c : Condition} (h : c.operator = .unknown) (v : Variables) :
    c.holds v = false := by
  unfold holds
  rw [h]
  cases v.get? c.name <;> rfl

/-- Actions that are not known change nothing. -/
theorem Narrative.acts_known (as : List Action) (n : Narrative) :
    (as.filter (· ≠ .unknown)).foldl act n = as.foldl act n := by
  induction as generalizing n with
  | nil => rfl
  | cons a as ih =>
    cases a with
    | unknown => exact ih n
    | set name value => exact ih _
    | setOnline online => exact ih _
    | setBlocked blocked => exact ih _

namespace Node

variable {n n' : Node}

/-- A node without what nobody knows. -/
def plain (n : Node) : Node :=
  { n with
    kind := n.kind.plain
    actions := n.actions.filter (· ≠ .unknown)
    conditions := n.conditions.filter (·.operator ≠ .unknown) }

/-- The first condition that holds is one that is known. -/
theorem resolveNext_plain (n : Node) (v : Variables) : n.plain.resolveNext v = n.resolveNext v := by
  have hfind : n.plain.conditions.find? (·.holds v) = n.conditions.find? (·.holds v) := by
    unfold plain
    rw [List.find?_filter]
    congr 1
    funext c
    by_cases hc : c.operator = .unknown
    · simp [hc, Condition.holds_unknown hc v]
    · simp [hc]
  unfold resolveNext
  rw [hfind]
  rfl

theorem smartDelay?_plain (p : Pacing) (n : Node) (draw : Float) :
    p.smartDelay? n.plain draw = p.smartDelay? n draw := by
  unfold Pacing.smartDelay? plain
  cases n.kind <;> rfl

/-- Whether a node is another one but for things that nobody knows, and looks no more as if the
story went on. -/
structure Trimmed (n n' : Node) : Prop where
  plain : n'.plain = n.plain
  hasSuccessor : n'.hasSuccessor = true → n.hasSuccessor = true

theorem Trimmed.refl (n : Node) : n.Trimmed n := ⟨rfl, fun hs => hs⟩

theorem Trimmed.trans {n'' : Node} (h : n.Trimmed n') (h' : n'.Trimmed n'') : n.Trimmed n'' :=
  ⟨h'.plain.trans h.plain, fun hs => h.hasSuccessor (h'.hasSuccessor hs)⟩

theorem forall₂_trimmed_trans {ns ns' ns'' : List Node} (h : List.Forall₂ Trimmed ns ns')
    (h' : List.Forall₂ Trimmed ns' ns'') : List.Forall₂ Trimmed ns ns'' := by
  induction h generalizing ns'' with
  | nil => exact h'
  | cons hn _ ih =>
    cases h' with
    | cons hn' h' => exact .cons (hn.trans hn') (ih h')

/-! ## Trimming -/

/-- One thing that nobody knows is taken out of a node, or its kind is said as that of a
message. -/
inductive Trims : Node → Node → Prop where
  | kind {n : Node} : n.kind = .text ∨ n.kind = .other → Trims n { n with kind := .message }
  | action {n : Node} {before after : List Action} :
      n.actions = before ++ .unknown :: after → Trims n { n with actions := before ++ after }
  | condition {n : Node} {before after : List Condition} {c : Condition} :
      n.conditions = before ++ c :: after → c.operator = .unknown →
      Trims n { n with conditions := before ++ after }

/-- One step: what is taken out of a node is nothing of its plain form. -/
theorem Trims.trimmed (h : n.Trims n') : n.Trimmed n' := by
  cases h with
  | kind hk =>
    refine ⟨?_, fun hs => hs⟩
    unfold plain
    rcases hk with hk | hk <;> simp only [hk, NodeKind.plain]
  | action ha =>
    refine ⟨?_, fun hs => hs⟩
    unfold plain
    rw [ha]
    simp
  | condition hc hunknown =>
    refine ⟨?_, fun hs => ?_⟩
    · unfold plain
      rw [hc]
      simp [hunknown]
    · unfold hasSuccessor
      rw [hc]
      simp

end Node

namespace Document

variable {d d' : Document}

/-- One node of a script is trimmed. -/
inductive Trims : Document → Document → Prop where
  | node {d : Document} {before after : List Node} {n n' : Node} :
      d.nodes = before ++ n :: after → n.Trims n' →
      Trims d { d with nodes := before ++ n' :: after }

/-- Whether a script is another one but for things that nobody knows. -/
structure Trimmed (d d' : Document) : Prop where
  title : d'.title = d.title
  nodes : List.Forall₂ Node.Trimmed d.nodes d'.nodes

theorem Trimmed.refl (d : Document) : d.Trimmed d :=
  ⟨rfl, List.forall₂_same.2 fun n _ => .refl n⟩

theorem Trimmed.trans {d'' : Document} (h : d.Trimmed d') (h' : d'.Trimmed d'') :
    d.Trimmed d'' :=
  ⟨h'.title.trans h.title, Node.forall₂_trimmed_trans h.nodes h'.nodes⟩

theorem Trims.trimmed (h : d.Trims d') : d.Trimmed d' := by
  obtain ⟨hd, hn⟩ := h
  refine ⟨rfl, ?_⟩
  rw [hd]
  have hsame (ns : List Node) : List.Forall₂ Node.Trimmed ns ns :=
    List.forall₂_same.2 fun n _ => .refl n
  exact List.rel_append (hsame _) (.cons hn.trimmed (hsame _))

end Document

/-- What goes together with itself, or is missing. -/
theorem rel_refl {α : Type} {R : α → α → Prop} (hR : ∀ a, R a a) (a : Option α) :
    Option.Rel R a a := by
  cases a with
  | none => exact .none
  | some a => exact .some (hR a)

/-! ## Graphs node by node -/

namespace Graph

variable {T : Node → Node → Prop} {g g' : Graph}

/-- Whether two scripts have the same places, and their nodes go together there. -/
structure Along (T : Node → Node → Prop) (g g' : Graph) : Prop where
  title : g'.title = g.title
  index : g'.index = g.index
  nodes : List.Forall₂ T g.nodes.toList g'.nodes.toList

theorem indexFrom_eq {ns ns' : List Node} (h : List.Forall₂ T ns ns')
    (hT : ∀ n n', T n n' → n'.id = n.id) (start : Nat) (index : Table Nat) :
    indexFrom start index ns' = indexFrom start index ns := by
  induction h generalizing start index with
  | nil => rfl
  | cons hn _ ih =>
    unfold indexFrom
    rw [hT _ _ hn]
    exact ih _ _

theorem Along.ofDocument {d d' : Document} (htitle : d'.title = d.title)
    (h : List.Forall₂ T d.nodes d'.nodes) (hT : ∀ n n', T n n' → n'.id = n.id) :
    (Graph.ofDocument d).Along T (.ofDocument d') :=
  ⟨htitle, indexFrom_eq h hT 0 .empty, h⟩

theorem Along.getElem? (h : g.Along T g') (i : Nat) : Option.Rel T g.nodes[i]? g'.nodes[i]? := by
  rw [← Array.getElem?_toList, ← Array.getElem?_toList]
  obtain ⟨-, -, hnodes⟩ := h
  generalize g.nodes.toList = ns at hnodes ⊢
  generalize g'.nodes.toList = ns' at hnodes ⊢
  induction hnodes generalizing i with
  | nil => exact .none
  | cons hn _ ih =>
    cases i with
    | zero => exact .some hn
    | succ i => exact ih i

/-- What is found goes together. -/
theorem Along.find? (h : g.Along T g') (id : String) : Option.Rel T (g.find? id) (g'.find? id) := by
  unfold Graph.find?
  rw [h.index]
  cases g.index.get? id with
  | none => exact .none
  | some i => exact h.getElem? i

/-- Both are entered at the same place. -/
theorem Along.entrance? (h : g.Along T g') (hT : ∀ n n', T n n' → n'.id = n.id)
    (preferred : String) : g'.entrance? preferred = g.entrance? preferred := by
  unfold Graph.entrance? contains
  rw [h.index]
  have hfirst : g'.nodes[0]?.map (·.id) = g.nodes[0]?.map (·.id) := by
    have hrel := h.getElem? 0
    generalize g.nodes[0]? = first at hrel ⊢
    generalize g'.nodes[0]? = first' at hrel ⊢
    cases hrel with
    | none => rfl
    | some hn => exact congrArg some (hT _ _ hn)
  rw [hfirst]

end Graph

/-! ## Scripts that are asked for -/

/-- Answers to a request that are the same fault, or what goes together. -/
inductive Fetched {α : Type} (R : α → α → Prop) :
    Except LoadFault α → Except LoadFault α → Prop where
  | lost (fault : LoadFault) : Fetched R (.error fault) (.error fault)
  | found {a a' : α} : R a a' → Fetched R (.ok a) (.ok a')

namespace Fetched

variable {α : Type} {R : α → α → Prop} {a a' a'' : Except LoadFault α}

theorem refl (hR : ∀ a, R a a) (a : Except LoadFault α) : Fetched R a a := by
  cases a with
  | error fault => exact .lost fault
  | ok a => exact .found (hR a)

theorem trans (hR : ∀ a a' a'', R a a' → R a' a'' → R a a'') (h : Fetched R a a')
    (h' : Fetched R a' a'') : Fetched R a a'' := by
  cases h with
  | lost fault => exact h'
  | found h =>
    cases h' with
    | found h' => exact .found (hR _ _ _ h h')

end Fetched

end StoryChat
