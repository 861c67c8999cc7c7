/-
A script as a graph.

To walk a script its nodes are found by their identity (`ScriptGraph`). The index holds
for each identity the place of its node in the document; where an identity is given to
two nodes the later one takes the place in the index, and the earlier one is still
counted but never found. A script is entered at a preferred node, or else at its first
(`entrance?`).
-/
import StoryChat.Script.Node

set_option autoImplicit false

namespace StoryChat

/-- A script with its nodes indexed by identity (`ScriptGraph`). -/
structure Graph where
  title : Option String
  nodes : Array Node
  index : Table Nat

namespace Graph

/-- The index of nodes that stand from place `start` on, written over an older one: the loop
of `ScriptGraph::from_document`. -/
def indexFrom (start : Nat) (index : Table Nat) : List Node → Table Nat
  | [] => index
  | n :: rest => indexFrom (start + 1) (index.insert n.id start) rest

/-- The graph of a script (`ScriptGraph::from_document`). -/
def ofDocument (d : Document) : Graph :=
  ⟨d.title, d.nodes.toArray, indexFrom 0 .empty d.nodes⟩

/-- The node with a given identity (`ScriptGraph::get`). -/
def find? (g : Graph) (id : String) : Option Node :=
  (g.index.get? id).bind fun i => g.nodes[i]?

/-- Whether a node has a given identity (`ScriptGraph::contains`). -/
def contains (g : Graph) (id : String) : Bool := (g.index.get? id).isSome

/-- The number of nodes, those that cannot be found included (`ScriptGraph::len`). -/
def size (g : Graph) : Nat := g.nodes.size

/-- Where to enter (`ScriptGraph::entry_id`): at the preferred node if there is one, else at
the first. -/
def entrance? (g : Graph) (preferred : String) : Option String :=
  if g.contains preferred then some preferred else g.nodes[0]?.map (·.id)

end Graph

end StoryChat
