import ManagementPlane.Memento.Basic

/-!
# Parents and children

Nodes of a table may name a parent in the same table. Parents may be missing and may form cycles.

* `Node` : what has an id and may name a parent;
* `ascent` : a node and those above it, nearest first, each once;
* `sortParentFirst` : the nodes in an order in which parents come first.
-/

namespace ManagementPlane

/-- What has an id and may name a parent. -/
class Node (α : Type) where
  id : α → String
  parent? : α → Option String

instance : Node Memento := ⟨Memento.id, Memento.parent⟩

instance : Node EntitySummary := ⟨EntitySummary.id, EntitySummary.parent⟩

variable {α : Type} [Node α]

/-- The node `a` and those above it, nearest first, up to one whose id is among `stops` or came up
before, and no more than `limit`. -/
def ascent (nodes : OrderedMap String α) (stops : List String) :
    (limit : Nat) → α → List α
  | 0, _ => []
  | n + 1, a =>
    if Node.id a ∈ stops then []
    else a :: match (Node.parent? a).bind nodes.get? with
      | some p => ascent nodes (Node.id a :: stops) n p
      | none => []

/-- The node `a` and its ancestors, nearest first, up to a cycle. It may itself not be in the table. -/
def ancestry (nodes : OrderedMap String α) (a : α) : List α := ascent nodes [] (nodes.size + 1) a

/-- Append a node behind those above it that are not placed yet. -/
def place (nodes : OrderedMap String α) (placed : List α) (a : α) : List α :=
  placed ++ (ascent nodes (placed.map Node.id) nodes.size a).reverse

/-- The nodes of the table, every one behind its parent. Otherwise their order is kept, and a cycle is
cut where it closes. -/
def sortParentFirst (nodes : OrderedMap String α) : List α :=
  nodes.values.foldl (place nodes) []

end ManagementPlane
