import DesignLayout.Label.Basic
import DesignLayout.Scene.Node

/-!
Scenes: forests of nodes, each node under its number.

`Scene.subtree` lists a node and all that is below it, parents first and siblings in paint order.
`Scene.branch?` gives the same nodes as a tree, on which the other passes recurse. Both walk down
as far as the scene has nodes, which is enough because a node is numbered after its parent.
-/
namespace DesignLayout

structure Scene (α : Type) where
  nodes : Array (Node α)
  /-- The nodes without a parent. -/
  topLevel : List NodeId

/-- A node with all that is below it. -/
inductive Branch (α : Type)
  | mk (id : NodeId) (node : Node α) (children : List (Branch α))

namespace Branch

variable {α : Type}

def id : Branch α → NodeId
  | mk id _ _ => id

def node : Branch α → Node α
  | mk _ node _ => node

def children : Branch α → List (Branch α)
  | mk _ _ children => children

mutual

/-- All nodes of the branch, parents first. -/
def preorder : Branch α → List NodeId
  | mk id _ children => id :: preorderAll children

def preorderAll : List (Branch α) → List NodeId
  | [] => []
  | b :: rest => preorder b ++ preorderAll rest

end
end Branch

namespace Scene

variable {α : Type}

def empty : Scene α := ⟨#[], []⟩

def size (s : Scene α) : Nat := s.nodes.size

def node? (s : Scene α) (id : NodeId) : Option (Node α) := s.nodes[id]?

def children (s : Scene α) (id : NodeId) : List NodeId :=
  match s.node? id with
  | some n => n.children
  | none => []

/-- The node that a node stands directly under. -/
def parentOf? (s : Scene α) (n : Node α) : Option (Node α) :=
  n.parent.bind s.node?

def parentKind? (s : Scene α) (n : Node α) : Option Kind :=
  (s.parentOf? n).map (·.kind)

/-- Whether the node is a cell of a repeated grid. -/
def inGrid (s : Scene α) (n : Node α) : Bool :=
  s.parentKind? n == some .repeatGrid

def label (s : Scene α) (extended : Bool) (n : Node α) : Label :=
  Label.parse n.name (s.inGrid n) extended

/-- The first `steps` nodes that come up when one begins with the pending nodes and replaces a node
by its children. -/
def walk (s : Scene α) : Nat → List NodeId → List NodeId
  | 0, _ => []
  | _, [] => []
  | steps + 1, id :: pending => id :: s.walk steps (s.children id ++ pending)

def subtree (s : Scene α) (id : NodeId) : List NodeId :=
  s.walk s.size [id]

/-- The branch of a node, cut off below so many levels. -/
def branchWithin? (s : Scene α) : Nat → NodeId → Option (Branch α)
  | 0, _ => none
  | levels + 1, id =>
    (s.node? id).map fun n => .mk id n (n.children.filterMap (s.branchWithin? levels))

def branch? (s : Scene α) (id : NodeId) : Option (Branch α) :=
  s.branchWithin? s.size id

def branches (s : Scene α) (ids : List NodeId) : List (Branch α) :=
  ids.filterMap s.branch?

/-- All nodes, in paint order with parents first. -/
def preorder (s : Scene α) : List NodeId :=
  s.topLevel.flatMap s.subtree

/-- The nearest artboard among a node and the next `levels` nodes above it. -/
def artboardWithin? (s : Scene α) : Nat → NodeId → Option NodeId
  | 0, _ => none
  | levels + 1, id =>
    match s.node? id with
    | none => none
    | some n => if n.kind = .artboard then some id else n.parent.bind (s.artboardWithin? levels)

/-- The nearest artboard at or above a node. -/
def enclosingArtboard? (s : Scene α) (id : NodeId) : Option NodeId :=
  s.artboardWithin? s.size id

/-- The nodes with exactly this raw label, in the order of their numbers. -/
def withName (s : Scene α) (name : String) : List NodeId :=
  (List.range s.size).filter fun id => (s.node? id).any (·.name == name)

def withGuid? (s : Scene α) (guid : String) : Option NodeId :=
  (List.range s.size).find? fun id => (s.node? id).any (·.guid == guid)

/-- Adds a node behind the nodes that are already under the parent, or at the top level. The new
node's number is the size of the scene before. -/
def insert (s : Scene α) (parent : Option NodeId) (d : Draft α) : Scene α :=
  let id := s.size
  let nodes := s.nodes.push (d.toNode id parent)
  match parent with
  | none => ⟨nodes, s.topLevel ++ [id]⟩
  | some p => ⟨nodes.modify p fun n => { n with children := n.children ++ [id] }, s.topLevel⟩

end Scene
end DesignLayout
