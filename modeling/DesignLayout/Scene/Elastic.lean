import DesignLayout.Scene.Basic

/-!
Scenes that lay themselves out anew when a node is resized.

Every descendant of a resized node follows its parent by its constraints. A layout is always
computed from the geometry that the resized node's branch had before its first resize: that
geometry is kept as the node's resting layout, and a resize back to the resting size restores it
and forgets it. `Host` is what the export needs of any design document: to read it as a scene and
to resize a node.
-/
namespace DesignLayout

/-- A design document that can be read and resized. How it lays out the branch of a resized node is
its own affair. -/
class Host (δ : Type) (α : outParam Type) where
  scene : δ → Scene α
  resize : δ → NodeId → α → α → δ

/-- Where a node stands. -/
structure Placement (α : Type) where
  id : NodeId
  bounds : Bounds α
  drawBounds : Bounds α

section Layout

variable {α : Type} [Scalar α]

/-- The bounds of a child after its parent has gone from `old` to `new`. -/
def Constraints.apply (c : Constraints) (child old new : Bounds α) : Bounds α :=
  let dx := new.x - old.x
  let dy := new.y - old.y
  let dw := new.width - old.width
  let dh := new.height - old.height
  let (x, width) := match c.horizontal with
    | .left => (child.x + dx, child.width)
    | .right => (child.x + dx + dw, child.width)
    | .center => (child.x + dx + Scalar.half dw, child.width)
    | .stretch => (child.x + dx, child.width + dw)
  let (y, height) := match c.vertical with
    | .top => (child.y + dy, child.height)
    | .bottom => (child.y + dy + dh, child.height)
    | .middle => (child.y + dy + Scalar.half dh, child.height)
    | .stretch => (child.y + dy, child.height + dh)
  ⟨x, y, width, height⟩

mutual

/-- The placements of a branch whose uppermost node gets new bounds. -/
def Branch.relaid (new : Bounds α) : Branch α → List (Placement α)
  | .mk id n children =>
    ⟨id, new, n.drawBounds.following n.bounds new⟩ :: Branch.relaidAll n.bounds new children

/-- The placements of the branches below a node that goes from `old` to `new`. -/
def Branch.relaidAll (old new : Bounds α) : List (Branch α) → List (Placement α)
  | [] => []
  | .mk id n children :: rest =>
    Branch.relaid (n.constraints.apply n.bounds old new) (.mk id n children) ++
      Branch.relaidAll old new rest

end
end Layout

namespace Scene

variable {α : Type}

def place (s : Scene α) (p : Placement α) : Scene α :=
  { s with nodes := s.nodes.modify p.id fun n =>
      { n with bounds := p.bounds, drawBounds := p.drawBounds } }

def placeAll (s : Scene α) (ps : List (Placement α)) : Scene α :=
  ps.foldl place s

/-- Where the nodes of a branch stand. -/
def placements (s : Scene α) (id : NodeId) : List (Placement α) :=
  (s.subtree id).filterMap fun m => (s.node? m).map fun n => ⟨m, n.bounds, n.drawBounds⟩

variable [Scalar α]

/-- Gives a node a new size at its place, and all below it the geometry that follows. -/
def relayout (s : Scene α) (id : NodeId) (width height : α) : Scene α :=
  match s.branch? id with
  | none => s
  | some b => s.placeAll (b.relaid { b.node.bounds with width, height })

/-- Moves a node and all below it, without regard to constraints. -/
def shift (s : Scene α) (id : NodeId) (dx dy : α) : Scene α :=
  s.placeAll ((s.placements id).map fun p =>
    ⟨p.id, p.bounds.moved dx dy, p.drawBounds.moved dx dy⟩)

end Scene

/-- The geometry of a branch at the size that its uppermost node had before it was resized. -/
structure Resting (α : Type) where
  width : α
  height : α
  layout : List (Placement α)

structure ElasticScene (α : Type) where
  scene : Scene α
  /-- The resting layouts of the nodes that are not at their resting size. -/
  resting : List (NodeId × Resting α)

namespace ElasticScene

variable {α : Type}

def empty : ElasticScene α := ⟨.empty, []⟩

def insert (t : ElasticScene α) (parent : Option NodeId) (d : Draft α) : ElasticScene α :=
  { t with scene := t.scene.insert parent d }

/-- The resting layout of a node: the one that is kept, or else the present one. -/
def restingOf (t : ElasticScene α) (id : NodeId) (n : Node α) : Resting α :=
  (t.resting.lookup id).getD
    { width := n.bounds.width, height := n.bounds.height, layout := t.scene.placements id }

variable [Scalar α]

def shift (t : ElasticScene α) (id : NodeId) (dx dy : α) : ElasticScene α :=
  { t with scene := t.scene.shift id dx dy }

def resize (t : ElasticScene α) (id : NodeId) (width height : α) : ElasticScene α :=
  match t.scene.node? id with
  | none => t
  | some n =>
    let resting := t.restingOf id n
    let settled := t.scene.placeAll resting.layout
    let others := t.resting.filter (·.1 != id)
    if Scalar.same width resting.width && Scalar.same height resting.height then
      ⟨settled, others⟩
    else
      ⟨settled.relayout id width height, (id, resting) :: others⟩

instance : Host (ElasticScene α) α where
  scene := ElasticScene.scene
  resize := resize

end ElasticScene
end DesignLayout
