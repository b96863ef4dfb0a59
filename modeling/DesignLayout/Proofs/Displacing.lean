import DesignLayout.Proofs.Redrawing
import DesignLayout.Roots

/-! Scenes at another place of the canvas.

A scene is displaced when each of its nodes is moved by the same distance. That is a redrawing, so
the branches are the same ones (`branch?_displaced`). It leaves the labels alone too, and with them
the roots of an export (`Roots.find_displaced`). -/
namespace DesignLayout

variable {α : Type} [Scalar α]

def Node.displaced (dx dy : α) (n : Node α) : Node α :=
  { n with bounds := n.bounds.moved dx dy, drawBounds := n.drawBounds.moved dx dy }

def Placement.displaced (dx dy : α) (p : Placement α) : Placement α :=
  ⟨p.id, p.bounds.moved dx dy, p.drawBounds.moved dx dy⟩

def Scene.displaced (dx dy : α) (s : Scene α) : Scene α :=
  { s with nodes := s.nodes.map (Node.displaced dx dy) }

/-- Every rectangle is moved, and no constraint is changed. -/
def displacing (dx dy : α) : Redrawing α :=
  ⟨fun b => b.moved dx dy, id⟩

/-- The layouts that are kept of resized nodes stay where they are. -/
def ElasticScene.displaced (dx dy : α) (t : ElasticScene α) : ElasticScene α :=
  { t with scene := t.scene.displaced dx dy }

theorem ElasticScene.scene_displaced (dx dy : α) (t : ElasticScene α) :
    (t.displaced dx dy).scene = t.scene.displaced dx dy := rfl

namespace Branch

mutual

def displaced (dx dy : α) : Branch α → Branch α
  | mk id n children => mk id (n.displaced dx dy) (displacedAll dx dy children)

def displacedAll (dx dy : α) : List (Branch α) → List (Branch α)
  | [] => []
  | b :: rest => displaced dx dy b :: displacedAll dx dy rest

end

theorem displacedAll_eq (dx dy : α) (bs : List (Branch α)) :
    displacedAll dx dy bs = bs.map (displaced dx dy) := by
  induction bs with
  | nil => rfl
  | cons b rest ih => rw [displacedAll, ih, List.map_cons]

mutual

theorem displaced_eq_redrawn (dx dy : α) :
    ∀ b : Branch α, b.displaced dx dy = b.redrawn (displacing dx dy)
  | mk id n children => by
    rw [displaced, redrawn, displacedAll_eq_redrawnAll dx dy children]
    rfl

theorem displacedAll_eq_redrawnAll (dx dy : α) :
    ∀ bs : List (Branch α), displacedAll dx dy bs = redrawnAll (displacing dx dy) bs
  | [] => rfl
  | b :: rest => by
    rw [displacedAll, redrawnAll, displaced_eq_redrawn dx dy b,
      displacedAll_eq_redrawnAll dx dy rest]

end

theorem id_displaced (dx dy : α) (b : Branch α) : (b.displaced dx dy).id = b.id := by
  cases b
  rfl

theorem node_displaced (dx dy : α) (b : Branch α) :
    (b.displaced dx dy).node = b.node.displaced dx dy := by
  cases b
  rfl

end Branch

namespace Node
variable (dx dy : α) (n : Node α)

theorem kind_displaced : (n.displaced dx dy).kind = n.kind := rfl

theorem children_displaced : (n.displaced dx dy).children = n.children := rfl

theorem text_displaced : (n.displaced dx dy).text = n.text := rfl

theorem grid_displaced : (n.displaced dx dy).grid = n.grid := rfl

end Node

theorem Node.moved_displaced (dx dy : α) (n : Node α) : n.Moved (n.displaced dx dy) := rfl

namespace Scene
variable {s t : Scene α} (dx dy : α)

theorem node?_displaced (s : Scene α) (id : NodeId) :
    (s.displaced dx dy).node? id = (s.node? id).map (Node.displaced dx dy) :=
  s.node?_redrawn (displacing dx dy) id

theorem relaid_displaced (s : Scene α) : s.Relaid (s.displaced dx dy) where
  topLevel := rfl
  node? m := by
    rw [node?_displaced]
    cases s.node? m with
    | none => exact .none
    | some n => exact .some (n.moved_displaced dx dy)

theorem parentOf?_displaced (s : Scene α) (n : Node α) :
    (s.displaced dx dy).parentOf? (n.displaced dx dy) =
      (s.parentOf? n).map (Node.displaced dx dy) :=
  s.parentOf?_redrawn (displacing dx dy) n

theorem label_displaced (s : Scene α) (extended : Bool) (n : Node α) :
    (s.displaced dx dy).label extended (n.displaced dx dy) = s.label extended n :=
  (s.relaid_displaced dx dy).label (n.moved_displaced dx dy) extended

theorem branch?_displaced (s : Scene α) (id : NodeId) :
    (s.displaced dx dy).branch? id = (s.branch? id).map (Branch.displaced dx dy) := by
  have hbranch : Branch.displaced dx dy = Branch.redrawn (displacing dx dy) :=
    funext (Branch.displaced_eq_redrawn dx dy)
  rw [hbranch]
  exact s.branch?_redrawn (displacing dx dy) id

theorem branches_displaced (s : Scene α) (ids : List NodeId) :
    (s.displaced dx dy).branches ids = (s.branches ids).map (Branch.displaced dx dy) := by
  rw [branches, branches, List.map_filterMap]
  exact List.filterMap_congr fun id _ => branch?_displaced dx dy s id

omit [Scalar α] in
/-- A node's nearest artboard stays its nearest artboard when nodes are moved. -/
theorem Relaid.artboardWithin? (h : s.Relaid t) (levels : Nat) (id : NodeId) :
    t.artboardWithin? levels id = s.artboardWithin? levels id := by
  induction levels generalizing id with
  | zero => rfl
  | succ levels ih =>
    have habove : t.artboardWithin? levels = s.artboardWithin? levels := funext ih
    rw [Scene.artboardWithin?, Scene.artboardWithin?]
    rcases h.cases_node? id with ⟨hs, ht⟩ | ⟨n, k, hs, ht, hmoved⟩
    · rw [hs, ht]
    · rw [hs, ht]
      dsimp only
      rw [hmoved.kind, hmoved.parent, habove]

end Scene

namespace Roots
variable (dx dy : α)

mutual

theorem candidates_displaced (s : Scene α) (o : Options) :
    ∀ b : Branch α, candidates (s.displaced dx dy) o (b.displaced dx dy) = candidates s o b
  | .mk id n children => by
    rw [Branch.displaced, candidates, candidates, candidatesAll_displaced s o children,
      Scene.label_displaced]
    rfl

theorem candidatesAll_displaced (s : Scene α) (o : Options) :
    ∀ bs : List (Branch α),
      candidatesAll (s.displaced dx dy) o (Branch.displacedAll dx dy bs) = candidatesAll s o bs
  | [] => rfl
  | b :: rest => by
    rw [Branch.displacedAll, candidatesAll, candidatesAll, candidates_displaced s o b,
      candidatesAll_displaced s o rest]

end

/-- The roots of an export are found wherever they stand. -/
theorem find_displaced (s : Scene α) (selection : List NodeId) (o : Options) :
    find (s.displaced dx dy) selection o = find s selection o := by
  have hartboard : (s.displaced dx dy).enclosingArtboard? = s.enclosingArtboard? := by
    funext id
    rw [Scene.enclosingArtboard?, (s.relaid_displaced dx dy).size_eq]
    exact (s.relaid_displaced dx dy).artboardWithin? s.size id
  have hcandidates (ids : List NodeId) :
      candidatesAll (s.displaced dx dy) o ((s.displaced dx dy).branches ids) =
        candidatesAll s o (s.branches ids) := by
    rw [Scene.branches_displaced, ← Branch.displacedAll_eq, candidatesAll_displaced]
  simp only [find, hcandidates, hartboard]
  rfl

end Roots
end DesignLayout
