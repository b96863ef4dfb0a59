import DesignLayout.Proofs.Placing

/-! Scenes that are drawn differently.

A redrawing puts each rectangle of a scene somewhere else, and may give the nodes other constraints.
It leaves the links alone, and with them the branches (`branch?_redrawn`), and placing the nodes of
a redrawn scene is placing and then redrawing (`placeAll_redrawn`). A redrawing is fair when the
redrawn children follow their redrawn parents as the children follow their parents: then a redrawn
branch is laid out as the branch is (`relayout_redrawn`). -/
namespace DesignLayout

structure Redrawing (α : Type) where
  bounds : Bounds α → Bounds α
  constraints : Constraints → Constraints

variable {α : Type}

def Node.redrawn (r : Redrawing α) (n : Node α) : Node α :=
  { n with
    bounds := r.bounds n.bounds
    drawBounds := r.bounds n.drawBounds
    constraints := r.constraints n.constraints }

def Placement.redrawn (r : Redrawing α) (p : Placement α) : Placement α :=
  ⟨p.id, r.bounds p.bounds, r.bounds p.drawBounds⟩

def Scene.redrawn (r : Redrawing α) (s : Scene α) : Scene α :=
  { s with nodes := s.nodes.map (Node.redrawn r) }

namespace Branch

mutual

def redrawn (r : Redrawing α) : Branch α → Branch α
  | mk id n children => mk id (n.redrawn r) (redrawnAll r children)

def redrawnAll (r : Redrawing α) : List (Branch α) → List (Branch α)
  | [] => []
  | b :: rest => redrawn r b :: redrawnAll r rest

end

theorem redrawnAll_eq (r : Redrawing α) (bs : List (Branch α)) :
    redrawnAll r bs = bs.map (redrawn r) := by
  induction bs with
  | nil => rfl
  | cons b rest ih => rw [redrawnAll, ih, List.map_cons]

theorem node_redrawn (r : Redrawing α) (b : Branch α) :
    (b.redrawn r).node = b.node.redrawn r := by
  cases b
  rfl

end Branch

namespace Scene
variable (r : Redrawing α) (s : Scene α)

theorem node?_redrawn (id : NodeId) :
    (s.redrawn r).node? id = (s.node? id).map (Node.redrawn r) :=
  Array.getElem?_map

theorem sameLinks_redrawn : s.SameLinks (s.redrawn r) where
  topLevel := rfl
  node? m := by
    rw [node?_redrawn]
    cases s.node? m with
    | none => exact .none
    | some n => exact .some ⟨rfl, rfl⟩

theorem parentOf?_redrawn (n : Node α) :
    (s.redrawn r).parentOf? (n.redrawn r) = (s.parentOf? n).map (Node.redrawn r) := by
  show n.parent.bind (s.redrawn r).node? = (n.parent.bind s.node?).map _
  cases n.parent with
  | none => rfl
  | some p => exact node?_redrawn r s p

theorem branchWithin?_redrawn (levels : Nat) (id : NodeId) :
    (s.redrawn r).branchWithin? levels id =
      (s.branchWithin? levels id).map (Branch.redrawn r) := by
  induction levels generalizing id with
  | zero => rfl
  | succ levels ih =>
    have hbelow : (s.redrawn r).branchWithin? levels =
        fun id => (s.branchWithin? levels id).map (Branch.redrawn r) := funext ih
    rw [branchWithin?, branchWithin?, node?_redrawn, Option.map_map, Option.map_map]
    refine Option.map_congr fun n _ => ?_
    show Branch.mk id (n.redrawn r) (n.children.filterMap _) = _
    rw [hbelow, Function.comp_apply, Branch.redrawn, Branch.redrawnAll_eq, List.map_filterMap]

theorem branch?_redrawn (id : NodeId) :
    (s.redrawn r).branch? id = (s.branch? id).map (Branch.redrawn r) := by
  rw [branch?, (s.sameLinks_redrawn r).size_eq, branchWithin?_redrawn]
  rfl

/-! ### Placing -/

theorem place_redrawn (p : Placement α) :
    (s.redrawn r).place (p.redrawn r) = (s.place p).redrawn r := by
  apply ext_node?
  · rfl
  · intro m
    rw [node?_place, node?_redrawn, node?_redrawn, node?_place, Option.map_map, Option.map_map]
    refine Option.map_congr fun n _ => ?_
    show (if p.id = m then _ else _) = Node.redrawn r (if p.id = m then _ else _)
    split <;> rfl

theorem placeAll_redrawn (ps : List (Placement α)) :
    (s.redrawn r).placeAll (ps.map (Placement.redrawn r)) = (s.placeAll ps).redrawn r := by
  induction ps generalizing s with
  | nil => rfl
  | cons p rest ih =>
    show ((s.redrawn r).place (p.redrawn r)).placeAll _ = _
    rw [place_redrawn]
    exact ih (s.place p)

theorem placements_redrawn (id : NodeId) :
    (s.redrawn r).placements id = (s.placements id).map (Placement.redrawn r) := by
  rw [placements, placements, (s.sameLinks_redrawn r).subtree_eq, List.map_filterMap]
  refine List.filterMap_congr fun m _ => ?_
  rw [node?_redrawn, Option.map_map, Option.map_map]
  rfl

end Scene

/-! ### Laying out -/

section
variable [Scalar α]

/-- The redrawn child of a redrawn parent follows it as the child follows its parent. -/
structure Redrawing.Fair (r : Redrawing α) : Prop where
  apply : ∀ c child old new, (r.constraints c).apply (r.bounds child) (r.bounds old)
    (r.bounds new) = r.bounds (c.apply child old new)
  following : ∀ b old new, (r.bounds b).following (r.bounds old) (r.bounds new) =
    r.bounds (b.following old new)

namespace Branch
variable {r : Redrawing α}

mutual

theorem relaid_redrawn (h : r.Fair) (new : Bounds α) : ∀ b : Branch α,
    (b.redrawn r).relaid (r.bounds new) = (b.relaid new).map (Placement.redrawn r)
  | mk id n children => by
    have hdraw := h.following n.drawBounds n.bounds new
    have hbelow := relaidAll_redrawn h n.bounds new children
    rw [redrawn, relaid, relaid, List.map_cons, ← hbelow]
    exact congrArg (fun d => (⟨id, r.bounds new, d⟩ : Placement α) :: _) hdraw

theorem relaidAll_redrawn (h : r.Fair) (old new : Bounds α) : ∀ bs : List (Branch α),
    relaidAll (r.bounds old) (r.bounds new) (redrawnAll r bs) =
      (relaidAll old new bs).map (Placement.redrawn r)
  | [] => rfl
  | mk id n children :: rest => by
    have hchild := h.apply n.constraints n.bounds old new
    have hfirst := relaid_redrawn h (n.constraints.apply n.bounds old new) (mk id n children)
    rw [redrawn] at hfirst
    rw [redrawnAll, redrawn, relaidAll, relaidAll, List.map_append, ← hfirst, ← hchild,
      relaidAll_redrawn h old new rest]
    rfl

end
end Branch

/-- A redrawing that turns the one size into the other goes with a relayout. -/
theorem Scene.relayout_redrawn {r : Redrawing α} (h : r.Fair) {width height width' height' : α}
    (hsize : ∀ b : Bounds α, r.bounds { b with width, height } =
      { r.bounds b with width := width', height := height' }) (s : Scene α) (id : NodeId) :
    (s.redrawn r).relayout id width' height' = (s.relayout id width height).redrawn r := by
  unfold relayout
  rw [branch?_redrawn]
  cases s.branch? id with
  | none => rfl
  | some b =>
    show (s.redrawn r).placeAll ((b.redrawn r).relaid
      { (b.redrawn r).node.bounds with width := width', height := height' }) = _
    have hnew := hsize b.node.bounds
    rw [← placeAll_redrawn, ← Branch.relaid_redrawn h, hnew, Branch.node_redrawn]
    rfl

end
end DesignLayout
