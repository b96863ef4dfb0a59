import DesignLayout.Proofs.Changing
import DesignLayout.Proofs.Reflowing
import Mathlib.Data.List.Induction

/-! Several sizes one after the other.

A node at rest that is resized several times stands in the end as if only the last size had been
asked for (`resizeAll_concat`), since the second resize already starts from what was kept at the
first one (`resize_resize`). So nothing adds up from one size to the next: a run of resizes moves
nothing outside the branch, keeps the node itself at its place, and when its last size is the one
that the node had, the document is what it was before the run (`last_size_counts`). No law of the
arithmetic is used. -/
namespace DesignLayout.ElasticScene

variable {α : Type} [Scalar α] {t : ElasticScene α} {id m : NodeId}

/-- The node is resized to these widths and heights, one after the other. -/
def resizeAll (t : ElasticScene α) (id : NodeId) (sizes : List (α × α)) : ElasticScene α :=
  sizes.foldl (fun t size => t.resize id size.1 size.2) t

/-- Before the last size any others may have been asked for. -/
theorem resizeAll_concat (hf : t.scene.IsForest) (hfresh : t.resting.lookup id = none)
    (sizes : List (α × α)) (width height : α) :
    t.resizeAll id (sizes ++ [(width, height)]) = t.resize id width height := by
  -- From the end, so that the resizes before the last one come to a single one.
  induction sizes using List.reverseRecOn generalizing width height with
  | nil => rfl
  | append_singleton sizes size ih =>
    have hlast : t.resizeAll id (sizes ++ [size] ++ [(width, height)]) =
        (t.resizeAll id (sizes ++ [size])).resize id width height :=
      List.foldl_concat ..
    rw [hlast, ih, resize_resize hf hfresh]

/-- The resized node stays where its upper left corner is. -/
theorem corner_resize (hf : t.scene.IsForest) {n : Node α} (hn : t.scene.node? id = some n)
    (hfresh : t.resting.lookup id = none) (width height : α) :
    ∃ k, (t.resize id width height).scene.node? id = some k ∧
      k.bounds.x = n.bounds.x ∧ k.bounds.y = n.bounds.y := by
  rw [resize_fresh hn hfresh]
  split
  · exact ⟨n, hn, rfl, rfl⟩
  · exact ⟨_, Scene.node?_relayout_self hf hn width height, rfl, rfl⟩

/-- For every document that can come up, in any arithmetic, every node of it that is at rest, and
every run of resizes of the node: the run comes to a resize to its last size. When that is the same
as the size that the node had, as the node's own size is unless it is a NaN, the document is just
the one before the run, and nothing is kept of the node. Whatever the last size is, only placements
change: no node outside the branch is touched, and the node itself keeps its corner. -/
theorem last_size_counts (h : t.Built) {n : Node α} (hn : t.scene.node? id = some n)
    (hfresh : t.resting.lookup id = none) (sizes : List (α × α)) (width height : α) :
    t.resizeAll id (sizes ++ [(width, height)]) = t.resize id width height ∧
    (Scalar.same width n.bounds.width = true → Scalar.same height n.bounds.height = true →
      t.resizeAll id (sizes ++ [(width, height)]) = t ∧
        (t.resizeAll id (sizes ++ [(width, height)])).resting.lookup id = none) ∧
    t.scene.Relaid (t.resizeAll id (sizes ++ [(width, height)])).scene ∧
    (∀ m, ¬ t.scene.Within m id →
      (t.resizeAll id (sizes ++ [(width, height)])).scene.node? m = t.scene.node? m) ∧
    ∃ k, (t.resizeAll id (sizes ++ [(width, height)])).scene.node? id = some k ∧
      k.bounds.x = n.bounds.x ∧ k.bounds.y = n.bounds.y := by
  have hf := h.isForest
  rw [resizeAll_concat hf hfresh]
  refine ⟨rfl, fun hwidth hheight => ?_, t.relaid_resize id width height, fun m hm => ?_,
    corner_resize hf hn hfresh width height⟩
  · rw [resize_of_same hn hfresh hwidth hheight]
    exact ⟨rfl, hfresh⟩
  · exact node?_resize_of_not_within h width height hm

/-- A board with a group and a leaf, whose numbers are rounded when they are laid out anew. -/
def unevenBoard : ElasticScene Float :=
  let board : ElasticScene Float := ElasticScene.empty.insert none
    { name := "Screen", kind := .artboard, bounds := ⟨0.3, 0.7, 375.1, 667.3⟩ }
  (board.insert (some 0)
    { name := "g", kind := .group, bounds := ⟨12.4, 13.0, 33.3, 10.1⟩,
      constraints := { horizontal := .center, vertical := .stretch } }).insert (some 1)
    { name := "r", kind := .rectangle, bounds := ⟨12.5, 13.2, 3.3, 1.1⟩,
      drawBounds := some ⟨12.4, 13.1, 3.5, 1.3⟩,
      constraints := { horizontal := .right, vertical := .bottom } }

/-- One of the sizes in between is no number. -/
theorem unevenBoard_comes_back :
    unevenBoard.Built ∧ unevenBoard.resting.lookup 0 = none ∧
    unevenBoard.resizeAll 0 [(475.1, 767.3), (0.0 / 0.0, 1.0), (375.1, 667.3)] = unevenBoard ∧
    unevenBoard.resizeAll 0 [(475.1, 767.3), (0.0 / 0.0, 1.0), (500.3, 667.3)] =
      unevenBoard.resize 0 500.3 667.3 := by
  have hbuilt : unevenBoard.Built :=
    ((Built.empty.insert none _ (by simp)).insert (some 0) _ (by decide)).insert (some 1) _
      (by decide)
  have hfresh : unevenBoard.resting.lookup 0 = none := rfl
  have hback := (last_size_counts hbuilt (by rfl) hfresh [(475.1, 767.3), (0.0 / 0.0, 1.0)] 375.1
    667.3).2.1 (by decide +kernel) (by decide +kernel)
  have hlast := (last_size_counts hbuilt (by rfl) hfresh [(475.1, 767.3), (0.0 / 0.0, 1.0)] 500.3
    667.3).1
  exact ⟨hbuilt, hfresh, hback.1, hlast⟩

end DesignLayout.ElasticScene
