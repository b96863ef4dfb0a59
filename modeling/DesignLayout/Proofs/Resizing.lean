import DesignLayout.Proofs.Building

/-! What resizing does to an elastic scene.

A node that has no resting layout yet gets one at its first resize and is laid out from it ever
after, so only the last size counts (`resize_resize`); and when that is the size it had, the resize
changes nothing (`resize_of_same`). No law of the arithmetic is used, but that the size of the node
is the same as itself: it must not be a NaN. -/
namespace DesignLayout.ElasticScene

variable {α : Type} {t : ElasticScene α}

theorem lookup_filter (resting : List (NodeId × Resting α)) (id m : NodeId) :
    (resting.filter (·.1 != id)).lookup m = if m = id then none else resting.lookup m := by
  induction resting with
  | nil => simp
  | cons p rest ih =>
    obtain ⟨k, r⟩ := p
    by_cases hk : k = id
    · subst hk
      rw [List.filter_cons_of_neg (by simp), ih]
      grind
    · rw [List.filter_cons_of_pos (by simpa using hk), List.lookup_cons, ih]
      grind

theorem AtRest.lookup_eq_none [Scalar α] (h : t.AtRest) (id : NodeId) :
    t.resting.lookup id = none := by
  rw [show t.resting = [] from h]
  rfl

theorem filter_resting_of_fresh {id : NodeId} (hfresh : t.resting.lookup id = none) :
    t.resting.filter (·.1 != id) = t.resting := by
  refine List.filter_eq_self.mpr fun p hp => ?_
  rw [bne_comm]
  exact List.lookup_eq_none_iff.mp hfresh p hp

variable [Scalar α]

/-- The first resize of a node: its branch is laid out from where it stands. -/
theorem resize_fresh {id : NodeId} {n : Node α} (hn : t.scene.node? id = some n)
    (hfresh : t.resting.lookup id = none) (width height : α) :
    t.resize id width height =
      if Scalar.same width n.bounds.width && Scalar.same height n.bounds.height then t
      else
        { scene := t.scene.relayout id width height
          resting :=
            (id, ⟨n.bounds.width, n.bounds.height, t.scene.placements id⟩) :: t.resting } := by
  simp only [resize, hn, restingOf, hfresh, Option.getD_none, filter_resting_of_fresh hfresh,
    Scene.placeAll_placements_self]

/-- Only the last one of several resizes counts. -/
theorem resize_resize (hf : t.scene.IsForest) {id : NodeId} (hfresh : t.resting.lookup id = none)
    (width height width' height' : α) :
    (t.resize id width height).resize id width' height' = t.resize id width' height' := by
  cases hn : t.scene.node? id with
  | none => simp only [resize, hn]
  | some n =>
    rw [resize_fresh hn hfresh width height]
    split
    · rfl
    · -- The second resize finds the resting layout that the first one has kept.
      obtain ⟨k, hk, _⟩ := (t.scene.relaid_relayout id width height).exists_node? hn
      rw [resize_fresh hn hfresh width' height']
      simp only [resize, hk, restingOf, List.lookup_cons_self, Option.getD_some,
        Scene.placeAll_placements_relayout hf]
      simp [filter_resting_of_fresh hfresh]

/-- A node at rest keeps everything where it is when it is resized to a size that is the same as
its own. -/
theorem resize_of_same {id : NodeId} {n : Node α} (hn : t.scene.node? id = some n)
    (hfresh : t.resting.lookup id = none) {width height : α}
    (hwidth : Scalar.same width n.bounds.width = true)
    (hheight : Scalar.same height n.bounds.height = true) : t.resize id width height = t := by
  rw [resize_fresh hn hfresh, hwidth, hheight]
  rfl

theorem resize_own_size {id : NodeId} {n : Node α} (hn : t.scene.node? id = some n)
    (hfresh : t.resting.lookup id = none)
    (hwidth : Scalar.same n.bounds.width n.bounds.width = true)
    (hheight : Scalar.same n.bounds.height n.bounds.height = true) :
    t.resize id n.bounds.width n.bounds.height = t :=
  resize_of_same hn hfresh hwidth hheight

end DesignLayout.ElasticScene
