import DesignLayout.Proofs.Recovering

/-! Margins after a resize.

Only coordinates on the canvas are stored, and a layout moves a node by how far its parent has moved.
In exact fractions that keeps just what the constraint of the node speaks of: on each axis the
length and the distance from the near end, the middle or the far end of the parent, or both
distances from the ends (`Pull.keeps_apply`). It does so whatever becomes of the parent, so it does
at every depth (`Scene.keepsToParent_relayout`), and what a node draws beyond its bounds goes along
with them (`Node.overhang_fitted`). `ElasticScene.constraints_honoured` says it of the resize of a
node at rest. -/
namespace DesignLayout

/-! ### What a constraint keeps -/

namespace Span

/-- Where the span ends. -/
def stop (s : Span ℚ) : ℚ := s.start + s.length

def center (s : Span ℚ) : ℚ := s.start + s.length / 2

end Span

/-- When a node goes from `child` to `child'` and its parent from `parent` to `parent'`, the node
stands to its parent as the constraint asks, and as it stood before. -/
def Pull.Keeps (child parent child' parent' : Span ℚ) : Pull → Prop
  | near => child'.length = child.length ∧
      child'.start - parent'.start = child.start - parent.start
  | middle => child'.length = child.length ∧
      child'.center - parent'.center = child.center - parent.center
  | far => child'.length = child.length ∧ parent'.stop - child'.stop = parent.stop - child.stop
  | stretch => child'.start - parent'.start = child.start - parent.start ∧
      parent'.stop - child'.stop = parent.stop - child.stop

theorem Pull.keeps_self (pull : Pull) (child parent : Span ℚ) :
    pull.Keeps child parent child parent := by
  cases pull <;> exact ⟨rfl, rfl⟩

/-- What a constraint makes of the movement of the parent keeps what the constraint asks for. -/
theorem Pull.keeps_apply (pull : Pull) (child parent parent' : Span ℚ) :
    pull.Keeps child parent (pull.apply child parent parent') parent' := by
  cases pull with
  | near =>
    refine ⟨rfl, ?_⟩
    simp only [apply]
    ring
  | middle =>
    refine ⟨rfl, ?_⟩
    simp only [apply, Span.center, Scalar.half_rat]
    ring
  | far =>
    refine ⟨rfl, ?_⟩
    simp only [apply, Span.stop]
    ring
  | stretch =>
    constructor
    · simp only [apply]
      ring
    · simp only [apply, Span.stop]
      ring

/-- What the node draws beyond its bounds, number by number. -/
def Node.overhang (n : Node ℚ) : Bounds ℚ :=
  ⟨n.drawBounds.x - n.bounds.x, n.drawBounds.y - n.bounds.y,
   n.drawBounds.width - n.bounds.width, n.drawBounds.height - n.bounds.height⟩

@[simp] theorem Node.bounds_fitted (n : Node ℚ) (new : Bounds ℚ) : (n.fitted new).bounds = new :=
  rfl

theorem Node.overhang_fitted (n : Node ℚ) (new : Bounds ℚ) :
    (n.fitted new).overhang = n.overhang := by
  simp only [overhang, fitted, Bounds.following, Bounds.mk.injEq]
  refine ⟨?_, ?_, ?_, ?_⟩ <;> ring

/-! ### Below a resized node -/

namespace Scene
variable {s : Scene ℚ} {root id : NodeId}

/-- In `s'` the node stands to its parent as it does in `s`, as far as its constraints go. -/
def KeepsToParent (s s' : Scene ℚ) (id : NodeId) : Prop :=
  ∃ n p m n' m', s.node? id = some n ∧ n.parent = some p ∧ s.node? p = some m ∧
    s'.node? id = some n' ∧ s'.node? p = some m' ∧
    ∀ axis, (n.constraints.pull axis).Keeps (n.bounds.span axis) (m.bounds.span axis)
      (n'.bounds.span axis) (m'.bounds.span axis)

/-- Below a node every other one has a parent, which is that node or below it too. -/
theorem Within.exists_parent (h : s.Within id root) (hne : id ≠ root) (hroot : root < s.size) :
    ∃ n p m, s.node? id = some n ∧ n.parent = some p ∧ s.node? p = some m ∧ s.Within p root := by
  rcases Relation.ReflTransGen.cases_head h with rfl | ⟨p, ⟨n, hn, hp⟩, hpr⟩
  · exact absurd rfl hne
  · have hlt : p < s.size := Within.lt_size hpr hroot
    obtain ⟨m, hm⟩ := node?_isSome hlt
    exact ⟨n, p, m, hn, hp, hm, hpr⟩

theorem keepsToParent_self (h : s.Within id root) (hne : id ≠ root) (hroot : root < s.size) :
    s.KeepsToParent s id := by
  obtain ⟨n, p, m, hn, hp, hm, -⟩ := h.exists_parent hne hroot
  exact ⟨n, p, m, n, m, hn, hp, hm, hn, hm, fun axis => Pull.keeps_self _ _ _⟩

section
variable (hf : s.IsForest) {r : Node ℚ} (hr : s.node? root = some r) (width height : ℚ)
include hf hr

theorem keepsToParent_relayout (h : s.Within id root) (hne : id ≠ root) :
    s.KeepsToParent (s.relayout root width height) id := by
  obtain ⟨n, p, m, hn, hp, hm, hpr⟩ := h.exists_parent hne (lt_size_of_node? hr)
  obtain ⟨m', hm', -⟩ := (s.relaid_relayout root width height).exists_node? hm
  refine ⟨n, p, m, _, m', hn, hp, hm,
    node?_relayout_child hf hr width height hpr hn hp hm hm', hm', fun axis => ?_⟩
  rw [Node.bounds_fitted, Constraints.span_apply]
  exact Pull.keeps_apply _ _ _ _

theorem overhang_relayout (h : s.Within id root) {n : Node ℚ} (hn : s.node? id = some n) :
    ∃ n', (s.relayout root width height).node? id = some n' ∧ n'.overhang = n.overhang := by
  by_cases hne : id = root
  · subst hne
    exact ⟨_, node?_relayout_self hf hn width height, n.overhang_fitted _⟩
  · obtain ⟨k, p, m, hk, hp, hm, hpr⟩ := h.exists_parent hne (lt_size_of_node? hr)
    obtain rfl := Option.some.inj (hn.symm.trans hk)
    obtain ⟨m', hm', -⟩ := (s.relaid_relayout root width height).exists_node? hm
    exact ⟨_, node?_relayout_child hf hr width height hpr hn hp hm hm', n.overhang_fitted _⟩

end
end Scene

namespace ElasticScene
variable {t : ElasticScene ℚ}

/-- For every document that can come up, every node of it that is at rest, and every size, in exact
fractions: the node gets the size at its place; every node below it stands to its parent as its
constraints ask, on both axes, and as it stood before; and no node of the branch draws more or less
beyond its bounds than before. -/
theorem constraints_honoured (h : t.Built) {root : NodeId} {r : Node ℚ}
    (hr : t.scene.node? root = some r) (hfresh : t.resting.lookup root = none)
    (width height : ℚ) :
    (∃ r', (t.resize root width height).scene.node? root = some r' ∧
      r'.bounds = { r.bounds with width, height }) ∧
    (∀ id, t.scene.Within id root → id ≠ root →
      t.scene.KeepsToParent (t.resize root width height).scene id) ∧
    ∀ id n, t.scene.Within id root → t.scene.node? id = some n →
      ∃ n', (t.resize root width height).scene.node? id = some n' ∧ n'.overhang = n.overhang := by
  have hf := h.isForest
  rw [resize_fresh hr hfresh]
  split
  · -- The node has the size that is asked for, and nothing is laid out anew.
    rename_i hsame
    simp only [Scalar.same_rat, Bool.and_eq_true, decide_eq_true_eq] at hsame
    obtain ⟨rfl, rfl⟩ := hsame
    exact ⟨⟨r, hr, rfl⟩, fun id hid hne =>
      Scene.keepsToParent_self hid hne (Scene.lt_size_of_node? hr), fun id n _ hn => ⟨n, hn, rfl⟩⟩
  · exact ⟨⟨_, Scene.node?_relayout_self hf hr width height, rfl⟩,
      fun id hid hne => Scene.keepsToParent_relayout hf hr width height hid hne,
      fun id n hid hn => Scene.overhang_relayout hf hr width height hid hn⟩

/-- The board of `pinnedDot` is made larger: the dot keeps its distance from the right end of the
panel, which has got wider with the board. -/
theorem pinnedDot_honoured :
    Measurements.pinnedDot.Built ∧ Measurements.pinnedDot.resting.lookup 0 = none ∧
    Measurements.pinnedDot.scene.Within 2 0 ∧
    Measurements.pinnedDot.scene.KeepsToParent (Measurements.pinnedDot.resize 0 420 530).scene 2 ∧
    (Measurements.pinnedDot.resize 0 420 530).scene.bounds? 2 = some ⟨1395, 585, 12, 20⟩ := by
  have hbuilt : Measurements.pinnedDot.Built :=
    ((Built.empty.insert none _ (by simp)).insert (some 0) _ (by decide)).insert (some 1) _
      (by decide)
  have hfresh : Measurements.pinnedDot.resting.lookup 0 = none := rfl
  have hwithin : Measurements.pinnedDot.scene.Within 2 0 :=
    .head ⟨_, rfl, rfl⟩ (.single ⟨_, rfl, rfl⟩)
  obtain ⟨-, hkeeps, -⟩ := constraints_honoured hbuilt (by rfl) hfresh 420 530
  exact ⟨hbuilt, hfresh, hwithin, hkeeps 2 hwithin (by decide), by decide +kernel⟩

end ElasticScene
end DesignLayout
