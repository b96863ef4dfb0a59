import DesignLayout.Proofs.Placing

/-! Where a relayout puts the nodes of a branch.

The uppermost node takes the size that it is given (`node?_relayout_self`), every node below it the
bounds that its constraints ask for when its parent has gone to where the relayout puts it
(`node?_relayout_child`), and the draw bounds of each node change as its bounds do. Nothing else is
needed to follow a node from parent to child, however deep it stands. -/
namespace DesignLayout

variable {α : Type} [Scalar α]

/-- The node with new bounds, its draw bounds having followed. -/
def Node.fitted (n : Node α) (new : Bounds α) : Node α :=
  { n with bounds := new, drawBounds := n.drawBounds.following n.bounds new }

theorem Branch.relaidAll_eq (old new : Bounds α) (bs : List (Branch α)) :
    relaidAll old new bs =
      bs.flatMap fun b => b.relaid (b.node.constraints.apply b.node.bounds old new) := by
  induction bs with
  | nil => rfl
  | cons b rest ih =>
    cases b
    rw [relaidAll, ih, List.flatMap_cons]
    rfl

namespace Scene
variable {s : Scene α}

/-- A placement of a relaid branch is that of its uppermost node, or it follows the placement of the
node's parent. -/
theorem mem_relaid (hf : s.IsForest) (id : NodeId) :
    ∀ b new p, s.branch? id = some b → p ∈ b.relaid new →
      (p.id = id ∧ ∃ n, s.node? p.id = some n ∧ n.placed p = n.fitted new) ∨
        ∃ q ∈ b.relaid new, ∃ n m, s.node? p.id = some n ∧ s.node? q.id = some m ∧
          n.parent = some q.id ∧
          n.placed p = n.fitted (n.constraints.apply n.bounds m.bounds q.bounds) := by
  intro b new p hb hp
  induction id, b, hb using hf.induction_branch generalizing new p with
  | step id m hm hb ih =>
    rw [Branch.relaid, Branch.relaidAll_eq] at hp ⊢
    rcases List.mem_cons.mp hp with rfl | hp
    · exact .inl ⟨rfl, m, hm, rfl⟩
    · obtain ⟨b, hb, hp⟩ := List.mem_flatMap.mp hp
      obtain ⟨c, hc, hbc⟩ := List.mem_filterMap.mp hb
      rcases ih c hc b hbc _ p hp with ⟨hid, n, hn, hplaced⟩ | ⟨q, hq, hrest⟩
      · -- The child itself follows the uppermost node.
        obtain ⟨k, hk, hparent⟩ := hf.mem_children.mp hc
        obtain rfl : n = k := Option.some.inj ((hid ▸ hn).symm.trans hk)
        have hnode : b.node = n := by
          rw [hf.branch?_of_node? hk] at hbc
          rw [← Option.some.inj hbc, Branch.node_mk]
        rw [hnode] at hplaced
        exact .inr ⟨_, List.mem_cons_self, n, m, hn, hm, hparent, hplaced⟩
      · exact .inr ⟨q, List.mem_cons_of_mem _ (List.mem_flatMap.mpr ⟨b, hb, hq⟩), hrest⟩

section
variable (hf : s.IsForest) {id : NodeId} {r : Node α} (hr : s.node? id = some r)
  (width height : α)
include hf hr

theorem relayout_of_node? :
    s.relayout id width height = s.placeAll
      ((Branch.mk id r (s.branches r.children)).relaid { r.bounds with width, height }) := by
  rw [relayout, hf.branch?_of_node? hr]
  rfl

/-- Every placed node ends where its one placement puts it. -/
theorem node?_relayout_of_mem {p : Placement α} {n : Node α} (hn : s.node? p.id = some n)
    (hp : p ∈ (Branch.mk id r (s.branches r.children)).relaid { r.bounds with width, height }) :
    (s.relayout id width height).node? p.id = some (n.placed p) := by
  have hnodup := hf.nodup_preorder id _ (hf.branch?_of_node? hr)
  rw [← Branch.map_id_relaid { r.bounds with width, height }] at hnodup
  rw [relayout_of_node? hf hr, node?_placeAll_of_mem s hnodup hp, hn, Option.map_some]

theorem node?_relayout_self :
    (s.relayout id width height).node? id =
      some (r.fitted { r.bounds with width, height }) := by
  have hp : (⟨id, _, _⟩ : Placement α) ∈
      (Branch.mk id r (s.branches r.children)).relaid { r.bounds with width, height } :=
    List.mem_cons_self
  exact node?_relayout_of_mem hf hr width height hr hp

/-- Below the resized node every node follows its parent. -/
theorem node?_relayout_child {c p : NodeId} {n m m' : Node α} (hp : s.Within p id)
    (hn : s.node? c = some n) (hparent : n.parent = some p) (hm : s.node? p = some m)
    (hm' : (s.relayout id width height).node? p = some m') :
    (s.relayout id width height).node? c =
      some (n.fitted (n.constraints.apply n.bounds m.bounds m'.bounds)) := by
  have hb := hf.branch?_of_node? hr
  have hchild : s.ChildOf c p := ⟨n, hn, hparent⟩
  have hc : c ∈ (Branch.mk id r (s.branches r.children)).preorder :=
    (hf.mem_preorder id _ c hb).mpr (.head hchild hp)
  rw [← Branch.map_id_relaid { r.bounds with width, height }] at hc
  obtain ⟨q, hq, rfl⟩ := List.mem_map.mp hc
  rcases mem_relaid hf id _ _ q hb hq with ⟨hid, _⟩ | ⟨q', hq', k, l, hk, hl, hkp, hplaced⟩
  · -- The uppermost node does not stand below its own parent.
    have hle := hf.le_of_within hp
    have hlt := hf.parent_lt hchild
    exact absurd hlt (by rw [hid]; exact Nat.not_lt_of_le hle)
  · obtain rfl : n = k := Option.some.inj (hn.symm.trans hk)
    obtain rfl : p = q'.id := Option.some.inj (hparent.symm.trans hkp)
    obtain rfl : m = l := Option.some.inj (hm.symm.trans hl)
    rw [node?_relayout_of_mem hf hr width height hm hq'] at hm'
    obtain rfl := Option.some.inj hm'
    rw [node?_relayout_of_mem hf hr width height hn hq, hplaced]
    rfl

end
end Scene
end DesignLayout
