import DesignLayout.Proofs.Matching
import DesignLayout.Scene.Elastic

/-! What placing does to a scene.

Placements change where nodes stand and nothing else: a scene and the scene after any placements
are `Relaid`, and so they have the same subtrees. `node?_placeAll` says where
each node ends, and `placeAll_placements` that placing a branch where it stood undoes every change
that stayed within the branch. A relayout is such a change (`node?_relayout_of_notMem`). -/
namespace DesignLayout

variable {α : Type}

/-- The node where a placement puts it. -/
def Node.placed (n : Node α) (p : Placement α) : Node α :=
  { n with bounds := p.bounds, drawBounds := p.drawBounds }

@[simp] theorem Node.placed_placed (n : Node α) (p q : Placement α) :
    (n.placed p).placed q = n.placed q := rfl

/-- After several placements a node stands where the last one put it. -/
theorem Node.foldl_placed {ps : List (Placement α)} {n m : Node α} (hne : ps ≠ [])
    (h : ∀ p ∈ ps, n.placed p = m) : ps.foldl Node.placed n = m := by
  induction ps generalizing n with
  | nil => exact absurd rfl hne
  | cons p rest ih =>
    rw [List.foldl_cons]
    by_cases hrest : rest = []
    · subst hrest
      exact h p List.mem_cons_self
    · exact ih hrest fun q hq => h q (List.mem_cons_of_mem p hq)

/-- The same node, perhaps at another place. -/
def Node.Moved (a b : Node α) : Prop :=
  { a with bounds := b.bounds, drawBounds := b.drawBounds } = b

theorem Node.Moved.refl (a : Node α) : a.Moved a := rfl

theorem Node.Moved.symm {a b : Node α} (h : a.Moved b) : b.Moved a := by
  rw [Moved, ← h]

theorem Node.Moved.trans {a b c : Node α} (hab : a.Moved b) (hbc : b.Moved c) : a.Moved c := by
  rw [Moved, ← hbc, ← hab]

theorem Node.Moved.parent {a b : Node α} (h : a.Moved b) : b.parent = a.parent := by
  rw [← h]

theorem Node.Moved.children {a b : Node α} (h : a.Moved b) : b.children = a.children := by
  rw [← h]

theorem Node.Moved.kind {a b : Node α} (h : a.Moved b) : b.kind = a.kind := by
  rw [← h]

theorem Node.moved_placed (n : Node α) (p : Placement α) : n.Moved (n.placed p) := rfl

namespace Scene
variable {s t : Scene α}

/-- The same nodes, perhaps at other places. -/
def Relaid (s t : Scene α) : Prop :=
  Matched (fun _ => Node.Moved) s t

namespace Relaid

theorem refl (s : Scene α) : s.Relaid s :=
  Matched.refl (fun _ => Node.Moved.refl) s

theorem trans {u : Scene α} (h : s.Relaid t) (h' : t.Relaid u) : s.Relaid u :=
  Matched.trans (fun _ _ _ _ => Node.Moved.trans) h h'

theorem sameLinks (h : s.Relaid t) : s.SameLinks t :=
  h.mono fun _ _ _ hm => ⟨hm.parent, hm.children⟩

end Relaid

/-- What is moved keeps its label. -/
theorem Relaid.label (hs : s.Relaid t) {n k : Node α} (h : n.Moved k) (extended : Bool) :
    t.label extended k = s.label extended n := by
  have hkind : t.parentKind? k = s.parentKind? n := by
    rw [parentKind?, parentKind?, parentOf?, parentOf?, h.parent]
    cases n.parent with
    | none => rfl
    | some p =>
      show (t.node? p).map (·.kind) = (s.node? p).map (·.kind)
      rcases hs.cases_node? p with ⟨hp, hp'⟩ | ⟨q, q', hp, hp', hq⟩ <;> rw [hp, hp']
      rw [← hq]
      rfl
  have hname : k.name = n.name := by
    rw [← h]
  rw [Scene.label, Scene.label, inGrid, inGrid, hkind, hname]

/-! ### Placing -/

theorem node?_place (s : Scene α) (p : Placement α) (m : NodeId) :
    (s.place p).node? m = (s.node? m).map fun n => if p.id = m then n.placed p else n := by
  simp only [place, node?, Array.getElem?_modify]
  by_cases h : p.id = m
  · simp only [h, if_true]
    rfl
  · simp [h]

theorem relaid_place (s : Scene α) (p : Placement α) : s.Relaid (s.place p) where
  topLevel := rfl
  node? m := by
    rw [node?_place]
    cases s.node? m with
    | none => exact .none
    | some n =>
      refine .some ?_
      split
      · exact n.moved_placed p
      · exact .refl n

theorem node?_placeAll (s : Scene α) (ps : List (Placement α)) (m : NodeId) :
    (s.placeAll ps).node? m =
      (s.node? m).map fun n => (ps.filter (·.id == m)).foldl Node.placed n := by
  induction ps generalizing s with
  | nil => simp [placeAll]
  | cons p rest ih =>
    show ((s.place p).placeAll rest).node? m = _
    rw [ih, node?_place, Option.map_map]
    by_cases h : p.id = m
    · simp [h, Function.comp_def]
    · simp [h, Function.comp_def]

theorem relaid_placeAll (s : Scene α) (ps : List (Placement α)) : s.Relaid (s.placeAll ps) := by
  induction ps generalizing s with
  | nil => exact .refl s
  | cons p rest ih => exact (s.relaid_place p).trans (ih _)

theorem node?_placeAll_of_notMem (s : Scene α) {ps : List (Placement α)} {m : NodeId}
    (h : ∀ p ∈ ps, p.id ≠ m) : (s.placeAll ps).node? m = s.node? m := by
  have hnil : ps.filter (·.id == m) = [] := by simpa using h
  simp [node?_placeAll, hnil]

/-- Of placements of different nodes each one puts its node. -/
theorem node?_placeAll_of_mem (s : Scene α) {ps : List (Placement α)} {p : Placement α}
    (hnodup : (ps.map (·.id)).Nodup) (hp : p ∈ ps) :
    (s.placeAll ps).node? p.id = (s.node? p.id).map fun n => n.placed p := by
  have hfilter : ps.filter (·.id == p.id) = [p] := by
    induction ps with
    | nil => cases hp
    | cons q rest ih =>
      rw [List.map_cons, List.nodup_cons] at hnodup
      obtain ⟨hq, hrest⟩ := hnodup
      rcases List.mem_cons.mp hp with rfl | hp
      · have hnone : rest.filter (·.id == p.id) = [] := by
          refine List.filter_eq_nil_iff.mpr fun r hr hid => hq ?_
          rw [← beq_iff_eq.mp hid]
          exact List.mem_map_of_mem hr
        simp [hnone]
      · have hne : q.id ≠ p.id := fun h => hq (h ▸ List.mem_map_of_mem hp)
        rw [List.filter_cons_of_neg (by simpa using hne)]
        exact ih hrest hp
  rw [node?_placeAll, hfilter]
  rfl

/-! ### Placing a branch where it stands -/

theorem mem_placements {id : NodeId} {p : Placement α} :
    p ∈ s.placements id ↔
      ∃ m ∈ s.subtree id, ∃ n, s.node? m = some n ∧ p = ⟨m, n.bounds, n.drawBounds⟩ := by
  simp only [placements, List.mem_filterMap, Option.map_eq_some_iff, eq_comm (a := p)]

theorem nodup_placements (hf : s.IsForest) {id : NodeId} (hid : id < s.size) :
    ((s.placements id).map (·.id)).Nodup := by
  rw [List.Nodup, List.pairwise_map, placements, List.pairwise_filterMap]
  refine (hf.nodup_subtree hid).imp fun {a b} hne p hp q hq => ?_
  obtain ⟨_, _, rfl⟩ := Option.map_eq_some_iff.mp hp
  obtain ⟨_, _, rfl⟩ := Option.map_eq_some_iff.mp hq
  exact hne

/-- A node of a branch comes to where it stands in `s`, if it is perhaps at another place in `t`. -/
theorem node?_placeAll_placements {id m : NodeId} (hm : m ∈ s.subtree id) {n k : Node α}
    (hn : s.node? m = some n) (hk : t.node? m = some k) (hmoved : n.Moved k) :
    (t.placeAll (s.placements id)).node? m = some n := by
  rw [node?_placeAll, hk, Option.map_some, Option.some.injEq]
  refine Node.foldl_placed ?_ fun p hp => ?_
  · refine List.ne_nil_of_mem (a := ⟨m, n.bounds, n.drawBounds⟩) (List.mem_filter.mpr ⟨?_, ?_⟩)
    · exact mem_placements.mpr ⟨m, hm, n, hn, rfl⟩
    · exact beq_self_eq_true m
  · obtain ⟨hp, hid⟩ := List.mem_filter.mp hp
    obtain ⟨m', _, n', hn', rfl⟩ := mem_placements.mp hp
    obtain rfl : m' = m := beq_iff_eq.mp hid
    obtain rfl : n = n' := Option.some.inj (hn.symm.trans hn')
    exact hmoved.symm

/-- Placing a branch where it stands in one scene makes that scene of any other one that differs
from it at most in where the nodes of the branch stand. -/
theorem placeAll_placements (h : s.Relaid t) {id : NodeId}
    (hout : ∀ m ∉ s.subtree id, t.node? m = s.node? m) : t.placeAll (s.placements id) = s := by
  refine ext_node? ((relaid_placeAll t _).topLevel.trans h.topLevel) fun m => ?_
  by_cases hm : m ∈ s.subtree id
  · rcases h.cases_node? m with ⟨hs, ht⟩ | ⟨n, k, hs, ht, hk⟩
    · rw [node?_placeAll, hs, ht, Option.map_none]
    · rw [node?_placeAll_placements hm hs ht hk, hs]
  · rw [node?_placeAll_of_notMem, hout m hm]
    intro p hp hid
    obtain ⟨m', hm', _, _, rfl⟩ := mem_placements.mp hp
    exact hm (hid ▸ hm')

theorem placeAll_placements_self (s : Scene α) (id : NodeId) :
    s.placeAll (s.placements id) = s :=
  placeAll_placements (.refl s) fun _ _ => rfl

end Scene

/-! ### Laying out a branch anew -/

section Relayout
variable [Scalar α]

mutual

/-- A branch is laid out node by node, in the order of its preorder. -/
theorem Branch.map_id_relaid (new : Bounds α) :
    ∀ b : Branch α, (b.relaid new).map (·.id) = b.preorder
  | .mk id n children => by
    rw [relaid, preorder, List.map_cons, map_id_relaidAll]

theorem Branch.map_id_relaidAll (old new : Bounds α) :
    ∀ bs : List (Branch α), (relaidAll old new bs).map (·.id) = preorderAll bs
  | [] => rfl
  | .mk id n children :: rest => by
    rw [relaidAll, preorderAll, List.map_append, map_id_relaidAll old new rest,
      map_id_relaid _ (.mk id n children)]

end

namespace Scene
variable {s : Scene α}

theorem relaid_relayout (s : Scene α) (id : NodeId) (width height : α) :
    s.Relaid (s.relayout id width height) := by
  unfold relayout
  split
  · exact .refl s
  · exact relaid_placeAll s _

theorem relaid_shift (s : Scene α) (id : NodeId) (dx dy : α) : s.Relaid (s.shift id dx dy) :=
  relaid_placeAll s _

/-- A relayout leaves every node where it is that is not in the branch. -/
theorem node?_relayout_of_notMem (hf : s.IsForest) {id m : NodeId} (width height : α)
    (hm : m ∉ s.subtree id) : (s.relayout id width height).node? m = s.node? m := by
  unfold relayout
  split
  · rfl
  · rename_i b hb
    refine node?_placeAll_of_notMem s fun p hp hid => hm ?_
    rw [hf.subtree_eq hb, ← Branch.map_id_relaid { b.node.bounds with width, height }, ← hid]
    exact List.mem_map_of_mem hp

/-- A relayout sees only the branch. -/
theorem node?_relayout_congr {t : Scene α} {id m : NodeId} (hs : s.IsForest)
    (ht : t.IsForest) (h : ∀ m, s.Within m id → t.node? m = s.node? m) (width height : α)
    (hm : s.Within m id) :
    (t.relayout id width height).node? m = (s.relayout id width height).node? m := by
  unfold relayout
  rw [hs.branch?_congr ht id h]
  split
  · exact h m hm
  · rw [node?_placeAll, node?_placeAll, h m hm]

/-- Placing a branch where it stood undoes a relayout. -/
theorem placeAll_placements_relayout (hf : s.IsForest) (id : NodeId) (width height : α) :
    (s.relayout id width height).placeAll (s.placements id) = s :=
  placeAll_placements (relaid_relayout s id width height) fun _ hm =>
    node?_relayout_of_notMem hf width height hm

end Scene
end Relayout
end DesignLayout
