import DesignLayout.Proofs.Forest

/-! Scenes that match node by node.

Two scenes match when they list the same top level and hold nodes under the same numbers, each pair
of nodes standing in a given relation. When the nodes of each pair have the same parent and the same
children (`SameLinks`), the scenes are forests together and have the same subtrees. -/
namespace DesignLayout

theorem rel_cases {β γ : Type} {r : β → γ → Prop} {a : Option β} {b : Option γ}
    (h : Option.Rel r a b) : (a = none ∧ b = none) ∨ ∃ x y, a = some x ∧ b = some y ∧ r x y := by
  cases h with
  | none => exact .inl ⟨rfl, rfl⟩
  | some hr => exact .inr ⟨_, _, rfl, rfl, hr⟩

namespace Scene
variable {α : Type} {s t u : Scene α} {R : NodeId → Node α → Node α → Prop}

structure Matched (R : NodeId → Node α → Node α → Prop) (s t : Scene α) : Prop where
  topLevel : t.topLevel = s.topLevel
  node? : ∀ m, Option.Rel (R m) (s.node? m) (t.node? m)

namespace Matched

theorem cases_node? (h : Matched R s t) (m : NodeId) :
    (s.node? m = none ∧ t.node? m = none) ∨
      ∃ n k, s.node? m = some n ∧ t.node? m = some k ∧ R m n k :=
  rel_cases (h.node? m)

theorem exists_node? (h : Matched R s t) {m : NodeId} {n : Node α} (hn : s.node? m = some n) :
    ∃ k, t.node? m = some k ∧ R m n k := by
  rcases h.cases_node? m with ⟨hs, _⟩ | ⟨n', k, hs, ht, hm⟩
  · rw [hn] at hs
    cases hs
  · obtain rfl : n = n' := Option.some.inj (hn.symm.trans hs)
    exact ⟨k, ht, hm⟩

theorem mono {R' : NodeId → Node α → Node α → Prop} (h : Matched R s t)
    (hR : ∀ m n k, R m n k → R' m n k) : Matched R' s t where
  topLevel := h.topLevel
  node? m := by
    rcases h.cases_node? m with ⟨hs, ht⟩ | ⟨n, k, hs, ht, hm⟩ <;> rw [hs, ht]
    · exact .none
    · exact .some (hR m n k hm)

theorem refl (hR : ∀ m n, R m n n) (s : Scene α) : Matched R s s where
  topLevel := rfl
  node? m := by
    cases s.node? m with
    | none => exact .none
    | some n => exact .some (hR m n)

theorem trans (hR : ∀ m n k l, R m n k → R m k l → R m n l) (h : Matched R s t)
    (h' : Matched R t u) : Matched R s u where
  topLevel := h'.topLevel.trans h.topLevel
  node? m := by
    rcases h.cases_node? m with ⟨hs, ht⟩ | ⟨n, k, hs, ht, hm⟩ <;>
      rcases h'.cases_node? m with ⟨ht', hu⟩ | ⟨k', l, ht', hu, hm'⟩ <;>
      rw [ht] at ht' <;> cases ht' <;> rw [hs, hu]
    · exact .none
    · exact .some (hR m n k l hm hm')

theorem size_eq (h : Matched R s t) : t.size = s.size := by
  have key {a b : Scene α} (hab : ∀ m n, a.node? m = some n → ∃ k, b.node? m = some k) :
      a.size ≤ b.size := by
    by_contra hlt
    obtain ⟨n, hn⟩ : ∃ n, a.node? b.size = some n := node?_isSome (by omega)
    obtain ⟨k, hk⟩ := hab _ _ hn
    exact Nat.lt_irrefl _ (lt_size_of_node? hk)
  refine Nat.le_antisymm (key fun m k hk => ?_) (key fun m n hn => ?_)
  · rcases h.cases_node? m with ⟨_, ht⟩ | ⟨n, _, hs, _, _⟩
    · rw [hk] at ht
      cases ht
    · exact ⟨n, hs⟩
  · obtain ⟨k, hk, _⟩ := h.exists_node? hn
    exact ⟨k, hk⟩

end Matched

/-! ### The same links -/

/-- The scenes hold the same nodes, as far as numbers, parents and children go. -/
def SameLinks (s t : Scene α) : Prop :=
  Matched (fun _ n k => k.parent = n.parent ∧ k.children = n.children) s t

namespace SameLinks

theorem refl (s : Scene α) : s.SameLinks s :=
  Matched.refl (fun _ _ => ⟨rfl, rfl⟩) s

theorem trans (h : s.SameLinks t) (h' : t.SameLinks u) : s.SameLinks u :=
  Matched.trans (fun _ _ _ _ hk hl => ⟨hl.1.trans hk.1, hl.2.trans hk.2⟩) h h'

theorem symm (h : s.SameLinks t) : t.SameLinks s where
  topLevel := h.topLevel.symm
  node? m := by
    rcases h.cases_node? m with ⟨hs, ht⟩ | ⟨n, k, hs, ht, hparent, hchildren⟩ <;> rw [hs, ht]
    · exact .none
    · exact .some ⟨hparent.symm, hchildren.symm⟩

theorem children_eq (h : s.SameLinks t) (m : NodeId) : t.children m = s.children m := by
  rcases h.cases_node? m with ⟨hs, ht⟩ | ⟨n, k, hs, ht, _, hk⟩
  · rw [children, children, hs, ht]
  · rw [children_of_node? hs, children_of_node? ht, hk]

/-- A node has the same parent in both scenes, or none in both. -/
theorem exists_parent_iff (h : s.SameLinks t) (m : NodeId) (parent : Option NodeId) :
    (∃ k, t.node? m = some k ∧ k.parent = parent) ↔
      ∃ n, s.node? m = some n ∧ n.parent = parent := by
  rcases h.cases_node? m with ⟨hs, ht⟩ | ⟨n, k, hs, ht, hk, _⟩
  · simp [hs, ht]
  · simp [hs, ht, hk]

theorem isForest (h : s.SameLinks t) (hf : s.IsForest) : t.IsForest where
  parent_lt {c p} hc := hf.parent_lt ((h.exists_parent_iff c (some p)).mp hc)
  mem_children {c p} := by
    rw [h.children_eq, ChildOf, h.exists_parent_iff]
    exact hf.mem_children
  children_ascending p := by
    rw [h.children_eq]
    exact hf.children_ascending p
  mem_topLevel {id} := by
    rw [h.topLevel, h.exists_parent_iff]
    exact hf.mem_topLevel
  topLevel_ascending := by
    rw [h.topLevel]
    exact hf.topLevel_ascending

theorem walk_eq (h : s.SameLinks t) (steps : Nat) (pending : List NodeId) :
    t.walk steps pending = s.walk steps pending := by
  induction steps generalizing pending with
  | zero => rw [walk, walk]
  | succ steps ih =>
    cases pending with
    | nil => rfl
    | cons id pending => rw [walk, walk, h.children_eq, ih]

theorem subtree_eq (h : s.SameLinks t) (id : NodeId) : t.subtree id = s.subtree id := by
  rw [subtree, subtree, h.size_eq, h.walk_eq]

theorem within_iff (h : s.SameLinks t) (m a : NodeId) : t.Within m a ↔ s.Within m a := by
  have hchild (c p : NodeId) : t.ChildOf c p ↔ s.ChildOf c p := h.exists_parent_iff c (some p)
  constructor
  · exact Relation.ReflTransGen.mono (fun c p => (hchild c p).mp) m a
  · exact Relation.ReflTransGen.mono (fun c p => (hchild c p).mpr) m a

end SameLinks
end Scene
end DesignLayout
