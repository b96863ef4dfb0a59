import DesignLayout.Proofs.Matching

/-! What is commented out.

Whether a label comments its node out depends on the label alone, not on where the node stands or
which roles are admitted (`has_commentOut_parse`). A node is hidden when it is commented out or
stands below a node that is; what stands directly below a node in sight and is hidden itself is
commented out by its own label (`commentsOut_of_hidden_child`). -/
namespace DesignLayout

theorem Label.value_addAll (ds : Directives) {d : Directive} {roles : List Directive}
    (h : d ∉ roles) : (addAll ds roles).value d = ds.value d := by
  unfold addAll
  induction roles generalizing ds with
  | nil => rfl
  | cons role rest ih =>
    rw [List.mem_cons, not_or] at h
    rw [List.foldl_cons, ih _ h.2, Directives.value_add, if_neg h.1]

theorem Label.commentOut_notMem_rolesOf (extended : Bool) (name : List Char) :
    Directive.commentOut ∉ rolesOf extended name := by
  intro h
  obtain ⟨rule, hrule, hrole⟩ := List.mem_map.mp h
  have hall : ∀ rule ∈ nameRules, rule.role ≠ .commentOut := by decide
  exact hall rule (List.mem_of_mem_filter hrule) hrole

/-- No role that a name takes by itself comments out. -/
theorem Label.has_commentOut_parse (label : String) (inGrid extended : Bool) :
    (parse label inGrid extended).directives.has .commentOut =
      (parse label false false).directives.has .commentOut := by
  unfold parse Directives.has
  dsimp only
  rw [value_addAll _ (commentOut_notMem_rolesOf _ _),
    value_addAll _ (commentOut_notMem_rolesOf _ _)]

variable {α : Type}

/-- The label comments the node out. -/
def Node.commentedOut (n : Node α) : Bool :=
  (Label.parse n.name false false).directives.has .commentOut

namespace Scene
variable {s s' : Scene α}

theorem has_commentOut_label (s : Scene α) (extended : Bool) (n : Node α) :
    (s.label extended n).directives.has .commentOut = n.commentedOut :=
  Label.has_commentOut_parse ..

def CommentsOut (s : Scene α) (id : NodeId) : Prop :=
  ∃ n, s.node? id = some n ∧ n.commentedOut = true

theorem commentsOut_iff {id : NodeId} :
    s.CommentsOut id ↔ (s.node? id).any Node.commentedOut = true := by
  cases hn : s.node? id <;> simp [CommentsOut, hn]

instance (s : Scene α) (id : NodeId) : Decidable (s.CommentsOut id) :=
  decidable_of_iff _ commentsOut_iff.symm

/-- The node is commented out in both scenes, or it stands below such a node. -/
def HiddenInBoth (s s' : Scene α) (id : NodeId) : Prop :=
  ∃ a, s.Within id a ∧ s.CommentsOut a ∧ s'.CommentsOut a

/-- What stands in sight stands below nothing hidden. -/
theorem not_hiddenInBoth_parent {c p : NodeId} (hc : s.ChildOf c p)
    (h : ¬ HiddenInBoth s s' c) : ¬ HiddenInBoth s s' p := by
  rintro ⟨a, hpa, ha⟩
  exact h ⟨a, .head hc hpa, ha⟩

/-- Below a node in sight nothing is hidden but by its own label. -/
theorem commentsOut_of_hidden_child {c p : NodeId} (hc : s.ChildOf c p)
    (hp : ¬ HiddenInBoth s s' p) (h : HiddenInBoth s s' c) :
    s.CommentsOut c ∧ s'.CommentsOut c := by
  obtain ⟨a, hca, ha⟩ := h
  rcases Relation.ReflTransGen.cases_head hca with rfl | ⟨q, hq, hqa⟩
  · exact ha
  · rw [← hc.unique hq] at hqa
    exact absurd ⟨a, hqa, ha⟩ hp

theorem commentsOut_of_hidden_top {c : NodeId} {n : Node α} (hn : s.node? c = some n)
    (htop : n.parent = none) (h : HiddenInBoth s s' c) : s.CommentsOut c ∧ s'.CommentsOut c := by
  obtain ⟨a, hca, ha⟩ := h
  rcases Relation.ReflTransGen.cases_head hca with rfl | ⟨q, ⟨k, hk, hq⟩, _⟩
  · exact ha
  · obtain rfl : n = k := Option.some.inj (hn.symm.trans hk)
    rw [htop] at hq
    cases hq

/-- The scenes have the same nodes with the same links, and agree on every node but those that are
hidden in both. -/
structure AgreeInSight (s s' : Scene α) : Prop where
  links : s.SameLinks s'
  node? : ∀ id, ¬ HiddenInBoth s s' id → s'.node? id = s.node? id

end Scene
end DesignLayout
