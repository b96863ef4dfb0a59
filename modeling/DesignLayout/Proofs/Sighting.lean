import DesignLayout.Proofs.Building
import DesignLayout.Proofs.Finding

/-! Roots below what is commented out.

A search for roots goes down from the nodes that are selected, and turns back at what is commented
out. It does not look up: whether something above a selected node comments it out is not asked. So
no root is commented out by its own label, and a root is hidden exactly when it was found from a
selected node that is hidden itself (`Roots.hidden_root_iff`); a search of the whole scene begins at
the top and finds nothing hidden. A board that is selected within a commented-out group becomes a
root (`Roots.hidden_board_found`). -/
namespace DesignLayout

variable {α : Type} {s : Scene α}

namespace Scene

/-- Between a node and what is seen from it nothing is commented out, so both are hidden or none. -/
theorem Seen.hidden_iff {a id : NodeId} (h : s.Seen a id) : s.Hidden id ↔ s.Hidden a := by
  constructor
  · intro hid
    by_contra ha
    exact ((seen_iff_of_not_hidden ha).mp h).2 hid
  · rintro ⟨m, ham, hout⟩
    exact ⟨m, h.1.trans ham, hout⟩

/-- At the top of the scene a node is hidden by its own label only. -/
theorem IsForest.commentsOut_of_top (hf : s.IsForest) {r : NodeId} (hr : r ∈ s.topLevel)
    (h : s.Hidden r) : s.CommentsOut r := by
  obtain ⟨m, hrm, hout⟩ := h
  obtain ⟨r', hr', hm⟩ := hf.exists_top m hout.lt_size
  obtain rfl := hf.top_unique hr hr' .refl (hrm.trans hm)
  rwa [hf.within_antisymm hrm hm]

end Scene

namespace Roots
variable {o : Options}

theorem hidden_iff_of_find (hf : s.IsForest) {selection : List NodeId} {found : Roots}
    (h : find s selection o = .ok found) {id : NodeId} (hid : id ∈ found.ids) :
    ¬ s.CommentsOut id ∧ (s.Hidden id ↔ ∃ a ∈ selection, s.Seen a id ∧ s.Hidden a) := by
  obtain ⟨p, hp, rfl⟩ := List.mem_map.mp hid
  obtain ⟨-, a, ha, hseen⟩ := exists_seen_of_find hf h p hp
  refine ⟨hseen.not_commentsOut, fun hidden => ?_, ?_⟩
  · have hahidden := hseen.hidden_iff.mp hidden
    unfold searched at ha
    split at ha
    · -- A top-level node that is hidden is commented out, and nothing is seen from it.
      have hout := hf.commentsOut_of_top ha hahidden
      exact absurd hout (hseen.2 a hseen.1 .refl)
    · exact ⟨a, ha, hseen, hahidden⟩
  · rintro ⟨b, -, hseen, hb⟩
    exact hseen.hidden_iff.mpr hb

variable [Scalar α] {t : ElasticScene α}

/-- For every scene that is built, every selection and all options: no root that is found is
commented out by its own label, and one stands below something that is commented out exactly when it
was seen from a selected node that does. With nothing selected there is no such node. -/
theorem hidden_root_iff (hbuilt : t.Built) {selection : List NodeId} {found : Roots}
    (h : find t.scene selection o = .ok found) :
    ∀ id ∈ found.ids, ¬ t.scene.CommentsOut id ∧
      (t.scene.Hidden id ↔ ∃ a ∈ selection, t.scene.Seen a id ∧ t.scene.Hidden a) :=
  fun _ => hidden_iff_of_find hbuilt.isForest h

/-- A board with a sub-prefab in a group that is commented out, and a board that is not. -/
def archive : ElasticScene Float :=
  (((ElasticScene.empty.insert none
    { name := "#Old", kind := .group, bounds := ⟨0.0, 0.0, 400.0, 300.0⟩ }).insert (some 0)
    { name := "Draft", kind := .artboard, bounds := ⟨0.0, 0.0, 400.0, 300.0⟩ }).insert (some 1)
    { name := "Popup/", kind := .group, bounds := ⟨10.0, 10.0, 40.0, 30.0⟩ }).insert none
    { name := "Screen", kind := .artboard, bounds := ⟨500.0, 0.0, 400.0, 300.0⟩ }

theorem built_archive : archive.Built :=
  (((ElasticScene.Built.empty.insert none _ (by simp)).insert (some 0) _ (by decide)).insert
    (some 1) _ (by decide)).insert none _ (by simp)

/-- Of the whole archive only the board at the top is a root. -/
theorem archive_screen_in_sight :
    archive.Built ∧
      find archive.scene [] { onlyMarked := false } = .ok ⟨[("Screen", 3)], [3]⟩ ∧
      ¬ archive.scene.Hidden 3 := by
  have hfind : find archive.scene [] { onlyMarked := false } = .ok ⟨[("Screen", 3)], [3]⟩ := by
    decide +kernel
  refine ⟨built_archive, hfind, fun hidden => ?_⟩
  obtain ⟨a, ha, -⟩ := (hidden_root_iff built_archive hfind 3 List.mem_cons_self).2.mp hidden
  cases ha

/-- The board in the commented-out group is selected, and found. -/
theorem hidden_board_found :
    ¬ ∀ (t : ElasticScene Float) selection (o : Options) found, t.Built →
      find t.scene selection o = .ok found → ∀ id ∈ found.ids, ¬ t.scene.Hidden id := by
  intro h
  have hfind : find archive.scene [1] { onlyMarked := false } =
      .ok ⟨[("Draft", 1), ("Popup", 2)], [1]⟩ := by
    decide +kernel
  have hout : archive.scene.CommentsOut 0 := by decide +kernel
  have hwithin : archive.scene.Within 1 0 := .single ⟨_, rfl, rfl⟩
  exact h archive [1] _ _ built_archive hfind 1 List.mem_cons_self ⟨0, hwithin, hout⟩

end Roots
end DesignLayout
