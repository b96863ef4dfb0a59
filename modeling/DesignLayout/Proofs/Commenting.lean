import DesignLayout.Proofs.Elements
import DesignLayout.Proofs.LikeExports
import DesignLayout.Proofs.RoundTrip

/-! What is commented out leaves no trace, but for one.

Two documents that agree on every node in sight give the same export of the whole document, as long
as the first cells of the repeated grids that scroll stand alike in both
(`outcome_eq_of_agreeInSight`). This must be asked for: the padding of such a grid is read off its
first cell even when that cell is commented out, so a hidden cell that is moved moves the padding
(`hidden_cell_shows`). -/
namespace DesignLayout

variable {α : Type}

namespace Scene
variable {s s' : Scene α}

/-- The view of two scenes that passes over what is hidden in both. -/
def inSight (s s' : Scene α) : View where
  live id := ¬ HiddenInBoth s s' id
  out id := s.CommentsOut id ∧ s'.CommentsOut id

theorem fits_inSight (hf : s.IsForest) : (inSight s s').Fits s where
  up hc := not_hiddenInBoth_parent (hf.mem_children.mp hc)
  down {p c} hc hp := by
    by_cases hid : HiddenInBoth s s' c
    · exact .inr (commentsOut_of_hidden_child (hf.mem_children.mp hc) hp hid)
    · exact .inl hid
  top {id} hid := by
    obtain ⟨n, hn, htop⟩ := hf.mem_topLevel.mp hid
    by_cases hid : HiddenInBoth s s' id
    · exact .inr (commentsOut_of_hidden_top hn htop hid)
    · exact .inl hid

theorem alike_inSight (h : AgreeInSight s s') : s.Alike (inSight s s') s' where
  topLevel := h.links.topLevel
  node? m := by
    rcases h.links.cases_node? m with ⟨hs, hs'⟩ | ⟨n, n', hs, hs', hparent, hchildren⟩ <;>
      rw [hs, hs']
    · exact .none
    · refine .some ⟨hparent, hchildren, fun hm => ?_, ?_, fun hm p hp => ?_⟩
      · have heq := h.node? m hm
        rw [hs, hs'] at heq
        exact Option.some.inj heq
      · rintro ⟨⟨k, hk, hc⟩, ⟨k', hk', hc'⟩⟩
        obtain rfl : n = k := Option.some.inj (hs.symm.trans hk)
        obtain rfl : n' = k' := Option.some.inj (hs'.symm.trans hk')
        exact ⟨hc, hc'⟩
      · exact not_hiddenInBoth_parent ⟨n, hs, hp⟩ hm

end Scene

/-! ### Exports -/

theorem Scene.Relaid.scrollsOverGrid {s u : Scene α} (h : s.Relaid u) {o : Options} {id : NodeId}
    (hu : u.ScrollsOverGrid o id) : s.ScrollsOverGrid o id := by
  obtain ⟨k, hk, hkind, hgrid, hscrolls⟩ := hu
  rcases h.cases_node? id with ⟨_, hu⟩ | ⟨n, k', hn, hu, hmoved⟩
  · rw [hk] at hu
    cases hu
  · obtain rfl : k = k' := Option.some.inj (hk.symm.trans hu)
    rw [h.label hmoved] at hscrolls
    rw [← hmoved] at hkind hgrid
    exact ⟨n, hn, hkind, hgrid, hscrolls⟩

namespace Export
variable [Scalar α]

variable {t t' : ElasticScene α} {v : View}

theorem relaid_measure (t : ElasticScene α) (context : Context α) (r : Roots) :
    t.scene.Relaid (measure t context r).1.scene := by
  unfold measure
  split
  · exact Measurements.relaid_probeAll _ _ _
  · exact .refl _

theorem measure_alike (h : t.Alike v t') (hv : v.Fits t.scene) (context : Context α) {r : Roots}
    (hr : ∀ a ∈ r.artboards, v.live a) :
    (measure t context r).1.Alike v (measure t' context r).1 ∧
      (measure t context r).2.Alike v (measure t' context r).2 := by
  unfold measure
  split
  · exact Measurements.probeAll_alike h hv context.thresholds hr
  · exact ⟨h, fun _ _ => rfl⟩

/-- Documents that are alike give the same export, when commented-out first cells of their scrolling
grids stand at the same places once the probe is through. -/
theorem outcome_alike (h : t.Alike v t') (hv : v.Fits t.scene) (context : Context α)
    (hgrid : ∀ g cell, v.live g → t.scene.ScrollsOverGrid context.options g →
      cell ∈ (t.scene.children g).head? → v.out cell →
      (documentAfter t' [] context).scene.place? cell =
        (documentAfter t [] context).scene.place? cell) :
    outcome t' [] context = outcome t [] context := by
  obtain ⟨hfind, hlive⟩ := Roots.find_alike h.scene hv context.options
  have hfind : Roots.find (Host.scene t') [] context.options =
      Roots.find (Host.scene t) [] context.options := hfind
  cases hr : Roots.find (Host.scene t) [] context.options with
  | error e => rw [outcome_of_error hr, outcome_of_error (hfind.trans hr)]
  | ok r =>
    obtain ⟨hroots, hboards⟩ := hlive r hr
    have hrelaid := relaid_measure t context r
    obtain ⟨hdoc, hm⟩ := measure_alike h hv context hboards
    rw [documentAfter_of_find hr, documentAfter_of_find (hfind.trans hr)] at hgrid
    have hcompilers : Compiler.Alike v
        ⟨(measure t context r).1.scene, context, (measure t context r).2⟩
        ⟨(measure t' context r).1.scene, context, (measure t' context r).2⟩ := {
      context := rfl
      scene := hdoc.scene
      measurements := hm
      grid := by
        intro g cell hg hscrolls hcell hout
        rw [hrelaid.sameLinks.children_eq] at hcell
        exact hgrid g cell hg (hrelaid.scrollsOverGrid hscrolls) hcell hout }
    have hrun := Compiler.roots_alike hcompilers (hv.of_sameLinks hrelaid.sameLinks)
      (hdoc.scene.branches hroots)
    rw [outcome_of_find hr, outcome_of_find (hfind.trans hr)]
    simp only [Host.scene, hrun]

/-- A commented-out first cell of a scrolling grid in sight stands at the same place in both
documents, as an export leaves the documents. -/
def HiddenCellsAgree (context : Context α) (t t' : ElasticScene α) : Prop :=
  ∀ g cell, ¬ t.scene.HiddenInBoth t'.scene g → t.scene.ScrollsOverGrid context.options g →
    cell ∈ (t.scene.children g).head? → t.scene.CommentsOut cell ∧ t'.scene.CommentsOut cell →
    (documentAfter t' [] context).scene.place? cell =
      (documentAfter t [] context).scene.place? cell

/-- Without NaNs it is enough to look at the documents as they are given. -/
theorem hiddenCellsAgree_of_comparable (hbuilt : t.Built) (hbuilt' : t'.Built) (hrest : t.AtRest)
    (hrest' : t'.AtRest) (hc : t.scene.Comparable) (hc' : t'.scene.Comparable)
    (context : Context α)
    (h : ∀ g cell, ¬ t.scene.HiddenInBoth t'.scene g →
      t.scene.ScrollsOverGrid context.options g → cell ∈ (t.scene.children g).head? →
      t.scene.CommentsOut cell ∧ t'.scene.CommentsOut cell →
      t'.scene.place? cell = t.scene.place? cell) :
    HiddenCellsAgree context t t' := by
  intro g cell hg hscrolls hcell hout
  rw [documentAfter_eq hbuilt'.isForest hrest' hc', documentAfter_eq hbuilt.isForest hrest hc]
  exact h g cell hg hscrolls hcell hout

/-- For every two documents at rest that have the same nodes with the same links and agree on every
node but those that are commented out in both or stand below such a node, and for every context for
which commented-out first cells of scrolling grids agree: an export of the whole document gives the
same roots, requests and diagnostics, or the same error. -/
theorem outcome_eq_of_agreeInSight (hbuilt : t.Built) (hrest : t.AtRest) (hrest' : t'.AtRest)
    (hagree : t.scene.AgreeInSight t'.scene) (context : Context α)
    (hcells : HiddenCellsAgree context t t') :
    outcome t' [] context = outcome t [] context :=
  outcome_alike (.of_atRest (Scene.alike_inSight hagree) hrest hrest')
    (Scene.fits_inSight hbuilt.isForest) context hcells

/-! ### The one trace -/

/-- Moving what is commented out changes nothing in sight. -/
theorem agreeInSight_shift {s : Scene α} (hf : s.IsForest) {id : NodeId} (h : s.CommentsOut id)
    (dx dy : α) : s.AgreeInSight (s.shift id dx dy) where
  links := (s.relaid_shift id dx dy).sameLinks
  node? m hm := by
    have hmoved := s.relaid_shift id dx dy
    obtain ⟨n, hn, hout⟩ := h
    obtain ⟨k, hk, hnk⟩ := hmoved.exists_node? hn
    have hout' : k.commentedOut = true := by
      rw [← hnk]
      exact hout
    refine s.node?_placeAll_of_notMem fun p hp hid => hm ⟨id, ?_, ⟨n, hn, hout⟩, ⟨k, hk, hout'⟩⟩
    obtain ⟨q, hq, rfl⟩ := List.mem_map.mp hp
    obtain ⟨m', hm', _, _, rfl⟩ := Scene.mem_placements.mp hq
    obtain rfl : m' = m := hid
    exact (hf.mem_subtree (Scene.lt_size_of_node? hn)).mp hm'

omit [Scalar α] in
/-- Nor does it matter what it is that is commented out. -/
theorem agreeInSight_insert (s : Scene α) {parent : Option NodeId}
    (hp : ∀ p ∈ parent, p < s.size) {d d' : Draft α}
    (hd : (d.toNode s.size parent).commentedOut = true)
    (hd' : (d'.toNode s.size parent).commentedOut = true) :
    (s.insert parent d).AgreeInSight (s.insert parent d') where
  links := {
    topLevel := by rw [Scene.topLevel_insert, Scene.topLevel_insert]
    node? := by
      intro m
      rw [Scene.node?_insert s d hp, Scene.node?_insert s d' hp]
      by_cases hm : m = s.size
      · rw [if_pos hm, if_pos hm]
        exact .some ⟨rfl, rfl⟩
      · rw [if_neg hm, if_neg hm]
        cases s.node? m with
        | none => exact .none
        | some n => exact .some ⟨rfl, rfl⟩ }
  node? m hm := by
    have hnode := Scene.node?_insert s d hp m
    have hnode' := Scene.node?_insert s d' hp m
    by_cases hid : m = s.size
    · rw [if_pos hid] at hnode hnode'
      exact absurd ⟨m, .refl, ⟨_, hnode, hd⟩, ⟨_, hnode', hd'⟩⟩ hm
    · rw [if_neg hid] at hnode hnode'
      rw [hnode, hnode']

/-- A repeated grid that scrolls, still without cells. -/
def gridBoard : ElasticScene Float :=
  (ElasticScene.empty.insert none
    { name := "S", kind := .artboard, bounds := ⟨0.0, 0.0, 400.0, 300.0⟩ }).insert (some 0)
    { name := "ShopScroller", kind := .repeatGrid, bounds := ⟨0.0, 0.0, 300.0, 100.0⟩,
      grid := some ⟨1, 2, 100.0, 100.0, 10.0, 10.0⟩ }

def gridCell (name : String) (x : Float) : Draft Float :=
  { name, kind := .rectangle, bounds := ⟨x, 0.0, 100.0, 100.0⟩ }

theorem built_gridBoard : gridBoard.Built :=
  (ElasticScene.Built.empty.insert none _ (by simp)).insert (some 0) _ (by decide)

/-- Something else, at the place of the first cell. -/
def gridNote : Draft Float :=
  { name := "#note", kind := .text, bounds := ⟨10.0, 0.0, 7.0, 9.0⟩ }

theorem comparable_gridBoard : gridBoard.scene.Comparable := by
  show ((Scene.empty.insert none _).insert (some 0) _).Comparable
  exact (Scene.Comparable.empty.insert (by simp) (by decide)).insert (by decide) (by decide)

/-- A commented-out first cell leaves no trace but for its place. -/
theorem hidden_cell_in_place :
    outcome (gridBoard.insert (some 1) gridNote) [] wholeContext =
      outcome (gridBoard.insert (some 1) (gridCell "#old" 10.0)) [] wholeContext := by
  have hp : ∀ p ∈ some 1, p < gridBoard.scene.size := by decide
  have hbuilt (d : Draft Float) := built_gridBoard.insert (some 1) d hp
  have hrest (d : Draft Float) : (gridBoard.insert (some 1) d).AtRest := rfl
  have hcells : HiddenCellsAgree wholeContext (gridBoard.insert (some 1) (gridCell "#old" 10.0))
      (gridBoard.insert (some 1) gridNote) := by
    refine hiddenCellsAgree_of_comparable (hbuilt _) (hbuilt _) (hrest _) (hrest _)
      (comparable_gridBoard.insert hp (by decide)) (comparable_gridBoard.insert hp (by decide)) _ ?_
    intro g cell _ hscrolls hcell _
    have hplaces : ∀ g < 3,
        ∀ cell ∈ ((gridBoard.insert (some 1) (gridCell "#old" 10.0)).scene.children g).head?,
          (gridBoard.insert (some 1) gridNote).scene.place? cell =
            (gridBoard.insert (some 1) (gridCell "#old" 10.0)).scene.place? cell := by
      decide +kernel
    obtain ⟨n, hn, _⟩ := hscrolls
    exact hplaces g (Scene.lt_size_of_node? hn) cell hcell
  have hagree : (gridBoard.insert (some 1) (gridCell "#old" 10.0)).scene.AgreeInSight
      (gridBoard.insert (some 1) gridNote).scene :=
    agreeInSight_insert _ hp (by decide +kernel) (by decide +kernel)
  exact outcome_eq_of_agreeInSight (hbuilt _) (hrest _) (hrest _) hagree _ hcells

/-- The padding of the scrollers in the documents of an export. -/
def paddings
    (o : Except SelectionError (List (CompiledRoot Float) × Manifest Float × List Diagnostic)) :
    List (Option Float) :=
  match o with
  | .error _ => []
  | .ok (roots, _) => roots.flatMap fun r => r.document.root.kinds.map fun k => match k with
    | .scroller layout => layout.paddingLeft
    | _ => none

/-- When it is moved, the padding moves. -/
theorem hidden_cell_shows : ¬ ∀ (t t' : ElasticScene Float), t.Built → t'.Built → t.AtRest →
    t'.AtRest → t.scene.AgreeInSight t'.scene → ∀ context,
      outcome t' [] context = outcome t [] context := by
  intro h
  have hbuilt : ((gridBoard.insert (some 1) (gridCell "#old" 10.0)).insert (some 1)
      (gridCell "cell" 120.0)).Built :=
    (built_gridBoard.insert (some 1) _ (by decide)).insert (some 1) _ (by decide)
  have hsame := h _ _ hbuilt (hbuilt.shift 2 5.0 0.0) rfl rfl
    (agreeInSight_shift hbuilt.isForest (by decide +kernel) 5.0 0.0) wholeContext
  have hpadding := congrArg paddings hsame
  revert hpadding
  decide +kernel

end Export
end DesignLayout
