import DesignLayout.Proofs.Changing
import DesignLayout.Proofs.Rescaling
import DesignLayout.Proofs.RoundTrip

/-! What an export has to do with the place of the drawing.

Moving every top-level node displaces the whole scene (`shiftAll_eq`), since every node stands in
exactly one of their branches. In exact fractions a layout is displaced with its scene
(`relayout_displaced`), a node's parameter is found from differences alone (`found?_displaced`), and
the compiler follows. So a document at rest gives the same export wherever its drawing stands
(`export_shiftAll`). -/
namespace DesignLayout

variable {dx dy : ℚ}

/-! ### Layouts that are displaced -/

/-- In exact fractions only differences count. -/
theorem displacing_fair (dx dy : ℚ) : (displacing dx dy).Fair where
  apply c child old new := by
    simp only [displacing, id, Constraints.apply, Bounds.moved, add_sub_add_right_eq_sub]
    cases c.horizontal <;> cases c.vertical <;>
      exact (Bounds.mk.injEq ..).mpr ⟨by ring, by ring, rfl, rfl⟩
  following b old new := by
    simp only [displacing, Bounds.following, Bounds.moved, add_sub_add_right_eq_sub]
    exact (Bounds.mk.injEq ..).mpr ⟨by ring, by ring, rfl, rfl⟩

namespace Scene
variable {s : Scene ℚ}

/-- A displaced branch is laid out in the displaced place. -/
theorem relayout_displaced (s : Scene ℚ) (id : NodeId) (width height : ℚ) :
    (s.displaced dx dy).relayout id width height =
      (s.relayout id width height).displaced dx dy :=
  relayout_redrawn (displacing_fair dx dy) (fun _ => rfl) s id

/-! ### Moving all that is drawn -/

theorem node?_shift_of_within {α : Type} [Scalar α] {s : Scene α} (hf : s.IsForest)
    {id m : NodeId} (hid : id < s.size) (dx dy : α) (hm : s.Within m id) :
    (s.shift id dx dy).node? m = (s.node? m).map (Node.displaced dx dy) := by
  obtain ⟨n, hn⟩ := node?_isSome (hm.lt_size hid)
  have hids : ((s.placements id).map (Placement.displaced dx dy)).map (·.id) =
      (s.placements id).map (·.id) := by
    rw [List.map_map]
    rfl
  have hplaced := s.node?_placeAll_of_mem (hids ▸ nodup_placements hf hid)
    (List.mem_map_of_mem (mem_placements.mpr ⟨m, (hf.mem_subtree hid).mpr hm, n, hn, rfl⟩))
  rw [hn]
  refine hplaced.trans ?_
  show (s.node? m).map _ = _
  rw [hn]
  rfl

end Scene

namespace ElasticScene
variable {α : Type} [Scalar α] {t : ElasticScene α}

/-- Moves all that is drawn, one top-level node after the other. -/
def shiftAll (t : ElasticScene α) (dx dy : α) : ElasticScene α :=
  t.scene.topLevel.foldl (fun t id => t.shift id dx dy) t

/-- Where the nodes are after some of the top-level nodes were moved. -/
theorem node?_foldl_shift (hf : t.scene.IsForest) (dx dy : α) (tops : List NodeId)
    (hnodup : tops.Nodup) (htops : ∀ r ∈ tops, r ∈ t.scene.topLevel) (m : NodeId) :
    (∀ r ∈ tops, t.scene.Within m r →
      (tops.foldl (fun t id => t.shift id dx dy) t).scene.node? m =
        (t.scene.node? m).map (Node.displaced dx dy)) ∧
    ((∀ r ∈ tops, ¬ t.scene.Within m r) →
      (tops.foldl (fun t id => t.shift id dx dy) t).scene.node? m = t.scene.node? m) := by
  induction tops generalizing t with
  | nil => exact ⟨fun r hr => absurd hr List.not_mem_nil, fun _ => rfl⟩
  | cons first rest ih =>
    obtain ⟨hfirst, hrest⟩ := List.nodup_cons.mp hnodup
    have hlinks := (t.scene.relaid_shift first dx dy).sameLinks
    have htop := htops first List.mem_cons_self
    have hlt := hf.lt_size_of_mem_topLevel htop
    -- The branches are the same after the first of them was moved.
    have hwithin (r : NodeId) : (t.shift first dx dy).scene.Within m r ↔ t.scene.Within m r :=
      hlinks.within_iff m r
    obtain ⟨hmoved, hkept⟩ := ih (t := t.shift first dx dy) (hlinks.isForest hf) hrest
      fun r hr => hlinks.topLevel.symm ▸ htops r (List.mem_cons_of_mem first hr)
    have hapart (r : NodeId) (hr : r ∈ rest) (hm : t.scene.Within m r) :
        ¬ t.scene.Within m first := fun hm' =>
      hfirst (hf.top_unique htop (htops r (List.mem_cons_of_mem first hr)) hm' hm ▸ hr)
    constructor
    · intro r hr hm
      rcases List.mem_cons.mp hr with rfl | hr
      · refine (hkept fun r' hr' hm' => hapart r' hr' ((hwithin r').mp hm') hm).trans ?_
        exact Scene.node?_shift_of_within hf hlt dx dy hm
      · refine (hmoved r hr ((hwithin r).mpr hm)).trans ?_
        rw [node?_shift_of_not_within hf dx dy (hapart r hr hm)]
    · intro hout
      refine (hkept fun r hr hm => hout r (List.mem_cons_of_mem first hr)
        ((hwithin r).mp hm)).trans ?_
      exact node?_shift_of_not_within hf dx dy (hout first List.mem_cons_self)

theorem foldl_shift_keeps (t : ElasticScene α) (dx dy : α) (tops : List NodeId) :
    (tops.foldl (fun t id => t.shift id dx dy) t).resting = t.resting ∧
      (tops.foldl (fun t id => t.shift id dx dy) t).scene.topLevel = t.scene.topLevel := by
  induction tops generalizing t with
  | nil => exact ⟨rfl, rfl⟩
  | cons first rest ih =>
    obtain ⟨hresting, htop⟩ := ih (t.shift first dx dy)
    exact ⟨hresting, htop.trans (t.scene.relaid_shift first dx dy).topLevel⟩

/-- Moving every top-level node displaces the scene. -/
theorem shiftAll_eq (hf : t.scene.IsForest) (dx dy : α) :
    t.shiftAll dx dy = t.displaced dx dy := by
  obtain ⟨hresting, htop⟩ := foldl_shift_keeps t dx dy t.scene.topLevel
  refine (ElasticScene.mk.injEq ..).mpr ⟨Scene.ext_node? htop fun m => ?_, hresting⟩
  obtain ⟨hmoved, hkept⟩ := node?_foldl_shift hf dx dy t.scene.topLevel
    (hf.topLevel_ascending.imp Nat.ne_of_lt) (fun _ hr => hr) m
  rw [Scene.node?_displaced]
  by_cases hm : m < t.scene.size
  · obtain ⟨r, hr, hw⟩ := hf.exists_top m hm
    exact hmoved r hr hw
  · have hnone : t.scene.node? m = none := Scene.node?_eq_none (Nat.le_of_not_lt hm)
    rw [hnone]
    refine (hkept fun r hr hw => hm ?_).trans hnone
    exact hw.lt_size (hf.lt_size_of_mem_topLevel hr)

end ElasticScene

/-! ### Parameters that are found -/

theorem ElasticScene.scene_resize_displaced {t : ElasticScene ℚ} {id : NodeId}
    (hfresh : t.resting.lookup id = none) (width height : ℚ) :
    ((t.displaced dx dy).resize id width height).scene =
      (t.resize id width height).scene.displaced dx dy := by
  have hnode : (t.displaced dx dy).scene.node? id =
      (t.scene.node? id).map (Node.displaced dx dy) := Scene.node?_displaced dx dy t.scene id
  cases hn : t.scene.node? id with
  | none =>
    rw [hn, Option.map_none] at hnode
    simp only [resize, hn, hnode]
    rfl
  | some n =>
    rw [hn, Option.map_some] at hnode
    rw [resize_fresh hnode hfresh, resize_fresh hn hfresh]
    show (if Scalar.same width n.bounds.width && Scalar.same height n.bounds.height then _ else _ :
      ElasticScene ℚ).scene = _
    split
    · rfl
    · exact Scene.relayout_displaced t.scene id width height

namespace Parameter

/-- A parameter is found from differences alone. -/
theorem derive_displaced (th : Thresholds ℚ) (before after parent parent' : Bounds ℚ) :
    derive th (before.moved dx dy) (after.moved dx dy) (parent.moved dx dy) (parent'.moved dx dy) =
      derive th before after parent parent' := by
  have hanchor (x x' d growth : ℚ) :
      AxisAnchor.derive th.anchorRatio (x + d) (x' + d) growth =
        AxisAnchor.derive th.anchorRatio x x' growth := by
    simp only [AxisAnchor.derive, Scalar.same_rat, add_left_inj, add_sub_add_right_eq_sub]
  simp only [derive, Bounds.moved, hanchor]

end Parameter

/-- Every fraction is the same as itself. -/
theorem Scene.comparable_rat (s : Scene ℚ) : s.Comparable :=
  fun _ _ _ => by simp [Bounds.same]

theorem Scene.bounds?_displaced (s : Scene ℚ) (id : NodeId) :
    (s.displaced dx dy).bounds? id = (s.bounds? id).map (·.moved dx dy) := by
  rw [bounds?, bounds?, node?_displaced, Option.map_map, Option.map_map]
  rfl

namespace Measurements

theorem found?_displaced (th : Thresholds ℚ) (s grown : Scene ℚ) (root id : NodeId) :
    found? th (s.displaced dx dy) (grown.displaced dx dy) root id = found? th s grown root id := by
  have hsubtree := (s.relaid_displaced dx dy).sameLinks.subtree_eq root
  unfold found?
  rw [Scene.node?_displaced, hsubtree]
  simp only [Scene.bounds?_displaced]
  cases s.node? id with
  | none => rfl
  | some n =>
    show n.parent.bind _ = n.parent.bind _
    refine Option.bind_congr fun p _ => ?_
    split
    · cases s.bounds? id <;> cases grown.bounds? id <;> cases s.bounds? p <;>
        cases grown.bounds? p <;> try rfl
      exact congrArg some (Parameter.derive_displaced th _ _ _ _)
    · rfl

/-- The same nodes were measured, and the same parameters found. -/
def SameParameters (m m' : Measurements ℚ) : Prop :=
  ∀ id, (m'.record? id).map (·.parameter) = (m.record? id).map (·.parameter)

theorem SameParameters.parameter? {m m' : Measurements ℚ} (h : m.SameParameters m') (id : NodeId) :
    m'.parameter? id = m.parameter? id := by
  have hjoin (m : Measurements ℚ) :
      m.parameter? id = ((m.record? id).map (·.parameter)).join := by
    rw [Measurements.parameter?]
    cases m.record? id <;> rfl
  rw [hjoin, hjoin, h id]

theorem SameParameters.merge {m m' found found' : Measurements ℚ} (h : m.SameParameters m')
    (hfound : found.SameParameters found') :
    (m.merge found).SameParameters (m'.merge found') := by
  intro id
  rw [record?_merge, record?_merge, Option.map_or, Option.map_or, h id, hfound id]

theorem map_parameter_taken? (th : Thresholds ℚ) (s grown back : Scene ℚ) (root id : NodeId) :
    (taken? th s grown back root id).map (·.parameter) =
      if id ∈ s.subtree root then (s.node? id).map fun _ => found? th s grown root id else none := by
  rw [taken?, swept?, Option.map_map]
  split
  · rw [Option.map_map]
    rfl
  · rfl

section
variable {t : ElasticScene ℚ} (hf : t.scene.IsForest) (hrest : t.AtRest) (th : Thresholds ℚ)
include hf hrest

/-- A probe finds the same parameters wherever the scene stands. -/
theorem probe_displaced (root : NodeId) :
    (probe th t root).2.SameParameters
      (probe th (t.displaced dx dy) root).2 := by
  intro id
  have hlinks : t.scene.SameLinks (t.displaced dx dy).scene :=
    (t.scene.relaid_displaced dx dy).sameLinks
  have hnode : (t.displaced dx dy).scene.node? root =
      (t.scene.node? root).map (Node.displaced dx dy) := Scene.node?_displaced dx dy t.scene root
  cases hn : t.scene.node? root with
  | none =>
    rw [hn, Option.map_none] at hnode
    simp only [probe, Host.scene, hn, hnode]
  | some n =>
    rw [hn, Option.map_some] at hnode
    have hgrown : (grown th (t.displaced dx dy) root (n.displaced dx dy)).scene =
        (grown th t root n).scene.displaced dx dy :=
      ElasticScene.scene_resize_displaced (hrest.lookup_eq_none root) _ _
    rw [record?_probe hf th hn, record?_probe (hlinks.isForest hf) th hnode, map_parameter_taken?,
      map_parameter_taken?, hgrown, hlinks.subtree_eq, ElasticScene.scene_displaced,
      found?_displaced, Scene.node?_displaced, Option.map_map]
    rfl

theorem probeAll_displaced (roots : List NodeId) :
    (probeAll th t roots).2.SameParameters
      (probeAll th (t.displaced dx dy) roots).2 := by
  have hf' := (t.scene.relaid_displaced dx dy).sameLinks.isForest hf
  -- Every probe begins with the document at rest, and the measurements grow alike.
  have key (m m' : Measurements ℚ) (hm : m.SameParameters m') :
      (roots.foldl (probeNext th) (t, m)).2.SameParameters
        (roots.foldl (probeNext th) ((t.displaced dx dy), m')).2 := by
    induction roots generalizing m m' with
    | nil => exact hm
    | cons root rest ih =>
      have hdoc := (probe_restores hf hrest (Scene.comparable_rat _) th root).1
      have hdoc' := (probe_restores (t := t.displaced dx dy) hf' hrest
        (Scene.comparable_rat _) th root).1
      rw [List.foldl_cons, List.foldl_cons, probeNext, probeNext, hdoc, hdoc']
      exact ih _ _ (hm.merge (probe_displaced hf hrest th root))
  exact key empty empty fun _ => rfl

end

end Measurements

/-! ### A whole export -/

namespace Export

/-- What an export gives away, with the parameters that it has found out. -/
def told (e : Export ℚ) : List (CompiledRoot ℚ) × Manifest ℚ × List Diagnostic ×
    Option (Drift ℚ) × (NodeId → Option Parameter) :=
  (e.roots, e.manifest, e.diagnostics, e.drift, e.measurements.parameter?)

theorem measure_displaced {t : ElasticScene ℚ} (hf : t.scene.IsForest) (hrest : t.AtRest)
    (context : Context ℚ) (r : Roots) :
    (measure t context r).2.SameParameters (measure (t.displaced dx dy) context r).2 := by
  unfold measure
  split
  · exact Measurements.probeAll_displaced hf hrest context.thresholds r.artboards
  · exact fun _ => rfl

/-- What is compiled does not show where the scene stands. -/
theorem told_displaced (s : Scene ℚ) (context : Context ℚ) (r : Roots) {m m' : Measurements ℚ}
    (hm : m.SameParameters m') (hdrift : m'.drift? = m.drift?) :
    (compile (s.displaced dx dy) context m' r).told = (compile s context m r).told := by
  have hfollows : Compiler.Follows dx dy 1 id ⟨s, context, m⟩
      ⟨s.displaced dx dy, context, m'⟩ :=
    ⟨rfl, rfl, (mul_one context.scale).symm, rfl, hm.parameter?⟩
  have hone : (CompiledRoot.scaled 1 : CompiledRoot ℚ → CompiledRoot ℚ) = id :=
    funext CompiledRoot.scaled_one
  have hparameter : m'.parameter? = m.parameter? := funext hm.parameter?
  rw [compile_follows hfollows one_pos, hone, List.map_id, Manifest.mapScales_id, hdrift]
  simp only [told, hparameter]
  rfl

/-- For every document at rest, and every displacement, selection and context: when all top-level
nodes are moved by the displacement, an export fails with the same error or gives the same roots
with the same documents, the same requests, the same diagnostics and the same parameters, and tells
of no drift in either place. -/
theorem export_shiftAll {t : ElasticScene ℚ} (hbuilt : t.Built) (hrest : t.AtRest) (dx dy : ℚ)
    (selection : List NodeId) (context : Context ℚ) :
    (ofSelection (t.shiftAll dx dy) selection context).map (fun p => p.2.told) =
      (ofSelection t selection context).map (fun p => p.2.told) := by
  have hf := hbuilt.isForest
  have hf' := (t.scene.relaid_displaced dx dy).sameLinks.isForest hf
  have hrest' : (t.displaced dx dy).AtRest := hrest
  have hfind : Roots.find (Host.scene (t.displaced dx dy)) selection context.options =
      Roots.find (Host.scene t) selection context.options :=
    Roots.find_displaced dx dy t.scene selection context.options
  rw [ElasticScene.shiftAll_eq hf]
  cases hr : Roots.find (Host.scene t) selection context.options with
  | error e => rw [ofSelection_of_error hr, ofSelection_of_error (hfind.trans hr)]
  | ok r =>
    obtain ⟨hdoc, hdrift⟩ := measure_restores hf hrest (Scene.comparable_rat _) context r
    obtain ⟨hdoc', hdrift'⟩ := measure_restores hf' hrest' (Scene.comparable_rat _) context r
    rw [ofSelection_of_find hr, ofSelection_of_find (hfind.trans hr), hdoc, hdoc']
    exact congrArg Except.ok (told_displaced t.scene context r (measure_displaced hf hrest context r)
      (hdrift'.trans hdrift.symm))

theorem priceShelf_anywhere :
    priceShelf.Built ∧ priceShelf.AtRest ∧
    (ofSelection (priceShelf.shiftAll (-1000) (-500)) [] exactContext).toOption.map
        (placements ·.2) =
      some [("Board", none, none), ("ShopScroller", some (-190), some 380),
        ("item0", none, some 100), ("PriceText", some (-170), some 60)] ∧
    (ofSelection (priceShelf.shiftAll (-1000) (-500)) [] exactContext).map (fun p => p.2.told) =
      (ofSelection priceShelf [] exactContext).map (fun p => p.2.told) := by
  have hbuilt : priceShelf.Built :=
    (((ElasticScene.Built.empty.insert none _ (by simp)).insert (some 0) _ (by decide)).insert
      (some 1) _ (by decide)).insert (some 2) _ (by decide)
  exact ⟨hbuilt, rfl, by decide +kernel, export_shiftAll hbuilt rfl (-1000) (-500) [] exactContext⟩

end Export
end DesignLayout
