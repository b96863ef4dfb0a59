import DesignLayout.Layout.Frame
import DesignLayout.Probe.Measurement
import DesignLayout.Proofs.Measuring
import DesignLayout.Proofs.Redrawing

/-! The two axes obey the same rules.

Transposing swaps `x` with `y` and width with height in every rectangle, and with them the
constraints, the anchors and the stretch flags of the two axes. Transposing the rectangles and the
constraints is a fair redrawing (`transposition_fair`), so a resize goes with it
(`ElasticScene.resize_transposed`). A probe of the transposed document takes down the transposed
bounds, measurement by measurement (`Measurements.Transposed.sweep`), and derives the transposed
parameters (`Parameter.derive_transposed`). Frames and canvases are made axis by axis as well. The
whole is `ElasticScene.axes_alike`. Nothing is asked of the arithmetic. -/
namespace DesignLayout

/-! ### What the axes have -/

namespace HorizontalConstraint

def transposed : HorizontalConstraint → VerticalConstraint
  | left => .top
  | right => .bottom
  | center => .middle
  | stretch => .stretch

end HorizontalConstraint

namespace VerticalConstraint

def transposed : VerticalConstraint → HorizontalConstraint
  | top => .left
  | bottom => .right
  | middle => .center
  | stretch => .stretch

end VerticalConstraint

def Constraints.transposed (c : Constraints) : Constraints :=
  ⟨c.vertical.transposed, c.horizontal.transposed⟩

namespace HorizontalAnchor

def transposed : HorizontalAnchor → VerticalAnchor
  | left => .top
  | center => .middle
  | right => .bottom

end HorizontalAnchor

namespace VerticalAnchor

def transposed : VerticalAnchor → HorizontalAnchor
  | top => .left
  | middle => .center
  | bottom => .right

end VerticalAnchor

def Pivot.transposed (p : Pivot) : Pivot :=
  ⟨p.vertical.map (·.transposed), p.horizontal.map (·.transposed)⟩

def Parameter.transposed (p : Parameter) : Parameter :=
  ⟨p.pivot.map (·.transposed), p.stretchY, p.stretchX⟩

variable {α : Type}

def Bounds.transposed (b : Bounds α) : Bounds α :=
  ⟨b.y, b.x, b.height, b.width⟩

def Frame.transposed (f : Frame α) : Frame α :=
  ⟨f.y, f.x, f.h, f.w⟩

def CanvasRect.transposed (r : CanvasRect α) : CanvasRect α :=
  ⟨r.y, r.x, r.h, r.w⟩

def Thresholds.transposed (th : Thresholds α) : Thresholds α :=
  { th with growWidth := th.growHeight, growHeight := th.growWidth }

def Record.transposed (r : Record α) : Record α :=
  { r with
    before := r.before.map (·.transposed)
    after := r.after.map (·.transposed)
    restored := r.restored.map (·.transposed)
    parameter := r.parameter.map (·.transposed) }

/-! ### Transposed documents -/

def transposition : Redrawing α :=
  ⟨Bounds.transposed, Constraints.transposed⟩

def Node.transposed (n : Node α) : Node α :=
  n.redrawn transposition

def Scene.transposed (s : Scene α) : Scene α :=
  s.redrawn transposition

def Resting.transposed (r : Resting α) : Resting α :=
  ⟨r.height, r.width, r.layout.map (Placement.redrawn transposition)⟩

/-- The resting layouts are transposed too. -/
def ElasticScene.transposed (t : ElasticScene α) : ElasticScene α :=
  ⟨t.scene.transposed, t.resting.map fun p => (p.1, p.2.transposed)⟩

theorem Scene.node?_transposed (s : Scene α) (id : NodeId) :
    s.transposed.node? id = (s.node? id).map Node.transposed :=
  s.node?_redrawn transposition id

theorem Scene.parentOf?_transposed (s : Scene α) (n : Node α) :
    s.transposed.parentOf? n.transposed = (s.parentOf? n).map Node.transposed :=
  s.parentOf?_redrawn transposition n

/-! ### Resizing -/

theorem transposition_fair [Scalar α] : (transposition : Redrawing α).Fair where
  apply c child old new := by
    rcases c with ⟨horizontal, vertical⟩
    cases horizontal <;> cases vertical <;> rfl
  following _ _ _ := rfl

namespace ElasticScene

theorem lookup_transposed (t : ElasticScene α) (id : NodeId) :
    t.transposed.resting.lookup id = (t.resting.lookup id).map Resting.transposed := by
  show (t.resting.map _).lookup id = _
  induction t.resting with
  | nil => rfl
  | cons p rest ih =>
    obtain ⟨k, r⟩ := p
    rw [List.map_cons, List.lookup_cons, List.lookup_cons, ih]
    cases id == k <;> rfl

theorem restingOf_transposed (t : ElasticScene α) (id : NodeId) (n : Node α) :
    t.transposed.restingOf id n.transposed = (t.restingOf id n).transposed := by
  rw [restingOf, restingOf, lookup_transposed]
  cases t.resting.lookup id with
  | none =>
    show (⟨n.bounds.height, n.bounds.width, t.scene.transposed.placements id⟩ : Resting α) = _
    rw [Scene.transposed, Scene.placements_redrawn]
    rfl
  | some r => rfl

theorem resize_transposed [Scalar α] (t : ElasticScene α) (id : NodeId) (width height : α) :
    t.transposed.resize id height width = (t.resize id width height).transposed := by
  have hnode : t.transposed.scene.node? id = (t.scene.node? id).map Node.transposed :=
    t.scene.node?_transposed id
  unfold resize
  rw [hnode]
  cases hn : t.scene.node? id with
  | none => rfl
  | some n =>
    have hsettled : t.transposed.scene.placeAll (t.restingOf id n).transposed.layout =
        (t.scene.placeAll (t.restingOf id n).layout).transposed :=
      t.scene.placeAll_redrawn transposition (t.restingOf id n).layout
    have hothers : t.transposed.resting.filter (·.1 != id) =
        (t.resting.filter (·.1 != id)).map fun p => (p.1, p.2.transposed) :=
      List.filter_map
    have hlaid (s : Scene α) :
        s.transposed.relayout id height width = (s.relayout id width height).transposed :=
      Scene.relayout_redrawn transposition_fair (fun _ => rfl) s id
    have hrest : (Scalar.same height (t.restingOf id n).transposed.width &&
        Scalar.same width (t.restingOf id n).transposed.height) =
          (Scalar.same width (t.restingOf id n).width &&
            Scalar.same height (t.restingOf id n).height) :=
      Bool.and_comm ..
    simp only [Option.map_some, restingOf_transposed, hsettled, hothers, hlaid, hrest]
    split <;> rfl

end ElasticScene

/-! ### Parameters -/

theorem Parameter.derive_transposed [Scalar α] (th : Thresholds α)
    (before after parentBefore parentAfter : Bounds α) :
    derive th.transposed before.transposed after.transposed parentBefore.transposed
        parentAfter.transposed =
      (derive th before after parentBefore parentAfter).transposed := by
  unfold derive
  dsimp only [Bounds.transposed, Thresholds.transposed]
  generalize AxisAnchor.derive th.anchorRatio before.x after.x _ = horizontal
  generalize AxisAnchor.derive th.anchorRatio before.y after.y _ = vertical
  generalize stretches th.stretchSlack before.width after.width = stretchX
  generalize stretches th.stretchSlack before.height after.height = stretchY
  cases stretchX <;> cases stretchY <;> cases horizontal <;> cases vertical <;> rfl

/-! ### Probing -/

namespace Measurements
variable {m m' : Measurements α}

/-- The records of the same nodes, transposed. -/
def Transposed (m m' : Measurements α) : Prop :=
  ∀ id, m'.record? id = (m.record? id).map Record.transposed

theorem transposed_empty : (empty : Measurements α).Transposed empty := by
  intro id
  rw [record?_empty]
  rfl

theorem Transposed.sweep (h : m.Transposed m') {set : Bounds α → Record α → Record α}
    (hset : ∀ b r, set b.transposed r.transposed = (set b r).transposed) (s : Scene α)
    (root : NodeId) : (m.sweep s root set).Transposed (m'.sweep s.transposed root set) := by
  intro id
  unfold Measurements.sweep record?
  have hsubtree : s.transposed.subtree root = s.subtree root :=
    (s.sameLinks_redrawn transposition).subtree_eq root
  rw [hsubtree]
  have hrecords : ∀ id, m'.records[id]? = (m.records[id]?).map Record.transposed := h
  generalize m.records = records, m'.records = records' at hrecords ⊢
  dsimp only
  induction s.subtree root generalizing records records' with
  | nil => exact hrecords id
  | cons k rest ih =>
    rw [List.foldl_cons, List.foldl_cons]
    apply ih
    intro j
    rw [Scene.node?_transposed]
    cases s.node? k with
    | none => exact hrecords j
    | some n =>
      simp only [Option.map_some, Std.TreeMap.getElem?_insert]
      by_cases hkj : k = j
      · subst hkj
        have hold : ((records[k]?).map Record.transposed).getD { name := n.name } =
            ((records[k]?).getD { name := n.name }).transposed := by
          cases records[k]? <;> rfl
        simp only [Std.ReflCmp.compare_self, if_true, Option.map_some, hrecords]
        show some (set n.bounds.transposed (((records[k]?).map _).getD { name := n.name })) = _
        rw [hold, hset]
      · simp [hkj, hrecords j]

/-- The three sweeps of a probe. -/
def measured (s grown back : Scene α) (root : NodeId) : Measurements α :=
  ((empty.sweep s root fun b r => { r with before := some b }).sweep grown root
    fun b r => { r with after := some b }).sweep back root fun b r => { r with restored := some b }

theorem measured_transposed (s grown back : Scene α) (root : NodeId) :
    (measured s grown back root).Transposed
      (measured s.transposed grown.transposed back.transposed root) := by
  unfold measured
  apply Transposed.sweep
  · apply Transposed.sweep
    · apply Transposed.sweep transposed_empty
      exact fun _ _ => rfl
    · exact fun _ _ => rfl
  · exact fun _ _ => rfl

variable [Scalar α]

theorem Transposed.derive? (h : m.Transposed m') (th : Thresholds α) (s : Scene α) (id : NodeId) :
    m'.derive? th.transposed s.transposed id =
      (m.derive? th s id).map Parameter.transposed := by
  unfold Measurements.derive?
  rw [h id, Scene.node?_transposed]
  cases m.record? id with
  | none => rfl
  | some own =>
    cases s.node? id with
    | none => rfl
    | some n =>
      show (do
        let parent ← m'.record? (← n.parent)
        return Parameter.derive th.transposed (← own.transposed.before) (← own.transposed.after)
          (← parent.before) (← parent.after)) = Option.map _ (do
        let parent ← m.record? (← n.parent)
        return Parameter.derive th (← own.before) (← own.after) (← parent.before)
          (← parent.after))
      cases n.parent with
      | none => rfl
      | some p =>
        dsimp only [Option.bind_eq_bind, Option.bind_some]
        rw [h p]
        cases m.record? p with
        | none => rfl
        | some parent =>
          have hderive := Parameter.derive_transposed th
          rcases own with ⟨_, _ | before, _ | after, _, _⟩ <;> try rfl
          rcases parent with ⟨_, _ | before', _ | after', _, _⟩ <;> try rfl
          exact congrArg some (hderive before after before' after')

theorem Transposed.withParameters (h : m.Transposed m') (th : Thresholds α) (s : Scene α) :
    (m.withParameters th s).Transposed (m'.withParameters th.transposed s.transposed) := by
  intro id
  rw [record?_withParameters, record?_withParameters, h.derive? th s id, h id, Option.map_map,
    Option.map_map]
  rfl

theorem probe_of_node? (th : Thresholds α) (t : ElasticScene α) {root : NodeId} {n : Node α}
    (hn : t.scene.node? root = some n) :
    probe th t root =
      (back th t root n, (measured t.scene (grown th t root n).scene (back th t root n).scene
        root).withParameters th (back th t root n).scene) := by
  have hhost : (Host.scene t).node? root = some n := hn
  simp only [probe, hhost]
  rfl

theorem probe_transposed (th : Thresholds α) (t : ElasticScene α) (root : NodeId) :
    (probe th.transposed t.transposed root).1 = (probe th t root).1.transposed ∧
      (probe th t root).2.Transposed (probe th.transposed t.transposed root).2 := by
  have hnode : t.transposed.scene.node? root = (t.scene.node? root).map Node.transposed :=
    t.scene.node?_transposed root
  cases hn : t.scene.node? root with
  | none =>
    have hhost : (Host.scene t).node? root = none := hn
    have hhost' : (Host.scene t.transposed).node? root = none := by
      show t.transposed.scene.node? root = none
      rw [hnode, hn]
      rfl
    simp only [probe, hhost, hhost']
    exact ⟨trivial, transposed_empty⟩
  | some n =>
    rw [hn] at hnode
    have hgrown : grown th.transposed t.transposed root n.transposed =
        (grown th t root n).transposed :=
      t.resize_transposed root _ _
    have hback : back th.transposed t.transposed root n.transposed =
        (back th t root n).transposed := by
      show Host.resize (grown th.transposed t.transposed root n.transposed) root _ _ = _
      rw [hgrown]
      exact (grown th t root n).resize_transposed root _ _
    rw [probe_of_node? th t hn, probe_of_node? th.transposed t.transposed hnode, hgrown, hback]
    have hmeasured := measured_transposed t.scene (grown th t root n).scene (back th t root n).scene
      root
    exact ⟨rfl, hmeasured.withParameters th (back th t root n).scene⟩

end Measurements

/-! ### Frames and canvases -/

variable [Scalar α]

theorem Frame.inRoot_transposed (n root : Node α) (scale : α) :
    inRoot n.transposed root.transposed scale = (inRoot n root scale).transposed := rfl

namespace CanvasRect

theorem ofRoot_transposed (n : Node α) (parent : Option (Node α)) (scale : α) :
    ofRoot n.transposed (parent.map Node.transposed) scale =
      (ofRoot n parent scale).transposed := by
  cases parent with
  | none => rfl
  | some p =>
    show (if n.kind = .artboard then _ else _) = transposed (if n.kind = .artboard then _ else _)
    split <;> rfl

theorem anchored_transposed (base : CanvasRect α) (n : Node α) (parent : Option (Node α))
    (scale : α) (pivot : Option Pivot) :
    base.transposed.anchored n.transposed (parent.map Node.transposed) scale
        (pivot.map Pivot.transposed) =
      (base.anchored n parent scale pivot).transposed := by
  rcases pivot with _ | ⟨horizontal, vertical⟩
  · rfl
  · cases parent with
    | none => rfl
    | some p => rcases horizontal with _ | _ | _ | _ <;> rcases vertical with _ | _ | _ | _ <;> rfl

end CanvasRect

/-- For every document and its transposed one: resizes, probes, parameters, frames and canvases of
the one are those of the other one, transposed. -/
theorem ElasticScene.axes_alike (t : ElasticScene α) (th : Thresholds α) (scale : α) :
    (∀ id width height,
      t.transposed.resize id height width = (t.resize id width height).transposed) ∧
    (∀ root,
      (Measurements.probe th.transposed t.transposed root).1 =
        (Measurements.probe th t root).1.transposed ∧
      ∀ id, (Measurements.probe th.transposed t.transposed root).2.record? id =
        ((Measurements.probe th t root).2.record? id).map Record.transposed) ∧
    (∀ before after parentBefore parentAfter : Bounds α,
      Parameter.derive th.transposed before.transposed after.transposed parentBefore.transposed
          parentAfter.transposed =
        (Parameter.derive th before after parentBefore parentAfter).transposed) ∧
    (∀ id, t.transposed.scene.node? id = (t.scene.node? id).map Node.transposed) ∧
    (∀ n root : Node α,
      Frame.inRoot n.transposed root.transposed scale =
        (Frame.inRoot n root scale).transposed) ∧
    (∀ n : Node α,
      CanvasRect.ofRoot n.transposed (t.transposed.scene.parentOf? n.transposed) scale =
        (CanvasRect.ofRoot n (t.scene.parentOf? n) scale).transposed) ∧
    (∀ (n : Node α) (base : CanvasRect α) (pivot : Option Pivot),
      base.transposed.anchored n.transposed (t.transposed.scene.parentOf? n.transposed) scale
          (pivot.map Pivot.transposed) =
        (base.anchored n (t.scene.parentOf? n) scale pivot).transposed) := by
  have hparent (n : Node α) : t.transposed.scene.parentOf? n.transposed =
      (t.scene.parentOf? n).map Node.transposed :=
    t.scene.parentOf?_transposed n
  refine ⟨t.resize_transposed, Measurements.probe_transposed th t, Parameter.derive_transposed th,
    t.scene.node?_transposed, fun n root => Frame.inRoot_transposed n root scale,
    fun n => ?_, fun n base pivot => ?_⟩
  · rw [hparent]
    exact CanvasRect.ofRoot_transposed n (t.scene.parentOf? n) scale
  · rw [hparent]
    exact base.anchored_transposed n (t.scene.parentOf? n) scale pivot

end DesignLayout
