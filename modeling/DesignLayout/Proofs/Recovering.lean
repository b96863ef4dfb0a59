import DesignLayout.Proofs.Fractions
import DesignLayout.Proofs.Measuring
import DesignLayout.Proofs.Reflowing
import DesignLayout.Proofs.Resizing

/-! The probe recovers the constraints.

A layout goes down from parent to child and moves every node by the constraints on the way; the
probe sees only where the nodes stand before and after. `probe_recovers_constraints` says that in
exact fractions it finds out all the same what the constraints along the path from the probed node
ask for: up to the first node that does not stretch everything grows with the probed node, that node
is anchored as it says, and what stands below it moves with it and grows no more.

The two axes have the same rules. They are stated once, for the span that a rectangle has on an
axis and the pull that a constraint has there. -/
namespace DesignLayout

/-! ### One axis at a time -/

inductive Axis
  | horizontal
  | vertical
  deriving DecidableEq, Repr

/-- What a rectangle covers of one axis. -/
structure Span (α : Type) where
  start : α
  length : α

/-- How a node follows its parent on one axis. -/
inductive Pull
  | near
  | middle
  | far
  | stretch
  deriving DecidableEq, Repr

def HorizontalConstraint.pull : HorizontalConstraint → Pull
  | left => .near
  | center => .middle
  | right => .far
  | stretch => .stretch

def VerticalConstraint.pull : VerticalConstraint → Pull
  | top => .near
  | middle => .middle
  | bottom => .far
  | stretch => .stretch

def Constraints.pull (c : Constraints) : Axis → Pull
  | .horizontal => c.horizontal.pull
  | .vertical => c.vertical.pull

section
variable {α : Type}

def Bounds.span (b : Bounds α) : Axis → Span α
  | .horizontal => ⟨b.x, b.width⟩
  | .vertical => ⟨b.y, b.height⟩

/-- How much longer the probe makes a node. -/
def Thresholds.growth (th : Thresholds α) : Axis → α
  | .horizontal => th.growWidth
  | .vertical => th.growHeight

/-- The parameter says of the axis that the node is anchored so, or that it stretches. -/
def Parameter.Says (p : Parameter) : Axis → Option AxisAnchor → Prop
  | .horizontal, a =>
    p.stretchX = a.isNone ∧ p.pivot.bind (·.horizontal) = a.map AxisAnchor.horizontal
  | .vertical, a =>
    p.stretchY = a.isNone ∧ p.pivot.bind (·.vertical) = a.map AxisAnchor.vertical

variable [Scalar α]

/-- Where a child comes to on one axis when its parent goes from `old` to `new`. -/
def Pull.apply (child old new : Span α) : Pull → Span α
  | near => ⟨child.start + (new.start - old.start), child.length⟩
  | middle =>
    ⟨child.start + (new.start - old.start) + Scalar.half (new.length - old.length), child.length⟩
  | far => ⟨child.start + (new.start - old.start) + (new.length - old.length), child.length⟩
  | stretch =>
    ⟨child.start + (new.start - old.start), child.length + (new.length - old.length)⟩

theorem Constraints.span_apply (c : Constraints) (child old new : Bounds α) (axis : Axis) :
    (c.apply child old new).span axis =
      (c.pull axis).apply (child.span axis) (old.span axis) (new.span axis) := by
  obtain ⟨horizontal, vertical⟩ := c
  cases axis with
  | horizontal => cases horizontal <;> rfl
  | vertical => cases vertical <;> rfl

/-- What is made of the spans of a node and the growth of its parent: an anchor, or nothing when the
node stretches. -/
def AxisAnchor.ofSpans (th : Thresholds α) (before after : Span α) (growth : α) :
    Option AxisAnchor :=
  if stretches th.stretchSlack before.length after.length then none
  else some (.derive th.anchorRatio before.start after.start growth)

theorem Parameter.says_derive (th : Thresholds α) (before after parent parent' : Bounds α)
    (axis : Axis) :
    (derive th before after parent parent').Says axis
      (AxisAnchor.ofSpans th (before.span axis) (after.span axis)
        ((parent'.span axis).length - (parent.span axis).length)) := by
  cases axis with
  | horizontal =>
    simp only [Says, derive, AxisAnchor.ofSpans, Bounds.span, Pivot.isEmpty]
    split_ifs <;> simp_all
  | vertical =>
    simp only [Says, derive, AxisAnchor.ofSpans, Bounds.span, Pivot.isEmpty]
    split_ifs <;> simp_all

end

/-! ### What is pushed along a path -/

/-- How far a span is moved, and how much longer it gets. -/
structure Push where
  move : ℚ
  grow : ℚ

def Span.pushed (s : Span ℚ) (p : Push) : Span ℚ :=
  ⟨s.start + p.move, s.length + p.grow⟩

/-- What a node that is pulled so passes on of a push of its parent. -/
def Push.through (p : Push) : Pull → Push
  | .near => ⟨p.move, 0⟩
  | .middle => ⟨p.move + p.grow / 2, 0⟩
  | .far => ⟨p.move + p.grow, 0⟩
  | .stretch => p

namespace Push

theorem through_near (p : Push) : p.through .near = ⟨p.move, 0⟩ := rfl

theorem through_middle (p : Push) : p.through .middle = ⟨p.move + p.grow / 2, 0⟩ := rfl

theorem through_far (p : Push) : p.through .far = ⟨p.move + p.grow, 0⟩ := rfl

theorem through_stretch (p : Push) : p.through .stretch = p := rfl

/-- Where nothing grows, everything just moves. -/
theorem through_of_grow_eq_zero (move : ℚ) (pull : Pull) :
    (⟨move, 0⟩ : Push).through pull = ⟨move, 0⟩ := by
  cases pull <;> simp [through]

/-- What comes of a push at the end of a path with these pulls. -/
def along (p : Push) (pulls : List Pull) : Push :=
  pulls.foldl through p

theorem along_of_grow_eq_zero (move : ℚ) (pulls : List Pull) :
    (⟨move, 0⟩ : Push).along pulls = ⟨move, 0⟩ := by
  induction pulls with
  | nil => rfl
  | cons pull rest ih =>
    rw [along, List.foldl_cons, through_of_grow_eq_zero]
    exact ih

/-- Only the first pull that does not stretch counts. -/
theorem along_eq (growth : ℚ) (pulls : List Pull) :
    (⟨0, growth⟩ : Push).along pulls =
      ((pulls.find? (· ≠ .stretch)).map (⟨0, growth⟩ : Push).through).getD ⟨0, growth⟩ := by
  induction pulls with
  | nil => rfl
  | cons pull rest ih =>
    rw [along, List.foldl_cons]
    cases pull with
    | stretch =>
      rw [through_stretch, List.find?_cons_of_neg (by simp)]
      exact ih
    | near => exact along_of_grow_eq_zero _ rest
    | middle => exact along_of_grow_eq_zero _ rest
    | far => exact along_of_grow_eq_zero _ rest

end Push

theorem Pull.apply_pushed (pull : Pull) (child parent : Span ℚ) (p : Push) :
    pull.apply child parent (parent.pushed p) = child.pushed (p.through pull) := by
  cases pull <;> simp [apply, Span.pushed, Push.through, add_assoc]

/-- What the constraints ask of a node on one axis: `above` are those of the nodes between the
probed one and the node, `own` is its own, and `widens` says whether the growth of the probed node
is more than the slack of this one. -/
def Pull.asked (above : List Pull) (own : Pull) (widens : Bool) : Option AxisAnchor :=
  match above.find? (· ≠ .stretch), own with
  | some .near, _ => some .near
  | some _, _ => some .far
  | none, .near => some .near
  | none, .middle => some .middle
  | none, .far => some .far
  | none, .stretch => if widens then none else some .near

section
variable {th : Thresholds ℚ}

/-- A node that does not grow does not stretch. -/
theorem not_stretches_self (hslack : 1 ≤ th.stretchSlack) {length : ℚ} (h : 0 ≤ length) :
    stretches th.stretchSlack length length = false := by
  have hle : length * 1 ≤ length * th.stretchSlack := mul_le_mul_of_nonneg_left hslack h
  rw [mul_one] at hle
  simpa [stretches] using hle

theorem stretches_add (slack length growth : ℚ) :
    stretches slack length (length + growth) = decide (length * (slack - 1) < growth) := by
  simp only [stretches, Scalar.less_rat, decide_eq_decide]
  constructor <;> intro h <;> linarith

namespace AxisAnchor
variable {ratio start move growth : ℚ}

theorem derive_unmoved : derive ratio start (start + 0) growth = near := by
  simp [derive]

theorem derive_middle (hmove : 0 < move) (h : move ≤ growth * ratio) :
    derive ratio start (start + move) growth = middle := by
  simp [derive, hmove.ne', hmove, h]

theorem derive_far (hmove : 0 < move) (h : growth * ratio < move) :
    derive ratio start (start + move) growth = far := by
  simp [derive, hmove.ne', h]

/-- A node that only moves does not stretch. -/
theorem ofSpans_moved (hslack : 1 ≤ th.stretchSlack) {span : Span ℚ} (hlength : 0 ≤ span.length)
    (move growth : ℚ) :
    ofSpans th span (span.pushed ⟨move, 0⟩) growth =
      some (derive th.anchorRatio span.start (span.start + move) growth) := by
  simp [ofSpans, Span.pushed, not_stretches_self hslack hlength]

/-- The push at the end of a path is read as what the constraints along it ask for. -/
theorem ofSpans_pushed (hratio : 1 / 2 ≤ th.anchorRatio) (hratio' : th.anchorRatio < 1)
    (hslack : 1 ≤ th.stretchSlack) (hgrowth : 0 < growth) {span : Span ℚ}
    (hlength : 0 ≤ span.length) (above : List Pull) (own : Pull) :
    ofSpans th span (span.pushed (((⟨0, growth⟩ : Push).along above).through own))
        ((⟨0, growth⟩ : Push).along above).grow =
      Pull.asked above own (decide (span.length * (th.stretchSlack - 1) < growth)) := by
  have hhalf : 0 < growth / 2 := by linarith
  -- The ratio admits a move by half of the growth, but not one by all of it. Where the parent does
  -- not grow it admits none.
  have hmiddle : growth / 2 ≤ growth * th.anchorRatio := by
    calc growth / 2 = growth * (1 / 2) := by ring
      _ ≤ growth * th.anchorRatio := mul_le_mul_of_nonneg_left hratio hgrowth.le
  have hfar : growth * th.anchorRatio < growth := mul_lt_of_lt_one_right hgrowth hratio'
  have hnone {move : ℚ} (h : 0 < move) : 0 * th.anchorRatio < move := by rwa [zero_mul]
  rw [Push.along_eq]
  unfold Pull.asked
  cases hfirst : above.find? (· ≠ .stretch) with
  | none =>
    simp only [Option.map_none, Option.getD_none]
    cases own with
    | near =>
      rw [Push.through_near, ofSpans_moved hslack hlength, derive_unmoved]
    | middle =>
      rw [Push.through_middle, zero_add, ofSpans_moved hslack hlength, derive_middle hhalf hmiddle]
    | far =>
      rw [Push.through_far, zero_add, ofSpans_moved hslack hlength, derive_far hgrowth hfar]
    | stretch =>
      simp only [ofSpans, Push.through_stretch, Span.pushed, stretches_add, derive_unmoved]
  | some pull =>
    have hpull : pull ≠ .stretch := by simpa using List.find?_some hfirst
    simp only [Option.map_some, Option.getD_some]
    cases pull with
    | stretch => exact absurd rfl hpull
    | near =>
      rw [Push.through_near, Push.through_of_grow_eq_zero, ofSpans_moved hslack hlength,
        derive_unmoved]
    | middle =>
      rw [Push.through_middle, zero_add, Push.through_of_grow_eq_zero,
        ofSpans_moved hslack hlength, derive_far hhalf (hnone hhalf)]
    | far =>
      rw [Push.through_far, zero_add, Push.through_of_grow_eq_zero, ofSpans_moved hslack hlength,
        derive_far hgrowth (hnone hgrowth)]

end AxisAnchor
end

/-! ### From the board down to the node -/

namespace Scene
variable {α : Type} {s : Scene α} {root id : NodeId}

/-- These are the nodes strictly between `root` and the node `id` below it, the uppermost first. -/
inductive Path (s : Scene α) (root : NodeId) : List (Node α) → NodeId → Prop
  | child {id : NodeId} (h : s.ChildOf id root) : Path s root [] id
  | deeper {above : List (Node α)} {p id : NodeId} {m : Node α} (h : Path s root above p)
      (hm : s.node? p = some m) (hid : s.ChildOf id p) : Path s root (above ++ [m]) id

theorem Within.exists_path (h : s.Within id root) (hne : id ≠ root) :
    ∃ above, s.Path root above id := by
  induction h using Relation.ReflTransGen.head_induction_on with
  | refl => exact absurd rfl hne
  | @head id p hid _ ih =>
    by_cases hp : p = root
    · exact ⟨[], .child (hp ▸ hid)⟩
    · obtain ⟨above, hpath⟩ := ih hp
      obtain ⟨m, hm⟩ : ∃ m, s.node? p = some m := by
        cases hpath with
        | child h => exact h.imp fun _ => And.left
        | deeper _ _ h => exact h.imp fun _ => And.left
      exact ⟨above ++ [m], .deeper hpath hm hid⟩

/-- There is one way down to a node. -/
theorem Path.unique (hf : s.IsForest) {above : List (Node α)} (h : s.Path root above id) :
    ∀ {above' : List (Node α)}, s.Path root above' id → above = above' := by
  have hlt {above : List (Node α)} {p : NodeId} (h : s.Path root above p) : root < p := by
    induction h with
    | child hid => exact hf.parent_lt hid
    | deeper _ _ hid ih => exact Nat.lt_trans ih (hf.parent_lt hid)
  induction h with
  | child hid =>
    intro above' h'
    cases h' with
    | child _ => rfl
    | deeper h' _ hid' =>
      rw [← hid.unique hid'] at h'
      exact absurd (hlt h') (Nat.lt_irrefl _)
  | deeper h hm hid ih =>
    intro above' h'
    cases h' with
    | child hid' =>
      rw [hid.unique hid'] at h
      exact absurd (hlt h) (Nat.lt_irrefl _)
    | deeper h' hm' hid' =>
      obtain rfl := hid.unique hid'
      obtain rfl := Option.some.inj (hm.symm.trans hm')
      rw [ih h']

/-- When `root` grows, the parent of a node below it gets what the nodes between the two make of the
growth. -/
theorem Path.parent_pushed {s : Scene ℚ} (hf : s.IsForest) {r : Node ℚ}
    (hr : s.node? root = some r) (th : Thresholds ℚ) {above : List (Node ℚ)}
    (h : s.Path root above id) :
    ∃ p m m', s.ChildOf id p ∧ s.Within p root ∧ s.node? p = some m ∧
      (s.relayout root (r.bounds.width + th.growWidth)
        (r.bounds.height + th.growHeight)).node? p = some m' ∧
      ∀ axis, m'.bounds.span axis = (m.bounds.span axis).pushed
        ((⟨0, th.growth axis⟩ : Push).along (above.map (·.constraints.pull axis))) := by
  induction h with
  | child hid =>
    refine ⟨root, r, _, hid, .refl, hr, node?_relayout_self hf hr _ _, fun axis => ?_⟩
    cases axis <;> simp [Node.fitted, Bounds.span, Span.pushed, Push.along, Thresholds.growth]
  | @deeper above p id m _ hm hid ih =>
    obtain ⟨q, k, k', hp, hq, hk, hk', hpushed⟩ := ih
    obtain ⟨_, hm', hparent⟩ := hp
    obtain rfl := Option.some.inj (hm.symm.trans hm')
    refine ⟨p, m, _, hid, .head ⟨m, hm, hparent⟩ hq, hm,
      node?_relayout_child hf hr _ _ hq hm hparent hk hk', fun axis => ?_⟩
    show (m.constraints.apply m.bounds k.bounds k'.bounds).span axis = _
    rw [Constraints.span_apply, hpushed, Pull.apply_pushed, Push.along, Push.along, List.map_append,
      List.foldl_append]
    rfl

end Scene

namespace Measurements
variable {t : ElasticScene ℚ} {th : Thresholds ℚ}

/-- A probe that makes the node longer on some axis lays its branch out. -/
theorem scene_grown {root : NodeId} {r : Node ℚ} (hr : t.scene.node? root = some r)
    (hrest : t.AtRest) {axis : Axis} (hgrowth : 0 < th.growth axis) :
    (grown th t root r).scene = t.scene.relayout root (r.bounds.width + th.growWidth)
      (r.bounds.height + th.growHeight) := by
  have hsize : ¬ (Scalar.same (r.bounds.width + th.growWidth) r.bounds.width &&
      Scalar.same (r.bounds.height + th.growHeight) r.bounds.height) = true := by
    cases axis with
    | horizontal =>
      have hne : th.growWidth ≠ 0 := hgrowth.ne'
      simp [hne]
    | vertical =>
      have hne : th.growHeight ≠ 0 := hgrowth.ne'
      simp [hne]
  show (t.resize root _ _).scene = _
  rw [ElasticScene.resize_fresh hr (hrest.lookup_eq_none root), if_neg hsize]

/-- What a probe finds out for a node below the probed one, which stands directly under `p`. -/
theorem parameter?_probe {α : Type} [Scalar α] {t : ElasticScene α} (hf : t.scene.IsForest)
    (th : Thresholds α) {root id p : NodeId} {r n m n' m' : Node α}
    (hr : t.scene.node? root = some r) (hn : t.scene.node? id = some n) (hparent : n.parent = some p)
    (hp : t.scene.Within p root) (hm : t.scene.node? p = some m)
    (hn' : (grown th t root r).scene.node? id = some n')
    (hm' : (grown th t root r).scene.node? p = some m') :
    (probe th t root).2.parameter? id =
      some (.derive th n.bounds n'.bounds m.bounds m'.bounds) := by
  have hroot := Scene.lt_size_of_node? hr
  have hid : id ∈ t.scene.subtree root :=
    (hf.mem_subtree hroot).mpr (.head ⟨n, hn, hparent⟩ hp)
  rw [parameter?, record?_probe hf th hr]
  simp [taken?, swept?, found?, hid, (hf.mem_subtree hroot).mpr hp, hn, hparent, Scene.bounds?, hn',
    hm, hm']

/-- For every document at rest and every node below the probed one: along each axis on which the
probed node grows, the parameter says what the constraints on the way down to the node ask for. -/
theorem probe_recovers_constraints (hbuilt : t.Built) (hrest : t.AtRest)
    (hratio : 1 / 2 ≤ th.anchorRatio) (hratio' : th.anchorRatio < 1) (hslack : 1 ≤ th.stretchSlack)
    {board id : NodeId} {n : Node ℚ} (hn : t.scene.node? id = some n)
    (hwithin : t.scene.Within id board) (hne : id ≠ board) :
    ∃ above p, t.scene.Path board above id ∧ (probe th t board).2.parameter? id = some p ∧
      ∀ axis, 0 < th.growth axis → 0 ≤ (n.bounds.span axis).length →
        p.Says axis (Pull.asked (above.map (·.constraints.pull axis)) (n.constraints.pull axis)
          (decide ((n.bounds.span axis).length * (th.stretchSlack - 1) < th.growth axis))) := by
  have hf := hbuilt.isForest
  obtain ⟨above, hpath⟩ := hwithin.exists_path hne
  obtain ⟨r, hr⟩ : ∃ r, t.scene.node? board = some r :=
    Scene.node?_isSome (Nat.lt_of_le_of_lt (hf.le_of_within hwithin) (Scene.lt_size_of_node? hn))
  obtain ⟨p, m, m', ⟨k, hk, hparent⟩, hp, hm, hm', hpushed⟩ := hpath.parent_pushed hf hr th
  obtain rfl := Option.some.inj (hn.symm.trans hk)
  have hgrown : t.scene.Relaid (grown th t board r).scene := t.relaid_resize ..
  obtain ⟨after, hafter, _⟩ := hgrown.exists_node? hn
  obtain ⟨parent, hparent', _⟩ := hgrown.exists_node? hm
  refine ⟨above, _, hpath, parameter?_probe hf th hr hn hparent hp hm hafter hparent',
    fun axis hgrowth hlength => ?_⟩
  rw [scene_grown hr hrest hgrowth] at hafter hparent'
  obtain rfl := Option.some.inj (hm'.symm.trans hparent')
  rw [Scene.node?_relayout_child hf hr _ _ hp hn hparent hm hm'] at hafter
  obtain rfl := Option.some.inj hafter
  have hgrow : (m'.bounds.span axis).length - (m.bounds.span axis).length =
      ((⟨0, th.growth axis⟩ : Push).along (above.map (·.constraints.pull axis))).grow := by
    rw [hpushed, Span.pushed, add_sub_cancel_left]
  rw [← AxisAnchor.ofSpans_pushed hratio hratio' hslack hgrowth hlength, ← hgrow,
    ← Pull.apply_pushed _ _ (m.bounds.span axis), ← hpushed, ← Constraints.span_apply]
  exact Parameter.says_derive th n.bounds _ m.bounds m'.bounds axis

/-- A panel that gets wider with its board, and a dot that keeps to the right of the panel. -/
def pinnedDot : ElasticScene ℚ :=
  let board : ElasticScene ℚ := ElasticScene.empty.insert none
    { name := "Board", kind := .artboard, bounds := ⟨1000, 500, 320, 480⟩ }
  (board.insert (some 0)
    { name := "Panel", kind := .group, bounds := ⟨1010, 520, 300, 100⟩,
      constraints := { horizontal := .stretch, vertical := .middle } }).insert (some 1)
    { name := "Dot", kind := .ellipse, bounds := ⟨1295, 560, 12, 20⟩,
      constraints := { horizontal := .right } }

def coarse : Thresholds ℚ :=
  { growWidth := 100, growHeight := 50, anchorRatio := 3 / 4, stretchSlack := 2 }

theorem pinnedDot_recovered :
    ∃ p, (probe coarse pinnedDot 0).2.parameter? 2 = some p ∧
      p.Says .horizontal (some .far) ∧ p.Says .vertical (some .far) := by
  have hbuilt : pinnedDot.Built :=
    ((ElasticScene.Built.empty.insert none _ (by simp)).insert (some 0) _ (by decide)).insert
      (some 1) _ (by decide)
  have hpanel : pinnedDot.scene.ChildOf 1 0 := ⟨_, rfl, rfl⟩
  have hdot : pinnedDot.scene.ChildOf 2 1 := ⟨_, rfl, rfl⟩
  have hratio : 1 / 2 ≤ coarse.anchorRatio := by norm_num [coarse]
  have hratio' : coarse.anchorRatio < 1 := by norm_num [coarse]
  have hslack : 1 ≤ coarse.stretchSlack := by norm_num [coarse]
  obtain ⟨above, p, hpath, hp, hsays⟩ := probe_recovers_constraints hbuilt rfl hratio hratio' hslack
    rfl (.head hdot (.single hpanel)) (by decide)
  rw [hpath.unique hbuilt.isForest (.deeper (.child hpanel) rfl hdot)] at hsays
  refine ⟨p, hp, hsays .horizontal ?_ ?_, hsays .vertical ?_ ?_⟩
  · norm_num [Thresholds.growth, coarse]
  · show (0 : ℚ) ≤ 12
    norm_num
  · norm_num [Thresholds.growth, coarse]
  · show (0 : ℚ) ≤ 20
    norm_num

end Measurements
end DesignLayout
