import DesignLayout.Proofs.Making
import DesignLayout.Proofs.Probing

/-! Stretching and anchors.

What stretches on an axis has no anchor there (`Exclusive`). Whatever the probe finds is read off
from bounds (`Measurements.derived_probeAll`), and what is read off keeps the rule; the compiler
takes it over. But what stands directly within an item of a scroller that was made from a repeated
grid is anchored at the upper left afterwards, whether it stretches or not. `Element.Anchored`
follows both through the compilation of a branch. So the documents of an export keep the rule
exactly when nothing stretches directly within an item (`Export.exclusive_iff_items_rigid`). -/
namespace DesignLayout

variable {α : Type}

/-- Where it stretches, what has this pivot has no anchor. -/
structure Exclusive (pivot : Option Pivot) (stretchX stretchY : Bool) : Prop where
  horizontal : stretchX = true → ∀ p ∈ pivot, p.horizontal = none
  vertical : stretchY = true → ∀ p ∈ pivot, p.vertical = none

theorem exclusive_none (stretchX stretchY : Bool) : Exclusive none stretchX stretchY :=
  ⟨fun _ p hp => absurd hp (Option.not_mem_none p), fun _ p hp => absurd hp (Option.not_mem_none p)⟩

theorem exclusive_leftTop_iff {stretchX stretchY : Bool} :
    Exclusive (some .leftTop) stretchX stretchY ↔ stretchX = false ∧ stretchY = false := by
  constructor
  · intro h
    constructor
    · by_contra hx
      cases h.horizontal (eq_true_of_ne_false hx) _ rfl
    · by_contra hy
      cases h.vertical (eq_true_of_ne_false hy) _ rfl
  · rintro ⟨rfl, rfl⟩
    exact ⟨fun h => absurd h Bool.false_ne_true, fun h => absurd h Bool.false_ne_true⟩

/-! ### What the probe finds out -/

def Parameter.Exclusive (p : Parameter) : Prop :=
  DesignLayout.Exclusive p.pivot p.stretchX p.stretchY

theorem Parameter.exclusive_derive [Scalar α] (t : Thresholds α)
    (before after parentBefore parentAfter : Bounds α) :
    (derive t before after parentBefore parentAfter).Exclusive := by
  unfold derive
  extract_lets horizontal vertical stretchX stretchY pivot
  have hpivot : DesignLayout.Exclusive (some pivot) stretchX stretchY := by
    constructor
    · intro hx p hp
      obtain rfl := Option.some.inj hp
      exact if_pos hx
    · intro hy p hp
      obtain rfl := Option.some.inj hp
      exact if_pos hy
  unfold Exclusive
  by_cases hempty : pivot.isEmpty = true
  · simp only [if_pos hempty]
    exact exclusive_none _ _
  · simp only [if_neg hempty]
    exact hpivot

namespace Measurements

/-- Every parameter keeps the rule. -/
def Exclusive (m : Measurements α) : Prop :=
  ∀ id p, m.parameter? id = some p → p.Exclusive

/-- Every parameter was read off from bounds. -/
def Derived [Scalar α] (t : Thresholds α) (m : Measurements α) : Prop :=
  ∀ id p, m.parameter? id = some p →
    ∃ before after parentBefore parentAfter, p = .derive t before after parentBefore parentAfter

variable {δ : Type} [Scalar α] [Host δ α]

theorem derived_empty (t : Thresholds α) : (empty : Measurements α).Derived t := by
  intro id p hp
  rw [parameter?, record?_empty] at hp
  cases hp

theorem derive?_eq_some {t : Thresholds α} {s : Scene α} {m : Measurements α} {id : NodeId}
    {p : Parameter} (h : m.derive? t s id = some p) :
    ∃ before after parentBefore parentAfter,
      p = .derive t before after parentBefore parentAfter := by
  simp only [derive?, Option.bind_eq_bind, Option.bind_eq_some_iff] at h
  obtain ⟨own, -, n, -, above, -, parent, -, before, -, after, -, parentBefore, -, parentAfter, -,
    h⟩ := h
  exact ⟨before, after, parentBefore, parentAfter, (Option.some.inj h).symm⟩

theorem derived_withParameters (t : Thresholds α) (s : Scene α) (m : Measurements α) :
    (m.withParameters t s).Derived t := by
  intro id p hp
  rw [parameter?, record?_withParameters] at hp
  cases hr : m.record? id with
  | none =>
    rw [hr] at hp
    cases hp
  | some r =>
    rw [hr] at hp
    exact derive?_eq_some hp

theorem derived_probe (t : Thresholds α) (doc : δ) (root : NodeId) :
    (probe t doc root).2.Derived t := by
  unfold probe
  split
  · exact derived_empty t
  · exact derived_withParameters t _ _

/-- What is known of a node is what some probe has found. -/
theorem derived_probeAll (t : Thresholds α) (doc : δ) (roots : List NodeId) :
    (probeAll t doc roots).2.Derived t := by
  intro id p hp
  rw [parameter?, record?_probeAll] at hp
  obtain ⟨found, hfound, hp⟩ := Option.bind_eq_some_iff.mp hp
  obtain ⟨r, -, hr⟩ := List.exists_of_findSome?_eq_some hfound
  refine derived_probe t r.before r.root id p ?_
  rw [parameter?, show (probe t r.before r.root).2.record? id = some found from hr]
  exact hp

theorem Derived.exclusive {t : Thresholds α} {m : Measurements α} (h : m.Derived t) :
    m.Exclusive := by
  intro id p hp
  obtain ⟨_, _, _, _, rfl⟩ := h id p hp
  exact Parameter.exclusive_derive ..

end Measurements

/-! ### Elements in their places -/

def Attributes.Exclusive (a : Attributes α) : Prop :=
  DesignLayout.Exclusive a.pivot a.stretchX a.stretchY

theorem Attributes.Exclusive.of_pivot_eq_none {a : Attributes α} (h : a.pivot = none) :
    a.Exclusive := by
  rw [Exclusive, h]
  exact exclusive_none _ _

namespace Element

/-- What stands directly within the items of scrollers that were made from repeated grids. -/
def itemContents (e : Element α) : List (Element α) :=
  e.preorder.flatMap fun s =>
    if s.own.kind.isGridScroller then s.children.flatMap children else []

/-- An element and all elements within it keep the rule, but those that are pinned in an item are
anchored at the upper left. `item` says that the element is an item of the scroller of a repeated
grid, and `pinned` that it stands directly within one. -/
inductive Anchored : Bool → Bool → Element α → Prop
  | mk {item pinned : Bool} {own : Attributes α} {elements : Option (List (Element α))}
      (hfree : pinned = false → own.Exclusive)
      (hpinned : pinned = true → own.pivot = some .leftTop)
      (hwithin : ∀ e ∈ elements.getD [], Anchored own.kind.isGridScroller item e) :
      Anchored item pinned (.mk own elements)

variable {item pinned : Bool} {e x : Element α}

theorem mem_itemContents : x ∈ e.itemContents ↔ ∃ s ∈ e.preorder,
    s.own.kind.isGridScroller = true ∧ ∃ it ∈ s.children, x ∈ it.children := by
  rw [itemContents, List.mem_flatMap]
  refine exists_congr fun s => and_congr_right fun _ => ?_
  split <;> simp_all

theorem mem_preorder_of_mem_itemContents (h : x ∈ e.itemContents) : x ∈ e.preorder := by
  obtain ⟨s, hs, -, it, hit, hx⟩ := mem_itemContents.mp h
  have hinner : x ∈ s.preorder :=
    mem_preorder.mpr (.inr ⟨it, hit, mem_preorder.mpr (.inr ⟨x, hx, mem_preorder_self x⟩)⟩)
  exact mem_preorder_trans hinner hs

theorem Anchored.of_mem_preorder (h : Anchored item pinned e) :
    ∀ x ∈ e.preorder, ∃ item' pinned', Anchored item' pinned' x := by
  induction h with
  | mk hfree hpinned hwithin ih =>
    intro x hx
    rcases mem_preorder.mp hx with rfl | ⟨c, hc, hx⟩
    · exact ⟨_, _, .mk hfree hpinned hwithin⟩
    · exact ih c hc x hx

theorem Anchored.pivot_of_mem_itemContents (h : Anchored item pinned e) :
    ∀ x ∈ e.itemContents, x.own.pivot = some .leftTop := by
  intro x hx
  obtain ⟨s, hs, hgrid, it, hit, hx⟩ := mem_itemContents.mp hx
  obtain ⟨_, _, hs⟩ := h.of_mem_preorder s hs
  cases hs with
  | mk _ _ hwithin =>
    have hit := hwithin it hit
    rw [own_mk] at hgrid
    rw [hgrid] at hit
    cases hit with
    | mk _ _ hwithin =>
      cases hwithin x hx with
      | mk _ hpinned _ => exact hpinned rfl

theorem Anchored.exclusive_of_mem_preorder (h : Anchored item pinned e) :
    ∀ x ∈ e.preorder, x.own.Exclusive ∨ (pinned = true ∧ x = e) ∨
      (item = true ∧ x ∈ e.children) ∨ x ∈ e.itemContents := by
  induction h with
  | @mk item pinned own elements hfree hpinned hwithin ih =>
    intro x hx
    rcases mem_preorder.mp hx with rfl | ⟨c, hc, hx⟩
    · cases pinned with
      | false => exact .inl (hfree rfl)
      | true => exact .inr (.inl ⟨rfl, rfl⟩)
    · rcases ih c hc x hx with hx | ⟨hitem, rfl⟩ | ⟨hgrid, hx⟩ | hx
      · exact .inl hx
      · exact .inr (.inr (.inl ⟨hitem, hc⟩))
      · exact .inr (.inr (.inr (mem_itemContents.mpr
          ⟨_, mem_preorder_self _, hgrid, c, hc, hx⟩)))
      · obtain ⟨s, hs, hx⟩ := mem_itemContents.mp hx
        exact .inr (.inr (.inr (mem_itemContents.mpr
          ⟨s, mem_preorder.mpr (.inr ⟨c, hc, hs⟩), hx⟩)))

/-! ### Making elements -/

/-- An element that is not pinned keeps the rule itself. -/
theorem Anchored.free {own : Attributes α} {elements : Option (List (Element α))}
    (hown : own.Exclusive)
    (hwithin : ∀ e ∈ elements.getD [], Anchored own.kind.isGridScroller item e) :
    Anchored item false (.mk own elements) :=
  .mk (fun _ => hown) (fun h => absurd h Bool.false_ne_true) hwithin

theorem Anchored.setOwn {f : Attributes α → Attributes α} (h : Anchored item pinned e)
    (hkind : (f e.own).kind = e.own.kind) (hown : (f e.own).Exclusive) :
    Anchored item false (e.setOwn f) := by
  cases h with
  | mk _ _ hwithin => exact .free hown (hkind ▸ hwithin)

theorem Anchored.rename (h : Anchored item false e) (name : String) :
    Anchored item false (e.rename name) := by
  cases h with
  | mk hfree _ hwithin => exact .free (hfree rfl) hwithin

theorem Anchored.setPivot (h : Anchored item pinned e) :
    Anchored item true (e.setPivot (some .leftTop)) := by
  cases h with
  | mk _ _ hwithin => exact .mk (fun h => absurd h.symm Bool.false_ne_true) (fun _ => rfl) hwithin

theorem anchored_leaf {own : Attributes α} (hown : own.pivot = none) :
    Anchored false false (.mk own none) :=
  .free (.of_pivot_eq_none hown) fun _ he => absurd he List.not_mem_nil

/-- An element that is no scroller of a repeated grid holds elements that are no items. -/
theorem anchored_holding {own : Attributes α} {es : List (Element α)} (hown : own.pivot = none)
    (hkind : own.kind.isGridScroller = false) (hes : ∀ e ∈ es, Anchored false false e) :
    Anchored false false (.mk own (some es)) := by
  refine .free (.of_pivot_eq_none hown) ?_
  rw [hkind]
  exact hes

end Element

namespace GridMetrics
open Element

variable {cells : List (Element α)}

/-- What stands directly within an element may be pinned, and it is an item then. -/
theorem anchored_pinned {item : Bool} {e : Element α} (h : Anchored item false e) :
    Anchored true false (pinned e) := by
  cases h with
  | @mk _ _ own elements hfree hpinned hwithin =>
    refine .mk hfree hpinned fun e he => ?_
    cases elements with
    | none => cases he
    | some es =>
      obtain ⟨inner, hinner, rfl⟩ := List.mem_map.mp he
      exact (hwithin inner hinner).setPivot

theorem anchored_columnTemplate (h : ∀ e ∈ cells, Anchored false false e) :
    ∀ it ∈ columnTemplate cells, ∃ item, Anchored item false it := by
  unfold columnTemplate
  split
  · exact fun it hit => absurd hit List.not_mem_nil
  · rename_i first rest
    have hfirst := h first List.mem_cons_self
    split
    · intro it hit
      obtain rfl := List.mem_singleton.mp hit
      exact ⟨_, hfirst⟩
    · -- Items that are found within the first cell may be items of a scroller already.
      intro it hit
      cases hfirst with
      | mk _ _ hwithin => exact ⟨_, hwithin it (List.mem_of_mem_filter hit)⟩

theorem anchored_row (h : ∀ e ∈ cells, Anchored false false e) (columns : Nat) :
    ∀ e ∈ row columns cells, Anchored false false e := by
  intro e he
  obtain ⟨i, hi, rfl⟩ := List.mem_mapIdx.mp he
  exact (h _ (List.mem_of_mem_take (List.getElem_mem hi))).rename _

theorem anchored_template (g : GridMetrics α) (h : ∀ e ∈ cells, Anchored false false e) :
    ∀ it ∈ (g.template cells).2, ∃ item, Anchored item false it := by
  unfold template
  split
  · exact anchored_columnTemplate h
  · split
    · exact fun it hit => ⟨_, h it (List.mem_of_mem_take hit)⟩
    · intro it hit
      obtain rfl := List.mem_singleton.mp hit
      exact ⟨_, anchored_holding rfl rfl (anchored_row h g.columns)⟩

end GridMetrics

/-! ### Compiling a branch -/

theorem ElementKind.isGridScroller_of_isBox {kind : ElementKind α} (h : kind.isBox = true) :
    kind.isGridScroller = false := by
  cases kind <;> first | rfl | cases h

namespace Compiler
open Compile Element

variable [Scalar α] {c : Compiler α} {t : Target α} {n : Node α} {l : Label}
  {es : List (Element α)} {e? : Option (Element α)}

/-- What is made of elements that are anchored is anchored. -/
theorem Made.anchored (h : c.Made t n l es e?) (hes : ∀ e ∈ es, Anchored false false e) :
    ∀ e ∈ e?, Anchored false false e := by
  intro e he
  cases h with
  | board =>
    obtain rfl := Option.some.inj he
    exact anchored_holding rfl rfl hes
  | whole =>
    obtain rfl := Option.some.inj he
    exact anchored_leaf rfl
  | shape =>
    obtain rfl := Option.some.inj he
    split
    · exact anchored_leaf rfl
    · exact anchored_holding rfl rfl hes
  | box _ _ hbox =>
    obtain rfl := Option.some.inj he
    exact anchored_holding rfl (ElementKind.isGridScroller_of_isBox hbox) hes
  | viewport =>
    obtain rfl := Option.some.inj he
    exact anchored_holding rfl rfl hes
  | @overGrid _ grid =>
    obtain rfl := Option.some.inj he
    refine .free (.of_pivot_eq_none rfl) fun e he => ?_
    obtain ⟨it, hit, rfl⟩ := List.mem_map.mp he
    obtain ⟨item, hit⟩ := grid.anchored_template hes it hit
    exact GridMetrics.anchored_pinned hit
  | unknown =>
    split at he
    · cases he
    · obtain rfl := Option.some.inj he
      exact anchored_holding rfl rfl hes

omit [Scalar α] in
theorem anchored_withParameter (hm : c.measurements.Exclusive) (id : NodeId) {e : Element α}
    (h : Anchored false false e) : Anchored false false (c.withParameter id e) := by
  rcases c.withParameter_eq id e with heq | ⟨p, hp, heq⟩ <;> rw [heq]
  · exact h
  · exact h.setOwn rfl (hm id p hp)

/-- The elements of all branches are anchored, when the probe has kept to the rule. -/
theorem closed_anchored (hm : c.measurements.Exclusive) (t : Target α) :
    c.Closed t (fun _ _ e? => ∀ e ∈ e?, Anchored false false e)
      (fun _ es => ∀ e ∈ es, Anchored false false e) where
  omitted _ e he := absurd he (Option.not_mem_none e)
  made {_ id _ _ _ _} _ hes hmade e he := by
    obtain ⟨made, hmem, rfl⟩ := Option.map_eq_some_iff.mp he
    exact anchored_withParameter hm id (hmade.anchored hes made hmem)
  nil _ he := absurd he List.not_mem_nil
  cons hown hlater e he := by
    rcases List.mem_append.mp he with he | he
    · exact hlater e he
    · exact hown e (Option.mem_toList.mp he)

theorem anchored_roots (hm : c.measurements.Exclusive) (bs : List (Branch α)) :
    (c.roots bs).Yields fun rs => ∀ r ∈ rs, Anchored false false r.document.root := by
  refine yields_roots fun b _ l => ?_
  obtain ⟨e?, he, hroot⟩ := yields_root ((closed_anchored hm _).yields_branch false b) l
  rw [hroot]
  cases e? with
  | none => exact anchored_holding rfl rfl fun _ he => absurd he List.not_mem_nil
  | some e => exact he e rfl

end Compiler

/-! ### A whole export -/

namespace Export
variable {δ : Type} [Scalar α] [Host δ α]

theorem derived_measure (doc : δ) (context : Context α) (r : Roots) :
    (measure doc context r).2.Derived context.thresholds := by
  unfold measure
  split
  · exact Measurements.derived_probeAll context.thresholds doc r.artboards
  · exact Measurements.derived_empty context.thresholds

/-- Whatever is compiled is compiled with parameters that the probe has read off. -/
theorem derived_of_ofSelection {doc doc' : δ} {selection : List NodeId} {context : Context α}
    {e : Export α} (h : ofSelection doc selection context = .ok (doc', e)) :
    e.measurements.Derived context.thresholds := by
  obtain ⟨found, -, hmeasure, -⟩ := ofSelection_eq_ok h
  have hm := derived_measure doc context found
  rwa [hmeasure] at hm

/-- For every document, selection and context for which an export succeeds, and each of its
documents: every element keeps the rule, but for what stands directly within the items of scrollers
that were made from repeated grids; this is anchored at the upper left. So all elements keep the
rule exactly when nothing stretches directly within such an item. -/
theorem exclusive_iff_items_rigid {doc doc' : δ} {selection : List NodeId} {context : Context α}
    {e : Export α} (h : ofSelection doc selection context = .ok (doc', e)) :
    ∀ r ∈ e.roots,
      (∀ x ∈ r.document.root.preorder,
        x.own.Exclusive ∨ x ∈ r.document.root.itemContents) ∧
      (∀ x ∈ r.document.root.itemContents, x.own.pivot = some .leftTop) ∧
      ((∀ x ∈ r.document.root.preorder, x.own.Exclusive) ↔
        ∀ x ∈ r.document.root.itemContents, x.own.stretchX = false ∧ x.own.stretchY = false) := by
  obtain ⟨_, -, -, he⟩ := ofSelection_eq_ok h
  have hm := (derived_of_ofSelection h).exclusive
  intro r hr
  have hroot : Element.Anchored false false r.document.root := by
    rw [he] at hr
    exact Compiler.anchored_roots (c := ⟨Host.scene doc', context, e.measurements⟩) hm _ _ r hr
  have hpivot := hroot.pivot_of_mem_itemContents
  have hkeeps : ∀ x ∈ r.document.root.preorder,
      x.own.Exclusive ∨ x ∈ r.document.root.itemContents := by
    intro x hx
    rcases hroot.exclusive_of_mem_preorder x hx with hx | ⟨h, -⟩ | ⟨h, -⟩ | hx
    · exact .inl hx
    · cases h
    · cases h
    · exact .inr hx
  have hrigid : ∀ x ∈ r.document.root.itemContents,
      (x.own.Exclusive ↔ x.own.stretchX = false ∧ x.own.stretchY = false) := by
    intro x hx
    rw [Attributes.Exclusive, hpivot x hx, exclusive_leftTop_iff]
  refine ⟨hkeeps, hpivot, fun hall x hx => ?_, fun hall x hx => ?_⟩
  · exact (hrigid x hx).mp (hall x (Element.mem_preorder_of_mem_itemContents hx))
  · rcases hkeeps x hx with hx | hx
    · exact hx
    · exact (hrigid x hx).mpr (hall x hx)

/-- A repeated grid that stretches with its artboard, with a cell that does so too, and in the cell
a bar that follows it like this. -/
def barBoard (bar : HorizontalConstraint) : ElasticScene Float :=
  (((ElasticScene.empty.insert none
    { name := "S", kind := .artboard, bounds := ⟨0.0, 0.0, 400.0, 300.0⟩ }).insert (some 0)
    { name := "ShopScroller", kind := .repeatGrid, bounds := ⟨0.0, 0.0, 400.0, 100.0⟩,
      constraints := { horizontal := .stretch },
      grid := some ⟨1, 2, 200.0, 100.0, 0.0, 0.0⟩ }).insert (some 1)
    { name := "cell", kind := .group, bounds := ⟨0.0, 0.0, 200.0, 100.0⟩,
      constraints := { horizontal := .stretch } }).insert (some 2)
    { name := "bar", kind := .rectangle, bounds := ⟨0.0, 0.0, 200.0, 20.0⟩,
      constraints := { horizontal := bar } }

theorem built_barBoard (bar : HorizontalConstraint) : (barBoard bar).Built :=
  (((ElasticScene.Built.empty.insert none _ (by simp)).insert (some 0) _ (by decide)).insert
    (some 1) _ (by decide)).insert (some 2) _ (by decide)

theorem rigid_bar_exclusive :
    ∃ after e, ofSelection (barBoard .left) [] wholeContext = .ok (after, e) ∧
      (e.roots.flatMap fun r => r.document.root.itemContents.map (·.name)) = ["bar"] ∧
      ∀ r ∈ e.roots, ∀ x ∈ r.document.root.preorder, x.own.Exclusive := by
  have hitems : (ofSelection (barBoard .left) [] wholeContext).toOption.map (fun p =>
      p.2.roots.flatMap fun r => r.document.root.itemContents.map fun x =>
        (x.name, x.own.stretchX, x.own.stretchY)) = some [("bar", false, false)] := by
    decide +kernel
  obtain ⟨⟨after, e⟩, h, hitems⟩ := eq_ok_of_map_toOption hitems
  refine ⟨after, e, h, ?_, fun r hr => ?_⟩
  · have hnames := congrArg (List.map Prod.fst) hitems
    simp only [List.map_flatMap, List.map_map, Function.comp_def] at hnames
    exact hnames
  · refine (exclusive_iff_items_rigid h r hr).2.2.mpr fun x hx => ?_
    have hmem : (x.name, x.own.stretchX, x.own.stretchY) ∈ [("bar", false, false)] := by
      rw [← hitems]
      exact List.mem_flatMap.mpr ⟨r, hr, List.mem_map_of_mem hx⟩
    exact Prod.mk.inj (Prod.mk.inj (List.mem_singleton.mp hmem)).2

/-- A bar that stretches is anchored at the left all the same. -/
theorem stretching_bar_anchored :
    ¬ ∀ (t after : ElasticScene Float) selection context e, t.Built →
      ofSelection t selection context = .ok (after, e) →
      ∀ r ∈ e.roots, ∀ x ∈ r.document.root.preorder, x.own.Exclusive := by
  intro h
  have hshown : (ofSelection (barBoard .stretch) [] wholeContext).toOption.map (fun p =>
      p.2.roots.flatMap fun r => r.document.root.preorder.map fun x =>
        (x.name, x.own.pivot, x.own.stretchX)) =
      some [("S", none, false), ("ShopScroller", some ⟨none, some .top⟩, true),
        ("item0", some ⟨none, some .top⟩, true), ("bar", some .leftTop, true)] := by
    decide +kernel
  obtain ⟨⟨after, e⟩, hboard, hshown⟩ := eq_ok_of_map_toOption hshown
  have hmem : ("bar", some Pivot.leftTop, true) ∈ e.roots.flatMap fun r =>
      r.document.root.preorder.map fun x => (x.name, x.own.pivot, x.own.stretchX) := by
    rw [hshown]
    decide
  obtain ⟨r, hr, hmem⟩ := List.mem_flatMap.mp hmem
  obtain ⟨x, hx, hbar⟩ := List.mem_map.mp hmem
  obtain ⟨-, hbar⟩ := Prod.mk.inj hbar
  obtain ⟨hpivot, hstretch⟩ := Prod.mk.inj hbar
  have hexclusive := h _ after _ _ e (built_barBoard .stretch) hboard r hr x hx
  cases hexclusive.horizontal hstretch _ hpivot

end Export
end DesignLayout
