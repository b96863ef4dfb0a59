import DesignLayout.Compiler.Basic
import DesignLayout.Proofs.Displacing
import DesignLayout.Proofs.Fractions
import DesignLayout.Proofs.Mapping

/-! Documents with all their numbers scaled.

`scaled` multiplies every number of an element, a canvas or a document, and `mapScales` changes the
scales of the pictures that are asked for. In exact fractions the geometry of the compiler goes
along with that, and does not see where on the canvas the scene stands: frames
(`Frame.inRoot_displaced`), documents (`Document.ofRoot_displaced`) and scrollers
(`GridMetrics.scroller_scaled`) are scaled as wholes when a displaced scene is read at a larger
scale. The one comparison that is made, of the used width of a grid with its whole width, comes out
the same at every positive scale. -/
namespace DesignLayout

section
variable {α : Type} [Scalar α]

/-! ### Scaled documents -/

def ScrollerLayout.scaled (k : α) (l : ScrollerLayout α) : ScrollerLayout α :=
  { l with
    paddingLeft := l.paddingLeft.map (· * k)
    paddingRight := l.paddingRight.map (· * k)
    paddingTop := l.paddingTop.map (· * k)
    spacing := l.spacing.map (· * k) }

def TextContent.scaled (k : α) (c : TextContent α) : TextContent α :=
  { c with size := c.size * k, visualHeight := c.visualHeight * k }

def ElementKind.scaled (k : α) : ElementKind α → ElementKind α
  | scroller layout => scroller (layout.scaled k)
  | text content => text (content.scaled k)
  | richText content => richText (content.scaled k)
  | input content => input (content.scaled k)
  | kind => kind

def Attributes.scaled (k : α) (a : Attributes α) : Attributes α :=
  { a with
    kind := a.kind.scaled k
    x := a.x.map (· * k)
    y := a.y.map (· * k)
    w := a.w.map (· * k)
    h := a.h.map (· * k) }

/-- All numbers of the element, and of those within it, times `k`. -/
def Element.scaled (k : α) : Element α → Element α :=
  Element.mapOwn (Attributes.scaled k)

def CanvasRect.scaled (k : α) (r : CanvasRect α) : CanvasRect α :=
  ⟨r.x.map (· * k), r.y.map (· * k), r.w * k, r.h * k⟩

def Document.scaled (k : α) (d : Document α) : Document α :=
  { d with
    canvas := ⟨d.canvas.image.scaled k, d.canvas.size.scaled k, d.canvas.base.scaled k⟩
    root := d.root.scaled k }

def CompiledRoot.scaled (k : α) (r : CompiledRoot α) : CompiledRoot α :=
  { r with document := r.document.scaled k }

def Frame.scaled (k : α) (f : Frame α) : Frame α :=
  ⟨f.x * k, f.y * k, f.w * k, f.h * k⟩

theorem Attributes.keepsNames_scaled (k : α) : KeepsNames (scaled k) where
  name _ := rfl
  rename _ _ := rfl
  group _ := rfl

end

/-! ### Requests at other scales -/

section
variable {α : Type}

def Manifest.mapScales (f : α → α) (m : Manifest α) : Manifest α :=
  ⟨m.requests.map fun r => { r with scale := f r.scale }⟩

def Ledger.mapScales (f : α → α) (l : Ledger α) : Ledger α :=
  { l with manifest := l.manifest.mapScales f }

@[simp] theorem Manifest.files_mapScales (f : α → α) (m : Manifest α) :
    (m.mapScales f).files = m.files := by
  simp [mapScales, files, Function.comp_def]

@[simp] theorem Manifest.size_mapScales (f : α → α) (m : Manifest α) :
    (m.mapScales f).size = m.size := by
  simp [mapScales, size]

/-- Names do not depend on scales. -/
theorem Manifest.register_mapScales (f : α → α) (m : Manifest α) (node : NodeId)
    (guid parent role folder : String) (scale : α) :
    (m.mapScales f).register node guid parent role folder (f scale) =
      ((m.register node guid parent role folder scale).1,
        (m.register node guid parent role folder scale).2.mapScales f) := by
  have hfree (base : String) : (m.mapScales f).freeName base guid = m.freeName base guid := by
    simp only [freeName, contains, files_mapScales, size_mapScales]
  simp only [register, hfree]
  simp [mapScales]

end

/-! ### Scaling by one -/

theorem ElementKind.scaled_one (kind : ElementKind ℚ) : kind.scaled 1 = kind := by
  cases kind <;> simp [scaled, ScrollerLayout.scaled, TextContent.scaled]

theorem Attributes.scaled_one (a : Attributes ℚ) : a.scaled 1 = a := by
  simp [scaled, ElementKind.scaled_one]

theorem CanvasRect.scaled_one (r : CanvasRect ℚ) : r.scaled 1 = r := by
  simp [scaled]

theorem CompiledRoot.scaled_one (r : CompiledRoot ℚ) : r.scaled 1 = r := by
  have helement (e : Element ℚ) : e.scaled 1 = e :=
    Element.mapOwn_eq_self Attributes.scaled_one e
  simp [scaled, Document.scaled, CanvasRect.scaled_one, helement]

theorem Manifest.mapScales_id {α : Type} (m : Manifest α) : m.mapScales id = m := by
  simp [mapScales]

/-! ### Frames, canvases and scrollers -/

theorem Scene.displaced_zero (s : Scene ℚ) : s.displaced 0 0 = s := by
  have hnode : (Node.displaced 0 0 : Node ℚ → Node ℚ) = fun n => n := by
    funext n
    simp [Node.displaced, Bounds.moved]
  rw [displaced, hnode, Array.map_id']

variable {k : ℚ} (dx dy : ℚ)

theorem Frame.inRoot_displaced (n root : Node ℚ) (scale : ℚ) :
    inRoot (n.displaced dx dy) (root.displaced dx dy) (scale * k) =
      (inRoot n root scale).scaled k := by
  simp only [inRoot, Frame.scaled, Node.displaced, Bounds.scaled, Bounds.moved, Bounds.centerX,
    Bounds.centerY, Scalar.half_rat, Frame.mk.injEq]
  refine ⟨?_, ?_, ?_, ?_⟩ <;> ring

namespace CanvasRect

theorem ofRoot_displaced (n : Node ℚ) (parent : Option (Node ℚ)) (scale : ℚ) :
    ofRoot (n.displaced dx dy) (parent.map (Node.displaced dx dy)) (scale * k) =
      (ofRoot n parent scale).scaled k := by
  have hcorner : (⟨some 0, some 0, n.bounds.width * (scale * k), n.bounds.height * (scale * k)⟩ :
      CanvasRect ℚ) =
        scaled k ⟨some 0, some 0, n.bounds.width * scale, n.bounds.height * scale⟩ := by
    simp [scaled, mul_assoc]
  cases parent with
  | none => exact hcorner
  | some p =>
    show (if n.kind = .artboard then _ else _) = scaled k (if n.kind = .artboard then _ else _)
    by_cases hkind : n.kind = .artboard
    · rw [if_pos hkind, if_pos hkind]
      exact hcorner
    · rw [if_neg hkind, if_neg hkind]
      simp only [scaled, Node.displaced, Bounds.scaled, Bounds.moved, Bounds.centerX,
        Bounds.centerY, Scalar.half_rat, Option.map_some, CanvasRect.mk.injEq, Option.some.injEq]
      refine ⟨?_, ?_, ?_, ?_⟩ <;> ring

theorem anchoredX_displaced (own outer : Bounds ℚ) (scale : ℚ) (anchor : HorizontalAnchor)
    (x : Option ℚ) :
    anchoredX ((own.moved dx dy).scaled (scale * k)) ((outer.moved dx dy).scaled (scale * k))
        anchor (x.map (· * k)) =
      (anchoredX (own.scaled scale) (outer.scaled scale) anchor x).map (· * k) := by
  cases anchor with
  | center => rfl
  | left =>
    simp only [anchoredX, Bounds.scaled, Bounds.moved, Scalar.half_rat, Option.map_some,
      Option.some.injEq]
    ring
  | right =>
    simp only [anchoredX, Bounds.scaled, Bounds.moved, Scalar.half_rat, Option.map_some,
      Option.some.injEq]
    ring

theorem anchoredY_displaced (own outer : Bounds ℚ) (scale : ℚ) (anchor : VerticalAnchor)
    (y : Option ℚ) :
    anchoredY ((own.moved dx dy).scaled (scale * k)) ((outer.moved dx dy).scaled (scale * k))
        anchor (y.map (· * k)) =
      (anchoredY (own.scaled scale) (outer.scaled scale) anchor y).map (· * k) := by
  cases anchor with
  | middle => rfl
  | top =>
    simp only [anchoredY, Bounds.scaled, Bounds.moved, Scalar.half_rat, Option.map_some,
      Option.some.injEq]
    ring
  | bottom =>
    simp only [anchoredY, Bounds.scaled, Bounds.moved, Scalar.half_rat, Option.map_some,
      Option.some.injEq]
    ring

theorem anchored_displaced (base : CanvasRect ℚ) (n : Node ℚ) (parent : Option (Node ℚ))
    (scale : ℚ) (pivot : Option Pivot) :
    (base.scaled k).anchored (n.displaced dx dy) (parent.map (Node.displaced dx dy)) (scale * k)
        pivot =
      (base.anchored n parent scale pivot).scaled k := by
  cases pivot with
  | none => rfl
  | some pivot =>
    cases parent with
    | none => rfl
    | some p =>
      obtain ⟨horizontal, vertical⟩ := pivot
      refine (CanvasRect.mk.injEq ..).mpr ⟨?_, ?_, rfl, rfl⟩
      · cases horizontal with
        | none => rfl
        | some h => exact anchoredX_displaced dx dy n.bounds p.bounds scale h base.x
      · cases vertical with
        | none => rfl
        | some v => exact anchoredY_displaced dx dy n.bounds p.bounds scale v base.y

end CanvasRect

theorem Document.ofRoot_displaced (n : Node ℚ) (parent : Option (Node ℚ)) (scale : ℚ)
    (e : Element ℚ) :
    ofRoot (n.displaced dx dy) (parent.map (Node.displaced dx dy)) (scale * k) (e.scaled k) =
      (ofRoot n parent scale e).scaled k := by
  have hpivot : (e.scaled k).own.pivot = e.own.pivot := by
    rw [Element.scaled, Element.own_mapOwn]
    rfl
  rw [ofRoot, ofRoot, hpivot, CanvasRect.ofRoot_displaced, CanvasRect.anchored_displaced]
  rfl

/-- What is left over of a width is scaled with it. -/
theorem leftOver_scaled (hk : 0 < k) (used width : ℚ) :
    (if Scalar.less (used * k) (width * k) then width * k - used * k else Scalar.zero) =
      (if Scalar.less used width then width - used else Scalar.zero) * k := by
  have hless : Scalar.less (used * k) (width * k) = Scalar.less used width := by
    simp only [Scalar.less_rat, mul_lt_mul_iff_left₀ hk]
  rw [hless]
  split
  · ring
  · rw [Scalar.zero_rat, zero_mul]

theorem Element.scaled_pinned (item : Element ℚ) :
    GridMetrics.pinned (item.scaled k) = (GridMetrics.pinned item).scaled k := by
  have hpivot (e : Element ℚ) :
      (e.setPivot (some .leftTop)).scaled k = (e.scaled k).setPivot (some .leftTop) :=
    mapOwn_setOwn rfl
  rcases item with ⟨own, _ | es⟩
  · rfl
  · simp only [scaled, GridMetrics.pinned, mapOwn_mk, own_mk, elements_mk, Option.map_some,
      List.map_map]
    refine congrArg (fun es => mk _ (some es)) (List.map_congr_left fun e _ => ?_)
    exact (hpivot e).symm

namespace GridMetrics
variable (hk : 0 < k) (g : GridMetrics ℚ) (offset : ℚ × ℚ) (width scale : ℚ)
include hk

theorem scrollerLayout_scaled (scroll : ScrollDirection) :
    g.scrollerLayout scroll offset (width * k) (scale * k) =
      (g.scrollerLayout scroll offset width scale).scaled k := by
  have hused : offset.1 * (scale * k) + (g.cellWidth * (scale * k) + g.paddingX * (scale * k)) *
      g.columns =
        (offset.1 * scale + (g.cellWidth * scale + g.paddingX * scale) * g.columns) * k := by
    ring
  refine (ScrollerLayout.mk.injEq ..).mpr ⟨rfl, ?_, ?_, ?_, ?_⟩
  · exact congrArg some (mul_assoc ..).symm
  · rw [Scalar.ofCount_rat, hused]
    exact congrArg some (leftOver_scaled hk _ _)
  · exact congrArg some (mul_assoc ..).symm
  · cases scroll <;> exact congrArg some (mul_assoc ..).symm

/-- The scroller of a grid is scaled as a whole. -/
theorem scroller_scaled (cells : List (Element ℚ)) :
    g.scroller offset (width * k) (scale * k) (cells.map (Element.scaled k)) =
      ((g.scroller offset width scale cells).1.scaled k,
        (g.scroller offset width scale cells).2.map (Element.scaled k)) := by
  have htemplate := template_mapOwn (Attributes.keepsNames_scaled k) g cells
  have hpinned : (pinned ∘ Element.scaled k : Element ℚ → Element ℚ) = Element.scaled k ∘ pinned :=
    funext Element.scaled_pinned
  simp only [scroller, Element.scaled] at hpinned ⊢
  rw [htemplate, scrollerLayout_scaled hk, List.map_map, hpinned, List.map_map]

end GridMetrics

/-! ### Elements that are compiled -/

namespace Compiler
open Element

theorem scaled_framed (kind : ElementKind ℚ) (name : String) (frame : Frame ℚ)
    (es : Option (List (Element ℚ))) :
    (Element.mk (framed kind name frame) es).scaled k =
      .mk (framed (kind.scaled k) name (frame.scaled k)) (es.map (List.map (scaled k))) :=
  mapOwn_mk ..

theorem scaled_sized (kind : ElementKind ℚ) (name : String) (w h : ℚ)
    (es : Option (List (Element ℚ))) :
    (Element.mk (sized kind name w h) es).scaled k =
      .mk (sized (kind.scaled k) name (w * k) (h * k)) (es.map (List.map (scaled k))) :=
  mapOwn_mk ..

theorem name_scaled (e : Element ℚ) : (e.scaled k).name = e.name :=
  GridMetrics.name_mapOwn (Attributes.keepsNames_scaled k) e

theorem hasArea_scaled (es : List (Element ℚ)) : hasArea (es.map (scaled k)) = hasArea es := by
  simp only [hasArea, List.any_map, Function.comp_def, name_scaled]

theorem child?_scaled (e : Element ℚ) (name : String) :
    (e.scaled k).child? name = (e.child? name).map (scaled k) := by
  have hname : (fun e : Element ℚ => e.name == name) ∘ scaled k = fun e => e.name == name :=
    funext fun e => by rw [Function.comp_apply, name_scaled]
  rw [child?, scaled, children_mapOwn, List.find?_map]
  exact congrArg (fun p => Option.map (scaled k) (e.children.find? p)) hname

theorem scaled_containerKind? {o : Options} {ds : Directives} {kind : ElementKind ℚ}
    (hkind : containerKind? o ds = some kind) : kind.scaled k = kind := by
  unfold containerKind? at hkind
  split_ifs at hkind <;> obtain rfl := Option.some.inj hkind <;> rfl

end Compiler
end DesignLayout
