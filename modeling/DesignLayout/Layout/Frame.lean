import DesignLayout.Layout.Document
import DesignLayout.Scene.Node

/-!
Where nodes and canvases are put.

The frame of a node is its scaled draw bounds, with its place seen from the centre of the export
root's bounds. A canvas sits at the origin when its root is an artboard or stands under nothing, and
else where the centre of the root is, seen from the centre of its parent; an anchored root moves the
canvas to the edge that it keeps its distance to.
-/
namespace DesignLayout

structure Frame (α : Type) where
  x : α
  y : α
  w : α
  h : α

section

variable {α : Type} [Scalar α]

def Frame.inRoot (n root : Node α) (scale : α) : Frame α :=
  let draw := n.drawBounds.scaled scale
  let base := root.bounds.scaled scale
  ⟨draw.x - base.centerX, draw.y - base.centerY, draw.width, draw.height⟩

namespace CanvasRect

/-- The canvas of an export root that has no anchor. -/
def ofRoot (n : Node α) (parent : Option (Node α)) (scale : α) : CanvasRect α :=
  let own := n.bounds.scaled scale
  match parent with
  | some p =>
    if n.kind = .artboard then ⟨some Scalar.zero, some Scalar.zero, own.width, own.height⟩
    else
      let outer := p.bounds.scaled scale
      ⟨some (own.centerX - outer.centerX), some (own.centerY - outer.centerY), own.width,
        own.height⟩
  | none => ⟨some Scalar.zero, some Scalar.zero, own.width, own.height⟩

/-- The horizontal place of a canvas that is anchored at an edge of its container. -/
def anchoredX (own outer : Bounds α) : HorizontalAnchor → Option α → Option α
  | .left, _ => some (outer.x - own.x - Scalar.half own.width)
  | .right, _ => some (outer.x + outer.width - (own.x + Scalar.half own.width))
  | .center, x => x

/-- The vertical place of a canvas that is anchored at an edge of its container. -/
def anchoredY (own outer : Bounds α) : VerticalAnchor → Option α → Option α
  | .top, _ => some (outer.y - own.y - Scalar.half own.height)
  | .bottom, _ => some (outer.y + outer.height - (own.y + Scalar.half own.height))
  | .middle, y => y

/-- Moves a canvas by the anchor of its root; a centred axis keeps its place. -/
def anchored (base : CanvasRect α) (n : Node α) (parent : Option (Node α)) (scale : α)
    (pivot : Option Pivot) : CanvasRect α :=
  match pivot, parent with
  | some pivot, some p =>
    let own := n.bounds.scaled scale
    let outer := p.bounds.scaled scale
    { base with
      x := match pivot.horizontal with
        | some h => anchoredX own outer h base.x
        | none => base.x
      y := match pivot.vertical with
        | some v => anchoredY own outer v base.y
        | none => base.y }
  | _, _ => base

end CanvasRect

/-- The document of an export root, its canvas placed by the root element's anchor. -/
def Document.ofRoot (n : Node α) (parent : Option (Node α)) (scale : α) (e : Element α) :
    Document α :=
  .ofBase ((CanvasRect.ofRoot n parent scale).anchored n parent scale e.own.pivot) e

end
end DesignLayout
