import DesignLayout.Geometry
import DesignLayout.Layout.Pivot
import DesignLayout.Settings.Basic

/-!
How a node follows its parent, read off from its bounds before and after the parent has grown.

On each axis a node that stays where it was is anchored at the near edge; one that moves by a
positive share of the growth, up to the threshold, at the middle; any other one at the far edge. A
node that gets longer by more than the slack stretches on that axis and has no anchor there.
-/
namespace DesignLayout

structure Parameter where
  pivot : Option Pivot
  stretchX : Bool
  stretchY : Bool
  deriving DecidableEq, Repr

inductive AxisAnchor
  | near
  | middle
  | far
  deriving DecidableEq, Repr

def AxisAnchor.horizontal : AxisAnchor → HorizontalAnchor
  | near => .left
  | middle => .center
  | far => .right

def AxisAnchor.vertical : AxisAnchor → VerticalAnchor
  | near => .top
  | middle => .middle
  | far => .bottom

section

variable {α : Type} [Scalar α]

/-- The anchor of a node on one axis. `growth` is how much longer its parent has become. -/
def AxisAnchor.derive (ratio before after growth : α) : AxisAnchor :=
  if Scalar.same before after then near
  else
    let moved := after - before
    if Scalar.less Scalar.zero moved && Scalar.atMost moved (growth * ratio) then middle else far

def stretches (slack before after : α) : Bool :=
  Scalar.less (before * slack) after

def Parameter.derive (t : Thresholds α) (before after parentBefore parentAfter : Bounds α) :
    Parameter :=
  let horizontal :=
    AxisAnchor.derive t.anchorRatio before.x after.x (parentAfter.width - parentBefore.width)
  let vertical :=
    AxisAnchor.derive t.anchorRatio before.y after.y (parentAfter.height - parentBefore.height)
  let stretchX := stretches t.stretchSlack before.width after.width
  let stretchY := stretches t.stretchSlack before.height after.height
  let pivot : Pivot :=
    { horizontal := if stretchX then none else some horizontal.horizontal
      vertical := if stretchY then none else some vertical.vertical }
  { pivot := if pivot.isEmpty then none else some pivot, stretchX, stretchY }

end
end DesignLayout
