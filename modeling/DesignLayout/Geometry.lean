import DesignLayout.Scalar

/-!
Rectangles in the coordinates of the design canvas: `y` grows downwards, and the origin of a
rectangle is its upper left corner.
-/
namespace DesignLayout

structure Bounds (α : Type) where
  x : α
  y : α
  width : α
  height : α
  deriving DecidableEq, Repr

namespace Bounds

variable {α : Type} [Scalar α]

def scaled (b : Bounds α) (scale : α) : Bounds α :=
  ⟨b.x * scale, b.y * scale, b.width * scale, b.height * scale⟩

def centerX (b : Bounds α) : α := b.x + Scalar.half b.width

def centerY (b : Bounds α) : α := b.y + Scalar.half b.height

def moved (b : Bounds α) (dx dy : α) : Bounds α :=
  { b with x := b.x + dx, y := b.y + dy }

/-- Equal in all four numbers. -/
def same (a b : Bounds α) : Bool :=
  Scalar.same a.x b.x && Scalar.same a.y b.y && Scalar.same a.width b.width &&
    Scalar.same a.height b.height

/-- Follows a change from `old` to `new` of another rectangle, number by number. -/
def following (b old new : Bounds α) : Bounds α :=
  ⟨b.x + (new.x - old.x), b.y + (new.y - old.y),
   b.width + (new.width - old.width), b.height + (new.height - old.height)⟩

end Bounds
end DesignLayout
