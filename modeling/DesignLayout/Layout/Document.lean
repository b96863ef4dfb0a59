import DesignLayout.Layout.Element

/-!
Layout documents: the canvas of an export root and the elements on it.
-/
namespace DesignLayout

/-- A size, and perhaps a place seen from the centre of the container. -/
structure CanvasRect (α : Type) where
  x : Option α := none
  y : Option α := none
  w : α
  h : α

structure Canvas (α : Type) where
  image : CanvasRect α
  size : CanvasRect α
  base : CanvasRect α

structure Document (α : Type) where
  version : String
  canvas : Canvas α
  root : Element α

namespace Document

def formatVersion : String := "0.6.1"

/-- The document whose image and logical size are both the size of its base. -/
def ofBase {α : Type} (base : CanvasRect α) (root : Element α) : Document α :=
  { version := formatVersion
    canvas := { image := { w := base.w, h := base.h }, size := { w := base.w, h := base.h }, base }
    root }

end Document
end DesignLayout
