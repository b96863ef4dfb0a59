import DesignLayout.Layout.Pivot

/-!
Layout elements: the nodes of a compiled layout.

An element has attributes of its own and perhaps a list of elements within it, front to back.
Positions are those of the upper left corner, seen from the centre of the export root; all lengths
are already scaled. An absent list and an empty one are different: containers always carry a list.
-/
namespace DesignLayout

inductive ScrollDirection
  | vertical
  | horizontal
  deriving DecidableEq, Repr

/-- Padding and spacing stand only in scrollers that were made from a repeated grid. -/
structure ScrollerLayout (α : Type) where
  scroll : ScrollDirection
  paddingLeft : Option α := none
  paddingRight : Option α := none
  paddingTop : Option α := none
  spacing : Option α := none

inductive TextFlow
  /-- Grows with its content from a point. -/
  | point
  /-- Keeps to a box. -/
  | paragraph
  deriving DecidableEq, Repr

structure TextContent (α : Type) where
  text : String
  flow : TextFlow
  font : String
  size : α
  /-- Six hexadecimal digits. -/
  color : String
  align : String
  visualHeight : α

inductive ElementKind (α : Type)
  | root (artboard : Bool)
  | group
  | button
  | slider
  | scrollbar
  | toggle
  | list (scroll : ScrollDirection)
  | scroller (layout : ScrollerLayout α)
  /-- The file name is without its ending. -/
  | image (file : String)
  | text (content : TextContent α)
  | richText (content : TextContent α)
  | input (content : TextContent α)

def ElementKind.typeName {α : Type} : ElementKind α → String
  | root _ => "Root"
  | group => "Group"
  | button => "Button"
  | slider => "Slider"
  | scrollbar => "Scrollbar"
  | toggle => "Toggle"
  | list _ => "List"
  | scroller _ => "Scroller"
  | image _ => "Image"
  | text _ => "Text"
  | richText _ => "TextMeshPro"
  | input _ => "Input"

/-- What an element says of itself. -/
structure Attributes (α : Type) where
  kind : ElementKind α
  name : String
  x : Option α := none
  y : Option α := none
  w : Option α := none
  h : Option α := none
  opacity : Option Nat := none
  pivot : Option Pivot := none
  stretchX : Bool := false
  stretchY : Bool := false

inductive Element (α : Type)
  | mk (own : Attributes α) (elements : Option (List (Element α)))

namespace Element

variable {α : Type}

def own : Element α → Attributes α
  | mk own _ => own

def elements : Element α → Option (List (Element α))
  | mk _ elements => elements

def name (e : Element α) : String := e.own.name

def children (e : Element α) : List (Element α) :=
  e.elements.getD []

/-- The first element directly within this one that has exactly this name. -/
def child? (e : Element α) (name : String) : Option (Element α) :=
  e.children.find? (·.name == name)

def setOwn (f : Attributes α → Attributes α) : Element α → Element α
  | mk own elements => mk (f own) elements

def rename (name : String) (e : Element α) : Element α :=
  e.setOwn ({ · with name })

def setPivot (pivot : Option Pivot) (e : Element α) : Element α :=
  e.setOwn ({ · with pivot })

@[simp] theorem own_mk (a : Attributes α) (es : Option (List (Element α))) :
    (mk a es).own = a := rfl

@[simp] theorem elements_mk (a : Attributes α) (es : Option (List (Element α))) :
    (mk a es).elements = es := rfl

@[simp] theorem own_setOwn (f : Attributes α → Attributes α) (e : Element α) :
    (e.setOwn f).own = f e.own := by
  cases e; rfl

@[simp] theorem elements_setOwn (f : Attributes α → Attributes α) (e : Element α) :
    (e.setOwn f).elements = e.elements := by
  cases e; rfl

end Element
end DesignLayout
