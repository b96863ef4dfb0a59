import DesignLayout.Geometry
import DesignLayout.Text.Quoted

/-!
Nodes of a design document, as the design tool reports them.

A node keeps its raw label, its bounds and its draw bounds, which also cover strokes and effects,
and the rules by which it follows a resize of its parent. A `Draft` is a node before it has a place
in a scene.
-/
namespace DesignLayout

/-- Handle of a node: how many nodes were in the scene before it. -/
abbrev NodeId := Nat

inductive Kind
  | artboard
  | group
  | repeatGrid
  | booleanGroup
  | symbolInstance
  | rectangle
  | ellipse
  | line
  | path
  | text
  /-- A kind that the compiler has no rule for, by the tag that was given. -/
  | other (tag : String)
  deriving DecidableEq, Repr

namespace Kind

/-- The known kinds by their tags. -/
def known : List Kind :=
  [artboard, group, repeatGrid, booleanGroup, symbolInstance, rectangle, ellipse, line, path, text]

def tag : Kind → String
  | artboard => "Artboard"
  | group => "Group"
  | repeatGrid => "RepeatGrid"
  | booleanGroup => "BooleanGroup"
  | symbolInstance => "SymbolInstance"
  | rectangle => "Rectangle"
  | ellipse => "Ellipse"
  | line => "Line"
  | path => "Path"
  | text => "Text"
  | other tag => tag

/-- A tag without hyphens, underscores and spaces, in lower case. Only ASCII letters are lowered:
no other letter has a lower case that occurs in a known tag. -/
def plainTag (tag : String) : List Char :=
  (tag.toList.filter fun c => !(c == '-' || c == '_' || c == ' ')).map Char.toLower

def ofTag (tag : String) : Kind :=
  (known.find? fun k => plainTag k.tag == plainTag tag).getD (other tag)

end Kind

/-- How a node follows a change of its parent's width. -/
inductive HorizontalConstraint
  | left
  | right
  | center
  | stretch
  deriving DecidableEq, Repr

/-- How a node follows a change of its parent's height. -/
inductive VerticalConstraint
  | top
  | bottom
  | middle
  | stretch
  deriving DecidableEq, Repr

structure Constraints where
  horizontal : HorizontalConstraint := .left
  vertical : VerticalConstraint := .top
  deriving DecidableEq, Repr

structure TextAttributes (α : Type) where
  content : String
  fontFamily : String
  fontSize : α
  /-- Alpha, red, green and blue, eight bits each. -/
  fill : Nat := 0
  align : String := "left"
  /-- The text keeps to a box instead of growing from a point. -/
  areaBox : Bool := false

/-- How the cells of a repeated grid are laid out. -/
structure GridMetrics (α : Type) where
  rows : Nat
  columns : Nat
  cellWidth : α
  cellHeight : α
  paddingX : α
  paddingY : α

structure Node (α : Type) where
  /-- The id by which the design tool knows the node. -/
  guid : String
  /-- The raw label. -/
  name : String
  kind : Kind
  parent : Option NodeId
  /-- Back to front. -/
  children : List NodeId
  bounds : Bounds α
  drawBounds : Bounds α
  marked : Bool
  constraints : Constraints
  text : Option (TextAttributes α)
  grid : Option (GridMetrics α)

structure Draft (α : Type) where
  guid : Option String := none
  name : String
  kind : Kind
  bounds : Bounds α
  drawBounds : Option (Bounds α) := none
  marked : Bool := false
  constraints : Constraints := {}
  text : Option (TextAttributes α) := none
  grid : Option (GridMetrics α) := none

/-- The id of a node that was given none: its number in at least five hexadecimal digits, and how
many bytes its label takes. -/
def generatedGuid (id : NodeId) (name : String) : String :=
  let digits := Text.hexDigits id
  String.ofList (List.replicate (5 - digits.length) '0' ++ digits) ++ "-" ++
    toString name.utf8ByteSize

def Draft.toNode {α : Type} (d : Draft α) (id : NodeId) (parent : Option NodeId) : Node α :=
  { guid := d.guid.getD (generatedGuid id d.name)
    name := d.name
    kind := d.kind
    parent
    children := []
    bounds := d.bounds
    drawBounds := d.drawBounds.getD d.bounds
    marked := d.marked
    constraints := d.constraints
    text := d.text
    grid := d.grid }

end DesignLayout
