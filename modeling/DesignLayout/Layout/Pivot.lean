import DesignLayout.Text.Quoted

/-!
Pivots: which edge of its parent a layout element keeps its distance to.

A pivot is written as the horizontal anchor followed by the vertical one, an absent axis being left
out: `lefttop`, `right`, `middle`. A pivot without any axis has no written form.
-/
namespace DesignLayout

inductive HorizontalAnchor
  | left
  | center
  | right
  deriving DecidableEq, Repr

inductive VerticalAnchor
  | top
  | middle
  | bottom
  deriving DecidableEq, Repr

def HorizontalAnchor.name : HorizontalAnchor → String
  | left => "left"
  | center => "center"
  | right => "right"

def VerticalAnchor.name : VerticalAnchor → String
  | top => "top"
  | middle => "middle"
  | bottom => "bottom"

structure Pivot where
  horizontal : Option HorizontalAnchor
  vertical : Option VerticalAnchor
  deriving DecidableEq, Repr

/-- The text that was refused as a pivot. -/
structure PivotError where
  given : String
  deriving DecidableEq, Repr

def PivotError.message (e : PivotError) : String :=
  "invalid pivot: " ++ Text.quoted e.given

namespace Pivot

/-- The fixed anchor of what stands in the cells of a repeated grid. -/
def leftTop : Pivot := ⟨some .left, some .top⟩

def isEmpty (p : Pivot) : Bool :=
  p.horizontal.isNone && p.vertical.isNone

def chars (p : Pivot) : List Char :=
  (p.horizontal.map (·.name.toList)).getD [] ++ (p.vertical.map (·.name.toList)).getD []

def render (p : Pivot) : String :=
  String.ofList p.chars

/-- The text after an anchor's name, if it begins with it. -/
def after? (name : String) (cs : List Char) : Option (List Char) :=
  if name.toList.isPrefixOf cs then some (cs.drop name.toList.length) else none

/-- The horizontal anchor that a text begins with, and the rest. -/
def splitHorizontal (cs : List Char) : Option HorizontalAnchor × List Char :=
  ([.left, .center, .right].findSome? fun h : HorizontalAnchor =>
    (after? h.name cs).map (some h, ·)).getD (none, cs)

def vertical? (cs : List Char) : Option (Option VerticalAnchor) :=
  if cs = [] then some none
  else ([.top, .middle, .bottom].find? fun v : VerticalAnchor => v.name.toList == cs).map some

def ofChars? (cs : List Char) : Option Pivot := do
  let (horizontal, rest) := splitHorizontal cs
  let p : Pivot := ⟨horizontal, ← vertical? rest⟩
  if p.isEmpty then none else some p

def parse (s : String) : Except PivotError Pivot :=
  match ofChars? s.toList with
  | some p => .ok p
  | none => .error ⟨s⟩

end Pivot
end DesignLayout
