import DesignLayout.Label.Basic
import DesignLayout.Layout.Element
import DesignLayout.Scene.Node

/-!
Scrollers made from repeated grids.

The compiled cells of a grid come front to back, the reverse of their source order. A grid of one
column scrolls vertically over the items within its first cell, or over that cell; a grid of one row
scrolls horizontally over its first cell; any other grid scrolls vertically over one item that holds
a row of cells, numbered by column. What stands directly within an item is anchored at the upper
left.
-/
namespace DesignLayout.GridMetrics

variable {α : Type}

/-- Whether an element of a cell is an item to scroll over. -/
def isItem (e : Element α) : Bool :=
  Label.hasEnding e.name.toList "Item" || Label.hasEnding e.name.toList "_item"

def columnTemplate (cells : List (Element α)) : List (Element α) :=
  match cells with
  | [] => []
  | first :: _ => match first.children.filter isItem with
    | [] => [first]
    | items => items

def numberedName (n : Nat) : String :=
  Label.gridCellName ++ "-" ++ toString n

/-- The first cells, as many as there are columns, numbered downwards to zero. -/
def row (columns : Nat) (cells : List (Element α)) : List (Element α) :=
  (cells.take columns).mapIdx fun i cell => cell.rename (numberedName (columns - i - 1))

def rowTemplate (columns : Nat) (cells : List (Element α)) : Element α :=
  .mk { kind := .group, name := Label.gridCellName } (some (row columns cells))

/-- Which way the grid scrolls, and what it scrolls over. -/
def template (g : GridMetrics α) (cells : List (Element α)) :
    ScrollDirection × List (Element α) :=
  if g.columns = 1 then (.vertical, columnTemplate cells)
  else if g.rows = 1 then (.horizontal, cells.take 1)
  else (.vertical, [rowTemplate g.columns cells])

/-- Anchors what stands directly within an item at the upper left. -/
def pinned (item : Element α) : Element α :=
  .mk item.own (item.elements.map (·.map (·.setPivot (some .leftTop))))

variable [Scalar α]

/-- Padding and spacing. `offset` is the place of the first source cell within the grid, unscaled;
`width` is the scaled draw width of the grid. -/
def scrollerLayout (g : GridMetrics α) (scroll : ScrollDirection) (offset : α × α)
    (width scale : α) : ScrollerLayout α :=
  let cellWidth := g.cellWidth * scale
  let gapX := g.paddingX * scale
  let gapY := g.paddingY * scale
  let left := offset.1 * scale
  let top := offset.2 * scale
  let used := left + (cellWidth + gapX) * Scalar.ofCount g.columns
  { scroll
    paddingLeft := some left
    paddingRight := some (if Scalar.less used width then width - used else Scalar.zero)
    paddingTop := some top
    spacing := some (match scroll with
      | .vertical => gapY
      | .horizontal => gapX) }

/-- The scroller of a grid: its layout and its items. -/
def scroller (g : GridMetrics α) (offset : α × α) (width scale : α) (cells : List (Element α)) :
    ScrollerLayout α × List (Element α) :=
  let (scroll, items) := g.template cells
  (g.scrollerLayout scroll offset width scale, items.map pinned)

end DesignLayout.GridMetrics
